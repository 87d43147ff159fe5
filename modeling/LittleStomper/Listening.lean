/-
# Backends that keep listening

The callback of an `Unsubscribe` is given the client's id of the subscription removed.  If
there is no such subscription any more it is given none, the proxy's `expect` panics, and
the backend with it: the destination is dead for everybody.

A session queues `Unsubscribe` by its table, which a later callback updates.  So it may
queue a second one for the same subscription, and a `Send` may prune the subscription of a
session that ended.  `orderly` is the condition on a step under which neither happens.
In a run that keeps it no backend ever panics or stops (`keeps_listening`).
-/
import LittleStomper.Provenance
import LittleStomper.Wire

open Obs

namespace DestinationAction

variable {κ : Type}

/-- The subscription an action unsubscribes. -/
def unsubscribed? : DestinationAction κ → Option SubscriptionId
  | unsubscribe s _ => some s
  | _ => none

theorem unsubscribed?_eq_some {a : DestinationAction κ} {s : SubscriptionId} :
    a.unsubscribed? = some s ↔ ∃ k, a = .unsubscribe s k := by
  cases a <;> simp [unsubscribed?]

end DestinationAction

open DestinationAction

namespace World

variable {p : Params} {w w' : World} {l : Label} {tr os : List Obs}

/-- The destination `d` holds `s`, and no `Unsubscribe` for it waits there. -/
def holdsFreely (w : World) (d : DestinationId) (s : SubscriptionId) : Bool :=
  match w.destinations d with
  | some D => (D.backend.subscriptions.lookup s).isSome &&
      D.mailbox.queue.all fun a => a.unsubscribed? ≠ some s
  | none => false

/-- None of the subscriptions held that belong to a session which is over has an
`Unsubscribe` in `q`. -/
def prunesFreely (w : World) (D : InMemDestination ProxyBox)
    (q : List (DestinationAction ProxyBox)) : Bool :=
  (D.backend.values D.backend.subscriptions.keys).all fun sub =>
    (w.sessions sub.sendFn.session).isOpen || q.all fun a => a.unsubscribed? ≠ some sub.id

/-- **The condition of a step that endangers no backend**: nobody closes a destination; an
UNSUBSCRIBE is handled only while the backend holds the subscription and no `Unsubscribe`
for it waits; a `Send` is taken only while no `Unsubscribe` waits for a subscription
that it is going to prune. -/
def orderly (p : Params) (w : World) : Label → Bool
  | .close _ => false
  | .session c input =>
      match w.sessions c, Session.next? p (w.sessions c) input with
      | .running r, some (.clientFrame (.ok (.unsubscribe i))) =>
          match r.activeSubscriptionsByClientId ⟨i⟩ with
          | some (d, s) => w.holdsFreely d s
          | none => true
      | _, _ => true
  | .backend d _ _ =>
      match w.destinations d with
      | some D =>
          match D.mailbox.queue with
          | .send _ _ :: q => w.prunesFreely D q
          | _ => true
      | none => true
  | _ => true

/-- The invariant: every backend listens and will never be asked to close, and every
`Unsubscribe` that waits is for a subscription held, no two for the same. -/
structure Unhurt (D : InMemDestination ProxyBox) : Prop where
  listening : D.mailbox.isListening = true
  open_ : .close ∉ D.mailbox.queue
  valid : ∀ s k, .unsubscribe s k ∈ D.mailbox.queue →
    (D.backend.subscriptions.lookup s).isSome = true
  once : (D.mailbox.queue.filterMap unsubscribed?).Nodup

/-- A session unsubscribes what is held freely. -/
theorem holdsFreely_of_caller {d : DestinationId} {s : SubscriptionId} {k : ProxyBox}
    (hC : orderly p w l = true) (h : Caller p w d l w' os (.unsubscribe s k)) :
    w.holdsFreely d s = true := by
  cases h with
  | @session c input s' sos call _ hl hturn hcall haction hdispatched htasks =>
      obtain ⟨r, -, -, frame, hrun, hnext, -, -, hev⟩ := handles_of_callOf hturn hcall
      cases call with
      | unsubscribe d' s'' =>
          simp only [actionOf, Option.some.injEq, Prod.mk.injEq,
            DestinationAction.unsubscribe.injEq]
            at haction
          obtain ⟨rfl, rfl, -⟩ := haction
          cases frame with
          | unsubscribe i =>
              rw [ClientEvent.call?, Option.map_eq_some_iff] at hev
              obtain ⟨⟨d₁, s₁⟩, hentry, heq⟩ := hev
              obtain ⟨rfl, rfl⟩ := DestinationCall.unsubscribe.inj heq
              rw [hrun] at hnext
              simp only [hl, orderly, hrun, hnext, hentry] at hC
              exact hC
          | send d' body => cases body <;> simp [ClientEvent.call?] at hev
          | _ => simp [ClientEvent.call?] at hev
      | _ => simp [actionOf] at haction

/-- No call made on a destination is a `Close`. -/
theorem ne_close_of_caller {d : DestinationId} {a : DestinationAction ProxyBox}
    (hC : orderly p w l = true) (h : Caller p w d l w' os a) : a ≠ .close := by
  cases h with
  | session hl hturn hcall haction hdispatched htasks =>
      exact (ne_subscribe_of_actionOf haction).2
  | task htask hdest htasks => simp
  | close hl htasks =>
      subst hl
      cases hC

/-- After a `Send`, an `Unsubscribe` that still waits is for a subscription still held. -/
theorem isSome_lookup_send (hprov : Provenance w tr) {d : DestinationId}
    {D : InMemDestination ProxyBox} (hD : w.destinations d = some D) {message : InboundMessage}
    {k : ProxyBox} {q : List (DestinationAction ProxyBox)} (hC : w.prunesFreely D q = true)
    {uuid : String} {order : List SubscriptionId}
    (horder : order.Perm D.backend.subscriptions.keys) {s : SubscriptionId} {k' : ProxyBox}
    (hwaits : .unsubscribe s k' ∈ q)
    (hs : (D.backend.subscriptions.lookup s).isSome = true) :
    ((D.backend.perform w.reply uuid order (.send message k)).1.subscriptions.lookup s).isSome
      = true := by
  obtain ⟨sub, hsub⟩ := Option.isSome_iff_exists.mp hs
  have hkeyed := hprov.keyed hD
  have hvalues : ∀ sub ∈ D.backend.values order,
      w.reply (sub.send (D.backend.outMessage uuid message)) ≠ .panic := by
    intro sub hsub
    obtain ⟨id, hid⟩ := (InMemDestinationBackend.mem_values _ horder).mp hsub
    exact hprov.send_ne_panic hD hid _
  rw [InMemDestinationBackend.lookup_perform_send _ _ _ _ _ _ _ hvalues, if_neg, hsub]
  · rfl
  · -- its session is open, so its own `send` succeeds
    rw [hkeyed.mem_deadOf horder hsub]
    have hfree := List.all_eq_true.mp hC sub
      ((InMemDestinationBackend.mem_values _ (List.Perm.refl _)).mpr ⟨s, hsub⟩)
    obtain ⟨i, hi⟩ := Option.isSome_iff_exists.mp (hprov.subId hD hsub)
    rcases Bool.or_eq_true_iff.mp hfree with hopen | hnone
    · simp [Subscription.send, reply, hi, hopen]
    · have hno := List.all_eq_true.mp hnone _ hwaits
      simp [unsubscribed?, hkeyed s sub hsub] at hno

/-- An action that an orderly caller enqueues hurts no backend. -/
theorem Unhurt.queued {d : DestinationId} {D : InMemDestination ProxyBox}
    {a : DestinationAction ProxyBox} {m : Mailbox (DestinationAction ProxyBox)} (hold : Unhurt D)
    (hC : orderly p w l = true) (hdest : w.destinations d = some D)
    (hsend : D.mailbox.send a = some m) (hcaller : Caller p w d l w' os a) :
    Unhurt ⟨D.backend, m⟩ := by
  have hqueue : m.queue = D.mailbox.queue ++ [a] := Mailbox.queue_send hsend
  refine ⟨?_, ?_, fun s k hin => ?_, ?_⟩
  · rw [show (m : Mailbox _).isListening = _ from Mailbox.isListening_send hsend]
    exact hold.listening
  · rw [hqueue, List.mem_append, List.mem_singleton, not_or]
    exact ⟨hold.open_, (ne_close_of_caller hC hcaller).symm⟩
  · rw [hqueue, List.mem_append, List.mem_singleton] at hin
    rcases hin with hin | rfl
    · exact hold.valid s k hin
    · have hfree := holdsFreely_of_caller hC hcaller
      rw [holdsFreely, hdest] at hfree
      exact (Bool.and_eq_true_iff.mp hfree).1
  · rw [hqueue, List.filterMap_append, List.nodup_append]
    refine ⟨hold.once, ?_, ?_⟩
    · cases hu : a.unsubscribed? <;> simp [hu]
    · intro s hs s' hs' heq
      subst heq
      have hu : a.unsubscribed? = some s := by simpa using hs'
      obtain ⟨k, rfl⟩ := unsubscribed?_eq_some.mp hu
      obtain ⟨a', ha', hs⟩ := List.mem_filterMap.mp hs
      have hfree := holdsFreely_of_caller hC hcaller
      rw [holdsFreely, hdest] at hfree
      have hno := List.all_eq_true.mp (Bool.and_eq_true_iff.mp hfree).2 a' ha'
      simp [hs] at hno

/-- What waits behind an action is still for a subscription held when that is performed. -/
theorem Unhurt.valid_perform {d : DestinationId} {D : InMemDestination ProxyBox}
    {a : DestinationAction ProxyBox} {q : List (DestinationAction ProxyBox)} {uuid : String}
    {order : List SubscriptionId} (hold : Unhurt D) (hprov : Provenance w tr)
    (hC : orderly p w (.backend d uuid order) = true) (hdest : w.destinations d = some D)
    (horder : order.Perm D.backend.subscriptions.keys) (hmail : D.mailbox = .listening (a :: q))
    (hclose : a ≠ .close) {s : SubscriptionId} {k : ProxyBox} (hin : .unsubscribe s k ∈ q) :
    ((D.backend.perform w.reply uuid order a).1.subscriptions.lookup s).isSome = true := by
  have hqueue : D.mailbox.queue = a :: q := by rw [hmail]; rfl
  have hs := hold.valid s k (hqueue ▸ List.mem_cons_of_mem _ hin)
  cases a with
  | subscribe sub k' =>
      rw [InMemDestinationBackend.lookup_perform_subscribe]
      split_ifs with hnew
      · rfl
      · exact hs
  | unsubscribe s' k' =>
      have honce := hold.once
      rw [hqueue, List.filterMap_cons_some (f := unsubscribed?) rfl, List.nodup_cons] at honce
      rw [InMemDestinationBackend.lookup_perform_unsubscribe, if_neg]
      · exact hs
      · rintro rfl
        exact honce.1 (List.mem_filterMap.mpr ⟨_, hin, rfl⟩)
  | send message k' =>
      simp only [orderly, hdest, hqueue] at hC
      exact isSome_lookup_send hprov hdest hC horder hin hs
  | close => exact absurd rfl hclose

/-- **A backend that is not hurt performs an action**: it goes on, and every call it makes
carries the client's subscription id. -/
theorem Unhurt.performed {d : DestinationId} {D : InMemDestination ProxyBox}
    {a : DestinationAction ProxyBox} {q : List (DestinationAction ProxyBox)} {uuid : String}
    {order : List SubscriptionId} (hold : Unhurt D) (hprov : Provenance w tr)
    (hC : orderly p w (.backend d uuid order) = true) (hdest : w.destinations d = some D)
    (horder : order.Perm D.backend.subscriptions.keys) (hmail : D.mailbox = .listening (a :: q))
    (hclose : a ≠ .close) :
    Unhurt (InMemDestination.settle (.listening q) w.reply
        (D.backend.perform w.reply uuid order a)) ∧
      ∀ i ∈ (D.backend.perform w.reply uuid order a).2, i.lacksSubId = false := by
  have hheld : ∀ s k, a = .unsubscribe s k →
      (D.backend.subscriptions.lookup s).isSome = true := by
    rintro s k rfl
    exact hold.valid s k (Mailbox.head_mem_queue hmail)
  have hqueue : D.mailbox.queue = a :: q := by rw [hmail]; rfl
  have hgoes : (InMemDestination.settle (.listening q) w.reply
      (D.backend.perform w.reply uuid order a)).mailbox = .listening q :=
    hprov.settle_listening hdest hmail horder hheld
  refine ⟨⟨?_, ?_, fun s k hin => ?_, ?_⟩, fun i hi =>
    (hprov.reply_ne_panic hdest hmail horder hheld hi).2⟩
  · rw [hgoes]
    rfl
  · rw [hgoes]
    exact fun hin => hold.open_ (hqueue ▸ List.mem_cons_of_mem _ hin)
  · rw [hgoes, Mailbox.queue_listening] at hin
    rw [InMemDestination.settle_backend]
    exact hold.valid_perform hprov hC hdest horder hmail hclose hin
  · rw [hgoes]
    have honce := hold.once
    rw [hqueue] at honce
    exact (List.Sublist.filterMap unsubscribed? (List.sublist_cons_self a q)).nodup honce

/-- **An orderly step hurts no backend.** -/
theorem AtDestination.unhurt {d : DestinationId} (h : AtDestination p w d l w' os)
    (hprov : Provenance w tr) (hC : orderly p w l = true)
    (hunhurt : ∀ D, w.destinations d = some D → Unhurt D) :
    (∀ D', w'.destinations d = some D' → Unhurt D') ∧
      ∀ i reply, .invoked i reply ∈ atDestination d os → i.lacksSubId = false := by
  cases h with
  | still hdest hos =>
      refine ⟨fun D' hD' => hunhurt D' (hdest ▸ hD'), fun i reply hin => ?_⟩
      rw [hos] at hin
      simp at hin
  | created hl hdest hdest' hos =>
      refine ⟨fun D' hD' => ?_, fun i reply hin => ?_⟩
      · obtain rfl := Option.some.inj (hD'.symm.trans hdest')
        exact ⟨rfl, by simp [InMemDestination.create], by simp [InMemDestination.create],
          List.nodup_nil⟩
      · rw [hos] at hin
        simp [atDestination] at hin
  | @accepted D a m hdest hsend hdest' hos hcaller =>
      refine ⟨fun D' hD' => ?_, fun i reply hin => ?_⟩
      · obtain rfl := Option.some.inj (hD'.symm.trans hdest')
        exact (hunhurt D hdest).queued hC hdest hsend hcaller
      · rw [hos] at hin
        simp at hin
  | @refused D a w₁ hdest hgone hdest' hos hcaller =>
      have hlistening := (hunhurt D hdest).listening
      rw [Mailbox.isListening_of_isGone hgone] at hlistening
      cases hlistening
  | @closed D uuid order q hl hdest fresh huuids hmail hdest' hos =>
      exact absurd (Mailbox.head_mem_queue hmail) (hunhurt D hdest).open_
  | @performed D uuid order a q hl hdest fresh huuids horder hmail hclose hdest' hos =>
      subst hl
      obtain ⟨hunhurt', hcalls⟩ :=
        (hunhurt D hdest).performed hprov hC hdest horder hmail hclose
      refine ⟨fun D' hD' => ?_, fun i reply hin => ?_⟩
      · obtain rfl := Option.some.inj (hD'.symm.trans hdest')
        exact hunhurt'
      · rw [hos] at hin
        simp only [List.mem_cons, InMemDestination.observe, List.mem_map,
          DestinationObs.invoked.injEq, reduceCtorEq, false_or] at hin
        obtain ⟨i', hi', rfl, -⟩ := hin
        exact hcalls i' hi'
  | @finished D q hdest hmail hdest' hos =>
      have hlistening := (hunhurt D hdest).listening
      rw [hmail] at hlistening
      cases hlistening

/-- No backend has panicked or stopped, and every call made on a proxy carried the client's
subscription id. -/
structure KeepsListening (w : World) (tr : List Obs) : Prop where
  listening : ∀ d D, w.destinations d = some D → D.mailbox.isListening = true
  named : ∀ d i reply, destination d (.invoked i reply) ∈ tr → i.lacksSubId = false

/-- **Backends keep listening**: in every run whose steps are all orderly no backend panics
or stops, and every call on a proxy carries the client's subscription id. -/
theorem keeps_listening {ls : List Label}
    (h : (lts p).Run (fun w l => orderly p w l = true) initial ls tr w) : KeepsListening w tr := by
  have hinv : (∀ d D, w.destinations d = some D → Unhurt D) ∧
      ∀ d i reply, destination d (.invoked i reply) ∈ tr → i.lacksSubId = false := by
    refine h.invariant (P := fun w tr => (∀ d D, w.destinations d = some D → Unhurt D) ∧
      ∀ d i reply, destination d (.invoked i reply) ∈ tr → i.lacksSubId = false)
      ⟨by simp [initial], by simp⟩ ?_
    intro ls tr os w w' l hrun ih hC hstep
    have hturn := turn_of_step hstep
    have hprov := provenance hrun
    refine ⟨fun d => ((hturn.atDestination d).unhurt hprov hC (ih.1 d)).1, ?_⟩
    intro d i reply hin
    rcases List.mem_append.mp hin with hin | hin
    · exact ih.2 d i reply hin
    · exact ((hturn.atDestination d).unhurt hprov hC (ih.1 d)).2 i reply (mem_atDestination.mpr hin)
  exact ⟨fun d D hD => (hinv.1 d D hD).listening, hinv.2⟩

/-- The theorem applied to a client that waits for its subscription before it unsubscribes. -/
theorem keeps_listening_unsubscribe :
    let p := sampleParams []
    let ls := Label.subscribed ++
      [.frame 0 sampleUnsubscribe, .backend sampleDestination "uuid-1" [⟨"uuid-0"⟩]]
    ∃ tr w, (lts p).Run (fun w l => orderly p w l = true) initial ls tr w ∧
      KeepsListening w tr := by
  intro p ls
  have hrun := LTS.Run.exec_get (lts p) (fun w l => orderly p w l = true) initial ls (by decide)
  exact ⟨_, _, hrun, keeps_listening hrun⟩

/-- Nobody closes a destination. -/
def neverCloses : Label → Bool
  | .close _ => false
  | _ => true

/-- **A client can kill a backend**: of two UNSUBSCRIBE frames sent one behind the other, both
are queued as `Unsubscribe`, and the second finds nothing. -/
theorem unsubscribing_twice_panics :
    ¬ ∀ (p : Params) (ls : List Label) (tr : List Obs) (w : World),
      (lts p).Run (fun _ l => neverCloses l = true) initial ls tr w → KeepsListening w tr := by
  intro hall
  let p := sampleParams []
  let ls := Label.subscribed ++
    [.frame 0 sampleUnsubscribe, .frame 0 sampleUnsubscribe,
      .backend sampleDestination "uuid-1" [⟨"uuid-0"⟩], .backend sampleDestination "uuid-2" []]
  have hrun := LTS.Run.exec_get (lts p) (fun _ l => neverCloses l = true) initial ls (by decide)
  have hsub := (hall p ls _ _ hrun).named sampleDestination
    (.unsubscribeCallback ⟨0, 2⟩ none (.ok ⟨"uuid-0"⟩)) .panic (by decide)
  cases hsub

end World
