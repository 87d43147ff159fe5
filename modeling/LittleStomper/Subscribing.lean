/-
# What becomes of a SUBSCRIBE

A SUBSCRIBE frame is on its way in two places before the backend creates a subscription:
as a spawned task, and as an action in the destination's queue.  From both it can get
lost.  The handle of a destination that is gone answers with an error, which the session
drops without a word to its client; and what is queued at a backend that leaves its loop,
or panics, is never answered at all.

`attentive` is the condition on a step under which neither happens.  In a run that keeps
it no SUBSCRIBE fails silently (`none_silent`).
-/
import LittleStomper.ErrorFrames
import LittleStomper.Ownership

open Obs Trace

/-! ## Frames and calls -/

/-- The destination and the client's id of a SUBSCRIBE frame. -/
def ClientEvent.subscribing? : ClientEvent → Option (DestinationId × SubscriptionId)
  | .clientFrame (.ok (.subscribe d i)) => some (⟨d⟩, ⟨i⟩)
  | _ => none

/-- The destination and the client's id of a subscribe call. -/
def DestinationCall.subscribing? : DestinationCall → Option (DestinationId × SubscriptionId)
  | .subscribe d (some i) => some (d, i)
  | _ => none

namespace Obs

/-- The SUBSCRIBE frames that the session `c` has handled. -/
def subscribeFrames (c : SessionId) (tr : List Obs) : List (DestinationId × SubscriptionId) :=
  (handledBy c tr).filterMap ClientEvent.subscribing?

/-- A SUBSCRIBE frame that was handled is among them. -/
theorem mem_subscribeFrames {c : SessionId} {tr : List Obs} {d i : String}
    (h : session c (.handled (.clientFrame (.ok (.subscribe d i)))) ∈ tr) :
    (⟨d⟩, ⟨i⟩) ∈ subscribeFrames c tr :=
  List.mem_filterMap.mpr ⟨_, mem_handledBy.mpr h, rfl⟩

/-- A subscribe call of the session `c`, with its box. -/
def subscribeCall? (c : SessionId) : Obs → Option (ProxyBox × DestinationId × SubscriptionId)
  | dispatched k call => if k.session = c then call.subscribing?.map fun f => (k, f) else none
  | _ => none

/-- The subscribe calls that the session `c` has made. -/
def subscribeCalls (c : SessionId) (tr : List Obs) :
    List (ProxyBox × DestinationId × SubscriptionId) :=
  tr.filterMap (subscribeCall? c)

/-- A backend takes a `Subscribe`. -/
def takesSubscribe : Obs → Bool
  | destination _ (.took (.subscribe _ _) _) => true
  | _ => false

/-- The subscribe calls among the observations. -/
theorem mem_subscribeCalls {c : SessionId} {tr : List Obs} {k : ProxyBox} {d : DestinationId}
    {i : SubscriptionId} : (k, d, i) ∈ subscribeCalls c tr ↔
      dispatched k (.subscribe d (some i)) ∈ tr ∧ k.session = c := by
  simp only [subscribeCalls, List.mem_filterMap]
  constructor
  · rintro ⟨o, ho, heq⟩
    cases o with
    | dispatched k' call =>
        simp only [subscribeCall?, Option.ite_none_right_eq_some, Option.map_eq_some_iff,
          Prod.mk.injEq] at heq
        obtain ⟨hc, ⟨d', i'⟩, hcall, rfl, rfl, rfl⟩ := heq
        refine ⟨?_, hc⟩
        unfold DestinationCall.subscribing? at hcall
        split at hcall
        · obtain ⟨rfl, rfl⟩ := Prod.mk.inj (Option.some.inj hcall)
          exact ho
        · cases hcall
    | _ => simp [subscribeCall?] at heq
  · rintro ⟨ho, hc⟩
    exact ⟨_, ho, by simp [subscribeCall?, hc, DestinationCall.subscribing?]⟩

end Obs

/-- Only SUBSCRIBE frames lead to subscribe calls. -/
theorem ClientEvent.subscribing?_call? (T : ActiveSubscriptions) (e : ClientEvent) :
    (e.call? T).bind DestinationCall.subscribing? = e.subscribing? := by
  cases e with
  | clientFrame result =>
      cases result with
      | error err => rfl
      | ok frame =>
          cases frame with
          | send d body => cases body <;> rfl
          | unsubscribe i => cases hentry : T ⟨i⟩ <;> simp [call?, hentry] <;> rfl
          | _ => rfl
  | _ => rfl

/-- **A SUBSCRIBE frame is a subscribe call**, in every step of a session. -/
theorem Session.Turn.subscribing {p : Params} {s s' : Session} {input : SessionInput}
    {sos : List SessionObs} (h : Session.Turn p s input s' sos) :
    (sos.filterMap SessionObs.handled?).filterMap ClientEvent.subscribing?
      = ((World.callOf sos).bind DestinationCall.subscribing?).toList := by
  have hhandles : ∀ {r : ClientSession} {resetFails : Bool} {e : ClientEvent},
      Session.Handles p r resetFails e s' sos →
      (sos.filterMap SessionObs.handled?).filterMap ClientEvent.subscribing?
        = ((World.callOf sos).bind DestinationCall.subscribing?).toList := by
    intro r resetFails e hr
    rw [hr.handled, World.callOf_handles hr, ClientEvent.subscribing?_call?]
    cases hframe : e.subscribing? <;> simp [hframe]
  cases h with
  | client h => exact hhandles h
  | own hevents h => exact hhandles h
  | heartbeat hheartbeat h => exact hhandles h
  | _ => rfl

namespace World

variable {p : Params} {w w' : World} {l : Label} {tr os : List Obs}

@[simp] theorem subscribeCalls_append (c : SessionId) (tr os : List Obs) :
    subscribeCalls c (tr ++ os) = subscribeCalls c tr ++ subscribeCalls c os :=
  List.filterMap_append

theorem subscribeCalls_cons (c : SessionId) (o : Obs) (os : List Obs) :
    subscribeCalls c (o :: os) = (subscribeCall? c o).toList ++ subscribeCalls c os := by
  rw [subscribeCalls, List.filterMap_cons]
  cases subscribeCall? c o <;> rfl

@[simp] theorem subscribeFrames_append (c : SessionId) (tr os : List Obs) :
    subscribeFrames c (tr ++ os) = subscribeFrames c tr ++ subscribeFrames c os := by
  simp [subscribeFrames]

@[simp] theorem subscribeCalls_map_session (c c' : SessionId) (sos : List SessionObs) :
    subscribeCalls c (sos.map (.session c')) = [] := by
  simp [subscribeCalls, List.filterMap_map, Function.comp_def, subscribeCall?]

@[simp] theorem subscribeCalls_map_destination (c : SessionId) (d : DestinationId)
    (os : List (DestinationObs ProxyBox)) : subscribeCalls c (os.map (.destination d)) = [] := by
  simp [subscribeCalls, List.filterMap_map, Function.comp_def, subscribeCall?]

@[simp] theorem subscribeFrames_map_destination (c : SessionId) (d : DestinationId)
    (os : List (DestinationObs ProxyBox)) : subscribeFrames c (os.map (.destination d)) = [] := by
  simp [subscribeFrames]

/-- **The SUBSCRIBE frames and the subscribe calls of a step**: none, or one of each. -/
theorem Turn.subscribes (h : Turn p w l w' os) (c : SessionId) :
    subscribeCalls c os = [] ∧ subscribeFrames c os = [] ∨
      ∃ f, subscribeCalls c os = [(⟨c, w.boxes⟩, f)] ∧ subscribeFrames c os = [f] := by
  -- a session moves, and its call is observed in `rest`
  have hmove : ∀ {c' : SessionId} {input : SessionInput} {s : Session} {sos : List SessionObs}
      {rest : List Obs}, Session.Turn p (w.sessions c') input s sos →
      os = sos.map (.session c') ++ rest → Obs.atSession c rest = [] →
      subscribeCalls c rest = (if c' = c then
        ((callOf sos).bind DestinationCall.subscribing?).map fun f => (⟨c', w.boxes⟩, f)
        else none).toList →
      subscribeCalls c os = [] ∧ subscribeFrames c os = [] ∨
        ∃ f, subscribeCalls c os = [(⟨c, w.boxes⟩, f)] ∧ subscribeFrames c os = [f] := by
    intro c' input s sos rest hturn hos hrest hcalls
    have hframes : subscribeFrames c os = ((if c' = c then sos else []).filterMap
        SessionObs.handled?).filterMap ClientEvent.subscribing? := by
      rw [hos, subscribeFrames, handledBy, atSession_append, atSession_map_session, hrest,
        List.append_nil]
    rw [hframes, hos, subscribeCalls_append, subscribeCalls_map_session, List.nil_append, hcalls]
    split_ifs with hc
    · subst hc
      rw [hturn.subscribing]
      cases (callOf sos).bind DestinationCall.subscribing? with
      | none => exact Or.inl ⟨rfl, rfl⟩
      | some f => exact Or.inr ⟨f, rfl, rfl⟩
    · exact Or.inl ⟨rfl, rfl⟩
  have hnot : ∀ {k : ProxyBox} {call : DestinationCall} {d : DestinationId}
      {a : DestinationAction ProxyBox}, actionOf k call = some (d, a) →
      call.subscribing? = none := by
    intro k call d a haction
    cases call with
    | subscribe d' sub => cases haction
    | _ => rfl
  cases h with
  | session hturn hinput hcall =>
      exact hmove hturn (List.append_nil _).symm rfl (by simp [hcall, subscribeCalls])
  | @spawned c' _ _ sos d sub hturn hinput hcall =>
      refine hmove hturn rfl rfl ?_
      rw [hcall]
      by_cases hc : c' = c
      · cases sub <;> simp [subscribeCalls, subscribeCall?, DestinationCall.subscribing?, hc]
      · simp [subscribeCalls, subscribeCall?, hc]
  | @unknown c' _ _ sos call d a hturn hinput hcall haction hdest =>
      have hnone := hnot haction
      refine hmove hturn rfl (by cases call <;> rfl) ?_
      cases call <;> simp [hcall, hnone, subscribeCalls, subscribeCall?, World.unknown]
  | enqueued hturn hinput hcall haction hdest hsend =>
      refine hmove hturn rfl rfl ?_
      simp [hcall, hnot haction, subscribeCalls, subscribeCall?]
  | refused os' hturn hinput hcall haction hdest hgone hos =>
      refine hmove hturn rfl (atSession_map_destination _ _ _) ?_
      rw [subscribeCalls_cons, subscribeCalls_map_destination, hcall]
      simp [subscribeCall?, hnot haction]
  | created htask hdest => exact Or.inl ⟨rfl, rfl⟩
  | subscribeRefused os htask hfind hdest hgone hos => exact Or.inl ⟨by simp, by simp⟩
  | performed os hdest fresh horder hmail hclose hos => exact Or.inl ⟨by simp, by simp⟩
  | _ => exact Or.inl ⟨rfl, rfl⟩

/-! ## The condition -/

/-- The action ends the loop of the backend: a `Close`, or an `Unsubscribe` for nothing. -/
def stops (D : InMemDestination ProxyBox) : DestinationAction ProxyBox → Bool
  | .close => true
  | .unsubscribe s _ => (D.backend.subscriptions.lookup s).isNone
  | _ => false

/-- The action is a `Subscribe` of a session that still runs. -/
def isAwaited (w : World) : DestinationAction ProxyBox → Bool
  | .subscribe _ k => (w.sessions k.session).isOpen
  | _ => false

/-- **The condition of a step that loses no SUBSCRIBE**: a task of a running session calls
`subscribe` while its destination's backend listens, and a backend takes an action that
ends its loop only while no `Subscribe` of a running session waits behind it. -/
def attentive (w : World) : Label → Bool
  | .subscribe box =>
      match w.tasks.find? fun t => t.subscriber.box = box with
      | some t => !(w.sessions t.subscriber.session).isOpen ||
          (w.destinations t.destination).all fun D => D.mailbox.isListening
      | none => true
  | .backend d _ _ =>
      match w.destinations d with
      | some D =>
          match D.mailbox.queue with
          | a :: q => !stops D a || q.all fun a' => !w.isAwaited a'
          | [] => true
      | none => true
  | _ => true

/-- Where a subscribe call is that did not get lost. -/
inductive Underway (w : World) (tr : List Obs) (d : DestinationId) (i : SubscriptionId)
    (k : ProxyBox) : Prop
  /-- The session is over, and nobody waits for it. -/
  | ended (hended : w.sessions k.session = .ended)
  /-- It is a spawned task. -/
  | spawned (htask : ⟨d, some i, k⟩ ∈ w.tasks)
  /-- It waits in the queue of a backend that listens. -/
  | queued {D : InMemDestination ProxyBox} (hdest : w.destinations d = some D)
      (hlistening : D.mailbox.isListening = true)
      (hqueue : .subscribe (some i) k ∈ D.mailbox.queue)
  /-- The backend has created its subscription. -/
  | created {s : SubscriptionId} (hcreated : Created tr d s i k)

/-- A task that was spawned for a running session is accepted. -/
theorem Underway.step_task {d : DestinationId} {i : SubscriptionId} {k : ProxyBox}
    (hC : attentive w l = true) (hcalls : Calls w tr) (hturn : Turn p w l w' os)
    (htask : (⟨d, some i, k⟩ : SubscribeTask) ∈ w.tasks) : Underway w' (tr ++ os) d i k := by
  rcases hturn.task_cases htask with htask | ⟨rfl, hfind, D, hdest, hcase⟩
  · exact Underway.spawned htask
  · cases hopen : (w.sessions k.session).isOpen with
    | false => exact Underway.ended (hturn.ended (hcalls.ended (hcalls.task _ htask) hopen))
    | true =>
        have hlistening : D.mailbox.isListening = true := by
          simpa [attentive, hfind, hdest, hopen] using hC
        rcases hcase with ⟨m, hsend, hdest', -⟩ | ⟨hgone, -⟩
        · refine Underway.queued hdest' ?_ ?_
          · exact (Mailbox.isListening_send hsend).trans hlistening
          · show _ ∈ m.queue
            rw [Mailbox.queue_send hsend]
            exact List.mem_append_right _ List.mem_cons_self
        · rw [Mailbox.isListening_of_isGone hgone] at hlistening
          cases hlistening

/-- A `Subscribe` that waits at a listening backend is taken sooner or later, or its session
ends before the backend does. -/
theorem Underway.step_queue {d : DestinationId} {i : SubscriptionId} {k : ProxyBox}
    (hC : attentive w l = true) (hprov : Provenance w tr) (hturn : Turn p w l w' os)
    {D : InMemDestination ProxyBox} (hdest : w.destinations d = some D)
    (hlistening : D.mailbox.isListening = true)
    (hqueue : .subscribe (some i) k ∈ D.mailbox.queue) : Underway w' (tr ++ os) d i k := by
  have hissued : dispatched k (.subscribe d (some i)) ∈ tr := hprov.queued d D hdest _ hqueue
  -- behind an action that ends the loop only the sessions that are over wait
  have hbehind : ∀ {uuid order a q}, l = .backend d uuid order → D.mailbox.queue = a :: q →
      .subscribe (some i) k ∈ q → stops D a = true → Underway w' (tr ++ os) d i k := by
    intro uuid order a q hl hq hin hstops
    subst hl
    have hall : ∀ a' ∈ q, w.isAwaited a' = false := by
      simpa [attentive, hdest, hq, hstops] using hC
    exact Underway.ended (hturn.ended (hprov.toCalls.ended hissued (hall _ hin)))
  cases hturn.atDestination d with
  | still hdest' hos => exact Underway.queued (hdest'.trans hdest) hlistening hqueue
  | created hl hnone hdest' hos => simp [hnone] at hdest
  | @accepted D' a m hD hsend hdest' hos hcaller =>
      obtain rfl := Option.some.inj (hD.symm.trans hdest)
      refine Underway.queued hdest' ((Mailbox.isListening_send hsend).trans hlistening) ?_
      show _ ∈ m.queue
      rw [Mailbox.queue_send hsend]
      exact List.mem_append_left _ hqueue
  | @refused D' a w₁ hD hgone hdest' hos hcaller =>
      obtain rfl := Option.some.inj (hD.symm.trans hdest)
      exact Underway.queued hdest' hlistening hqueue
  | @closed D' uuid order q hl hD fresh huuids hmail hdest' hos =>
      obtain rfl := Option.some.inj (hD.symm.trans hdest)
      have hq : D'.mailbox.queue = .close :: q := by rw [hmail]; rfl
      rw [hq, List.mem_cons] at hqueue
      exact hbehind hl hq (hqueue.resolve_left (by simp)) rfl
  | @performed D' uuid order a q hl hD fresh huuids horder hmail hclose hdest' hos =>
      obtain rfl := Option.some.inj (hD.symm.trans hdest)
      have hq : D'.mailbox.queue = a :: q := by rw [hmail]; rfl
      rw [hq, List.mem_cons] at hqueue
      rcases hqueue with rfl | hin
      · refine Underway.created (s := ⟨uuid⟩) (List.mem_append_right _ ?_)
        rw [← mem_atDestination, hos]
        exact List.mem_cons_self
      · cases hstops : stops D' a with
        | true => exact hbehind hl hq hin hstops
        | false =>
            have hheld : ∀ s k, a = .unsubscribe s k →
                (D'.backend.subscriptions.lookup s).isSome = true := by
              rintro s k rfl
              simpa [stops, Option.isSome_iff_ne_none] using hstops
            have hgoes : (InMemDestination.settle (.listening q) w.reply
                (D'.backend.perform w.reply uuid order a)).mailbox = .listening q :=
              hprov.settle_listening hD hmail horder hheld
            refine Underway.queued hdest' ?_ ?_
            · rw [hgoes]
              rfl
            · rw [hgoes]
              exact hin
  | @finished D' q hD hmail hdest' hos =>
      obtain rfl := Option.some.inj (hD.symm.trans hdest)
      rw [hmail] at hlistening
      cases hlistening

/-- **Every step of the condition keeps a subscribe call underway.** -/
theorem Underway.step {d : DestinationId} {i : SubscriptionId} {k : ProxyBox}
    (h : Underway w tr d i k) (hC : attentive w l = true) (hprov : Provenance w tr)
    (hturn : Turn p w l w' os) : Underway w' (tr ++ os) d i k := by
  cases h with
  | ended hended => exact Underway.ended (hturn.ended hended)
  | spawned htask => exact Underway.step_task hC hprov.toCalls hturn htask
  | queued hdest hlistening hqueue =>
      exact Underway.step_queue hC hprov hturn hdest hlistening hqueue
  | created hcreated => exact Underway.created (hcreated.append os)

/-- In a run that meets the condition no subscribe call gets lost. -/
theorem underway {ls : List Label}
    (h : (lts p).Run (fun w l => attentive w l = true) initial ls tr w) :
    ∀ k d i, dispatched k (.subscribe d (some i)) ∈ tr → Underway w tr d i k := by
  refine h.invariant (P := fun w tr => ∀ k d i, dispatched k (.subscribe d (some i)) ∈ tr →
    Underway w tr d i k) (by simp) ?_
  intro ls tr os w w' l hrun ih hC hstep k d i hk
  have hturn := turn_of_step hstep
  rcases List.mem_append.mp hk with hk | hk
  · exact (ih k d i hk).step hC (provenance hrun) hturn
  · exact Underway.spawned (hturn.spawns hk)

/-! ## Frames and boxes -/

/-- The SUBSCRIBE frames a session has handled are its subscribe calls, in order, and these
were made with different boxes. -/
structure Subscribes (c : SessionId) (tr : List Obs) : Prop where
  frames : (subscribeCalls c tr).map Prod.snd = subscribeFrames c tr
  boxes : ((subscribeCalls c tr).map Prod.fst).Nodup

/-- This holds in every run. -/
theorem subscribes {C : World → Label → Prop} {ls : List Label} (c : SessionId)
    (h : (lts p).Run C initial ls tr w) : Subscribes c tr := by
  refine h.invariant (P := fun _ tr => Subscribes c tr) ⟨rfl, List.nodup_nil⟩ ?_
  intro ls tr os w w' l hrun ih _ hstep
  rcases (turn_of_step hstep).subscribes c with ⟨hcalls, hframes⟩ | ⟨f, hcalls, hframes⟩
  · constructor
    · rw [subscribeCalls_append, subscribeFrames_append, hcalls, hframes, List.append_nil,
        List.append_nil, ih.frames]
    · rw [subscribeCalls_append, hcalls, List.append_nil]
      exact ih.boxes
  · constructor
    · rw [subscribeCalls_append, subscribeFrames_append, hcalls, hframes, List.map_append,
        ih.frames]
      rfl
    · -- the box is new
      rw [subscribeCalls_append, hcalls, List.map_append, List.nodup_append]
      refine ⟨ih.boxes, List.nodup_singleton _, ?_⟩
      rintro k hk k' hk' rfl
      obtain rfl : k = ⟨c, w.boxes⟩ := List.mem_singleton.mp hk'
      obtain ⟨⟨k, d, i⟩, hin, hfst⟩ := List.mem_map.mp hk
      obtain ⟨hdispatched, -⟩ := mem_subscribeCalls.mp hin
      have hlt := (provenance hrun).box _ _ hdispatched
      rw [show k = ⟨c, w.boxes⟩ from hfst] at hlt
      exact absurd hlt (Nat.lt_irrefl _)

/-! ## At rest -/

/-- Nothing is in flight: no task, no action and no event waits. -/
structure AtRest (w : World) : Prop where
  tasks : w.tasks = []
  actions : ∀ d D, w.destinations d = some D → D.mailbox.queue = []
  events : ∀ c r, w.sessions c = .running r → r.events = []

/-- Only a destination that was created exists. -/
theorem created_of_run {C : World → Label → Prop} {ls : List Label} {d : DestinationId}
    (h : (lts p).Run C initial ls tr w) (hd : w.destinations d ≠ none) : .create d ∈ ls := by
  induction h with
  | refl => exact absurd rfl hd
  | @snoc w₁ w₂ ls₁ tr₁ os l hrun _ hstep ih =>
      rw [List.mem_append, List.mem_singleton]
      by_cases hold : w₁.destinations d = none
      · cases (turn_of_step hstep).atDestination d with
        | still hdest hos => exact absurd (hdest.trans hold) hd
        | created hl hdest hdest' hos => exact Or.inr hl.symm
        | accepted hdest => simp [hold] at hdest
        | refused w₁ hdest => simp [hold] at hdest
        | closed hl hdest => simp [hold] at hdest
        | performed hl hdest => simp [hold] at hdest
        | finished hdest => simp [hold] at hdest
      · exact Or.inl (ih hold)

/-- Only a session that has moved runs. -/
theorem moved_of_run {C : World → Label → Prop} {ls : List Label} {c : SessionId}
    (h : (lts p).Run C initial ls tr w) (hc : w.sessions c ≠ .awaiting) :
    ∃ input, .session c input ∈ ls := by
  induction h with
  | refl => exact absurd rfl hc
  | @snoc w₁ w₂ ls₁ tr₁ os l hrun _ hstep ih =>
      rcases (turn_of_step hstep).atSession c with ⟨input, rfl, -⟩ | ⟨-, hreceive, -⟩
      · exact ⟨input, List.mem_append_right _ List.mem_cons_self⟩
      · obtain ⟨input, hin⟩ := ih fun hold => hc (by rw [hreceive, hold]; rfl)
        exact ⟨input, List.mem_append_left _ hin⟩

/-- The parties that a label moves are at rest. -/
def restsAt (w : World) : Label → Bool
  | .create d => (w.destinations d).all fun D => D.mailbox.queue.isEmpty
  | .session c _ =>
      match w.sessions c with
      | .running r => r.events.isEmpty
      | _ => true
  | _ => true

/-- Whether a run has come to rest can be computed. -/
theorem atRest_of_run {C : World → Label → Prop} {ls : List Label}
    (h : (lts p).Run C initial ls tr w) (htasks : w.tasks = [])
    (hrest : (ls.all fun l => w.restsAt l) = true) : AtRest w := by
  have hall := List.all_eq_true.mp hrest
  constructor
  · exact htasks
  · intro d D hD
    have hd := hall _ (created_of_run h (d := d) (by simp [hD]))
    simpa [restsAt, hD] using hd
  · intro c r hr
    obtain ⟨input, hin⟩ := moved_of_run h (c := c) (by simp [hr])
    simpa [restsAt, hr] using hall _ hin

/-- The destination that a label creates listens. -/
def listensAt (w : World) : Label → Bool
  | .create d => (w.destinations d).all fun D => D.mailbox.isListening
  | _ => true

/-- Whether all destinations listen can be computed. -/
theorem open_of_run {C : World → Label → Prop} {ls : List Label}
    (h : (lts p).Run C initial ls tr w) (hlistens : (ls.all fun l => w.listensAt l) = true) :
    ∀ d D, w.destinations d = some D → D.mailbox.isListening = true := by
  intro d D hD
  have hin := created_of_run h (d := d) (by simp [hD])
  simpa [listensAt, hD] using List.all_eq_true.mp hlistens _ hin

/-- The destination has created the subscription `s` for the box, under the client's id, and
holds it until the session is told that it was removed. -/
def Subscribed (w : World) (tr : List Obs) (d : DestinationId) (i : SubscriptionId)
    (k : ProxyBox) : Prop :=
  ∃ s, Created tr d s i k ∧ (w.Held d s ∨ .unsubscribed i (.ok s) ∈ sentTo k.session tr)

/-- **No SUBSCRIBE has failed silently**: to every SUBSCRIBE frame handled by a session that
still runs belongs a box of its own, for which the destination has created a subscription
under the client's id, or else the session has output an ERROR frame. -/
def NoneSilent (w : World) (tr : List Obs) : Prop :=
  ∀ c r, w.sessions c = .running r → ∃ ks : List ProxyBox, ks.Nodup ∧
    List.Forall₂ (fun frame k => k.session = c ∧ (w.Subscribed tr frame.1 frame.2 k ∨
      Seen SessionObs.isError (atSession c tr))) (subscribeFrames c tr) ks

/-- **No SUBSCRIBE fails silently** in a run whose steps are all attentive. -/
theorem none_silent {ls : List Label}
    (h : (lts p).Run (fun w l => attentive w l = true) initial ls tr w) (hrest : AtRest w) :
    NoneSilent w tr := by
  intro c r hc
  obtain ⟨hframes, hboxes⟩ := subscribes c h
  refine ⟨_, hboxes, ?_⟩
  rw [← hframes, List.forall₂_map_left_iff, List.forall₂_map_right_iff, List.forall₂_same]
  rintro ⟨k, d, i⟩ hin
  obtain ⟨hk, rfl⟩ := mem_subscribeCalls.mp hin
  refine ⟨rfl, Or.inl ?_⟩
  cases underway h k d i hk with
  | ended hended => simp [hc] at hended
  | spawned htask => simp [hrest.tasks] at htask
  | queued hdest hlistening hqueue => simp [hrest.actions d _ hdest] at hqueue
  | @created s hcreated =>
      rcases (told h).kept d s i k hcreated with hheld | hended | hremoved
      · exact ⟨s, hcreated, Or.inl hheld⟩
      · simp [hc] at hended
      · exact ⟨s, hcreated, Or.inr hremoved⟩

/-- The theorem applied to a client whose subscription is created. -/
theorem none_silent_subscribed :
    let p := sampleParams []
    ∃ tr w, (lts p).Run (fun w l => attentive w l = true) initial Label.subscribed tr w ∧
      AtRest w ∧ NoneSilent w tr := by
  intro p
  have hrun := LTS.Run.exec_get (lts p) (fun w l => attentive w l = true) initial
    Label.subscribed (by decide)
  have hrest := atRest_of_run hrun (by decide) (by decide)
  exact ⟨_, _, hrun, hrest, none_silent hrun hrest⟩

/-- **A SUBSCRIBE can fail silently**: the destination is closed before the spawned task
subscribes, the handle answers with an error, and the session drops it. -/
theorem subscribe_refused_silently :
    ¬ ∀ (p : Params) (ls : List Label) (tr : List Obs) (w : World),
      (lts p).Run LTS.Free initial ls tr w → AtRest w → NoneSilent w tr := by
  intro hall
  let p := sampleParams []
  let ls := Label.subscribing ++
    [.create sampleDestination, .close sampleDestination,
      .backend sampleDestination "uuid-0" [], .finish sampleDestination, .subscribe 0, .own 0]
  let r := ((lts p).exec LTS.Free initial ls).get (by decide)
  have hrun : (lts p).Run LTS.Free initial ls r.2 r.1 := LTS.Run.exec_get _ _ _ _ (by decide)
  have hrest := atRest_of_run hrun (by decide) (by decide)
  have hframes : subscribeFrames 0 r.2 = [(sampleDestination, ⟨"sub-0"⟩)] := by decide
  obtain ⟨ks, -, hserved⟩ := hall p ls _ _ hrun hrest 0 _ rfl
  rw [hframes, List.forall₂_cons_left_iff] at hserved
  obtain ⟨k, -, ⟨-, ⟨s, hcreated, -⟩ | hseen⟩, -⟩ := hserved
  · have hno : ∀ o ∈ r.2, takesSubscribe o = false := by decide
    exact absurd (hno _ hcreated) (by simp [takesSubscribe])
  · have hnever : ∀ o ∈ atSession 0 r.2, SessionObs.isError o = false := by decide
    exact not_seen_iff.mpr hnever hseen

end World
