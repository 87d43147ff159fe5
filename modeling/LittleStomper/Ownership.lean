/-
# Whose subscriptions a session knows

Every subscription a session hears of was created for that session, under the client's id
it is told with it: what the events in its channel name, what its table holds and what it
unsubscribes.  And a subscription whose removal was announced is held nowhere any more.

What a session is told of its subscriptions is true (`told`): each is announced to it, and held
until the session is told that it was removed, which it has asked for.
-/
import LittleStomper.Channel
import LittleStomper.Library.Trace
import Mathlib.Data.List.Induction

open Obs ClientEvent Trace

namespace ClientEvent

/-- The event tells that the subscription `s` is removed. -/
def removes (s : SubscriptionId) : ClientEvent → Bool
  | unsubscribed _ (.ok s') => s' = s
  | _ => false

/-- The event tells that the subscription `s` was created or removed. -/
def names (s : SubscriptionId) : ClientEvent → Bool
  | subscribed _ _ (.ok s') => s' = s
  | unsubscribed _ (.ok s') => s' = s
  | _ => false

end ClientEvent

namespace Obs

/-- The backend of `d` created the subscription `s` for the session `c`, under the client's
id `i`. -/
def Owned (tr : List Obs) (c : SessionId) (d : DestinationId) (s i : SubscriptionId) : Prop :=
  ∃ k : ProxyBox, k.session = c ∧ Created tr d s i k

theorem Owned.append {tr : List Obs} {c : SessionId} {d : DestinationId} {s i : SubscriptionId}
    (h : Owned tr c d s i) (os : List Obs) : Owned (tr ++ os) c d s i := by
  obtain ⟨k, hc, hcreated⟩ := h
  exact ⟨k, hc, hcreated.append os⟩

end Obs

namespace World

variable {p : Params} {w w' : World} {l : Label} {tr os : List Obs} {c : SessionId}

/-! ## Tables -/

/-- What the table holds was announced. -/
theorem mem_of_tableOf {es : List ClientEvent} {i : SubscriptionId} {d : DestinationId}
    {s : SubscriptionId} (h : tableOf es i = some (d, s)) : .subscribed d i (.ok s) ∈ es := by
  induction es using List.reverseRecOn with
  | nil => cases h
  | append_singleton es e ih =>
      rw [tableOf_concat] at h
      rw [List.mem_append, List.mem_singleton]
      cases e with
      | subscribed d' i' result =>
          cases result with
          | ok s' =>
              rw [tableAfter, Function.update_apply] at h
              split_ifs at h with hi
              · obtain ⟨rfl, rfl⟩ := Prod.mk.inj (Option.some.inj h)
                exact Or.inr (by rw [hi])
              · exact Or.inl (ih h)
          | error err => exact Or.inl (ih h)
      | unsubscribed i' result =>
          cases result with
          | ok s' =>
              rw [tableAfter, Function.update_apply] at h
              split_ifs at h with hi
              exact Or.inl (ih h)
          | error err => exact Or.inl (ih h)
      | _ => exact Or.inl (ih h)

/-- What a session has received was sent to it. -/
theorem Channel.sent (h : Channel c w tr) {e : ClientEvent} (he : e ∈ handledBy c tr)
    (hfrom : e.fromSubscriber = true) : e ∈ sentTo c tr :=
  h.tracks.initial.subset (List.mem_filter.mpr ⟨he, hfrom⟩)

/-- What a session's table holds was announced to it. -/
theorem Channel.announced (h : Channel c w tr) {r : ClientSession}
    (hr : w.sessions c = .running r) {i : SubscriptionId} {d : DestinationId}
    {s : SubscriptionId} (hentry : r.activeSubscriptionsByClientId i = some (d, s)) :
    .subscribed d i (.ok s) ∈ sentTo c tr := by
  rw [h.table r hr] at hentry
  exact h.sent (mem_of_tableOf hentry) rfl

/-! ## Ownership -/

/-- **A backend that takes an action** other than a `Close` performs it. -/
theorem Turn.performed_of_backend {d : DestinationId} {uuid : String}
    {order : List SubscriptionId} (h : Turn p w (.backend d uuid order) w' os)
    {D : InMemDestination ProxyBox} (hdest : w.destinations d = some D)
    {a : DestinationAction ProxyBox} {q : List (DestinationAction ProxyBox)}
    (hmail : D.mailbox = .listening (a :: q)) (hclose : a ≠ .close) :
    os = (.took a uuid :: InMemDestination.observe w.reply
        (D.backend.perform w.reply uuid order a).2).map (destination d) ∧
      w'.destinations d = some (InMemDestination.settle (.listening q) w.reply
        (D.backend.perform w.reply uuid order a)) ∧
      uuid ∉ w.uuids ∧ order.Perm D.backend.subscriptions.keys := by
  cases h with
  | closed hdest' fresh hmail' =>
      obtain rfl := Option.some.inj (hdest.symm.trans hdest')
      obtain ⟨rfl, -⟩ := List.cons.inj (Mailbox.listening.inj (hmail.symm.trans hmail'))
      exact absurd rfl hclose
  | performed os hdest' fresh horder hmail' hclose' hos =>
      obtain rfl := Option.some.inj (hdest.symm.trans hdest')
      obtain ⟨rfl, rfl⟩ := List.cons.inj (Mailbox.listening.inj (hmail.symm.trans hmail'))
      exact ⟨by rw [hos], Function.update_self _ _ _, fresh, horder⟩

/-- The destination `d` holds the subscription `s`. -/
def Held (w : World) (d : DestinationId) (s : SubscriptionId) : Prop :=
  ∃ D, w.destinations d = some D ∧ (D.backend.subscriptions.lookup s).isSome = true

/-- The backend of `d` holds the subscription `s` of the session `c`, under its id `i`. -/
def Holds (w : World) (c : SessionId) (d : DestinationId) (s i : SubscriptionId) : Prop :=
  ∃ D sub, w.destinations d = some D ∧ D.backend.subscriptions.lookup s = some sub ∧
    sub.sendFn.session = c ∧ sub.subscriberSubId = some i

/-- **Ownership**: what is announced to a session and what it unsubscribes is its own, and
what was announced to be removed is held nowhere. -/
structure Ownership (w : World) (tr : List Obs) : Prop where
  subscribed : ∀ c d i s, .subscribed d i (.ok s) ∈ sentTo c tr → Owned tr c d s i
  unsubscribed : ∀ c i s, .unsubscribed i (.ok s) ∈ sentTo c tr → ∃ d, Owned tr c d s i
  calls : ∀ k d s, dispatched k (.unsubscribe d s) ∈ tr → ∃ i, Owned tr k.session d s i
  gone : ∀ c i s, .unsubscribed i (.ok s) ∈ sentTo c tr → ∀ d, ¬ w.Held d s

/-- The uuid of a subscription that was created has been drawn. -/
theorem Provenance.drawn_of_owned (h : Provenance w tr) {d : DestinationId}
    {s i : SubscriptionId} (howned : Owned tr c d s i) : s.str ∈ w.uuids := by
  obtain ⟨k, -, hcreated⟩ := howned
  exact h.drawn _ _ _ hcreated

/-- A subscription has one owner, at one destination, under one id. -/
theorem Provenance.owned_unique (h : Provenance w tr) {c' : SessionId} {d d' : DestinationId}
    {s i i' : SubscriptionId} (howned : Owned tr c d s i) (howned' : Owned tr c' d' s i') :
    c = c' ∧ d = d' ∧ i = i' := by
  obtain ⟨k, rfl, hcreated⟩ := howned
  obtain ⟨k', rfl, hcreated'⟩ := howned'
  obtain ⟨rfl, rfl, rfl⟩ := h.created_unique hcreated hcreated'
  exact ⟨rfl, rfl, rfl⟩

/-- A step creates a subscription only with a uuid not drawn before. -/
theorem Turn.held_cases (h : Turn p w l w' os) {d : DestinationId} {s : SubscriptionId}
    (hheld : w'.Held d s) : w.Held d s ∨ s.str ∉ w.uuids := by
  obtain ⟨D', hD', hs⟩ := hheld
  obtain ⟨sub, hsub⟩ := Option.isSome_iff_exists.mp hs
  rcases (h.atDestination d).held hD' hsub with ⟨D, hD, hold⟩ | ⟨D, i, k, q, hD, hmail, hin, rfl⟩
  · exact Or.inl ⟨D, hD, by rw [hold]; rfl⟩
  · exact Or.inr (h.took_cases hin).1

/-- A subscription held was created at that destination. -/
theorem Provenance.owned_of_held (h : Provenance w tr) {d : DestinationId} {s : SubscriptionId}
    (hheld : w.Held d s) : ∃ c i, Owned tr c d s i := by
  obtain ⟨D, hD, hs⟩ := hheld
  obtain ⟨sub, hsub⟩ := Option.isSome_iff_exists.mp hs
  obtain ⟨i, -, -, hcreated⟩ := h.held d D s sub hD hsub
  exact ⟨_, i, _, rfl, hcreated⟩

/-- What an `Unsubscribe` names is not held afterwards. -/
theorem Turn.not_held_of_unsubscribe {d : DestinationId} {uuid : String}
    {order : List SubscriptionId} (h : Turn p w (.backend d uuid order) w' os)
    {D : InMemDestination ProxyBox} (hdest : w.destinations d = some D) {s : SubscriptionId}
    {k : ProxyBox} {q : List (DestinationAction ProxyBox)}
    (hmail : D.mailbox = .listening (.unsubscribe s k :: q)) : ¬ w'.Held d s := by
  rintro ⟨D', hD', hs⟩
  obtain ⟨-, hdest', -⟩ := h.performed_of_backend hdest hmail (by simp)
  obtain rfl := Option.some.inj (hD'.symm.trans hdest')
  rw [InMemDestination.settle_backend, InMemDestinationBackend.lookup_perform_unsubscribe,
    if_pos rfl] at hs
  cases hs

/-! ## What becomes of a subscription -/

/-- What a destination holds under `s` is what it created for the box `k`. -/
theorem Provenance.lookup_of_created (h : Provenance w tr) {d : DestinationId}
    {s i : SubscriptionId} {k : ProxyBox} (hcreated : Created tr d s i k)
    {D : InMemDestination ProxyBox} (hD : w.destinations d = some D)
    {sub : Subscription ProxyBox} (hs : D.backend.subscriptions.lookup s = some sub) :
    sub = ⟨s, some i, k⟩ := by
  obtain ⟨i', hid, hi', hcreated'⟩ := h.held d D s sub hD hs
  obtain ⟨-, rfl, hk⟩ := h.created_unique hcreated hcreated'
  cases sub
  simp_all

/-- A proxy's `send` succeeds as long as its session is not over. -/
theorem Provenance.reply_send (h : Provenance w tr) {d : DestinationId} {s i : SubscriptionId}
    {k : ProxyBox} (hcreated : Created tr d s i k) (hover : w.sessions k.session ≠ .ended)
    (m : OutboundMessage) : w.reply (.send k s (some i) m) = .ok := by
  have hissued : dispatched k (.subscribe d (some i)) ∈ tr := h.taken _ _ _ hcreated
  have hopen : (w.sessions k.session).isOpen = true := by
    by_contra hclosed
    exact hover (h.toCalls.ended hissued (by simpa using hclosed))
  simp [reply, hopen]

/-- **A subscription lives** until the backend takes an `Unsubscribe` for it, or a `Send` when
its session is over. -/
theorem Turn.survives (h : Turn p w l w' os) (hprov : Provenance w tr) {d : DestinationId}
    {s i : SubscriptionId} {k : ProxyBox} (hcreated : Created tr d s i k) (hheld : w.Held d s) :
    w'.Held d s ∨ ∃ uuid order D a q, l = .backend d uuid order ∧ w.destinations d = some D ∧
      D.mailbox = .listening (a :: q) ∧
      ((∃ m k', a = .send m k' ∧ w.sessions k.session = .ended) ∨
        ∃ k', a = .unsubscribe s k') := by
  obtain ⟨D, hD, hs⟩ := hheld
  -- whatever leaves the backend alone leaves the subscription there
  have hsame : ∀ {D'}, w'.destinations d = some D' → D'.backend = D.backend → w'.Held d s := by
    intro D' hD' hback
    exact ⟨D', hD', by rw [hback]; exact hs⟩
  cases h.atDestination d with
  | still hdest hos => exact Or.inl (hsame (hdest.trans hD) rfl)
  | created hl hdest hdest' hos => simp [hdest] at hD
  | accepted hdest hsend hdest' hos hcaller =>
      obtain rfl := Option.some.inj (hD.symm.trans hdest)
      exact Or.inl (hsame hdest' rfl)
  | refused w₁ hdest hgone hdest' hos hcaller =>
      obtain rfl := Option.some.inj (hD.symm.trans hdest)
      exact Or.inl (hsame hdest' rfl)
  | closed hl hdest fresh huuids hmail hdest' hos =>
      obtain rfl := Option.some.inj (hD.symm.trans hdest)
      exact Or.inl (hsame hdest' rfl)
  | finished hdest hmail hdest' hos =>
      obtain rfl := Option.some.inj (hD.symm.trans hdest)
      exact Or.inl (hsame hdest' rfl)
  | @performed _ uuid order a q hl hdest fresh huuids horder hmail hclose hdest' hos =>
      obtain rfl := Option.some.inj (hD.symm.trans hdest)
      cases a with
      | subscribe sub k' =>
          refine Or.inl ⟨_, hdest', ?_⟩
          rw [InMemDestination.settle_backend, InMemDestinationBackend.lookup_perform_subscribe]
          split_ifs
          · rfl
          · exact hs
      | unsubscribe s' k' =>
          by_cases heq : s = s'
          · subst heq
            exact Or.inr ⟨uuid, order, D, _, q, hl, hD, hmail, Or.inr ⟨k', rfl⟩⟩
          · refine Or.inl ⟨_, hdest', ?_⟩
            rw [InMemDestination.settle_backend,
              InMemDestinationBackend.lookup_perform_unsubscribe, if_neg heq]
            exact hs
      | send message k' =>
          by_cases hover : w.sessions k.session = .ended
          · exact Or.inr ⟨uuid, order, D, _, q, hl, hD, hmail, Or.inl ⟨message, k', rfl, hover⟩⟩
          · -- its own call has not failed
            have hlive : s ∉ D.backend.deadOf w.reply order
                (D.backend.outMessage uuid message) := by
              obtain ⟨sub, hsub⟩ := Option.isSome_iff_exists.mp hs
              rw [(hprov.keyed hD).mem_deadOf horder hsub,
                hprov.lookup_of_created hcreated hD hsub, Subscription.send,
                hprov.reply_send hcreated hover]
              simp
            refine Or.inl ⟨_, hdest', ?_⟩
            rw [InMemDestination.settle_backend, InMemDestinationBackend.lookup_perform_send,
              if_neg hlive]
            · exact hs
            · intro sub hsub
              obtain ⟨s', hs'⟩ := (InMemDestinationBackend.mem_values _ horder).mp hsub
              exact hprov.send_ne_panic hD hs' _
      | close => exact absurd rfl hclose

/-- **A message reaches every subscription held.** -/
theorem Provenance.send_mem (hprov : Provenance w tr) {d : DestinationId}
    {D : InMemDestination ProxyBox} (hD : w.destinations d = some D)
    {order : List SubscriptionId} (horder : order.Perm D.backend.subscriptions.keys)
    {s : SubscriptionId} {sub : Subscription ProxyBox}
    (hs : D.backend.subscriptions.lookup s = some sub) (uuid : String) (message : InboundMessage)
    (k : ProxyBox) : sub.send (D.backend.outMessage uuid message)
      ∈ (D.backend.perform w.reply uuid order (.send message k)).2 := by
  rw [InMemDestinationBackend.perform_snd]
  · refine List.mem_append_left _ ((InMemDestinationBackend.mem_sends _ _ _ horder).mpr ?_)
    exact ⟨message, k, s, sub, rfl, hs, rfl⟩
  · intro i hi
    obtain ⟨-, -, s', sub', -, hs', rfl⟩ := (InMemDestinationBackend.mem_sends _ _ _ horder).mp hi
    exact hprov.send_ne_panic hD hs' _

/-- A session unsubscribes what its table holds, when it handles an UNSUBSCRIBE. -/
theorem Turn.unsubscribe_entry (hturn : Turn p w l w' os) {k : ProxyBox}
    {d : DestinationId} {s : SubscriptionId} (hk : dispatched k (.unsubscribe d s) ∈ os) :
    ∃ r i, w.sessions k.session = .running r ∧ r.activeSubscriptionsByClientId i = some (d, s) ∧
      Obs.session k.session (.handled (.clientFrame (.ok (.unsubscribe i.str)))) ∈ os := by
  cases hturn.dispatch with
  | nothing hboxes hos htasks => exact absurd hk (hos _ _)
  | @call c input s' sos call hl hsturn hcall hsession hsos hboxes hos htasks =>
      obtain ⟨rfl, rfl⟩ := (hos _ _).mp hk
      obtain ⟨r, _, _, frame, hrun', -, -, hhandles, hev⟩ := handles_of_callOf hsturn hcall
      cases frame with
      | unsubscribe i =>
          rw [call?, Option.map_eq_some_iff] at hev
          obtain ⟨⟨d', s'⟩, hentry, heq⟩ := hev
          obtain ⟨rfl, rfl⟩ := DestinationCall.unsubscribe.inj heq
          refine ⟨r, ⟨i⟩, hrun', hentry, ?_⟩
          rw [← mem_handledBy, handledBy, hsos, hhandles.handled]
          exact List.mem_cons_self
      | send d' body => cases body <;> simp [call?] at hev
      | _ => simp [call?] at hev

/-- **Ownership holds in every run.** -/
theorem ownership {C : World → Label → Prop} {ls : List Label}
    (h : (lts p).Run C initial ls tr w) : Ownership w tr := by
  refine h.invariant (P := Ownership) ?_ ?_
  · constructor
    all_goals simp [sentTo]
  · intro ls tr os w w' l hrun ih _ hstep
    have hturn := turn_of_step hstep
    have hprov := provenance hrun
    constructor
    · intro c d i s hin
      rw [sentTo_append, List.mem_append] at hin
      rcases hin with hin | hin
      · exact (ih.subscribed c d i s hin).append os
      · obtain ⟨order, D, k, q, rfl, hdest, hmail, hc⟩ := (hturn.sends hprov c).of_subscribed hin
        obtain ⟨rfl, -⟩ := hturn.performed_of_backend hdest hmail (by simp)
        exact ⟨k, hc, List.mem_append_right _ List.mem_cons_self⟩
    · intro c i s hin
      rw [sentTo_append, List.mem_append] at hin
      rcases hin with hin | hin
      · obtain ⟨d, howned⟩ := ih.unsubscribed c i s hin
        exact ⟨d, howned.append os⟩
      · obtain ⟨d, uuid, order, D, k, q, sub, rfl, hdest, hmail, rfl, hs, hi⟩ :=
          (hturn.sends hprov c).of_unsubscribed hin
        -- the session that unsubscribes is the one that subscribed
        have hissued : dispatched k (.unsubscribe d s) ∈ tr := hprov.head hdest hmail
        obtain ⟨i', howned⟩ := ih.calls k d s hissued
        obtain ⟨i'', -, hi'', hcreated⟩ := hprov.held d D s sub hdest hs
        obtain rfl := Option.some.inj (hi.symm.trans hi'')
        obtain ⟨-, -, rfl⟩ := hprov.owned_unique howned ⟨_, rfl, hcreated⟩
        exact ⟨d, howned.append _⟩
    · intro k d s hk
      rcases List.mem_append.mp hk with hk | hk
      · obtain ⟨i, howned⟩ := ih.calls k d s hk
        exact ⟨i, howned.append os⟩
      · obtain ⟨r, i, hr, hentry, -⟩ := hturn.unsubscribe_entry hk
        have hin := (channel hrun k.session).announced hr hentry
        exact ⟨i, (ih.subscribed _ d i s hin).append os⟩
    · intro c i s hin d hheld
      rw [sentTo_append, List.mem_append] at hin
      rcases hin with hin | hin
      · obtain ⟨d', howned⟩ := ih.unsubscribed c i s hin
        rcases hturn.held_cases hheld with hold | hnew
        · exact ih.gone c i s hin d hold
        · exact hnew (hprov.drawn_of_owned howned)
      · obtain ⟨d', uuid, order, D, k, q, sub, rfl, hdest, hmail, -, hs, -⟩ :=
          (hturn.sends hprov c).of_unsubscribed hin
        obtain ⟨c', i', howned⟩ :=
          hprov.owned_of_held (s := s) ⟨D, hdest, Option.isSome_iff_exists.mpr ⟨sub, hs⟩⟩
        rcases hturn.held_cases hheld with hold | hnew
        · obtain ⟨c'', i'', howned'⟩ := hprov.owned_of_held hold
          obtain ⟨-, rfl, -⟩ := hprov.owned_unique howned howned'
          exact hturn.not_held_of_unsubscribe hdest hmail hheld
        · exact hnew (hprov.drawn_of_owned howned)

/-! ## The life of a subscription -/

/-- What a session is told of its subscriptions: that they were created, and that they were
removed, once and for all; and it is told that only because it asked. -/
structure Told (w : World) (tr : List Obs) : Prop where
  announced : ∀ d s i k, Created tr d s i k → .subscribed d i (.ok s) ∈ sentTo k.session tr
  kept : ∀ d s i k, Created tr d s i k → w.Held d s ∨ w.sessions k.session = .ended ∨
    .unsubscribed i (.ok s) ∈ sentTo k.session tr
  asked : ∀ c i s, .unsubscribed i (.ok s) ∈ sentTo c tr →
    ∃ k d, k.session = c ∧ dispatched k (.unsubscribe d s) ∈ tr ∧ Owned tr c d s i
  last : ∀ c s, NoneBehind (removes s) (names s) (sentTo c tr)

/-- A call of a proxy sends its event. -/
theorem mem_sentTo_of_invoked {d : DestinationId} {i : Invocation ProxyBox} {reply : Reply}
    {e : ClientEvent} (hin : destination d (.invoked i reply) ∈ os) (he : event? i = some e) :
    e ∈ sentTo i.target.session os :=
  List.mem_filterMap.mpr ⟨_, hin, by simp [sent?, he]⟩

/-- **A subscription that is created** is held, and its session is told so. -/
theorem Turn.creates (h : Turn p w l w' os) (hprov : Provenance w tr) {d : DestinationId}
    {s i : SubscriptionId} {k : ProxyBox}
    (hin : destination d (.took (.subscribe (some i) k) s.str) ∈ os) :
    w'.Held d s ∧ .subscribed d i (.ok s) ∈ sentTo k.session os := by
  obtain ⟨-, -, ⟨order, D, q, rfl, hD, hmail⟩, -⟩ := h.took_cases hin
  obtain ⟨hos, hdest', -, -⟩ := h.performed_of_backend hD hmail (by simp)
  constructor
  · refine ⟨_, hdest', ?_⟩
    rw [InMemDestination.settle_backend, InMemDestinationBackend.lookup_perform_subscribe,
      if_pos rfl]
    rfl
  · have hcall := InMemDestinationBackend.addSubscription_snd D.backend s.str (some i) k
    rw [hprov.ident d D hD] at hcall
    have hinvoked : destination d (.invoked (.subscribeCallback k d (some i) (.ok s))
        (w.reply (.subscribeCallback k d (some i) (.ok s)))) ∈ os := by
      rw [hos]
      refine List.mem_map_of_mem (List.mem_cons_of_mem _ (List.mem_map.mpr ⟨_, ?_, rfl⟩))
      rw [InMemDestinationBackend.perform, hcall]
      exact List.mem_cons_self
    exact mem_sentTo_of_invoked hinvoked rfl

/-- **A subscription that is removed** is announced to the session that asked for it. -/
theorem Turn.removes {d : DestinationId} {uuid : String} {order : List SubscriptionId}
    (h : Turn p w (.backend d uuid order) w' os) {D : InMemDestination ProxyBox}
    (hD : w.destinations d = some D) {s i : SubscriptionId} {k : ProxyBox}
    {sub : Subscription ProxyBox} {q : List (DestinationAction ProxyBox)}
    (hmail : D.mailbox = .listening (.unsubscribe s k :: q))
    (hs : D.backend.subscriptions.lookup s = some sub) (hi : sub.subscriberSubId = some i) :
    .unsubscribed i (.ok s) ∈ sentTo k.session os := by
  obtain ⟨hos, -, -, -⟩ := h.performed_of_backend hD hmail (by simp)
  have hinvoked : destination d (.invoked (.unsubscribeCallback k (some i) (.ok s))
      (w.reply (.unsubscribeCallback k (some i) (.ok s)))) ∈ os := by
    rw [hos]
    refine List.mem_map_of_mem (List.mem_cons_of_mem _ (List.mem_map.mpr ⟨_, ?_, rfl⟩))
    simp [InMemDestinationBackend.perform, InMemDestinationBackend.removeSubscription, hs, hi]
  exact mem_sentTo_of_invoked hinvoked rfl

/-- One step tells at most one thing of a subscription, and nothing once it was removed. -/
theorem told_once {s : SubscriptionId} (hprov : Provenance w tr) (hown : Ownership w tr)
    (hturn : Turn p w l w' os) (h : NoneBehind (ClientEvent.removes s) (names s) (sentTo c tr)) :
    NoneBehind (ClientEvent.removes s) (names s) (sentTo c (tr ++ os)) := by
  have hsends := hturn.sends hprov c
  rw [sentTo_append]
  refine (noneBehind_append h ?_).mpr ?_
  · generalize sentTo c os = es at hsends
    cases hsends with
    | nothing => exact NoneBehind.of_not_seen not_seen_nil
    | messages hl hdest horder hmail =>
        refine NoneBehind.of_not_seen ?_
        rintro ⟨e, he, hremoves⟩
        obtain ⟨sub, i, -, -, -, rfl⟩ := mem_messagesFor.mp he
        cases hremoves
    | _ => simpa using NoneBehind.concat not_seen_nil _
  · rintro ⟨e, he, hremoves⟩ e' he'
    -- the subscription was removed, so it is not held, and its uuid is drawn
    obtain ⟨i, rfl⟩ : ∃ i, e = .unsubscribed i (.ok s) := by
      cases e with
      | unsubscribed i result =>
          cases result with
          | ok s' => exact ⟨i, by rw [of_decide_eq_true hremoves]⟩
          | error err => cases hremoves
      | _ => cases hremoves
    obtain ⟨d₀, howned⟩ := hown.unsubscribed c i s he
    cases hnames : names s e' with
    | false => rfl
    | true =>
        exfalso
        cases e' with
        | subscribed d i' result =>
            cases result with
            | ok s' =>
                obtain rfl := of_decide_eq_true hnames
                obtain ⟨order, D, k, q, rfl, hdest, hmail, -⟩ := hsends.of_subscribed he'
                obtain ⟨-, -, hfresh, -⟩ := hturn.performed_of_backend hdest hmail (by simp)
                exact hfresh (hprov.drawn_of_owned howned)
            | error err => cases hnames
        | unsubscribed i' result =>
            cases result with
            | ok s' =>
                obtain rfl := of_decide_eq_true hnames
                obtain ⟨d, uuid, order, D, k, q, sub, -, hdest, -, -, hs, -⟩ :=
                  hsends.of_unsubscribed he'
                exact hown.gone c i s' he d ⟨D, hdest, Option.isSome_iff_exists.mpr ⟨sub, hs⟩⟩
            | error err => cases hnames
        | _ => cases hnames

/-- **What sessions are told is true**, in every run. -/
theorem told {C : World → Label → Prop} {ls : List Label}
    (h : (lts p).Run C initial ls tr w) : Told w tr := by
  refine h.invariant (P := Told) ?_ ?_
  · constructor
    · simp [Created]
    · simp [Created]
    · simp [sentTo]
    · exact fun c s => NoneBehind.of_not_seen not_seen_nil
  · intro ls tr os w w' l hrun ih _ hstep
    have hturn := turn_of_step hstep
    have hprov := provenance hrun
    have hown := ownership hrun
    constructor
    · intro d s i k hcreated
      rw [sentTo_append, List.mem_append]
      rcases List.mem_append.mp hcreated with hold | hnew
      · exact Or.inl (ih.announced d s i k hold)
      · exact Or.inr (hturn.creates hprov hnew).2
    · intro d s i k hcreated
      rw [sentTo_append, List.mem_append]
      rcases List.mem_append.mp hcreated with hold | hnew
      · rcases ih.kept d s i k hold with hheld | hended | hremoved
        · rcases hturn.survives hprov hold hheld with hheld' |
            ⟨uuid, order, D, a, q, rfl, hD, hmail, ⟨-, -, -, hended⟩ | ⟨k', rfl⟩⟩
          · exact Or.inl hheld'
          · exact Or.inr (Or.inl (hturn.ended hended))
          · -- the session that asked for the removal is the one that subscribed
            have hissued : dispatched k' (.unsubscribe d s) ∈ tr := hprov.head hD hmail
            obtain ⟨i', howned⟩ := hown.calls k' d s hissued
            obtain ⟨hk, -, -⟩ := hprov.owned_unique howned ⟨k, rfl, hold⟩
            obtain ⟨D', hD', hs⟩ := hheld
            obtain rfl := Option.some.inj (hD.symm.trans hD')
            obtain ⟨sub, hsub⟩ := Option.isSome_iff_exists.mp hs
            have hi : sub.subscriberSubId = some i := by
              rw [hprov.lookup_of_created hold hD hsub]
            rw [← hk]
            exact Or.inr (Or.inr (Or.inr (hturn.removes hD hmail hsub hi)))
        · exact Or.inr (Or.inl (hturn.ended hended))
        · exact Or.inr (Or.inr (Or.inl hremoved))
      · exact Or.inl (hturn.creates hprov hnew).1
    · intro c i s hin
      rw [sentTo_append, List.mem_append] at hin
      rcases hin with hin | hin
      · obtain ⟨k, d, hk, hissued, howned⟩ := ih.asked c i s hin
        exact ⟨k, d, hk, List.mem_append_left _ hissued, howned.append os⟩
      · obtain ⟨d, uuid, order, D, k, q, sub, rfl, hD, hmail, hk, hs, hi⟩ :=
          (hturn.sends hprov c).of_unsubscribed hin
        have hissued : dispatched k (.unsubscribe d s) ∈ tr := hprov.head hD hmail
        obtain ⟨i', howned⟩ := hown.calls k d s hissued
        obtain ⟨i'', -, hi'', hcreated⟩ := hprov.held d D s sub hD hs
        obtain rfl := Option.some.inj (hi.symm.trans hi'')
        obtain ⟨-, -, rfl⟩ := hprov.owned_unique howned ⟨_, rfl, hcreated⟩
        exact ⟨k, d, hk, List.mem_append_left _ hissued, hk ▸ howned.append os⟩
    · exact fun c s => told_once hprov hown hturn (ih.last c s)

end World
