/-
# Where calls, actions and subscriptions come from

Everything in flight in the system goes back to a call that a session dispatched with a
box of its own: the spawned tasks, the actions queued at and taken by the backends, and
the subscriptions they hold.  The boxes are numbered, so nothing goes back to two calls;
and the uuids are fresh, so no two subscriptions share their id, at whatever destination
they were created.
-/
import LittleStomper.SystemStep

open Obs

namespace Obs

/-- The action `a` goes back to a call dispatched at the destination `d`. -/
def Issued (tr : List Obs) (d : DestinationId) : DestinationAction ProxyBox → Prop
  | .subscribe sub k => dispatched k (.subscribe d sub) ∈ tr
  | .unsubscribe s k => dispatched k (.unsubscribe d s) ∈ tr
  | .send message k => dispatched k (.send d message) ∈ tr
  | .close => True

/-- The backend of `d` created the subscription `s` for the box `k`, under the client's
id `i`. -/
def Created (tr : List Obs) (d : DestinationId) (s i : SubscriptionId) (k : ProxyBox) : Prop :=
  destination d (.took (.subscribe (some i) k) s.str) ∈ tr

theorem Issued.mono {tr tr' : List Obs} (hsub : tr ⊆ tr') {d : DestinationId}
    {a : DestinationAction ProxyBox} (h : Issued tr d a) : Issued tr' d a := by
  cases a with
  | close => trivial
  | _ => exact hsub h

/-- What was issued stays so. -/
theorem Issued.append {tr : List Obs} {d : DestinationId} {a : DestinationAction ProxyBox}
    (h : Issued tr d a) (os : List Obs) : Issued (tr ++ os) d a :=
  h.mono (List.subset_append_left _ _)

/-- What was created stays so. -/
theorem Created.append {tr : List Obs} {d : DestinationId} {s i : SubscriptionId} {k : ProxyBox}
    (h : Created tr d s i k) (os : List Obs) : Created (tr ++ os) d s i k :=
  List.mem_append_left _ h

end Obs

namespace World

variable {p : Params} {w w' : World} {l : Label} {tr os : List Obs}

/-! ## Dispatched calls -/

/-- What a step dispatches: nothing, or one call of one session, with the next box. -/
inductive Dispatch (p : Params) (w : World) (l : Label) (w' : World) (os : List Obs) : Prop
  | nothing (hboxes : w'.boxes = w.boxes) (hos : ∀ k call, dispatched k call ∉ os)
      (htasks : ∀ t ∈ w'.tasks, t ∈ w.tasks)
  | call {c : SessionId} {input : SessionInput} {s : Session} {sos : List SessionObs}
      {call : DestinationCall} (hl : l = .session c input)
      (hturn : Session.Turn p (w.sessions c) input s sos) (hcall : callOf sos = some call)
      (hsession : w'.sessions c = s) (hsos : atSession c os = sos)
      (hboxes : w'.boxes = w.boxes + 1)
      (hos : ∀ k call', dispatched k call' ∈ os ↔ k = ⟨c, w.boxes⟩ ∧ call' = call)
      (htasks : ∀ t ∈ w'.tasks, t ∈ w.tasks ∨
        call = .subscribe t.destination t.subscriberSubId ∧ t.subscriber = ⟨c, w.boxes⟩)

/-- Every step dispatches nothing or one call. -/
theorem Turn.dispatch (h : Turn p w l w' os) : Dispatch p w l w' os := by
  cases h with
  | session hturn hinput hcall => exact Dispatch.nothing rfl (by simp) fun t ht => ht
  | @spawned c _ _ sos d sub hturn hinput hcall =>
      refine Dispatch.call rfl hturn hcall (Function.update_self _ _ _) ?_ rfl (by simp) ?_
      · rw [atSession_append, atSession_map_session, if_pos rfl]
        exact List.append_nil _
      intro t ht
      rcases List.mem_append.mp ht with ht | ht
      · exact Or.inl ht
      · obtain rfl := List.mem_singleton.mp ht
        exact Or.inr ⟨rfl, rfl⟩
  | @unknown c _ _ sos call d a hturn hinput hcall haction hdest =>
      refine Dispatch.call rfl hturn hcall (Function.update_self _ _ _) ?_ rfl ?_
        fun t ht => Or.inl ht
      · rw [atSession_append, atSession_map_session, if_pos rfl]
        cases call <;> exact List.append_nil _
      intro k call'
      cases call <;> simp [World.unknown]
  | enqueued hturn hinput hcall haction hdest hsend =>
      refine Dispatch.call rfl hturn hcall (Function.update_self _ _ _) ?_ rfl (by simp)
        fun t ht => Or.inl ht
      rw [atSession_append, atSession_map_session, if_pos rfl]
      exact List.append_nil _
  | @refused c _ _ _ _ d _ _ os' hturn hinput hcall haction hdest hgone hos =>
      refine Dispatch.call rfl hturn hcall (Function.update_self _ _ _) ?_ rfl (by simp)
        fun t ht => Or.inl ht
      have hnone := atSession_map_destination c d os'
      rw [atSession_append, atSession_map_session, if_pos rfl]
      exact (congrArg _ hnone).trans (List.append_nil _)
  | created htask hdest => exact Dispatch.nothing rfl (by simp) fun t ht => ht
  | subscribed htask hfind hdest hsend =>
      exact Dispatch.nothing rfl (by simp) fun t ht => List.mem_of_mem_erase ht
  | subscribeRefused os htask hfind hdest hgone hos =>
      exact Dispatch.nothing rfl (by simp) fun t ht => List.mem_of_mem_erase ht
  | closed hdest fresh hmail => exact Dispatch.nothing rfl (by simp) fun t ht => ht
  | performed os hdest fresh horder hmail hclose hos =>
      exact Dispatch.nothing rfl (by simp) fun t ht => ht
  | finished hdest hmail => exact Dispatch.nothing rfl (by simp) fun t ht => ht
  | close hdest hsend => exact Dispatch.nothing rfl (by simp) fun t ht => ht
  | closeRefused hdest hgone => exact Dispatch.nothing rfl (by simp) fun t ht => ht

/-- A session that has begun never waits for its first item again. -/
theorem Turn.ne_awaiting (h : Turn p w l w' os) {c : SessionId}
    (hc : w.sessions c ≠ .awaiting) : w'.sessions c ≠ .awaiting := by
  rcases h.atSession c with ⟨input, -, hturn, -, -⟩ | ⟨-, hreceive, -⟩
  · exact hturn.ne_awaiting
  · rw [hreceive]
    cases hs : w.sessions c with
    | awaiting => exact absurd hs hc
    | running s => simp [Session.receive]
    | ended => simp [Session.receive]

/-- A session that is over stays so. -/
theorem Turn.ended (h : Turn p w l w' os) {c : SessionId} (hc : w.sessions c = .ended) :
    w'.sessions c = .ended := by
  rcases h.atSession c with ⟨input, -, hturn, -, -⟩ | ⟨-, hreceive, -⟩
  · rw [hc] at hturn
    cases hturn
  · rw [hreceive, hc]
    rfl

/-- The state of the calls: every task goes back to one, their boxes are all different, and
they were made by sessions that have begun. -/
structure Calls (w : World) (tr : List Obs) : Prop where
  task : ∀ t ∈ w.tasks, dispatched t.subscriber (.subscribe t.destination t.subscriberSubId) ∈ tr
  box : ∀ k call, dispatched k call ∈ tr → k.box < w.boxes
  one : ∀ k call k' call', dispatched k call ∈ tr → dispatched k' call' ∈ tr → k.box = k'.box →
    k = k' ∧ call = call'
  named : ∀ k d sub, dispatched k (.subscribe d sub) ∈ tr → ∃ i, sub = some i
  begun : ∀ k call, dispatched k call ∈ tr → w.sessions k.session ≠ .awaiting

/-- **Every step keeps the calls in order.** -/
theorem Calls.step (h : Calls w tr) (hturn : Turn p w l w' os) : Calls w' (tr ++ os) := by
  cases hturn.dispatch with
  | nothing hboxes hos htasks =>
      have hold : ∀ k call, dispatched k call ∈ tr ++ os ↔ dispatched k call ∈ tr := by
        intro k call
        rw [List.mem_append]
        exact or_iff_left (hos k call)
      constructor
      · exact fun t ht => (hold _ _).mpr (h.task t (htasks t ht))
      · intro k call hk
        rw [hboxes]
        exact h.box k call ((hold _ _).mp hk)
      · intro k call k' call' hk hk'
        exact h.one k call k' call' ((hold _ _).mp hk) ((hold _ _).mp hk')
      · exact fun k d sub hk => h.named k d sub ((hold _ _).mp hk)
      · exact fun k call hk => hturn.ne_awaiting (h.begun k call ((hold _ _).mp hk))
  | @call c input s sos call hl hsturn hcall hsession hsos hboxes hos htasks =>
      obtain ⟨r, -, -, frame, hrun, -, -, -, hev⟩ := handles_of_callOf hsturn hcall
      have hold : ∀ k call', dispatched k call' ∈ tr ++ os ↔
          dispatched k call' ∈ tr ∨ k = ⟨c, w.boxes⟩ ∧ call' = call := by
        intro k call'
        rw [List.mem_append, hos]
      have hnew : ∀ k call', dispatched k call' ∈ tr → k.box ≠ w.boxes := fun k call' hk =>
        Nat.ne_of_lt (h.box k call' hk)
      constructor
      · intro t ht
        rcases htasks t ht with ht | ⟨rfl, hk⟩
        · exact (hold _ _).mpr (Or.inl (h.task t ht))
        · exact (hold _ _).mpr (Or.inr ⟨hk, rfl⟩)
      · intro k call' hk
        rw [hboxes]
        rcases (hold _ _).mp hk with hk | ⟨rfl, rfl⟩
        · exact Nat.lt_succ_of_lt (h.box k call' hk)
        · exact Nat.lt_succ_self _
      · intro k₁ call₁ k₂ call₂ h₁ h₂ hbox
        rcases (hold _ _).mp h₁ with h₁ | ⟨rfl, rfl⟩
        · rcases (hold _ _).mp h₂ with h₂ | ⟨rfl, rfl⟩
          · exact h.one k₁ call₁ k₂ call₂ h₁ h₂ hbox
          · exact absurd hbox (hnew k₁ call₁ h₁)
        · rcases (hold _ _).mp h₂ with h₂ | ⟨rfl, rfl⟩
          · exact absurd hbox.symm (hnew k₂ call₂ h₂)
          · exact ⟨rfl, rfl⟩
      · intro k d sub hk
        rcases (hold _ _).mp hk with hk | ⟨rfl, rfl⟩
        · exact h.named k d sub hk
        · cases frame with
          | subscribe d' i =>
              simp only [ClientEvent.call?, Option.some.injEq,
                DestinationCall.subscribe.injEq] at hev
              exact ⟨⟨i⟩, hev.2.symm⟩
          | send d' body => cases body <;> simp [ClientEvent.call?] at hev
          | unsubscribe i => simp [ClientEvent.call?] at hev
          | _ => simp [ClientEvent.call?] at hev
      · intro k call' hk
        rcases (hold _ _).mp hk with hk | ⟨rfl, rfl⟩
        · exact hturn.ne_awaiting (h.begun k call' hk)
        · refine hturn.ne_awaiting ?_
          show w.sessions c ≠ .awaiting
          rw [hrun]
          simp

/-- A session that has made a call runs or is over. -/
theorem Calls.ended (h : Calls w tr) {k : ProxyBox} {call : DestinationCall}
    (hk : dispatched k call ∈ tr) (hopen : (w.sessions k.session).isOpen = false) :
    w.sessions k.session = .ended := by
  cases hs : w.sessions k.session with
  | awaiting => exact absurd hs (h.begun k call hk)
  | running r =>
      rw [hs] at hopen
      cases hopen
  | ended => rfl

/-! ## Actions and subscriptions -/

/-- The state of the destinations: what is queued and what was taken was issued by a call,
and what is held was created by an action taken; no uuid was drawn twice. -/
structure Provenance (w : World) (tr : List Obs) : Prop extends Calls w tr where
  ident : ∀ d D, w.destinations d = some D → D.backend.id = d
  queued : ∀ d D, w.destinations d = some D → ∀ a ∈ D.mailbox.queue, Issued tr d a
  taken : ∀ d a u, destination d (.took a u) ∈ tr → Issued tr d a
  held : ∀ d D s sub, w.destinations d = some D → D.backend.subscriptions.lookup s = some sub →
    ∃ i, sub.id = s ∧ sub.subscriberSubId = some i ∧ Created tr d s i sub.sendFn
  drawn : ∀ d a u, destination d (.took a u) ∈ tr → u ∈ w.uuids
  once : ∀ d a d' a' u, destination d (.took a u) ∈ tr → destination d' (.took a' u) ∈ tr →
    d = d' ∧ a = a'

/-- The uuids drawn stay so. -/
theorem Turn.uuids_subset (h : Turn p w l w' os) : w.uuids ⊆ w'.uuids := by
  cases h with
  | closed hdest fresh hmail => exact List.subset_cons_self _ _
  | performed os hdest fresh horder hmail hclose hos => exact List.subset_cons_self _ _
  | _ => exact fun u hu => hu

/-- The actions taken in a step: none, or the head of one queue, with a new uuid. -/
theorem Turn.took_cases (h : Turn p w l w' os) {d : DestinationId}
    {a : DestinationAction ProxyBox} {u : String} (htook : destination d (.took a u) ∈ os) :
    u ∉ w.uuids ∧ u ∈ w'.uuids ∧ (∃ order D q, l = .backend d u order ∧
      w.destinations d = some D ∧ D.mailbox = .listening (a :: q)) ∧
      ∀ d' a', destination d' (.took a' u) ∈ os → d' = d ∧ a' = a := by
  cases h with
  | @closed d₁ uuid order D q hdest fresh hmail =>
      simp only [List.mem_singleton, destination.injEq, DestinationObs.took.injEq] at htook
      obtain ⟨rfl, rfl, rfl⟩ := htook
      exact ⟨fresh, List.mem_cons_self, ⟨order, D, q, rfl, hdest, hmail⟩, by simp⟩
  | @performed d₁ uuid order D a₁ q os' hdest fresh horder hmail hclose hos =>
      have hmem : ∀ d a, destination d (.took a u) ∈ os'.map (destination d₁) →
          d = d₁ ∧ a = a₁ ∧ u = uuid := by
        intro d a hin
        obtain ⟨o, ho, heq⟩ := List.mem_map.mp hin
        obtain ⟨rfl, rfl⟩ := destination.inj heq
        rw [hos] at ho
        simpa [InMemDestination.observe] using ho
      obtain ⟨rfl, rfl, rfl⟩ := hmem d a htook
      refine ⟨fresh, List.mem_cons_self, ⟨order, D, q, rfl, hdest, hmail⟩, fun d' a' hin => ?_⟩
      obtain ⟨rfl, rfl, -⟩ := hmem d' a' hin
      exact ⟨rfl, rfl⟩
  | @unknown _ _ _ _ call _ _ hturn hinput hcall haction hdest =>
      cases call <;> simp [World.unknown] at htook
  | refused os' hturn hinput hcall haction hdest hgone hos =>
      subst hos
      simp [refusal, InMemDestination.observe] at htook
  | subscribeRefused os htask hfind hdest hgone hos =>
      subst hos
      simp [refusal, InMemDestination.observe] at htook
  | _ => simp at htook

/-- Who calls on a destination has dispatched the call, or does so now. -/
theorem Caller.issued {d : DestinationId} {a : DestinationAction ProxyBox}
    (h : Caller p w d l w' os a) (hcalls : Calls w tr) : Issued (tr ++ os) d a := by
  cases h with
  | @session c input s sos call _ hl hsturn hcall haction hdispatched htasks =>
      have hmem := List.mem_append_right tr hdispatched
      cases call with
      | subscribe d' sub => simp [actionOf] at haction
      | send d' message =>
          obtain ⟨rfl, rfl⟩ := Prod.mk.inj (Option.some.inj haction)
          exact hmem
      | unsubscribe d' s' =>
          obtain ⟨rfl, rfl⟩ := Prod.mk.inj (Option.some.inj haction)
          exact hmem
  | task htask hdest htasks =>
      subst hdest
      exact List.mem_append_left _ (hcalls.task _ htask)
  | close hl htasks => trivial

/-- What is queued after a step was queued before, or is called for now. -/
theorem AtDestination.queued {d : DestinationId} (h : AtDestination p w d l w' os)
    {D' : InMemDestination ProxyBox} (hD' : w'.destinations d = some D')
    {a : DestinationAction ProxyBox} (ha : a ∈ D'.mailbox.queue) :
    (∃ D, w.destinations d = some D ∧ a ∈ D.mailbox.queue) ∨ Caller p w d l w' os a := by
  cases h with
  | still hdest hos => exact Or.inl ⟨D', hdest ▸ hD', ha⟩
  | created hl hdest hdest' hos =>
      obtain rfl := Option.some.inj (hD'.symm.trans hdest')
      simp [InMemDestination.create] at ha
  | @accepted D a' m hdest hsend hdest' hos hcaller =>
      obtain rfl := Option.some.inj (hD'.symm.trans hdest')
      rw [show (m : Mailbox _).queue = _ from Mailbox.queue_send hsend, List.mem_append,
        List.mem_singleton] at ha
      rcases ha with ha | rfl
      · exact Or.inl ⟨D, hdest, ha⟩
      · exact Or.inr hcaller
  | @refused D a' w₁ hdest hgone hdest' hos hcaller =>
      obtain rfl := Option.some.inj (hD'.symm.trans hdest')
      exact Or.inl ⟨D', hdest, ha⟩
  | @closed D uuid order q hl hdest fresh huuids hmail hdest' hos =>
      obtain rfl := Option.some.inj (hD'.symm.trans hdest')
      refine Or.inl ⟨D, hdest, ?_⟩
      rw [hmail]
      exact List.mem_cons_of_mem _ ha
  | @performed D uuid order a' q hl hdest fresh huuids horder hmail hclose hdest' hos =>
      obtain rfl := Option.some.inj (hD'.symm.trans hdest')
      refine Or.inl ⟨D, hdest, ?_⟩
      rw [hmail]
      rcases InMemDestination.settle_mailbox (.listening q) w.reply
        (D.backend.perform w.reply uuid order a') with ⟨-, hm⟩ | ⟨-, hm⟩
      · rw [hm] at ha
        exact List.mem_cons_of_mem _ ha
      · rw [hm] at ha
        simp at ha
  | @finished D q hdest hmail hdest' hos =>
      obtain rfl := Option.some.inj (hD'.symm.trans hdest')
      simp at ha

/-- No step changes the id of a destination. -/
theorem AtDestination.ident {d : DestinationId} (h : AtDestination p w d l w' os)
    (hid : ∀ D, w.destinations d = some D → D.backend.id = d) {D' : InMemDestination ProxyBox}
    (hD' : w'.destinations d = some D') : D'.backend.id = d := by
  cases h with
  | still hdest hos => exact hid D' (hdest ▸ hD')
  | created hl hdest hdest' hos =>
      obtain rfl := Option.some.inj (hD'.symm.trans hdest')
      rfl
  | @accepted D a m hdest hsend hdest' hos hcaller =>
      obtain rfl := Option.some.inj (hD'.symm.trans hdest')
      exact hid D hdest
  | @refused D a w₁ hdest hgone hdest' hos hcaller =>
      obtain rfl := Option.some.inj (hD'.symm.trans hdest')
      exact hid D' hdest
  | @closed D uuid order q hl hdest fresh huuids hmail hdest' hos =>
      obtain rfl := Option.some.inj (hD'.symm.trans hdest')
      exact hid D hdest
  | @performed D uuid order a q hl hdest fresh huuids horder hmail hclose hdest' hos =>
      obtain rfl := Option.some.inj (hD'.symm.trans hdest')
      rw [InMemDestination.settle_backend, InMemDestinationBackend.perform_id]
      exact hid D hdest
  | @finished D q hdest hmail hdest' hos =>
      obtain rfl := Option.some.inj (hD'.symm.trans hdest')
      exact hid D hdest

/-- What is held after a step was held before, or is created now. -/
theorem AtDestination.held {d : DestinationId} (h : AtDestination p w d l w' os)
    {D' : InMemDestination ProxyBox} (hD' : w'.destinations d = some D') {s : SubscriptionId}
    {sub : Subscription ProxyBox} (hs : D'.backend.subscriptions.lookup s = some sub) :
    (∃ D, w.destinations d = some D ∧ D.backend.subscriptions.lookup s = some sub) ∨
      ∃ D i k q, w.destinations d = some D ∧ D.mailbox = .listening (.subscribe i k :: q) ∧
        destination d (.took (.subscribe i k) s.str) ∈ os ∧ sub = ⟨s, i, k⟩ := by
  cases h with
  | still hdest hos => exact Or.inl ⟨D', hdest ▸ hD', hs⟩
  | created hl hdest hdest' hos =>
      obtain rfl := Option.some.inj (hD'.symm.trans hdest')
      simp [InMemDestination.create] at hs
  | @accepted D a' m hdest hsend hdest' hos hcaller =>
      obtain rfl := Option.some.inj (hD'.symm.trans hdest')
      exact Or.inl ⟨D, hdest, hs⟩
  | @refused D a' w₁ hdest hgone hdest' hos hcaller =>
      obtain rfl := Option.some.inj (hD'.symm.trans hdest')
      exact Or.inl ⟨D', hdest, hs⟩
  | @closed D uuid order q hl hdest fresh huuids hmail hdest' hos =>
      obtain rfl := Option.some.inj (hD'.symm.trans hdest')
      exact Or.inl ⟨D, hdest, hs⟩
  | @performed D uuid order a' q hl hdest fresh huuids horder hmail hclose hdest' hos =>
      obtain rfl := Option.some.inj (hD'.symm.trans hdest')
      rw [InMemDestination.settle_backend] at hs
      rcases InMemDestinationBackend.lookup_perform _ _ _ _ hs with ⟨i, k, rfl, rfl, rfl⟩ | hs
      · refine Or.inr ⟨D, i, k, q, hdest, hmail, ?_, rfl⟩
        rw [← mem_atDestination, hos]
        exact List.mem_cons_self
      · exact Or.inl ⟨D, hdest, hs⟩
  | @finished D q hdest hmail hdest' hos =>
      obtain rfl := Option.some.inj (hD'.symm.trans hdest')
      exact Or.inl ⟨D, hdest, hs⟩

/-- What is taken next was issued. -/
theorem Provenance.head (h : Provenance w tr) {d : DestinationId} {D : InMemDestination ProxyBox}
    {a : DestinationAction ProxyBox} {q : List (DestinationAction ProxyBox)}
    (hD : w.destinations d = some D) (hmail : D.mailbox = .listening (a :: q)) : Issued tr d a :=
  h.queued d D hD a (Mailbox.head_mem_queue hmail)

/-- **Every step keeps the origins.** -/
theorem Provenance.step (h : Provenance w tr) (hturn : Turn p w l w' os) :
    Provenance w' (tr ++ os) := by
  have hcalls := h.toCalls.step hturn
  have htook : ∀ d a u, destination d (.took a u) ∈ os → Issued tr d a := by
    intro d a u hin
    obtain ⟨-, -, ⟨order, D, q, -, hD, hmail⟩, -⟩ := hturn.took_cases hin
    exact h.head hD hmail
  refine ⟨hcalls, fun d D' => (hturn.atDestination d).ident (h.ident d), ?_, ?_, ?_, ?_, ?_⟩
  · intro d D' hD' a ha
    rcases (hturn.atDestination d).queued hD' ha with ⟨D, hD, hin⟩ | hcaller
    · exact (h.queued d D hD a hin).append os
    · exact hcaller.issued h.toCalls
  · intro d a u hin
    rcases List.mem_append.mp hin with hin | hin
    · exact (h.taken d a u hin).append os
    · exact (htook d a u hin).append os
  · intro d D' s sub hD' hs
    rcases (hturn.atDestination d).held hD' hs with ⟨D, hD, hold⟩ |
      ⟨D, i, k, q, hD, hmail, hin, rfl⟩
    · obtain ⟨i, hid, hi, hcreated⟩ := h.held d D s sub hD hold
      exact ⟨i, hid, hi, hcreated.append os⟩
    · obtain ⟨i, rfl⟩ := h.named k d i (htook d _ _ hin)
      exact ⟨i, rfl, rfl, List.mem_append_right tr hin⟩
  · intro d a u hin
    rcases List.mem_append.mp hin with hin | hin
    · exact hturn.uuids_subset (h.drawn d a u hin)
    · exact (hturn.took_cases hin).2.1
  · intro d a d' a' u hin hin'
    rcases List.mem_append.mp hin with hin | hin
    · rcases List.mem_append.mp hin' with hin' | hin'
      · exact h.once d a d' a' u hin hin'
      · exact absurd (h.drawn d a u hin) (hturn.took_cases hin').1
    · rcases List.mem_append.mp hin' with hin' | hin'
      · exact absurd (h.drawn d' a' u hin') (hturn.took_cases hin).1
      · obtain ⟨rfl, rfl⟩ := (hturn.took_cases hin).2.2.2 d' a' hin'
        exact ⟨rfl, rfl⟩

/-- **In every run everything has its origin.** -/
theorem provenance {C : World → Label → Prop} {ls : List Label}
    (h : (lts p).Run C initial ls tr w) : Provenance w tr := by
  refine h.invariant ?_ fun _ ih _ hstep => ih.step (turn_of_step hstep)
  refine ⟨⟨?_, ?_, ?_, ?_, ?_⟩, ?_, ?_, ?_, ?_, ?_, ?_⟩
  all_goals simp [initial]

/-! ## Consequences -/

/-- A subscription is created for one box, at one destination, under one client id. -/
theorem Provenance.created_unique (h : Provenance w tr) {d d' : DestinationId}
    {s i i' : SubscriptionId} {k k' : ProxyBox} (hc : Created tr d s i k)
    (hc' : Created tr d' s i' k') : d = d' ∧ i = i' ∧ k = k' := by
  obtain ⟨rfl, ha⟩ := h.once _ _ _ _ _ hc hc'
  obtain ⟨hi, rfl⟩ := DestinationAction.subscribe.inj ha
  exact ⟨rfl, Option.some.inj hi, rfl⟩

/-- Every subscription held has a client id. -/
theorem Provenance.subId (h : Provenance w tr) {d : DestinationId}
    {D : InMemDestination ProxyBox} (hD : w.destinations d = some D) {s : SubscriptionId}
    {sub : Subscription ProxyBox} (hs : D.backend.subscriptions.lookup s = some sub) :
    sub.subscriberSubId.isSome = true := by
  obtain ⟨i, -, hi, -⟩ := h.held d D s sub hD hs
  rw [hi]
  rfl

/-- Every subscription is stored under its own id. -/
theorem Provenance.keyed (h : Provenance w tr) {d : DestinationId}
    {D : InMemDestination ProxyBox} (hD : w.destinations d = some D) : D.backend.Keyed := by
  intro s sub hs
  obtain ⟨-, hid, -⟩ := h.held d D s sub hD hs
  exact hid

/-- Hence no proxy panics when it is sent a message. -/
theorem Provenance.send_ne_panic (h : Provenance w tr) {d : DestinationId}
    {D : InMemDestination ProxyBox} (hD : w.destinations d = some D) {s : SubscriptionId}
    {sub : Subscription ProxyBox} (hs : D.backend.subscriptions.lookup s = some sub)
    (m : OutboundMessage) : w.reply (sub.send m) ≠ .panic := by
  obtain ⟨i, hi⟩ := Option.isSome_iff_exists.mp (h.subId hD hs)
  rw [Subscription.send, hi, reply]
  simp only [Option.isNone_some, Bool.false_eq_true, if_false]
  split <;> simp

/-- Every waiting `Subscribe` has a client id. -/
theorem Provenance.queued_subscribe (h : Provenance w tr) {d : DestinationId}
    {D : InMemDestination ProxyBox} (hD : w.destinations d = some D)
    {sub : Option SubscriptionId} {k : ProxyBox}
    (ha : .subscribe sub k ∈ D.mailbox.queue) :
    ∃ i, sub = some i ∧ dispatched k (.subscribe d (some i)) ∈ tr := by
  have hissued : dispatched k (.subscribe d sub) ∈ tr := h.queued d D hD _ ha
  obtain ⟨i, rfl⟩ := h.named k d sub hissued
  exact ⟨i, rfl, hissued⟩

/-- **No proxy panics** when a backend performs an action, unless it is to unsubscribe what
the backend does not hold; and the calls carry the client's subscription id. -/
theorem Provenance.reply_ne_panic (hprov : Provenance w tr) {d : DestinationId}
    {D : InMemDestination ProxyBox} (hD : w.destinations d = some D)
    {a : DestinationAction ProxyBox} {q : List (DestinationAction ProxyBox)}
    (hmail : D.mailbox = .listening (a :: q)) {uuid : String} {order : List SubscriptionId}
    (horder : order.Perm D.backend.subscriptions.keys)
    (hheld : ∀ s k, a = .unsubscribe s k → (D.backend.subscriptions.lookup s).isSome = true)
    {i : Invocation ProxyBox} (hi : i ∈ (D.backend.perform w.reply uuid order a).2) :
    w.reply i ≠ .panic ∧ i.lacksSubId = false := by
  have hhead := Mailbox.head_mem_queue hmail
  rcases InMemDestinationBackend.mem_perform _ _ _ _ hi with hsend | hanswer
  · obtain ⟨message, k, s, sub, rfl, hs, rfl⟩ :=
      (InMemDestinationBackend.mem_sends _ _ _ horder).mp hsend
    obtain ⟨i, hsub⟩ := Option.isSome_iff_exists.mp (hprov.subId hD hs)
    refine ⟨hprov.send_ne_panic hD hs _, ?_⟩
    simp [Subscription.send, Invocation.lacksSubId, hsub]
  · cases a with
    | subscribe sub k =>
        obtain ⟨i, rfl, -⟩ := hprov.queued_subscribe hD hhead
        obtain rfl := Option.some.inj hanswer
        simp [reply, Invocation.lacksSubId]
    | unsubscribe s k =>
        obtain ⟨sub, hsub⟩ := Option.isSome_iff_exists.mp (hheld s k rfl)
        obtain ⟨i', hid⟩ := Option.isSome_iff_exists.mp (hprov.subId hD hsub)
        obtain rfl := Option.some.inj hanswer
        simp [reply, Invocation.lacksSubId, hsub, hid]
    | send message k =>
        obtain rfl := Option.some.inj hanswer
        simp [reply, Invocation.lacksSubId]
    | close => cases hanswer

/-- Then the loop goes on. -/
theorem Provenance.settle_listening (hprov : Provenance w tr) {d : DestinationId}
    {D : InMemDestination ProxyBox} (hD : w.destinations d = some D)
    {a : DestinationAction ProxyBox} {q : List (DestinationAction ProxyBox)}
    (hmail : D.mailbox = .listening (a :: q)) {uuid : String} {order : List SubscriptionId}
    (horder : order.Perm D.backend.subscriptions.keys)
    (hheld : ∀ s k, a = .unsubscribe s k → (D.backend.subscriptions.lookup s).isSome = true) :
    (InMemDestination.settle (.listening q) w.reply
      (D.backend.perform w.reply uuid order a)).mailbox = .listening q := by
  rcases InMemDestination.settle_mailbox (.listening q) w.reply
    (D.backend.perform w.reply uuid order a) with ⟨-, hm⟩ | ⟨⟨i, hi, hpanic⟩, -⟩
  · exact hm
  · exact absurd hpanic (hprov.reply_ne_panic hD hmail horder hheld hi).1

end World
