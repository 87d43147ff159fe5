/-
# The system comes to rest

When the clients fall silent, no clock ticks and no sink fails, the parties still work off what
waits: spawned tasks get their destinations and subscribe, backends take actions and close
their receivers, sessions handle the events of their own channels.  Each of these steps makes
new work at most for somebody further down the line, and never for itself: an action becomes
events, an event becomes a `Close` at most, and a `Close` nothing.

* `settles` : from every reachable state such steps end, after a number of them that does not
  depend on their order, and where none is possible any more everything is at rest;
* `complete_at_rest` : at rest every client has been handed all it was owed.
-/
import LittleStomper.Messages
import LittleStomper.Subscribing
import LittleStomper.Library.Settling
import Mathlib.Algebra.BigOperators.Ring.Finset

open Obs DestinationObs

/-! ## Work -/

/-- A step that the parties take on their own. -/
def Label.isInternal : Label → Bool
  | .session _ (.own _) => true
  | .create _ => true
  | .subscribe _ => true
  | .backend _ _ _ => true
  | .finish _ => true
  | _ => false

/-- The session that a label moves. -/
def Label.session? : Label → Option SessionId
  | .session c _ => some c
  | _ => none

/-- The destination that a label creates. -/
def Label.created? : Label → Option DestinationId
  | .create d => some d
  | _ => none

/-- The event is an item of the client's stream. -/
def ClientEvent.isFrame : ClientEvent → Bool
  | .clientFrame _ => true
  | _ => false

/-- The steps an event takes: an error leads to a `Close`. -/
def ClientEvent.load : ClientEvent → Nat
  | .close => 1
  | _ => 2

/-- Every event takes one or two. -/
theorem ClientEvent.load_bounds (e : ClientEvent) : 0 < e.load ∧ e.load ≤ 2 := by
  unfold load
  split <;> omega

/-- The steps for what waits in the session's channel. -/
def Session.load : Session → Nat
  | running s => (s.events.map ClientEvent.load).sum
  | _ => 0

/-- The action is a `Subscribe`. -/
def DestinationAction.isSubscribe {κ : Type} : DestinationAction κ → Bool
  | .subscribe _ _ => true
  | _ => false

namespace InMemDestination

variable {κ : Type}

/-- The subscriptions there are and may be when the queue is empty. -/
def places (D : InMemDestination κ) : Nat :=
  D.backend.subscriptions.keys.length
    + D.mailbox.queue.countP DestinationAction.isSubscribe

/-- What the backend has to do: two for each action, and one for the end. -/
def work (D : InMemDestination κ) : Nat :=
  2 * D.mailbox.queue.length +
    match D.mailbox with
    | .leaving _ => 1
    | _ => 0

end InMemDestination

namespace InMemDestinationBackend

variable {κ : Type} (b : InMemDestinationBackend κ) (answers : Answers κ) (uuid : String)
  (order : List SubscriptionId)

/-- A loop over some subscriptions passes the message to each at most once. -/
theorem length_sendLoop_le (m : OutboundMessage) (subs : List (Subscription κ)) :
    (sendLoop answers m subs).1.length ≤ subs.length := by
  induction subs with
  | nil => exact Nat.le_refl 0
  | cons sub subs ih =>
      rw [sendLoop]
      split
      · simp
      · simpa using ih
      · simpa using ih

/-- An action makes at most one call for each subscription, and one more. -/
theorem length_perform_le (horder : order.length = b.subscriptions.keys.length)
    (a : DestinationAction κ) :
    (b.perform answers uuid order a).2.length ≤ b.subscriptions.keys.length + 1 := by
  cases a with
  | subscribe sub k =>
      rw [perform, addSubscription]
      simp only
      split <;> simp
  | unsubscribe s k => simp [perform, removeSubscription]
  | close => exact Nat.zero_le _
  | send message k =>
      have hloop := length_sendLoop_le answers (b.outMessage uuid message) (b.values order)
      have hvalues : (b.values order).length ≤ order.length := List.length_filterMap_le _ _
      rw [perform, send]
      split
      · exact Nat.le_succ_of_le (hloop.trans (hvalues.trans (Nat.le_of_eq horder)))
      · rw [List.length_append, List.length_singleton]
        omega

/-- Removing subscriptions leaves no more than there were. -/
theorem length_keys_foldl_erase_le (ids : List SubscriptionId) (m : Subscriptions κ) :
    (ids.foldl (fun m s => m.erase s) m).keys.length ≤ m.keys.length := by
  induction ids generalizing m with
  | nil => exact Nat.le_refl _
  | cons s ids ih =>
      refine Nat.le_trans (ih (m.erase s)) ?_
      rw [AList.keys_erase]
      exact List.length_erase_le

/-- Only a `Subscribe` makes a subscription. -/
theorem length_keys_perform_le (a : DestinationAction κ) :
    (b.perform answers uuid order a).1.subscriptions.keys.length
      ≤ b.subscriptions.keys.length + [a].countP DestinationAction.isSubscribe := by
  cases a with
  | subscribe sub k =>
      rw [perform, addSubscription_fst, AList.keys_insert, List.length_cons]
      have hle : (b.subscriptions.keys.erase ⟨uuid⟩).length ≤ b.subscriptions.keys.length :=
        List.length_erase_le
      simpa [DestinationAction.isSubscribe] using hle
  | unsubscribe s k =>
      rw [perform, removeSubscription]
      simp only
      rw [AList.keys_erase]
      exact Nat.le_trans List.length_erase_le (Nat.le_add_right _ _)
  | close => exact Nat.le_add_right _ _
  | send message k =>
      rw [perform, send]
      split
      · exact Nat.le_add_right _ _
      · exact Nat.le_trans (length_keys_foldl_erase_le _ _) (Nat.le_add_right _ _)

end InMemDestinationBackend

namespace Session

/-- What a session that moves leaves in its channel: what was there, and errors and a `Close`
of its own. -/
theorem Turn.mem_events {p : Params} {s : Session} {r : ClientSession} {input : SessionInput}
    {os : List SessionObs} (h : Turn p s input (running r) os) (hinput : ∀ e, input ≠ .deliver e)
    {e : ClientEvent} (he : e ∈ r.events) :
    (∃ r₀, s = running r₀ ∧ e ∈ r₀.events) ∨ e.isFrame = false := by
  have hhandles : ∀ {r₀ : ClientSession} {resetFails : Bool} {e' : ClientEvent},
      Handles p r₀ resetFails e' (running r) os → e ∈ r₀.events ∨ e.isFrame = false := by
    intro r₀ resetFails e' hr
    cases hr with
    | goesOn hpanic hends =>
        rcases List.mem_append.mp he with hold | hnew
        · exact Or.inl hold
        · split_ifs at hnew with hfault
          · obtain rfl := List.mem_singleton.mp hnew
            exact Or.inr rfl
          · cases hnew
  cases h with
  | connected hfirst hnew =>
      obtain ⟨hevents, -, -⟩ := new_eq_some hnew
      rw [hevents] at he
      cases he
  | @client r₀ _ _ _ h => exact (hhandles h).imp_left fun hin => ⟨r₀, rfl, hin⟩
  | @own r₀ _ e' events _ _ hevents h =>
      refine (hhandles h).imp_left fun hin => ⟨r₀, rfl, ?_⟩
      rw [hevents]
      exact List.mem_cons_of_mem _ hin
  | @heartbeat r₀ _ _ _ h => exact (hhandles h).imp_left fun hin => ⟨r₀, rfl, hin⟩
  | @missed r₀ _ _ =>
      rcases List.mem_append.mp he with hold | hnew
      · exact Or.inl ⟨r₀, rfl, hold⟩
      · obtain rfl := List.mem_singleton.mp hnew
        exact Or.inr rfl
  | @delivered _ e' _ => exact absurd rfl (hinput e')

/-- **A session that handles an event of its channel has less to do.** -/
theorem Turn.load_lt {p : Params} {s s' : Session} {resetFails : Bool} {os : List SessionObs}
    (h : Turn p s (.own resetFails) s' os) (hcall : World.callOf os = none) :
    s'.load < s.load := by
  cases h with
  | @own r _ e events _ _ hevents h =>
      have hload : (running r).load = e.load + (events.map ClientEvent.load).sum := by
        rw [load, hevents, List.map_cons, List.sum_cons]
      rw [hload]
      have hpos := e.load_bounds.1
      cases h with
      | goesOn hpanic hends =>
          show ((events ++ _).map ClientEvent.load).sum < _
          rw [List.map_append, List.sum_append]
          -- only an event that is not a `Close` can lead to one
          split_ifs with hfault
          · have htwo : e.load = 2 := by cases e <;> first | rfl | cases hends
            rw [htwo]
            simp only [List.map_cons, List.map_nil, List.sum_cons, List.sum_nil, ClientEvent.load]
            omega
          · simp only [List.map_nil, List.sum_nil]
            omega
      | _ =>
          show 0 < _
          omega

/-- What a session receives is at most two steps for each event. -/
theorem load_receive_le (s : Session) (es : List ClientEvent) :
    (s.receive es).load ≤ s.load + 2 * es.length := by
  have hes : (es.map ClientEvent.load).sum ≤ 2 * es.length := by
    induction es with
    | nil => exact Nat.le_refl 0
    | cons e es ih =>
        have hle := e.load_bounds.2
        rw [List.map_cons, List.sum_cons, List.length_cons]
        omega
  cases s with
  | running r =>
      show ((r.events ++ es).map ClientEvent.load).sum ≤ (r.events.map ClientEvent.load).sum + _
      rw [List.map_append, List.sum_append]
      omega
  | _ => exact Nat.zero_le _

end Session

namespace World

variable {p : Params} {w w' : World} {l : Label} {tr os : List Obs} {cs : Finset SessionId}
  {ds : Finset DestinationId}

/-! ## What there is to do -/

/-- No client frame waits in a session's channel. -/
def NoFrames (w : World) : Prop :=
  ∀ c r, w.sessions c = .running r → ∀ e ∈ r.events, e.isFrame = false

/-- The sessions and destinations that have something to do are among the given ones. -/
structure Extent (cs : Finset SessionId) (ds : Finset DestinationId) (w : World) : Prop where
  origin : ∃ tr, Provenance w tr
  frames : NoFrames w
  sessions : ∀ c r, w.sessions c = .running r → c ∈ cs
  destinations : ∀ d, w.destinations d ≠ none → d ∈ ds
  tasks : ∀ t ∈ w.tasks, t.destination ∈ ds

/-- What the sessions have to do. -/
def load (cs : Finset SessionId) (w : World) : Nat := ∑ c ∈ cs, (w.sessions c).load

/-- The subscriptions there are and may be. -/
def places (ds : Finset DestinationId) (w : World) : Nat :=
  w.tasks.length + ∑ d ∈ ds, (w.destinations d).elim 0 InMemDestination.places

/-- What tasks and destinations have to do: a task may create its destination, and then it
leaves an action behind. -/
def work (ds : Finset DestinationId) (w : World) : Nat :=
  3 * w.tasks.length + ∑ d ∈ ds, (w.destinations d).elim 1 InMemDestination.work

/-- How many steps there can be. -/
def budget (cs : Finset SessionId) (ds : Finset DestinationId) (w : World) : Nat :=
  w.load cs + (2 * w.places ds + 3) * w.work ds

/-- **What a step does to this**: an event is handled, or there is less work and only so much
more for the sessions. -/
inductive Progress (cs : Finset SessionId) (ds : Finset DestinationId) (w w' : World) : Prop
  | handles (hload : w'.load cs < w.load cs) (hplaces : w'.places ds = w.places ds)
      (hwork : w'.work ds = w.work ds)
  | works (hload : w'.load cs ≤ w.load cs + 2 * (w.places ds + 1))
      (hplaces : w'.places ds ≤ w.places ds) (hwork : w'.work ds < w.work ds)

/-- Either way there are fewer steps left. -/
theorem Progress.budget_lt (h : Progress cs ds w w') : w'.budget cs ds < w.budget cs ds := by
  rw [budget, budget]
  cases h with
  | handles hload hplaces hwork =>
      rw [hplaces, hwork]
      omega
  | works hload hplaces hwork =>
      obtain ⟨rest, hrest⟩ := Nat.exists_eq_add_of_lt hwork
      have hfewer : (2 * w'.places ds + 3) * w'.work ds
          ≤ (2 * w.places ds + 3) * (w'.work ds + rest) :=
        Nat.mul_le_mul (by omega) (Nat.le_add_right _ _)
      have hsplit : (2 * w.places ds + 3) * w.work ds
          = (2 * w.places ds + 3) * (w'.work ds + rest) + (2 * w.places ds + 3) := by
        rw [hrest, Nat.mul_add, Nat.mul_one]
      omega

/-! ## Every step makes progress -/

/-- Only the sessions are touched. -/
theorem progress_of_load (hload : w'.load cs < w.load cs) (htasks : w'.tasks = w.tasks)
    (hdest : w'.destinations = w.destinations) : Progress cs ds w w' :=
  Progress.handles hload (by rw [places, places, htasks, hdest]) (by rw [work, work, htasks, hdest])

/-- What a destination sends to the sessions makes at most two steps for each call. -/
theorem load_receive_le (d : DestinationId) (dos : List (DestinationObs ProxyBox))
    (is : List (Invocation ProxyBox)) (hsent : ∀ c, (eventsFor c d dos).length
      = (is.filterMap fun i => if i.target.session = c then event? i else none).length) :
    ∑ c ∈ cs, ((w.sessions c).receive (eventsFor c d dos)).load ≤ w.load cs + 2 * is.length := by
  have hall := List.sum_length_filterMap_le cs (fun i : Invocation ProxyBox => i.target.session)
    event? is
  calc ∑ c ∈ cs, ((w.sessions c).receive (eventsFor c d dos)).load
      ≤ ∑ c ∈ cs, ((w.sessions c).load + 2 * (eventsFor c d dos).length) :=
        Finset.sum_le_sum fun c _ => Session.load_receive_le _ _
    _ = w.load cs + 2 * ∑ c ∈ cs, (eventsFor c d dos).length := by
        rw [Finset.sum_add_distrib, ← Finset.mul_sum]
        rfl
    _ ≤ w.load cs + 2 * is.length := by
        simp only [hsent]
        omega

/-- The events among the calls that were observed. -/
theorem length_eventsFor_observe (c : SessionId) (d : DestinationId)
    (pre : List (DestinationObs ProxyBox)) (hpre : eventsFor c d pre = [])
    (answers : Answers ProxyBox) (is : List (Invocation ProxyBox)) :
    (eventsFor c d (pre ++ InMemDestination.observe answers is)).length
      = (is.filterMap fun i => if i.target.session = c then event? i else none).length := by
  have hobserve : eventsFor c d (InMemDestination.observe answers is)
      = is.filterMap fun i => if i.target.session = c then event? i else none := by
    rw [eventsFor, sentTo, InMemDestination.observe, List.map_map, List.filterMap_map]
    rfl
  rw [eventsFor_append, hpre, List.nil_append, hobserve]

/-- A destination is touched. -/
theorem progress_of_destination {d : DestinationId} {D' : InMemDestination ProxyBox} (hd : d ∈ ds)
    (hdest : w'.destinations = Function.update w.destinations d (some D'))
    (hload : w'.load cs ≤ w.load cs + 2 * (w.places ds + 1))
    (hplaces : w'.tasks.length + D'.places
      ≤ w.tasks.length + (w.destinations d).elim 0 InMemDestination.places)
    (hwork : 3 * w'.tasks.length + D'.work
      < 3 * w.tasks.length + (w.destinations d).elim 1 InMemDestination.work) :
    Progress cs ds w w' := by
  have hsumPlaces := Finset.sum_comp_update hd w.destinations (some D')
    fun o => o.elim 0 InMemDestination.places
  have hsumWork := Finset.sum_comp_update hd w.destinations (some D')
    fun o => o.elim 1 InMemDestination.work
  rw [← hdest] at hsumPlaces hsumWork
  simp only [Option.elim_some] at hsumPlaces hsumWork
  refine Progress.works hload ?_ ?_
  · rw [places, places]
    omega
  · rw [work, work]
    omega

/-- A session that handles an event of its channel makes no call. -/
theorem Extent.callOf_own (h : Extent cs ds w) {c : SessionId} {resetFails : Bool} {s : Session}
    {sos : List SessionObs} (hturn : Session.Turn p (w.sessions c) (.own resetFails) s sos) :
    callOf sos = none := by
  rw [Option.eq_none_iff_forall_not_mem]
  intro call hcall
  obtain ⟨r, r₀, -, frame, hrun, hnext, -⟩ := handles_of_callOf hturn hcall
  rw [hrun] at hnext
  have hhead : r.events.head? = some (.clientFrame (.ok frame)) := hnext
  have hframe := h.frames c r hrun _ (List.mem_of_mem_head? hhead)
  cases hframe

/-- The destinations there are, are among the given ones. -/
theorem Extent.mem (h : Extent cs ds w) {d : DestinationId} {D : InMemDestination ProxyBox}
    (hD : w.destinations d = some D) : d ∈ ds :=
  h.destinations _ (by simp [hD])

/-- A session without a call handles an event. -/
theorem Extent.progress_session (h : Extent cs ds w) {c : SessionId} {resetFails : Bool}
    {s : Session} {sos : List SessionObs}
    (hturn : Session.Turn p (w.sessions c) (.own resetFails) s sos) (hcall : callOf sos = none) :
    Progress cs ds w (w.setSession c s) := by
  have hless := hturn.load_lt hcall
  have hc : c ∈ cs := by
    cases hs : w.sessions c with
    | running r => exact h.sessions c r hs
    | _ =>
        rw [hs] at hturn
        cases hturn
  refine progress_of_load ?_ rfl rfl
  have hsum := Finset.sum_comp_update hc w.sessions s Session.load
  show ∑ c' ∈ cs, (Function.update w.sessions c s c').load < ∑ c' ∈ cs, (w.sessions c').load
  omega

/-- A task that calls leaves its action behind. -/
theorem Extent.progress_subscribed (h : Extent cs ds w) {t : SubscribeTask}
    {D : InMemDestination ProxyBox} {m : Mailbox (DestinationAction ProxyBox)} (htask : t ∈ w.tasks)
    (hdest : w.destinations t.destination = some D)
    (hsend : D.mailbox.send (.subscribe t.subscriberSubId t.subscriber) = some m) :
    Progress cs ds w
      { w.setDestination t.destination ⟨D.backend, m⟩ with tasks := w.tasks.erase t } := by
  have hlength := List.length_erase_of_mem htask
  have hpos := List.length_pos_of_mem htask
  have hqueue := Mailbox.queue_send hsend
  refine progress_of_destination (h.mem hdest) rfl (Nat.le_add_right _ _) ?_ ?_
  · simp only [hdest, Option.elim_some, InMemDestination.places, hqueue, List.countP_append,
      List.countP_singleton, DestinationAction.isSubscribe, if_true, hlength]
    omega
  · rcases Mailbox.send_eq_some hsend with ⟨q, hm, rfl⟩ | ⟨q, hm, rfl⟩
    all_goals
      simp only [hdest, Option.elim_some, InMemDestination.work, hm, Mailbox.queue,
        List.length_append, List.length_singleton, hlength]
      omega

/-- A task that is refused makes one call. -/
theorem progress_subscribeRefused {t : SubscribeTask} {D : InMemDestination ProxyBox}
    (htask : t ∈ w.tasks) :
    Progress cs ds w
      { w with
        sessions := fun c => (w.sessions c).receive (eventsFor c t.destination
          (w.refusal D (.subscribe t.subscriberSubId t.subscriber)))
        tasks := w.tasks.erase t } := by
  have hlength := List.length_erase_of_mem htask
  have hpos := List.length_pos_of_mem htask
  have hload := @load_receive_le w cs t.destination
    (w.refusal D (.subscribe t.subscriberSubId t.subscriber))
    (InMemDestination.failure D.backend.id (.subscribe t.subscriberSubId t.subscriber))
    fun c => length_eventsFor_observe c t.destination [.called _ false] rfl w.reply _
  refine Progress.works (Nat.le_trans hload ?_) ?_ ?_
  · show w.load cs + 2 * 1 ≤ _
    omega
  · rw [places, places]
    simp only [hlength]
    omega
  · rw [work, work]
    simp only [hlength]
    omega

/-- What is left to do at a destination that has taken an action: a backend that panics has even
less to do. -/
theorem settle_le (q : List (DestinationAction ProxyBox)) (answers : Answers ProxyBox)
    (r : InMemDestinationBackend ProxyBox × List (Invocation ProxyBox)) :
    (InMemDestination.settle (.listening q) answers r).mailbox.queue.countP
        DestinationAction.isSubscribe ≤ q.countP DestinationAction.isSubscribe ∧
      (InMemDestination.settle (.listening q) answers r).work ≤ 2 * q.length := by
  rw [InMemDestination.work]
  rcases InMemDestination.settle_mailbox (.listening q) answers r with ⟨-, hm⟩ | ⟨-, hm⟩
  · rw [hm]
    exact ⟨Nat.le_refl _, Nat.le_refl _⟩
  · rw [hm]
    exact ⟨Nat.zero_le _, Nat.zero_le _⟩

/-- A backend that performs an action calls every subscription once at most. -/
theorem Extent.progress_performed (h : Extent cs ds w) {d : DestinationId} {uuid : String}
    {order : List SubscriptionId} {D : InMemDestination ProxyBox} {a : DestinationAction ProxyBox}
    {q : List (DestinationAction ProxyBox)} (hdest : w.destinations d = some D)
    (horder : order.Perm D.backend.subscriptions.keys) (hmail : D.mailbox = .listening (a :: q)) :
    Progress cs ds w
      { w.setDestination d (InMemDestination.settle (.listening q) w.reply
          (D.backend.perform w.reply uuid order a)) with
        sessions := fun c => (w.sessions c).receive (eventsFor c d (.took a uuid
          :: InMemDestination.observe w.reply (D.backend.perform w.reply uuid order a).2))
        uuids := uuid :: w.uuids } := by
  have hcalls := D.backend.length_perform_le w.reply uuid order horder.length_eq a
  have hkeys := D.backend.length_keys_perform_le w.reply uuid order a
  have hqueue : D.mailbox.queue = a :: q := by rw [hmail]; rfl
  have hle : D.places ≤ w.places ds := by
    have hsum := Finset.single_le_sum (f := fun d => (w.destinations d).elim 0 (·.places))
      (fun _ _ => Nat.zero_le _) (h.mem hdest)
    simp only [hdest, Option.elim_some] at hsum
    rw [places]
    exact Nat.le_trans hsum (Nat.le_add_left _ _)
  rw [InMemDestination.places] at hle
  have hload := @load_receive_le w cs d _ _ fun c =>
    length_eventsFor_observe c d [.took a uuid] rfl w.reply
      (D.backend.perform w.reply uuid order a).2
  have hrest := settle_le q w.reply (D.backend.perform w.reply uuid order a)
  refine progress_of_destination (h.mem hdest) rfl (Nat.le_trans hload (by omega)) ?_ ?_
  · simp only [hdest, Option.elim_some, InMemDestination.places, hqueue, List.countP_cons,
      List.countP_nil, InMemDestination.settle_backend] at hkeys hrest ⊢
    show w.tasks.length + _ ≤ _
    omega
  · have hwork : D.work = 2 * (q.length + 1) := by
      rw [InMemDestination.work, hmail]
      rfl
    rw [hdest, Option.elim_some, hwork]
    show 3 * w.tasks.length + _ < _
    omega

/-- **Every internal step makes progress.** -/
theorem Extent.progress (h : Extent cs ds w) (hl : l.isInternal = true)
    (hturn : Turn p w l w' os) : Progress cs ds w w' := by
  -- the steps of a session are those that handle an event of its channel
  have hown : ∀ {c : SessionId} {input : SessionInput}, l = .session c input →
      ∃ resetFails, input = .own resetFails := by
    rintro c input rfl
    cases input <;> first | exact ⟨_, rfl⟩ | cases hl
  cases hturn with
  | session hsturn hinput hcall =>
      obtain ⟨resetFails, rfl⟩ := hown rfl
      exact h.progress_session hsturn hcall
  | spawned hsturn hinput hcall =>
      obtain ⟨resetFails, rfl⟩ := hown rfl
      rw [h.callOf_own hsturn] at hcall
      cases hcall
  | unknown hsturn hinput hcall haction hdest =>
      obtain ⟨resetFails, rfl⟩ := hown rfl
      rw [h.callOf_own hsturn] at hcall
      cases hcall
  | enqueued hsturn hinput hcall haction hdest hsend =>
      obtain ⟨resetFails, rfl⟩ := hown rfl
      rw [h.callOf_own hsturn] at hcall
      cases hcall
  | refused os' hsturn hinput hcall haction hdest hgone hos =>
      obtain ⟨resetFails, rfl⟩ := hown rfl
      rw [h.callOf_own hsturn] at hcall
      cases hcall
  | @created d htask hdest =>
      obtain ⟨t, ht, rfl⟩ := htask
      refine progress_of_destination (h.tasks t ht) rfl (Nat.le_add_right _ _) ?_ ?_
      · rw [hdest]
        exact Nat.le_refl _
      · rw [hdest]
        exact Nat.lt_succ_self _
  | subscribed htask hfind hdest hsend => exact h.progress_subscribed htask hdest hsend
  | subscribeRefused os htask hfind hdest hgone hos =>
      subst hos
      exact progress_subscribeRefused htask
  | @closed d uuid order D q hdest hfresh hmail =>
      refine progress_of_destination (h.mem hdest) rfl (Nat.le_add_right _ _) ?_ ?_
      · simp only [hdest, Option.elim_some, InMemDestination.places, hmail, Mailbox.queue,
          List.countP_cons, setDestination]
        omega
      · simp only [hdest, Option.elim_some, InMemDestination.work, hmail, Mailbox.queue,
          List.length_cons, setDestination]
        omega
  | performed os hdest hfresh horder hmail hclose hos =>
      subst hos
      exact h.progress_performed hdest horder hmail
  | @finished d D q hdest hmail =>
      refine progress_of_destination (h.mem hdest) rfl (Nat.le_add_right _ _) ?_ ?_
      · simp only [hdest, Option.elim_some, InMemDestination.places, hmail, Mailbox.queue,
          List.countP_nil, setDestination]
        omega
      · simp only [hdest, Option.elim_some, InMemDestination.work, hmail, Mailbox.queue,
          List.length_nil, setDestination]
        omega
  | close hdest hsend => cases hl
  | closeRefused hdest hgone => cases hl

/-! ## Reachable states -/

/-- Every step keeps the channels free of client frames. -/
theorem NoFrames.step (h : NoFrames w) (hprov : Provenance w tr) (hturn : Turn p w l w' os) :
    NoFrames w' := by
  intro c r hr e he
  rcases hturn.atSession c with ⟨input, -, hsturn, hinput, -⟩ | ⟨-, hreceive, -⟩
  · rw [hr] at hsturn
    rcases hsturn.mem_events hinput he with ⟨r₀, hr₀, hold⟩ | hnew
    · exact h c r₀ hr₀ e hold
    · exact hnew
  · have hsent := (hturn.sends hprov c).fromSubscriber
    rw [hreceive] at hr
    cases hs : w.sessions c with
    | running r₀ =>
        rw [hs] at hr
        obtain rfl := Session.running.inj hr
        rcases List.mem_append.mp he with hold | hnew
        · exact h c r₀ hs e hold
        · have hfrom := hsent e hnew
          cases e with
          | clientFrame result => cases hfrom
          | _ => rfl
    | _ =>
        rw [hs] at hr
        cases hr

/-- **Internal steps stay within the extent.** -/
theorem Extent.step (h : Extent cs ds w) (hl : l.isInternal = true) (hturn : Turn p w l w' os) :
    Extent cs ds w' := by
  obtain ⟨tr, hprov⟩ := h.origin
  refine ⟨⟨_, hprov.step hturn⟩, h.frames.step hprov hturn, ?_, ?_, ?_⟩
  · intro c r hr
    rcases hturn.atSession c with ⟨input, rfl, hsturn, -, -⟩ | ⟨-, hreceive, -⟩
    · rw [hr] at hsturn
      cases hs : w.sessions c with
      | running r₀ => exact h.sessions c r₀ hs
      | awaiting =>
          rw [hs] at hsturn
          generalize atSession c os = sos at hsturn
          cases hsturn
          cases hl
      | ended =>
          rw [hs] at hsturn
          cases hsturn
    · rw [hreceive] at hr
      cases hs : w.sessions c with
      | running r₀ => exact h.sessions c r₀ hs
      | _ =>
          rw [hs] at hr
          cases hr
  · intro d hd
    cases hturn.atDestination d with
    | still hdest hos => exact h.destinations d (hdest ▸ hd)
    | created hl' hdest hdest' hos =>
        cases hturn with
        | created htask _ =>
            obtain rfl := Label.create.inj hl'
            obtain ⟨t, ht, rfl⟩ := htask
            exact h.tasks t ht
        | _ => cases hl'
    | accepted hdest => exact h.destinations d (by simp [hdest])
    | refused w₁ hdest => exact h.destinations d (by simp [hdest])
    | closed hl' hdest => exact h.destinations d (by simp [hdest])
    | performed hl' hdest => exact h.destinations d (by simp [hdest])
    | finished hdest => exact h.destinations d (by simp [hdest])
  · intro t ht
    cases hturn.dispatch with
    | nothing hboxes hos htasks => exact h.tasks t (htasks t ht)
    | @call c input s sos call hl' hsturn hcall =>
        subst hl'
        cases input with
        | own resetFails =>
            rw [h.callOf_own hsturn] at hcall
            cases hcall
        | _ => cases hl

/-- **A step that changes a session and nothing else** changes what there is to do for it. -/
theorem Extent.replaced (h : Extent cs ds w) {c : SessionId} {r : ClientSession}
    (hr : w.sessions c = .running r) {s : Session} (hturn : Turn p w l (w.setSession c s) os) :
    Extent cs ds (w.setSession c s) ∧
      (w.setSession c s).budget cs ds + (Session.running r).load = w.budget cs ds + s.load := by
  obtain ⟨tr, hprov⟩ := h.origin
  have hc := h.sessions c r hr
  constructor
  · refine ⟨⟨_, hprov.step hturn⟩, h.frames.step hprov hturn, ?_, h.destinations, h.tasks⟩
    intro c' r' hr'
    by_cases hcc : c' = c
    · rwa [hcc]
    · refine h.sessions c' r' ?_
      rw [← hr']
      exact (Function.update_of_ne hcc _ _).symm
  · have hsum := Finset.sum_comp_update hc w.sessions s Session.load
    rw [hr] at hsum
    show ∑ c' ∈ cs, (Function.update w.sessions c s c').load + _ + _
      = ∑ c' ∈ cs, (w.sessions c').load + _ + _
    rw [Nat.add_right_comm, hsum, Nat.add_right_comm]
    rfl

/-- In every run the channels are free of client frames. -/
theorem noFrames {C : World → Label → Prop} {ls : List Label}
    (h : (lts p).Run C initial ls tr w) : NoFrames w := by
  refine h.invariant (P := fun w _ => NoFrames w) (fun c r hr => by simp [initial] at hr) ?_
  exact fun hrun ih _ hstep => ih.step (provenance hrun) (turn_of_step hstep)

/-- **Every reachable state has a finite extent.** -/
theorem extent {C : World → Label → Prop} {ls : List Label}
    (h : (lts p).Run C initial ls tr w) : ∃ cs ds, Extent cs ds w := by
  classical
  refine ⟨(ls.filterMap Label.session?).toFinset,
    (ls.filterMap Label.created? ++ w.tasks.map (·.destination)).toFinset,
    ⟨tr, provenance h⟩, noFrames h, ?_, ?_, ?_⟩
  · intro c r hr
    obtain ⟨input, hin⟩ := moved_of_run h (c := c) (by simp [hr])
    exact List.mem_toFinset.mpr (List.mem_filterMap.mpr ⟨_, hin, rfl⟩)
  · intro d hd
    have hin := created_of_run h hd
    exact List.mem_toFinset.mpr
      (List.mem_append_left _ (List.mem_filterMap.mpr ⟨_, hin, rfl⟩))
  · intro t ht
    exact List.mem_toFinset.mpr (List.mem_append_right _ (List.mem_map.mpr ⟨t, ht, rfl⟩))

/-! ## What can be done -/

/-- A task can create its destination. -/
theorem enabled_create {t : SubscribeTask} (ht : t ∈ w.tasks)
    (hD : w.destinations t.destination = none) :
    ((lts p).step w (.create t.destination)).isSome = true := by
  have hany : ∃ t' ∈ w.tasks, t'.destination = t.destination := ⟨t, ht, rfl⟩
  simpa [lts, step, stepCreate, hD] using hany

/-- A task can call on its destination. -/
theorem Calls.enabled_subscribe (h : Calls w tr) {t : SubscribeTask} (ht : t ∈ w.tasks)
    {D : InMemDestination ProxyBox} (hD : w.destinations t.destination = some D) :
    ((lts p).step w (.subscribe t.subscriber.box)).isSome = true := by
  have hfound : (w.tasks.find? fun t' => t'.subscriber.box = t.subscriber.box).isSome = true :=
    List.find?_isSome.mpr ⟨t, ht, by simp⟩
  obtain ⟨t', hfind⟩ := Option.isSome_iff_exists.mp hfound
  have hbox : t'.subscriber.box = t.subscriber.box := by simpa using List.find?_some hfind
  -- a box stands for one call
  obtain ⟨-, hcall⟩ := h.one _ _ _ _ (h.task t' (List.mem_of_find?_eq_some hfind)) (h.task t ht)
    hbox
  have hdest : t'.destination = t.destination := (DestinationCall.subscribe.inj hcall).1
  simp [lts, World.step, stepSubscribe, hfind, hdest, hD]

/-- A backend can take what waits. -/
theorem enabled_backend {d : DestinationId} {D : InMemDestination ProxyBox}
    (hD : w.destinations d = some D) {a : DestinationAction ProxyBox}
    {q : List (DestinationAction ProxyBox)} (hmail : D.mailbox = .listening (a :: q)) :
    ∃ uuid order, ((lts p).step w (.backend d uuid order)).isSome = true := by
  obtain ⟨uuid, hfresh⟩ := Infinite.exists_notMem_finset w.uuids.toFinset
  rw [List.mem_toFinset] at hfresh
  refine ⟨uuid, D.backend.subscriptions.keys, ?_⟩
  have hperm : D.backend.subscriptions.keys.isPerm D.backend.subscriptions.keys = true :=
    List.isPerm_iff.mpr (List.Perm.refl _)
  have hproc : (D.process w.reply uuid D.backend.subscriptions.keys).isSome = true := by
    rw [InMemDestination.process, if_pos hperm, hmail]
    cases a <;> rfl
  simp [lts, step, stepBackend, hD, hfresh, hproc]

/-- A backend that has left its loop can close its receiver. -/
theorem enabled_finish {d : DestinationId} {D : InMemDestination ProxyBox}
    (hD : w.destinations d = some D) {q : List (DestinationAction ProxyBox)}
    (hmail : D.mailbox = .leaving q) : ((lts p).step w (.finish d)).isSome = true := by
  simp [lts, step, hD, InMemDestination.finish, hmail]

/-- A session can handle what waits in its channel. -/
theorem enabled_own {c : SessionId} {r : ClientSession} (hr : w.sessions c = .running r)
    {e : ClientEvent} {events : List ClientEvent} (hevents : r.events = e :: events) :
    ((lts p).step w (.session c (.own false))).isSome = true := by
  simp [lts, step, stepSession, hr, Session.step, hevents]

/-- **Unless everything is at rest, somebody can do something.** -/
theorem Calls.atRest_or_enabled (h : Calls w tr) (p : Params) :
    AtRest w ∨ ∃ l, l.isInternal = true ∧ ((lts p).step w l).isSome = true := by
  by_contra hno
  obtain ⟨hrest, hstuck⟩ := not_or.mp hno
  refine hrest ⟨?_, ?_, ?_⟩
  · rw [List.eq_nil_iff_forall_not_mem]
    intro t ht
    cases hD : w.destinations t.destination with
    | none => exact hstuck ⟨_, rfl, enabled_create ht hD⟩
    | some D => exact hstuck ⟨_, rfl, h.enabled_subscribe ht hD⟩
  · intro d D hD
    cases hmail : D.mailbox with
    | listening q =>
        cases q with
        | nil => rfl
        | cons a q =>
            obtain ⟨uuid, order, henabled⟩ := enabled_backend (p := p) hD hmail
            exact absurd ⟨_, rfl, henabled⟩ hstuck
    | leaving q => exact absurd ⟨_, rfl, enabled_finish hD hmail⟩ hstuck
    | _ => rfl
  · intro c r hr
    cases hevents : r.events with
    | nil => rfl
    | cons e events => exact absurd ⟨_, rfl, enabled_own hr hevents⟩ hstuck

/-- The internal steps use up the budget. -/
theorem usesUp (p : Params) (cs : Finset SessionId) (ds : Finset DestinationId) :
    (lts p).UsesUp (fun _ l => l.isInternal = true) (Extent cs ds) (budget cs ds) := by
  intro w w' l os h hl hstep
  have hturn := turn_of_step hstep
  exact ⟨h.step hl hturn, (h.progress hl hturn).budget_lt⟩

/-! ## The end of all work -/

/-- **The system comes to rest.**  From every reachable state the internal steps (spawned tasks,
backends, and sessions that handle the events of their own channels) can be taken only so
often, whatever their order; and as long as not everything is at rest, one of them is
possible. -/
theorem settles {ls : List Label} (hrun : (lts p).Run LTS.Free initial ls tr w) :
    ∃ n, ∀ {ls' : List Label} {tr' : List Obs} {w' : World},
      (lts p).Run (fun _ l => l.isInternal = true) w ls' tr' w' → ls'.length ≤ n ∧
        (AtRest w' ∨ ∃ l, l.isInternal = true ∧ ((lts p).step w' l).isSome = true) := by
  obtain ⟨cs, ds, hextent⟩ := extent hrun
  refine ⟨w.budget cs ds, fun hrun' => ?_⟩
  obtain ⟨⟨⟨_, hprov⟩, -⟩, hlength⟩ := LTS.UsesUp.run (usesUp p cs ds) hextent hrun'
  exact ⟨Nat.le_trans (Nat.le_add_right _ _) hlength, hprov.toCalls.atRest_or_enabled p⟩

/-- The theorem applied to a client that has connected and subscribed, and to a run of the
internal steps that are left. -/
theorem settles_subscribing :
    let p := sampleParams []
    ∃ tr w n tr' w', (lts p).Run LTS.Free initial Label.subscribing tr w ∧
      (lts p).Run (fun _ l => l.isInternal = true) w (Label.subscribed.drop 2) tr' w' ∧
      (Label.subscribed.drop 2).length ≤ n := by
  intro p
  have hrun := LTS.Run.exec_get (lts p) LTS.Free initial Label.subscribing (by decide)
  have hrun' := LTS.Run.exec_get (lts p) (fun _ l => l.isInternal = true)
    (((lts p).exec LTS.Free initial Label.subscribing).get (by decide)).1
    (Label.subscribed.drop 2) (by decide)
  obtain ⟨n, hn⟩ := settles hrun
  exact ⟨_, _, n, _, _, hrun, hrun', (hn hrun').1⟩

/-! ## What clients have at rest -/

/-- All that was passed to a subscription of the session was delivered to the session. -/
theorem deliveries_eq {C : World → Label → Prop} {ls : List Label}
    (h : (lts p).Run C initial ls tr w) {c : SessionId} {d : DestinationId}
    {s i : SubscriptionId} (howned : Owned tr c d s i) :
    ((deliveriesTo c tr).filter (·.isFor d s)).map (·.message)
      = passed s (atDestination d tr) := by
  refine (deliveries_initial h c d s).eq_of_length_le ?_
  rw [List.length_map, deliveriesTo, List.filter_filterMap, passed, atDestination,
    List.filterMap_filterMap, List.length_filterMap_eq_countP, List.length_filterMap_eq_countP]
  refine List.countP_mono_left fun o ho hpassed => ?_
  obtain ⟨m, hm⟩ := Option.isSome_iff_exists.mp hpassed
  obtain ⟨o', hat, hm⟩ := Option.bind_eq_some_iff.mp hm
  cases o with
  | destination d' o'' =>
      obtain ⟨rfl, heq⟩ := Option.ite_none_right_eq_some.mp hat
      obtain rfl := Option.some.inj heq
      unfold passed? at hm
      split at hm
      · rename_i k s' sub m' reply
        obtain ⟨rfl, -⟩ := Option.ite_none_right_eq_some.mp hm
        -- the subscription was created for this session
        obtain ⟨k', hk', hcreated⟩ := howned
        obtain ⟨i', rfl, hcreated'⟩ := created_of_send h ho
        obtain ⟨-, -, rfl⟩ := (provenance h).created_unique hcreated hcreated'
        simp [delivery?, hk', SubscriptionMessage.isFor, Option.filter]
      · cases hm
  | _ => cases hat

/-- A session with an empty channel has handled all its deliveries. -/
theorem messageFrames_eq_deliveries {C : World → Label → Prop} {ls : List Label}
    (h : (lts p).Run C initial ls tr w) {c : SessionId} {r : ClientSession}
    (hc : w.sessions c = .running r) (hevents : r.events = []) :
    messageFrames c tr = (deliveriesTo c tr).map SubscriptionMessage.frame := by
  have hframes := (outputs h c).all (by simp [hc])
  have hsent := (channel h c).sent_eq hc
  rw [hevents, List.filter_nil, List.append_nil] at hsent
  rw [hframes, messageFrames_received, ← hsent, messageFrames_sentTo]

/-- The deliveries to a subscription are its whole feed. -/
theorem deliveries_eq_feed {C : World → Label → Prop} {ls : List Label}
    (h : (lts p).Run C initial ls tr w) {c : SessionId} {d : DestinationId}
    {s i : SubscriptionId} (howned : Owned tr c d s i) :
    ((deliveriesTo c tr).filter (·.isFor d s)).map (·.message)
      = LogEntry.feed s (log d (atDestination d tr)) := by
  rw [deliveries_eq h howned, passed_eq_feed h d s]

/-- **At rest a client has got everything.**  In every run, when nothing is in flight any more,
the MESSAGE frames of a session that still runs are all its deliveries, in order, and for each
of its subscriptions these are the whole feed: every message that the destination took while
the subscription was there. -/
theorem complete_at_rest {ls : List Label} (hrun : (lts p).Run LTS.Free initial ls tr w)
    (hrest : AtRest w) {c : SessionId} {r : ClientSession} (hc : w.sessions c = .running r) :
    messageFrames c tr = (deliveriesTo c tr).map SubscriptionMessage.frame ∧
      ∀ d s i, Owned tr c d s i → ((deliveriesTo c tr).filter (·.isFor d s)).map (·.message)
        = LogEntry.feed s (log d (atDestination d tr)) :=
  ⟨messageFrames_eq_deliveries hrun hc (hrest.events c r hc),
    fun _ _ _ howned => deliveries_eq_feed hrun howned⟩

/-- The theorem applied to a client that has got its own message. -/
theorem complete_at_rest_sent :
    let p := sampleParams []
    let ls := Label.subscribed ++
      [.frame 0 sampleSend, .backend sampleDestination "uuid-1" [⟨"uuid-0"⟩], .own 0]
    ∃ tr w, (lts p).Run LTS.Free initial ls tr w ∧ AtRest w ∧ (messageFrames 0 tr).length = 1 ∧
      messageFrames 0 tr = (deliveriesTo 0 tr).map SubscriptionMessage.frame := by
  intro p ls
  have hrun := LTS.Run.exec_get (lts p) LTS.Free initial ls (by decide)
  have hrest := atRest_of_run hrun (by decide) (by decide)
  exact ⟨_, _, hrun, hrest, by decide, (complete_at_rest hrun hrest (c := 0) rfl).1⟩

end World
