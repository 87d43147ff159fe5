/-
# A SEND behind a SUBSCRIBE

A SEND is enqueued at its destination in the step that handles it.  A SUBSCRIBE is handed
to a spawned task, which enqueues it in a later step.  So the SEND of a client can
overtake its SUBSCRIBE, and even find that there is no destination yet.

The two reach the destination in order exactly when the task has called by the time the
SEND is handled (`in_order_iff`).  From then on the queue keeps them in order: `Ahead`
says that what is in front of the SEND leaves the subscription behind, and `Placed`
follows the SEND itself.
-/
import LittleStomper.Library.Trace
import LittleStomper.Ownership
import LittleStomper.Wire

open Obs

namespace World

variable {p : Params} {w w' : World} {l : Label} {tr os : List Obs} {c : SessionId}

/-! ## Waiting tasks -/

/-- A step spawns one task, or none. -/
theorem Turn.tasks_cases (h : Turn p w l w' os) : w'.tasks.Sublist w.tasks ∨
    ∃ c d sub, w'.tasks = w.tasks ++ [⟨d, sub, ⟨c, w.boxes⟩⟩] := by
  cases h with
  | @spawned c _ _ _ d sub hturn hinput hcall => exact Or.inr ⟨c, d, sub, rfl⟩
  | subscribed htask hfind hdest hsend => exact Or.inl (List.erase_sublist)
  | subscribeRefused os htask hfind hdest hgone hos => exact Or.inl (List.erase_sublist)
  | _ => exact Or.inl (List.Sublist.refl _)

/-- The tasks that wait are all different, and none of them has called yet. -/
structure Waiting (w : World) (tr : List Obs) : Prop where
  nodup : w.tasks.Nodup
  issued : ∀ d a b, destination d (.called a b) ∈ tr → Issued tr d a
  uncalled : ∀ t ∈ w.tasks, ∀ d sub b,
    destination d (.called (.subscribe sub t.subscriber) b) ∉ tr

/-- A task is known by its box. -/
theorem Calls.task_unique (h : Calls w tr) {t t' : SubscribeTask} (ht : t ∈ w.tasks)
    (ht' : t' ∈ w.tasks) (hbox : t.subscriber = t'.subscriber) : t = t' := by
  obtain ⟨-, hcall⟩ := h.one _ _ _ _ (h.task t ht) (h.task t' ht') (by rw [hbox])
  obtain ⟨hdest, hsub⟩ := DestinationCall.subscribe.inj hcall
  cases t
  cases t'
  simp_all

/-- Every step keeps this. -/
theorem Waiting.step (h : Waiting w tr) (hcalls : Calls w tr) (hturn : Turn p w l w' os) :
    Waiting w' (tr ++ os) := by
  have hold : ∀ t ∈ w.tasks, t.subscriber.box < w.boxes := fun t ht =>
    hcalls.box _ _ (hcalls.task t ht)
  constructor
  · rcases hturn.tasks_cases with hsub | ⟨c, d, sub, heq⟩
    · exact hsub.nodup h.nodup
    · rw [heq, List.nodup_append]
      refine ⟨h.nodup, List.nodup_singleton _, ?_⟩
      rintro t ht t' ht' rfl
      obtain rfl := List.mem_singleton.mp ht'
      exact absurd (hold _ ht) (Nat.lt_irrefl _)
  · intro d a b hin
    rcases List.mem_append.mp hin with hin | hin
    · exact (h.issued d a b hin).append os
    · exact (hturn.caller hin).issued hcalls
  · intro t ht d sub b hin
    rcases List.mem_append.mp hin with hin | hin
    · -- a task that has just been spawned has a box nobody knows
      have hissued : dispatched t.subscriber (.subscribe d sub) ∈ tr := h.issued d _ b hin
      rcases hturn.tasks_cases with hsub | ⟨c, d', sub', heq⟩
      · exact h.uncalled t (hsub.subset ht) d sub b hin
      · rw [heq, List.mem_append, List.mem_singleton] at ht
        rcases ht with ht | rfl
        · exact h.uncalled t ht d sub b hin
        · exact absurd (hcalls.box _ _ hissued) (Nat.lt_irrefl _)
    · -- a task that calls waits no longer
      have hcaller := hturn.caller hin
      generalize ha : DestinationAction.subscribe sub t.subscriber = a at hcaller
      cases hcaller with
      | session hl hsturn hcall haction hdispatched htasks =>
          exact (ne_subscribe_of_actionOf haction).1 _ _ ha.symm
      | @task t' htask hdest htasks =>
          obtain ⟨-, hbox⟩ := DestinationAction.subscribe.inj ha
          rw [htasks] at ht
          obtain rfl := hcalls.task_unique (List.mem_of_mem_erase ht) htask hbox
          exact h.nodup.not_mem_erase ht
      | close hl htasks => cases ha

/-- In every run it holds. -/
theorem waiting {C : World → Label → Prop} {ls : List Label}
    (h : (lts p).Run C initial ls tr w) : Waiting w tr := by
  refine h.invariant (P := Waiting) ?_ ?_
  · constructor
    all_goals simp [initial]
  · intro ls tr os w w' l hrun ih _ hstep
    exact ih.step (provenance hrun).toCalls (turn_of_step hstep)

/-! ## In front of the SEND -/

/-- Once the actions `q` are taken, there is a subscription for the box `k`, as long as its
session is not over: its `Subscribe` is among them, or it was created and none of them
ends it. -/
inductive Ahead (w : World) (tr : List Obs) (d : DestinationId) (i : SubscriptionId)
    (k : ProxyBox) (q : List (DestinationAction ProxyBox)) : Prop
  | waits (hin : .subscribe (some i) k ∈ q)
  | created {s : SubscriptionId} (hcreated : Created tr d s i k)
      (hkept : ∀ k', .unsubscribe s k' ∉ q) (hlives : w.Held d s ∨ w.sessions k.session = .ended)

variable {d : DestinationId} {i : SubscriptionId} {k k' : ProxyBox}
  {q rest : List (DestinationAction ProxyBox)} {D : InMemDestination ProxyBox}

/-- A backend that has left its loop never enters it again. -/
theorem Turn.stopped (h : Turn p w l w' os) (hD : w.destinations d = some D)
    (hstopped : D.mailbox.isListening = false) :
    ∃ D', w'.destinations d = some D' ∧ D'.mailbox.isListening = false := by
  cases h.atDestination d with
  | still hdest hos => exact ⟨D, hdest.trans hD, hstopped⟩
  | created hl hdest hdest' hos => simp [hdest] at hD
  | accepted hdest hsend hdest' hos hcaller =>
      obtain rfl := Option.some.inj (hD.symm.trans hdest)
      exact ⟨_, hdest', (Mailbox.isListening_send hsend).trans hstopped⟩
  | refused w₁ hdest hgone hdest' hos hcaller =>
      obtain rfl := Option.some.inj (hD.symm.trans hdest)
      exact ⟨_, hdest', hstopped⟩
  | closed hl hdest fresh huuids hmail hdest' hos => exact ⟨_, hdest', rfl⟩
  | performed hl hdest fresh huuids horder hmail hclose hdest' hos =>
      obtain rfl := Option.some.inj (hD.symm.trans hdest)
      rw [hmail] at hstopped
      cases hstopped
  | finished hdest hmail hdest' hos => exact ⟨_, hdest', rfl⟩

/-- A subscription lives on, as long as its session is not over, unless an `Unsubscribe` for
it is at the head of the queue. -/
theorem Turn.lives (h : Turn p w l w' os) (hprov : Provenance w tr) {s : SubscriptionId}
    (hcreated : Created tr d s i k) (hD : w.destinations d = some D)
    (hhead : ∀ k' q', D.mailbox ≠ .listening (.unsubscribe s k' :: q'))
    (hlives : w.Held d s ∨ w.sessions k.session = .ended) :
    w'.Held d s ∨ w'.sessions k.session = .ended := by
  rcases hlives with hheld | hended
  · rcases h.survives hprov hcreated hheld with hheld' |
      ⟨uuid, order, D', a, q', -, hD', hmail, ⟨-, -, -, hended⟩ | ⟨k', rfl⟩⟩
    · exact Or.inl hheld'
    · exact Or.inr (h.ended hended)
    · obtain rfl := Option.some.inj (hD.symm.trans hD')
      exact absurd hmail (hhead k' q')
  · exact Or.inr (h.ended hended)

/-- Unless the backend takes an `Unsubscribe` behind `q`, a step keeps what `q` leaves
behind. -/
theorem Ahead.stays (h : Ahead w tr d i k q) (hprov : Provenance w tr)
    (hturn : Turn p w l w' os) (hD : w.destinations d = some D)
    (hqueue : D.mailbox.queue = q ++ rest) (hrest : ∀ s k' q', rest ≠ .unsubscribe s k' :: q') :
    Ahead w' (tr ++ os) d i k q := by
  cases h with
  | waits hin => exact Ahead.waits hin
  | created hcreated hkept hlives =>
      refine Ahead.created (hcreated.append os) hkept ?_
      refine hturn.lives hprov hcreated hD (fun k' q' hmail => ?_) hlives
      rw [hmail, Mailbox.queue_listening] at hqueue
      rcases List.cons_eq_append_iff.mp hqueue with ⟨-, hhead⟩ | ⟨q₁, rfl, -⟩
      · exact hrest _ _ _ hhead
      · exact hkept k' List.mem_cons_self

/-- The backend takes the first of these actions. -/
theorem Ahead.take {a : DestinationAction ProxyBox} {uuid : String} {order : List SubscriptionId}
    (h : Ahead w tr d i k (a :: q)) (hprov : Provenance w tr) (hown : Ownership w tr)
    (hturn : Turn p w (.backend d uuid order) w' os) (hD : w.destinations d = some D)
    (hmail : D.mailbox = .listening (a :: (q ++ rest))) (hclose : a ≠ .close) :
    Ahead w' (tr ++ os) d i k q := by
  by_cases ha : a = .subscribe (some i) k
  · -- the subscription is created, and nobody can know it yet
    subst ha
    obtain ⟨hos, hdest', hfresh, -⟩ := hturn.performed_of_backend hD hmail (by simp)
    refine Ahead.created (s := ⟨uuid⟩) (List.mem_append_right _ ?_) ?_ (Or.inl ⟨_, hdest', ?_⟩)
    · rw [hos]
      exact List.mem_cons_self
    · intro k' hin
      have hissued : dispatched k' (.unsubscribe d ⟨uuid⟩) ∈ tr := by
        refine hprov.queued d D hD (.unsubscribe ⟨uuid⟩ k') ?_
        rw [hmail]
        exact List.mem_cons_of_mem _ (List.mem_append_left _ hin)
      obtain ⟨i', howned⟩ := hown.calls _ _ _ hissued
      exact hfresh (hprov.drawn_of_owned howned)
    · rw [InMemDestination.settle_backend, InMemDestinationBackend.lookup_perform_subscribe,
        if_pos rfl]
      rfl
  · cases h with
    | waits hin => exact Ahead.waits ((List.mem_cons.mp hin).resolve_left (Ne.symm ha))
    | created hcreated hkept hlives =>
        refine Ahead.created (hcreated.append os)
          (fun k' hin => hkept k' (List.mem_cons_of_mem _ hin)) ?_
        refine hturn.lives hprov hcreated hD (fun k' q' hmail' => ?_) hlives
        obtain ⟨rfl, -⟩ := List.cons.inj (Mailbox.listening.inj (hmail.symm.trans hmail'))
        exact hkept k' List.mem_cons_self

/-- **What a step makes of a queue** whose front `q` leaves the subscription behind: the
backend stops, or takes the first action of the front, or none, or it takes the first
action behind the front. -/
theorem Ahead.step (h : Ahead w tr d i k q) (hprov : Provenance w tr) (hown : Ownership w tr)
    (hturn : Turn p w l w' os) (hD : w.destinations d = some D)
    (hqueue : D.mailbox.queue = q ++ rest) (hrest : ∀ s k' q', rest ≠ .unsubscribe s k' :: q') :
    (∃ D', w'.destinations d = some D' ∧ D'.mailbox.isListening = false) ∨
      (∃ D' q' new, w'.destinations d = some D' ∧ D'.mailbox.queue = q' ++ (rest ++ new) ∧
        q' <:+ q ∧ Ahead w' (tr ++ os) d i k q' ∧ ∀ a ∈ new, Caller p w d l w' os a) ∨
      ∃ a u, destination d (.took a u) ∈ os ∧ rest.head? = some a := by
  have hstays := h.stays hprov hturn hD hqueue hrest
  cases hturn.atDestination d with
  | still hdest hos =>
      refine Or.inr (Or.inl ⟨D, q, [], hdest.trans hD, ?_, List.suffix_refl _, hstays, by simp⟩)
      rw [hqueue, List.append_nil]
  | created hl hdest hdest' hos => simp [hdest] at hD
  | @accepted _ a m hdest hsend hdest' hos hcaller =>
      obtain rfl := Option.some.inj (hD.symm.trans hdest)
      refine Or.inr (Or.inl ⟨_, q, [a], hdest', ?_, List.suffix_refl _, hstays, ?_⟩)
      · rw [Mailbox.queue_send hsend, hqueue, List.append_assoc]
      · intro a' ha'
        obtain rfl := List.mem_singleton.mp ha'
        exact hcaller
  | refused w₁ hdest hgone hdest' hos hcaller =>
      obtain rfl := Option.some.inj (hD.symm.trans hdest)
      refine Or.inr (Or.inl ⟨_, q, [], hdest', ?_, List.suffix_refl _, hstays, by simp⟩)
      rw [hqueue, List.append_nil]
  | closed hl hdest fresh huuids hmail hdest' hos => exact Or.inl ⟨_, hdest', rfl⟩
  | @performed _ uuid order a q₀ hl hdest fresh huuids horder hmail hclose hdest' hos =>
      obtain rfl := Option.some.inj (hD.symm.trans hdest)
      subst hl
      rw [hmail, Mailbox.queue_listening] at hqueue
      rcases List.cons_eq_append_iff.mp hqueue with ⟨rfl, rfl⟩ | ⟨q₁, rfl, rfl⟩
      · refine Or.inr (Or.inr ⟨a, uuid, ?_, rfl⟩)
        rw [← mem_atDestination, hos]
        exact List.mem_cons_self
      · rcases InMemDestination.settle_mailbox (.listening (q₁ ++ rest)) w.reply
          (D.backend.perform w.reply uuid order a) with ⟨-, hgoes⟩ | ⟨-, hpanicked⟩
        · refine Or.inr (Or.inl ⟨_, q₁, [], hdest', ?_, List.suffix_cons _ _, ?_, by simp⟩)
          · rw [hgoes, Mailbox.queue_listening, List.append_nil]
          · exact h.take hprov hown hturn hD hmail hclose
        · refine Or.inl ⟨_, hdest', ?_⟩
          rw [hpanicked]
          rfl
  | finished hdest hmail hdest' hos => exact Or.inl ⟨_, hdest', rfl⟩

/-! ## Between the SUBSCRIBE and the SEND -/

/-- The subscribe call has reached its destination. -/
def Reached (tr : List Obs) (d : DestinationId) (i : SubscriptionId) (k : ProxyBox) : Prop :=
  ∃ b, destination d (.called (.subscribe (some i) k) b) ∈ tr

theorem Reached.append (h : Reached tr d i k) (os : List Obs) : Reached (tr ++ os) d i k := by
  obtain ⟨b, hin⟩ := h
  exact ⟨b, List.mem_append_left _ hin⟩

/-- While its session handles no UNSUBSCRIBE, a subscribe call is a task, or has reached its
destination, where it gets its subscription unless the backend stops; and nobody asks to
end that subscription. -/
structure Between (w : World) (tr : List Obs) (d : DestinationId) (i : SubscriptionId)
    (k : ProxyBox) : Prop where
  kept : ∀ s k', Created tr d s i k → dispatched k' (.unsubscribe d s) ∉ tr
  stage : (⟨d, some i, k⟩ : SubscribeTask) ∈ w.tasks ∨ Reached tr d i k ∧
    ∃ D, w.destinations d = some D ∧
      (D.mailbox.isListening = false ∨ Ahead w tr d i k D.mailbox.queue)

/-- What is in front may get longer by actions that do not end the subscription. -/
theorem Ahead.behind (h : Ahead w tr d i k q)
    (hkept : ∀ s k', Created tr d s i k → .unsubscribe s k' ∉ rest) :
    Ahead w tr d i k (q ++ rest) := by
  cases h with
  | waits hin => exact Ahead.waits (List.mem_append_left _ hin)
  | created hcreated hno hlives =>
      refine Ahead.created hcreated (fun k' hin => ?_) hlives
      rcases List.mem_append.mp hin with hin | hin
      · exact hno k' hin
      · exact hkept _ k' hcreated hin

/-- Who is not asked to end a subscription does not get an `Unsubscribe` for it. -/
theorem Caller.ne_unsubscribe {a : DestinationAction ProxyBox} (h : Caller p w d l w' os a)
    (hcalls : Calls w tr) {s : SubscriptionId}
    (hkept : ∀ k', dispatched k' (.unsubscribe d s) ∉ tr ++ os) : a ≠ .unsubscribe s k' := by
  rintro rfl
  exact hkept k' (h.issued hcalls)

/-- A session that does not handle an UNSUBSCRIBE for the id does not ask to end the
subscription. -/
theorem Ownership.kept (hown : Ownership w tr) {C : World → Label → Prop} {ls : List Label}
    (hrun : (lts p).Run C initial ls tr w) (hturn : Turn p w l w' os)
    (hprov' : Provenance w' (tr ++ os))
    (hno : Obs.session k.session (.handled (.clientFrame (.ok (.unsubscribe i.str)))) ∉ os)
    (hkept : ∀ s k', Created tr d s i k → dispatched k' (.unsubscribe d s) ∉ tr)
    {s : SubscriptionId} (hcreated : Created (tr ++ os) d s i k) (k' : ProxyBox) :
    dispatched k' (.unsubscribe d s) ∉ tr ++ os := by
  -- who asks for the end of the subscription knows it as its own
  have hsame : ∀ {i'}, Owned tr k'.session d s i' → Created tr d s i k ∧ k'.session = k.session ∧
      i' = i := by
    rintro i' ⟨k'', hc, hcreated'⟩
    obtain ⟨-, rfl, rfl⟩ := hprov'.created_unique (hcreated'.append os) hcreated
    exact ⟨hcreated', hc.symm, rfl⟩
  intro hin
  rcases List.mem_append.mp hin with hin | hin
  · obtain ⟨i', howned⟩ := hown.calls k' d s hin
    exact hkept s k' (hsame howned).1 hin
  · obtain ⟨r, i', hr, hentry, hhandled⟩ := hturn.unsubscribe_entry hin
    have howned := hown.subscribed _ _ _ _ ((channel hrun k'.session).announced hr hentry)
    obtain ⟨-, hsession, rfl⟩ := hsame howned
    rw [hsession] at hhandled
    exact hno hhandled

/-- **Every step in between** keeps this, unless it handles such an UNSUBSCRIBE. -/
theorem Between.step (h : Between w tr d i k) {C : World → Label → Prop} {ls : List Label}
    (hrun : (lts p).Run C initial ls tr w) (hturn : Turn p w l w' os)
    (hno : Obs.session k.session (.handled (.clientFrame (.ok (.unsubscribe i.str)))) ∉ os) :
    Between w' (tr ++ os) d i k := by
  have hprov := provenance hrun
  have hown := ownership hrun
  have hkept : ∀ s k', Created (tr ++ os) d s i k →
      dispatched k' (.unsubscribe d s) ∉ tr ++ os := fun s k' hcreated =>
    hown.kept hrun hturn (hprov.step hturn) hno h.kept hcreated k'
  refine ⟨hkept, ?_⟩
  rcases h.stage with htask | ⟨hreached, D, hD, hstopped | hahead⟩
  · rcases hturn.task_cases htask with htask | ⟨-, -, D, hD, ⟨m, hsend, hdest', hcalled⟩ |
      ⟨hgone, hdest', hcalled⟩⟩
    · exact Or.inl htask
    · refine Or.inr ⟨⟨true, List.mem_append_right _ hcalled⟩, _, hdest', Or.inr ?_⟩
      refine Ahead.waits ?_
      rw [Mailbox.queue_send hsend]
      exact List.mem_append_right _ List.mem_cons_self
    · exact Or.inr ⟨⟨false, List.mem_append_right _ hcalled⟩, D, hdest',
        Or.inl (Mailbox.isListening_of_isGone hgone)⟩
  · obtain ⟨D', hD', hstopped'⟩ := hturn.stopped hD hstopped
    exact Or.inr ⟨hreached.append os, D', hD', Or.inl hstopped'⟩
  · refine Or.inr ⟨hreached.append os, ?_⟩
    rcases hahead.step hprov hown hturn hD (List.append_nil _).symm (by simp) with
      ⟨D', hD', hstopped'⟩ | ⟨D', q', new, hD', hqueue, -, hahead', hnew⟩ |
      ⟨a, u, -, hhead⟩
    · exact ⟨D', hD', Or.inl hstopped'⟩
    · refine ⟨D', hD', Or.inr ?_⟩
      rw [hqueue, List.nil_append]
      refine hahead'.behind fun s k' hcreated hin => ?_
      exact (hnew _ hin).ne_unsubscribe hprov.toCalls (hkept s · hcreated) rfl
    · cases hhead

/-- A subscription is created for a box that was made before. -/
theorem Provenance.box_of_created (hprov : Provenance w tr) (hturn : Turn p w l w' os)
    {s : SubscriptionId} (hcreated : Created (tr ++ os) d s i k) : k.box < w.boxes := by
  rcases List.mem_append.mp hcreated with hold | hnew
  · exact hprov.box _ _ (hprov.taken _ _ _ hold)
  · obtain ⟨-, -, ⟨order, D, q, -, hD, hmail⟩, -⟩ := hturn.took_cases hnew
    exact hprov.box k (.subscribe d (some i)) (hprov.head hD hmail)

/-- The call that a frame leads to, whatever the table, is made. -/
theorem Turn.dispatches (h : Turn p w l w' os) {frame : ClientFrame} {call : DestinationCall}
    (hhandled : Obs.session c (.handled (.clientFrame (.ok frame))) ∈ os)
    (hcall : ∀ T, (ClientEvent.clientFrame (.ok frame)).call? T = some call) :
    callOf (Obs.atSession c os) = some call := by
  obtain ⟨r, r₀, resetFails, hr, hsame, hhandles⟩ := h.handles_of_handled hhandled (by simp)
  rw [callOf_handles hhandles]
  exact hcall _

/-! ## Behind the SEND -/

variable {m : InboundMessage} {start after : List Obs}

/-- Where the `Send` of a box is, from the SEND on: in the queue, behind what leaves the
subscription there; or it was taken; or the backend takes nothing any more. -/
inductive Placed (w : World) (start after : List Obs) (d : DestinationId) (i : SubscriptionId)
    (k : ProxyBox) (m : InboundMessage) (k' : ProxyBox) : Prop
  | stopped {D : InMemDestination ProxyBox} (hD : w.destinations d = some D)
      (hstopped : D.mailbox.isListening = false)
  | queued {D : InMemDestination ProxyBox} {q rest : List (DestinationAction ProxyBox)}
      (hD : w.destinations d = some D) (hqueue : D.mailbox.queue = q ++ .send m k' :: rest)
      (hfront : .send m k' ∉ q) (hback : .send m k' ∉ rest)
      (hfirst : ∀ u, destination d (.took (.send m k') u) ∉ after)
      (hahead : Ahead w (start ++ after) d i k q)
  | taken {u : String} (htook : destination d (.took (.send m k') u) ∈ after)
      (hnot : ∀ D, w.destinations d = some D → .send m k' ∉ D.mailbox.queue)

/-- Whenever the `Send` was taken, the subscription had been created, and the message was
passed to it, unless the session is over. -/
def Served (w : World) (start after : List Obs) (d : DestinationId) (i : SubscriptionId)
    (k : ProxyBox) (m : InboundMessage) (k' : ProxyBox) : Prop :=
  ∀ pre u post, after = pre ++ destination d (.took (.send m k') u) :: post →
    ∃ s, Created (start ++ pre) d s i k ∧ (w.sessions k.session ≠ .ended →
      destination d (.invoked (.send k s (some i) ⟨d, ⟨u⟩, m.body⟩) .ok) ∈ post)

/-- A step that does not take the `Send` changes nothing about that. -/
theorem Served.step (h : Served w start after d i k m k') (hturn : Turn p w l w' os)
    (hno : ∀ u, destination d (.took (.send m k') u) ∉ os) :
    Served w' start (after ++ os) d i k m k' := by
  intro pre u post heq
  rcases Trace.split_append heq with ⟨rest, hold, rfl⟩ | ⟨rest, hnew, -⟩
  · obtain ⟨s, hcreated, hpassed⟩ := h pre u rest hold
    refine ⟨s, hcreated, fun hover => List.mem_append_left _ (hpassed fun hended => ?_)⟩
    exact hover (hturn.ended hended)
  · refine absurd ?_ (hno u)
    rw [hnew]
    exact List.mem_append_right _ List.mem_cons_self

/-- **The step that takes the `Send`** passes the message to the subscription. -/
theorem Served.take (hprov : Provenance w (start ++ after))
    (hturn : Turn p w l w' os) {u : String} (htook : destination d (.took (.send m k') u) ∈ os)
    (hfirst : ∀ u, destination d (.took (.send m k') u) ∉ after) {s : SubscriptionId}
    (hcreated : Created (start ++ after) d s i k)
    (hlives : w.Held d s ∨ w.sessions k.session = .ended) :
    Served w' start (after ++ os) d i k m k' := by
  obtain ⟨-, -, ⟨order, D, q, rfl, hD, hmail⟩, -⟩ := hturn.took_cases htook
  obtain ⟨hos, -, -, horder⟩ := hturn.performed_of_backend hD hmail (by simp)
  intro pre u' post heq
  rcases Trace.split_append heq with ⟨rest, hold, rfl⟩ | ⟨rest, hnew, rfl⟩
  · refine absurd ?_ (hfirst u')
    rw [hold]
    exact List.mem_append_right _ List.mem_cons_self
  · -- it is the first thing observed
    rw [hos, List.map_cons] at hnew
    rcases List.cons_eq_append_iff.mp hnew with ⟨rfl, hhead⟩ | ⟨rest', rfl, htail⟩
    · obtain ⟨htook', rfl⟩ := List.cons.inj hhead
      obtain ⟨-, rfl⟩ := DestinationObs.took.inj (destination.inj htook').2
      rw [List.append_nil]
      refine ⟨s, hcreated, fun hover => ?_⟩
      have halive : w.sessions k.session ≠ .ended := fun hended => hover (hturn.ended hended)
      obtain ⟨D', hD', hs⟩ := hlives.resolve_right halive
      obtain rfl := Option.some.inj (hD.symm.trans hD')
      obtain ⟨sub, hsub⟩ := Option.isSome_iff_exists.mp hs
      have hcall := hprov.send_mem hD horder hsub u' m k'
      obtain rfl := hprov.lookup_of_created hcreated hD hsub
      have hreply := hprov.reply_send hcreated halive (D.backend.outMessage u' m)
      refine List.mem_map.mpr ⟨_, List.mem_map.mpr ⟨_, hcall, rfl⟩, ?_⟩
      rw [Subscription.send, hreply, InMemDestinationBackend.outMessage, hprov.ident d D hD]
    · -- and nothing else is taken
      have hin : destination d (.took (.send m k') u') ∈ (InMemDestination.observe w.reply
          (D.backend.perform w.reply u order (.send m k')).2).map (destination d) := by
        rw [htail]
        exact List.mem_append_right _ List.mem_cons_self
      simp [InMemDestination.observe] at hin

/-- Nobody sends with a box that was used before. -/
theorem Caller.ne_send {a : DestinationAction ProxyBox} (h : Caller p w d l w' os a)
    (hcalls : Calls w tr) {call : DestinationCall} (hsent : dispatched k' call ∈ tr) :
    a ≠ .send m k' := by
  cases h with
  | @session c _ _ _ call' _ hl hsturn hcall haction hdispatched htasks =>
      rintro rfl
      have hbox := hcalls.box _ _ hsent
      cases call' with
      | send d' m' =>
          obtain ⟨-, heq⟩ := Prod.mk.inj (Option.some.inj haction)
          obtain ⟨-, rfl⟩ := DestinationAction.send.inj heq
          exact absurd hbox (Nat.lt_irrefl _)
      | _ => cases haction
  | task htask hdest htasks => simp
  | close hl htasks => simp

/-- **Every step keeps the `Send` in its place**, and serves it when it is taken. -/
theorem Placed.step (h : Placed w start after d i k m k')
    (hserved : Served w start after d i k m k') {C : World → Label → Prop} {ls : List Label}
    (hrun : (lts p).Run C initial ls (start ++ after) w) (hturn : Turn p w l w' os)
    {call : DestinationCall} (hsent : dispatched k' call ∈ start) :
    Placed w' start (after ++ os) d i k m k' ∧ Served w' start (after ++ os) d i k m k' := by
  have hprov := provenance hrun
  have hnew : ∀ {a}, Caller p w d l w' os a → a ≠ .send m k' := fun hcaller =>
    hcaller.ne_send hprov.toCalls (List.mem_append_left after hsent)
  -- what is taken stood at the head of the queue
  have hhead : ∀ {u}, destination d (.took (.send m k') u) ∈ os →
      ∃ order D q, l = .backend d u order ∧ w.destinations d = some D ∧
        D.mailbox = .listening (.send m k' :: q) := fun htook => (hturn.took_cases htook).2.2.1
  cases h with
  | @stopped D hD hstopped =>
      obtain ⟨D', hD', hstopped'⟩ := hturn.stopped hD hstopped
      refine ⟨Placed.stopped hD' hstopped', hserved.step hturn fun u htook => ?_⟩
      obtain ⟨order, D₁, q, -, hD₁, hmail⟩ := hhead htook
      obtain rfl := Option.some.inj (hD.symm.trans hD₁)
      rw [hmail] at hstopped
      cases hstopped
  | @queued D q rest hD hqueue hfront hback hfirst hahead =>
      by_cases htook : ∃ u, destination d (.took (.send m k') u) ∈ os
      · obtain ⟨u, htook⟩ := htook
        obtain ⟨order, D₁, q₁, rfl, hD₁, hmail⟩ := hhead htook
        obtain rfl := Option.some.inj (hD.symm.trans hD₁)
        rw [hmail, Mailbox.queue_listening] at hqueue
        rcases List.cons_eq_append_iff.mp hqueue with ⟨rfl, hrest⟩ | ⟨q₂, rfl, -⟩
        · obtain ⟨-, rfl⟩ := List.cons.inj hrest
          refine ⟨Placed.taken (List.mem_append_right _ htook) fun D' hD' hin => ?_, ?_⟩
          · obtain ⟨-, hdest', -⟩ := hturn.performed_of_backend hD hmail (by simp)
            obtain rfl := Option.some.inj (hdest'.symm.trans hD')
            rcases InMemDestination.settle_mailbox (.listening rest) w.reply
              (D.backend.perform w.reply u order (.send m k')) with ⟨-, hm⟩ | ⟨-, hm⟩
            · rw [hm] at hin
              exact hback hin
            · rw [hm] at hin
              cases hin
          · cases hahead with
            | waits hin => cases hin
            | created hcreated hkept hlives =>
                exact Served.take hprov hturn htook hfirst hcreated hlives
        · exact absurd List.mem_cons_self hfront
      · have hno : ∀ u, destination d (.took (.send m k') u) ∉ os := fun u hin => htook ⟨u, hin⟩
        refine ⟨?_, hserved.step hturn hno⟩
        rcases hahead.step hprov (ownership hrun) hturn hD hqueue (by simp) with
          ⟨D', hD', hstopped'⟩ | ⟨D', q', new, hD', hqueue', hsuffix, hahead', hcallers⟩ |
          ⟨a, u, hin, hfront'⟩
        · exact Placed.stopped hD' hstopped'
        · refine Placed.queued hD' hqueue' ?_ ?_ ?_ ?_
          · exact fun hin => hfront (hsuffix.subset hin)
          · intro hin
            rcases List.mem_append.mp hin with hin | hin
            · exact hback hin
            · exact hnew (hcallers _ hin) rfl
          · intro u hin
            rcases List.mem_append.mp hin with hin | hin
            · exact hfirst u hin
            · exact hno u hin
          · rwa [List.append_assoc] at hahead'
        · obtain rfl := Option.some.inj hfront'
          exact absurd hin (hno u)
  | @taken u htook hnot =>
      constructor
      · refine Placed.taken (List.mem_append_left _ htook) fun D' hD' hin => ?_
        rcases (hturn.atDestination d).queued hD' hin with ⟨D, hD, hold⟩ | hcaller
        · exact hnot D hD hold
        · exact hnew hcaller rfl
      · refine hserved.step hturn fun u' hin => ?_
        obtain ⟨order, D, q, -, hD, hmail⟩ := hhead hin
        exact hnot D hD (Mailbox.head_mem_queue hmail)

/-- In every run that follows, the `Send` stays in its place. -/
theorem placed {C₀ C : World → Label → Prop} {ls₀ ls : List Label} {w₀ : World}
    (h₀ : (lts p).Run C₀ initial ls₀ start w₀) (h : (lts p).Run C w₀ ls after w)
    {call : DestinationCall} (hsent : dispatched k' call ∈ start)
    (hplaced : Placed w₀ start [] d i k m k') :
    Placed w start after d i k m k' ∧ Served w start after d i k m k' := by
  refine h.invariant (P := fun w after =>
    Placed w start after d i k m k' ∧ Served w start after d i k m k') ⟨hplaced, ?_⟩ ?_
  · intro pre u post heq
    simp at heq
  · rintro ls after os w w' l hrun ⟨hplaced, hserved⟩ - hstep
    exact hplaced.step hserved (h₀.free.trans hrun.free) (turn_of_step hstep) hsent

/-! ## The SEND -/

/-- **The SUBSCRIBE and the SEND reach the destination in order.**  `start` is what was
observed before the SEND is handled, `os` in that step, and `after` since.  Both calls are made
at the destination, the one for the SUBSCRIBE first, and it is in that order that the backend
takes them. -/
structure InOrder (w : World) (start os after : List Obs) (d : DestinationId)
    (i : SubscriptionId) (k : ProxyBox) (m : InboundMessage) (k' : ProxyBox) : Prop where
  called : ∃ b b', [destination d (.called (.subscribe (some i) k) b),
    destination d (.called (.send m k') b')].Sublist (start ++ os ++ after)
  known : unknownDestination k' ∉ os
  served : Served w (start ++ os) after d i k m k'
  processed : ∀ D, w.destinations d = some D → D.mailbox = .listening [] →
    ∃ u, destination d (.took (.send m k') u) ∈ after

/-- Nobody calls again with the box of a call. -/
theorem send_not_called {C₀ C : World → Label → Prop} {ls₀ ls : List Label} {w₀ : World}
    (h₀ : (lts p).Run C₀ initial ls₀ start w₀) (h : (lts p).Run C w₀ ls after w)
    {call : DestinationCall} (hsent : dispatched k' call ∈ start) (b : Bool) :
    destination d (.called (.send m k') b) ∉ after := by
  refine h.invariant (P := fun _ after => destination d (.called (.send m k') b) ∉ after)
    (by simp) ?_
  intro ls tr os w w' l hrun ih _ hstep hin
  rcases List.mem_append.mp hin with hin | hin
  · exact ih hin
  · have hcalls := (provenance (h₀.free.trans hrun.free)).toCalls
    have hcaller := (turn_of_step hstep).caller hin
    exact hcaller.ne_send hcalls (List.mem_append_left tr hsent) rfl

/-- **Called first is called before**: the `Send` is called in the step that handles the SEND
and in no other, so what is called in front of it has been called when that step begins. -/
theorem InOrder.reached {wB wB' : World} {C C' : World → Label → Prop} {ls ls' : List Label}
    (h : InOrder w start os after d i k m ⟨c, wB.boxes⟩)
    (hrun : (lts p).Run C initial ls start wB) (hstep : (lts p).step wB l = some (wB', os))
    (hafter : (lts p).Run C' wB' ls' after w) {call : DestinationCall}
    (hdispatched : dispatched ⟨c, wB.boxes⟩ call ∈ os) : Reached start d i k := by
  obtain ⟨b, b', hsub⟩ := h.called
  refine ⟨b, Trace.mem_of_pair_sublist hsub (fun hin hin' => ?_) ?_⟩
  · -- a step calls a destination once
    cases (turn_of_step hstep).called_unique hin hin'
  · exact send_not_called (hrun.free.snoc trivial hstep) hafter
      (List.mem_append_right start hdispatched) b'

/-- A call is rejected only if there is no destination. -/
theorem Turn.unknown_cases (h : Turn p w l w' os) (hin : unknownDestination k' ∈ os) :
    ∃ d m, dispatched k' (.send d m) ∈ os ∧ w.destinations d = none := by
  cases h with
  | @unknown c _ _ _ call d a hturn hinput hcall haction hdest =>
      cases call with
      | send d' m =>
          obtain ⟨rfl, -⟩ := Prod.mk.inj (Option.some.inj haction)
          obtain rfl : k' = ⟨c, w.boxes⟩ := by simpa [World.unknown] using hin
          exact ⟨_, m, List.mem_append_right _ List.mem_cons_self, hdest⟩
      | subscribe d' sub => simp [World.unknown] at hin
      | unsubscribe d' s => simp [World.unknown] at hin
  | _ => simp at hin

/-- A step dispatches one call at most. -/
theorem Turn.dispatched_unique (h : Turn p w l w' os) {call call' : DestinationCall}
    (hk : dispatched k call ∈ os) (hk' : dispatched k' call' ∈ os) : call = call' := by
  cases h.dispatch with
  | nothing hboxes hos htasks => exact absurd hk (hos _ _)
  | call hl hsturn hcall hsession hsos hboxes hos htasks =>
      rw [((hos _ _).mp hk).2, ((hos _ _).mp hk').2]

/-- **The step that handles the SEND** enqueues it behind what leaves the subscription there. -/
theorem Between.send (h : Between w tr d i k) {C : World → Label → Prop} {ls : List Label}
    (hrun : (lts p).Run C initial ls tr w) (hturn : Turn p w l w' os)
    (hcall : callOf (Obs.atSession c os) = some (.send d m))
    (hnone : ∀ t ∈ w.tasks, t.subscriber ≠ k) :
    Reached tr d i k ∧ (∃ b, destination d (.called (.send m ⟨c, w.boxes⟩) b) ∈ os) ∧
      unknownDestination ⟨c, w.boxes⟩ ∉ os ∧ Placed w' (tr ++ os) [] d i k m ⟨c, w.boxes⟩ := by
  have hprov := provenance hrun
  obtain ⟨hdispatched, hcases⟩ := hturn.call_cases hcall
  rcases h.stage with htask | ⟨hreached, D, hD, hstage⟩
  · exact absurd rfl (hnone _ htask)
  refine ⟨hreached, ?_, fun hunknown => ?_, ?_⟩
  · rcases hcases d _ rfl with ⟨hnone, -⟩ | ⟨D', hD', ⟨mail, -, -, hcalled⟩ | ⟨-, -, hcalled⟩⟩
    · simp [hD] at hnone
    · exact ⟨true, hcalled⟩
    · exact ⟨false, hcalled⟩
  · obtain ⟨d', m', hdispatched', hnone⟩ := hturn.unknown_cases hunknown
    obtain ⟨rfl, -⟩ := DestinationCall.send.inj (hturn.dispatched_unique hdispatched hdispatched')
    simp [hD] at hnone
  · rcases hcases d _ rfl with ⟨hnone, -⟩ | ⟨D', hD', ⟨mail, hsend, hdest', -⟩ |
      ⟨hgone, hdest', -⟩⟩
    · simp [hD] at hnone
    · obtain rfl := Option.some.inj (hD.symm.trans hD')
      rcases hstage with hstopped | hahead
      · exact Placed.stopped hdest' ((Mailbox.isListening_send hsend).trans hstopped)
      · refine Placed.queued hdest' (Mailbox.queue_send hsend) ?_ (by simp) (by simp) ?_
        · -- its box is new
          intro hin
          have hissued : dispatched ⟨c, w.boxes⟩ (.send d m) ∈ tr := hprov.queued d D hD _ hin
          exact absurd (hprov.box _ _ hissued) (Nat.lt_irrefl _)
        · rw [List.append_nil]
          exact hahead.stays hprov hturn hD (List.append_nil _).symm (by simp)
    · obtain rfl := Option.some.inj (hD.symm.trans hD')
      exact Placed.stopped hdest' (Mailbox.isListening_of_isGone hgone)

/-- The SUBSCRIBE comes between itself and what follows. -/
theorem between_of_subscribe {C : World → Label → Prop} {ls : List Label}
    (hrun : (lts p).Run C initial ls tr w) (hturn : Turn p w l w' os)
    (hcall : callOf (Obs.atSession c os) = some (.subscribe d (some i))) :
    Between w' (tr ++ os) d i ⟨c, w.boxes⟩ := by
  refine ⟨fun s k' hcreated => ?_, Or.inl (hturn.spawns (hturn.call_cases hcall).1)⟩
  exact absurd ((provenance hrun).box_of_created hturn hcreated) (Nat.lt_irrefl _)

/-- **When a SEND stays behind a SUBSCRIBE.**  A session handles SUBSCRIBE(i, d) and later
SEND(d, body), and no UNSUBSCRIBE(i) in between.  However the run goes on, the two reach
the destination in order, and the subscription is passed the message, if and only if the
task that was spawned for the SUBSCRIBE waits no longer when the SEND is handled. -/
theorem in_order_iff {lsA lsB lsC : List Label} {trA osA trB osB trC : List Obs}
    {wA wA' wB wB' wC : World} {lA lB : Label} {d i : String} {body : Bytes}
    (hA : (lts p).Run LTS.Free initial lsA trA wA)
    (hstepA : (lts p).step wA lA = some (wA', osA))
    (hsubscribe : Obs.session c (.handled (.clientFrame (.ok (.subscribe d i)))) ∈ osA)
    (hB : (lts p).Run LTS.Free wA' lsB trB wB)
    (hno : Obs.session c (.handled (.clientFrame (.ok (.unsubscribe i)))) ∉ trB)
    (hstepB : (lts p).step wB lB = some (wB', osB))
    (hsend : Obs.session c (.handled (.clientFrame (.ok (.send d (some body))))) ∈ osB)
    (hC : (lts p).Run LTS.Free wB' lsC trC wC) :
    InOrder wC (trA ++ osA ++ trB) osB trC ⟨d⟩ ⟨i⟩ ⟨c, wA.boxes⟩ ⟨none, body⟩ ⟨c, wB.boxes⟩ ↔
      ∀ t ∈ wB.tasks, t.subscriber ≠ ⟨c, wA.boxes⟩ := by
  have hturnA := turn_of_step hstepA
  have hturnB := turn_of_step hstepB
  have hA' : (lts p).Run LTS.Free initial (lsA ++ [lA]) (trA ++ osA) wA' := hA.snoc trivial hstepA
  have hrunB := hA'.trans hB
  have hcall := hturnB.dispatches hsend fun T => rfl
  have hdispatched := (hturnB.call_cases hcall).1
  constructor
  · intro horder t ht hbox
    obtain ⟨b, hcalled⟩ := horder.reached hrunB hstepB hC hdispatched
    refine (waiting hrunB).uncalled t ht ⟨d⟩ (some ⟨i⟩) b ?_
    rw [hbox]
    exact hcalled
  · intro hnone
    have hbetween : Between wB (trA ++ osA ++ trB) ⟨d⟩ ⟨i⟩ ⟨c, wA.boxes⟩ := by
      refine (hB.invariant (P := fun w tr =>
        Obs.session c (.handled (.clientFrame (.ok (.unsubscribe i)))) ∉ tr →
          Between w (trA ++ osA ++ tr) ⟨d⟩ ⟨i⟩ ⟨c, wA.boxes⟩) (fun _ => ?_) ?_) hno
      · rw [List.append_nil]
        exact between_of_subscribe hA hturnA (hturnA.dispatches hsubscribe fun T => rfl)
      · intro ls tr os w w' l hrun ih _ hstep hno
        rw [List.mem_append, not_or] at hno
        rw [← List.append_assoc]
        exact (ih hno.1).step (hA'.trans hrun) (turn_of_step hstep) hno.2
    obtain ⟨⟨b, hcalled⟩, ⟨b', hcalled'⟩, hknown, hplaced⟩ :=
      hbetween.send hrunB hturnB hcall hnone
    obtain ⟨hplaced', hserved⟩ := placed (hrunB.snoc trivial hstepB) hC
      (List.mem_append_right (trA ++ osA ++ trB) hdispatched) hplaced
    refine ⟨⟨b, b', ?_⟩, hknown, hserved, fun D hD hidle => ?_⟩
    · rw [List.append_assoc]
      exact (List.singleton_sublist.mpr hcalled).append
        (List.singleton_sublist.mpr (List.mem_append_left trC hcalled'))
    cases hplaced' with
    | stopped hD' hstopped =>
        obtain rfl := Option.some.inj (hD.symm.trans hD')
        rw [hidle] at hstopped
        cases hstopped
    | queued hD' hqueue hfront hback hfirst hahead =>
        obtain rfl := Option.some.inj (hD.symm.trans hD')
        rw [hidle] at hqueue
        simp at hqueue
    | taken htook hnot => exact ⟨_, htook⟩

/-- The theorem applied to a client whose SEND is handled when the task has called, but
before the backend has taken the `Subscribe`. -/
theorem in_order_iff_called :
    let p := sampleParams []
    ∃ trA osA trB osB trC wA wA' wB wB' wC,
      (lts p).Run LTS.Free initial [.connects 0] trA wA ∧
      (lts p).step wA (.frame 0 sampleSubscribe) = some (wA', osA) ∧
      (lts p).Run LTS.Free wA' [.create sampleDestination, .subscribe 0] trB wB ∧
      (lts p).step wB (.frame 0 sampleSend) = some (wB', osB) ∧
      (lts p).Run LTS.Free wB' [.backend sampleDestination "uuid-0" [],
        .backend sampleDestination "uuid-1" [⟨"uuid-0"⟩]] trC wC ∧
      InOrder wC (trA ++ osA ++ trB) osB trC sampleDestination ⟨"sub-0"⟩ ⟨0, wA.boxes⟩
        ⟨none, ascii "hello"⟩ ⟨0, wB.boxes⟩ := by
  intro p
  let rA := ((lts p).exec LTS.Free initial [.connects 0]).get (by decide)
  let rA' := ((lts p).step rA.1 (.frame 0 sampleSubscribe)).get (by decide)
  let rB := ((lts p).exec LTS.Free rA'.1 [.create sampleDestination, .subscribe 0]).get (by decide)
  let rB' := ((lts p).step rB.1 (.frame 0 sampleSend)).get (by decide)
  let rC := ((lts p).exec LTS.Free rB'.1 [.backend sampleDestination "uuid-0" [],
    .backend sampleDestination "uuid-1" [⟨"uuid-0"⟩]]).get (by decide)
  have hA : (lts p).Run LTS.Free initial _ rA.2 rA.1 := LTS.Run.exec_get _ _ _ _ (by decide)
  have hstepA : (lts p).step rA.1 (.frame 0 sampleSubscribe) = some (rA'.1, rA'.2) :=
    LTS.step_get _ _ _ (by decide)
  have hB : (lts p).Run LTS.Free rA'.1 _ rB.2 rB.1 := LTS.Run.exec_get _ _ _ _ (by decide)
  have hstepB : (lts p).step rB.1 (.frame 0 sampleSend) = some (rB'.1, rB'.2) :=
    LTS.step_get _ _ _ (by decide)
  have hC : (lts p).Run LTS.Free rB'.1 _ rC.2 rC.1 := LTS.Run.exec_get _ _ _ _ (by decide)
  have hnone : rB.1.tasks = [] := by decide
  exact ⟨_, _, _, _, _, _, _, _, _, _, hA, hstepA, hB, hstepB, hC,
    (in_order_iff hA hstepA (d := "/queue/a") (i := "sub-0") (by decide) hB (by decide) hstepB
      (by decide) hC).mpr (by simp [hnone])⟩

/-- **A SEND can overtake the SUBSCRIBE**: handled right behind it, it finds no destination. -/
theorem send_overtakes :
    ¬ ∀ (p : Params) (c : SessionId) (lsA lsB lsC : List Label) (trA osA trB osB trC : List Obs)
        (wA wA' wB wB' wC : World) (lA lB : Label) (d i : String) (body : Bytes),
      (lts p).Run LTS.Free initial lsA trA wA → (lts p).step wA lA = some (wA', osA) →
      Obs.session c (.handled (.clientFrame (.ok (.subscribe d i)))) ∈ osA →
      (lts p).Run LTS.Free wA' lsB trB wB →
      Obs.session c (.handled (.clientFrame (.ok (.unsubscribe i)))) ∉ trB →
      (lts p).step wB lB = some (wB', osB) →
      Obs.session c (.handled (.clientFrame (.ok (.send d (some body))))) ∈ osB →
      (lts p).Run LTS.Free wB' lsC trC wC →
      InOrder wC (trA ++ osA ++ trB) osB trC ⟨d⟩ ⟨i⟩ ⟨c, wA.boxes⟩ ⟨none, body⟩ ⟨c, wB.boxes⟩ := by
  intro hall
  let p := sampleParams []
  let rA := ((lts p).exec LTS.Free initial [.connects 0]).get (by decide)
  let rA' := ((lts p).step rA.1 (.frame 0 sampleSubscribe)).get (by decide)
  let rB := ((lts p).step rA'.1 (.frame 0 sampleSend)).get (by decide)
  have hA : (lts p).Run LTS.Free initial _ rA.2 rA.1 := LTS.Run.exec_get _ _ _ _ (by decide)
  have hstepA : (lts p).step rA.1 (.frame 0 sampleSubscribe) = some (rA'.1, rA'.2) :=
    LTS.step_get _ _ _ (by decide)
  have hstepB : (lts p).step rA'.1 (.frame 0 sampleSend) = some (rB.1, rB.2) :=
    LTS.step_get _ _ _ (by decide)
  have horder := hall p 0 _ _ _ _ _ _ _ _ _ _ _ _ _ _ _ "/queue/a" "sub-0" (ascii "hello") hA
    hstepA (by decide) (LTS.Run.refl _) (by simp) hstepB (by decide) (LTS.Run.refl _)
  exact horder.known (by decide)

end World
