/-
# What one step of a destination does

The specifications of the functions of `InMemory.lean`, in the form in which all later
proofs use them: what the backend holds after each action, which calls it makes, and the
cases of a handle's call and of a turn of the loop.
-/
import LittleStomper.InMemory

variable {κ : Type}

/-! ## The map of subscriptions -/

namespace InMemDestinationBackend

/-- Removing some ids one after the other. -/
theorem lookup_foldl_erase (ids : List SubscriptionId) (m : Subscriptions κ)
    (s : SubscriptionId) :
    (ids.foldl (fun m subId => m.erase subId) m).lookup s
      = if s ∈ ids then none else m.lookup s := by
  induction ids generalizing m with
  | nil => simp
  | cons id ids ih =>
    rw [List.foldl_cons, ih]
    by_cases hs : s = id
    · subst hs
      simp
    · simp [hs, AList.lookup_erase_ne hs]

variable (b : InMemDestinationBackend κ) (answers : Answers κ) (uuid : String)
  (order : List SubscriptionId)

/-- `add_subscription` calls back with the new id. -/
theorem addSubscription_snd (sub : Option SubscriptionId) (k : κ) :
    (b.addSubscription uuid sub k).2 = [.subscribeCallback k b.id sub (.ok ⟨uuid⟩)] := by
  simp [addSubscription]

/-- `add_subscription` stores the subscription under its own id. -/
theorem addSubscription_fst (sub : Option SubscriptionId) (k : κ) :
    (b.addSubscription uuid sub k).1
      = { b with subscriptions := b.subscriptions.insert ⟨uuid⟩ ⟨⟨uuid⟩, sub, k⟩ } := rfl

/-! ## The loop of `send` -/

/-- Without a panic the loop passes the message to every subscription, and collects those
that fail. -/
theorem sendLoop_eq (m : OutboundMessage) (subs : List (Subscription κ))
    (h : ∀ s ∈ subs, answers (s.send m) ≠ .panic) :
    sendLoop answers m subs
      = (subs.map (·.send m),
          some ((subs.filter fun s => answers (s.send m) = .err).map (·.id))) := by
  induction subs with
  | nil => rfl
  | cons s subs ih =>
    have hs := h s List.mem_cons_self
    have ih := ih fun s' hs' => h s' (List.mem_cons_of_mem _ hs')
    rw [sendLoop, ih]
    cases hreply : answers (s.send m) with
    | ok => simp [hreply]
    | err => simp [hreply]
    | panic => exact absurd hreply hs

/-- Where a subscription does not panic, the loop goes on to the others. -/
theorem sendLoop_cons_fst {m : OutboundMessage} {s : Subscription κ}
    (subs : List (Subscription κ)) (h : answers (s.send m) ≠ .panic) :
    (sendLoop answers m (s :: subs)).1 = s.send m :: (sendLoop answers m subs).1 := by
  rw [sendLoop]
  cases hreply : answers (s.send m) with
  | panic => exact absurd hreply h
  | _ => rfl

/-- The loop calls nothing but `send` of the subscriptions. -/
theorem mem_sendLoop {m : OutboundMessage} {subs : List (Subscription κ)} {i : Invocation κ}
    (h : i ∈ (sendLoop answers m subs).1) : ∃ s ∈ subs, i = s.send m := by
  induction subs with
  | nil => simp [sendLoop] at h
  | cons s subs ih =>
    by_cases hreply : answers (s.send m) = .panic
    · rw [sendLoop, hreply] at h
      exact ⟨s, List.mem_cons_self, List.mem_singleton.mp h⟩
    · rw [sendLoop_cons_fst answers subs hreply] at h
      rcases List.mem_cons.mp h with rfl | h
      · exact ⟨s, List.mem_cons_self, rfl⟩
      · obtain ⟨s', hs', rfl⟩ := ih h
        exact ⟨s', List.mem_cons_of_mem _ hs', rfl⟩

/-- The loop ends without a result exactly if a call panicked. -/
theorem sendLoop_snd_eq_none (m : OutboundMessage) (subs : List (Subscription κ)) :
    (sendLoop answers m subs).2 = none
      ↔ ∃ i ∈ (sendLoop answers m subs).1, answers i = .panic := by
  induction subs with
  | nil => simp [sendLoop]
  | cons s subs ih =>
    rw [sendLoop]
    cases hreply : answers (s.send m) with
    | panic => simp [hreply]
    | ok => simpa [hreply] using ih
    | err => simpa [hreply] using ih

/-- A subscription that panics ends the loop. -/
theorem exists_panic_sendLoop {m : OutboundMessage} {subs : List (Subscription κ)}
    (h : ∃ s ∈ subs, answers (s.send m) = .panic) :
    ∃ i ∈ (sendLoop answers m subs).1, answers i = .panic := by
  induction subs with
  | nil => simp at h
  | cons s subs ih =>
      by_cases hreply : answers (s.send m) = .panic
      · rw [sendLoop, hreply]
        exact ⟨s.send m, List.mem_cons_self, hreply⟩
      · obtain ⟨s', hs', hpanic⟩ := h
        have hne : s' ≠ s := by
          rintro rfl
          exact hreply hpanic
        obtain ⟨i, hi, hip⟩ := ih ⟨s', List.mem_of_ne_of_mem hne hs', hpanic⟩
        rw [sendLoop_cons_fst answers subs hreply]
        exact ⟨i, List.mem_cons_of_mem _ hi, hip⟩

/-- A subscription is found under its key. -/
theorem mem_values {order : List SubscriptionId} {sub : Subscription κ}
    (horder : order.Perm b.subscriptions.keys) :
    sub ∈ b.values order ↔ ∃ s, b.subscriptions.lookup s = some sub := by
  simp only [values, List.mem_filterMap]
  constructor
  · rintro ⟨s, -, hs⟩
    exact ⟨s, hs⟩
  · rintro ⟨s, hs⟩
    refine ⟨s, horder.mem_iff.mpr ?_, hs⟩
    rw [← AList.mem_keys, ← AList.lookup_isSome, hs]
    rfl

/-! ## Performing an action -/

/-- No action changes the destination's id. -/
@[simp] theorem perform_id (a : DestinationAction κ) :
    (b.perform answers uuid order a).1.id = b.id := by
  cases a with
  | send message k =>
    simp only [perform, send]
    split <;> rfl
  | _ => rfl

/-- **The map after `Subscribe`.** -/
theorem lookup_perform_subscribe (sub : Option SubscriptionId) (k : κ) (s : SubscriptionId) :
    (b.perform answers uuid order (.subscribe sub k)).1.subscriptions.lookup s
      = if s = ⟨uuid⟩ then some ⟨⟨uuid⟩, sub, k⟩ else b.subscriptions.lookup s := by
  rw [perform, addSubscription_fst]
  split_ifs with h
  · rw [h, AList.lookup_insert]
  · exact AList.lookup_insert_ne h

/-- **The map after `Unsubscribe`.** -/
theorem lookup_perform_unsubscribe (subId : SubscriptionId) (k : κ) (s : SubscriptionId) :
    (b.perform answers uuid order (.unsubscribe subId k)).1.subscriptions.lookup s
      = if s = subId then none else b.subscriptions.lookup s := by
  show (b.subscriptions.erase subId).lookup s = _
  split_ifs with h
  · rw [h, AList.lookup_erase]
  · exact AList.lookup_erase_ne h

/-- The subscriptions `send` removes: those it found under an id of their own that failed. -/
def deadOf (m : OutboundMessage) : List SubscriptionId :=
  ((b.values order).filter fun s => answers (s.send m) = .err).map (·.id)

/-- **`Send` without a panic**: every subscription is sent the message, then the sender is
called back. -/
theorem perform_send_snd (message : InboundMessage) (k : κ)
    (h : ∀ s ∈ b.values order, answers (s.send (b.outMessage uuid message)) ≠ .panic) :
    (b.perform answers uuid order (.send message k)).2
      = (b.values order).map (·.send (b.outMessage uuid message))
        ++ [.sendCallback k message.senderMessageId (.ok ⟨uuid⟩)] := by
  rw [perform, send, sendLoop_eq answers _ _ h]

/-- **The map after `Send` without a panic.** -/
theorem lookup_perform_send (message : InboundMessage) (k : κ) (s : SubscriptionId)
    (h : ∀ s ∈ b.values order, answers (s.send (b.outMessage uuid message)) ≠ .panic) :
    (b.perform answers uuid order (.send message k)).1.subscriptions.lookup s
      = if s ∈ b.deadOf answers order (b.outMessage uuid message) then none
        else b.subscriptions.lookup s := by
  rw [perform, send, sendLoop_eq answers _ _ h]
  exact lookup_foldl_erase _ _ _

/-- **What the map can hold after an action**: the new subscription, or what it held. -/
theorem lookup_perform {a : DestinationAction κ} {s : SubscriptionId} {sub : Subscription κ}
    (h : (b.perform answers uuid order a).1.subscriptions.lookup s = some sub) :
    (∃ i k, a = .subscribe i k ∧ s = ⟨uuid⟩ ∧ sub = ⟨⟨uuid⟩, i, k⟩) ∨
      b.subscriptions.lookup s = some sub := by
  cases a with
  | subscribe i k =>
      rw [lookup_perform_subscribe] at h
      split_ifs at h with hs
      · exact Or.inl ⟨i, k, rfl, hs, (Option.some.inj h).symm⟩
      · exact Or.inr h
  | unsubscribe subId k =>
      rw [lookup_perform_unsubscribe] at h
      split_ifs at h with hs
      exact Or.inr h
  | send message k =>
      right
      rw [perform, send] at h
      split at h
      · exact h
      · rw [lookup_foldl_erase] at h
        split_ifs at h with hdead
        exact h
  | close => exact Or.inr h

/-! ## The calls an action leads to -/

/-- The calls of `send` an action asks for. -/
def sends : DestinationAction κ → List (Invocation κ)
  | .send message _ => (b.values order).map (·.send (b.outMessage uuid message))
  | _ => []

/-- The callback with which the backend answers an action. -/
def answer : DestinationAction κ → Option (Invocation κ)
  | .subscribe sub k => some (.subscribeCallback k b.id sub (.ok ⟨uuid⟩))
  | .unsubscribe subId k => some (.unsubscribeCallback k
      ((b.subscriptions.lookup subId).bind fun subscription => subscription.subscriberSubId)
      (.ok subId))
  | .send message k => some (.sendCallback k message.senderMessageId (.ok ⟨uuid⟩))
  | .close => none

/-- **The calls of an action**, if no `send` panics: the `send`s, then the answer. -/
theorem perform_snd (a : DestinationAction κ)
    (h : ∀ i ∈ b.sends uuid order a, answers i ≠ .panic) :
    (b.perform answers uuid order a).2
      = b.sends uuid order a ++ (b.answer uuid a).toList := by
  cases a with
  | subscribe sub k => exact addSubscription_snd b uuid sub k
  | unsubscribe subId k => rfl
  | send message k =>
      refine perform_send_snd b answers uuid order message k fun s hs => h _ ?_
      exact List.mem_map.mpr ⟨s, hs, rfl⟩
  | close => rfl

/-- If a `send` panics, then the backend does, before it answers. -/
theorem perform_snd_of_panic (a : DestinationAction κ)
    (h : ∃ i ∈ b.sends uuid order a, answers i = .panic) :
    (∃ i ∈ (b.perform answers uuid order a).2, answers i = .panic) ∧
      ∀ i ∈ (b.perform answers uuid order a).2, i ∈ b.sends uuid order a := by
  cases a with
  | send message k =>
      set m := b.outMessage uuid message
      have hnone : (sendLoop answers m (b.values order)).2 = none := by
        rw [sendLoop_snd_eq_none]
        obtain ⟨i, hi, hpanic⟩ := h
        obtain ⟨s, hs, rfl⟩ := List.mem_map.mp hi
        exact exists_panic_sendLoop answers ⟨s, hs, hpanic⟩
      have hsnd : (b.perform answers uuid order (.send message k)).2
          = (sendLoop answers m (b.values order)).1 := by
        rw [perform, send, hnone]
      rw [hsnd]
      refine ⟨(sendLoop_snd_eq_none answers m _).mp hnone, fun i hi => ?_⟩
      obtain ⟨s, hs, rfl⟩ := mem_sendLoop answers hi
      exact List.mem_map.mpr ⟨s, hs, rfl⟩
  | subscribe sub k => simp [sends] at h
  | unsubscribe subId k => simp [sends] at h
  | close => simp [sends] at h

/-- The backend makes no other calls. -/
theorem mem_perform {a : DestinationAction κ} {i : Invocation κ}
    (h : i ∈ (b.perform answers uuid order a).2) :
    i ∈ b.sends uuid order a ∨ i ∈ b.answer uuid a := by
  by_cases hpanic : ∃ i ∈ b.sends uuid order a, answers i = .panic
  · exact Or.inl ((perform_snd_of_panic b answers uuid order a hpanic).2 i h)
  · rw [perform_snd b answers uuid order a fun i hi hp => hpanic ⟨i, hi, hp⟩] at h
    rcases List.mem_append.mp h with hi | hi
    · exact Or.inl hi
    · exact Or.inr (Option.mem_toList.mp hi)

/-- The `send`s of an action go to subscriptions the map holds. -/
theorem mem_sends {a : DestinationAction κ} {i : Invocation κ}
    (horder : order.Perm b.subscriptions.keys) :
    i ∈ b.sends uuid order a ↔ ∃ message k s sub, a = .send message k ∧
      b.subscriptions.lookup s = some sub ∧ i = sub.send (b.outMessage uuid message) := by
  constructor
  · intro h
    cases a with
    | send message k =>
        obtain ⟨sub, hsub, rfl⟩ := List.mem_map.mp h
        obtain ⟨s, hs⟩ := (mem_values b horder).mp hsub
        exact ⟨message, k, s, sub, rfl, hs, rfl⟩
    | subscribe sub k => simp [sends] at h
    | unsubscribe subId k => simp [sends] at h
    | close => simp [sends] at h
  · rintro ⟨message, k, s, sub, rfl, hs, rfl⟩
    exact List.mem_map.mpr ⟨sub, (mem_values b horder).mpr ⟨s, hs⟩, rfl⟩

/-! ## Subscriptions under their own id -/

/-- Every subscription is stored under its own id. -/
def Keyed (b : InMemDestinationBackend κ) : Prop :=
  ∀ s sub, b.subscriptions.lookup s = some sub → sub.id = s

/-- The ids of the values are the keys, in the same order. -/
theorem Keyed.map_id_values {b : InMemDestinationBackend κ} (hkeyed : b.Keyed)
    {order : List SubscriptionId} (h : ∀ s ∈ order, s ∈ b.subscriptions.keys) :
    (b.values order).map (·.id) = order := by
  induction order with
  | nil => rfl
  | cons s order ih =>
    have hs : (b.subscriptions.lookup s).isSome := by
      rw [AList.lookup_isSome, AList.mem_keys]
      exact h s List.mem_cons_self
    obtain ⟨sub, hsub⟩ := Option.isSome_iff_exists.mp hs
    have ih := ih fun s' hs' => h s' (List.mem_cons_of_mem _ hs')
    rw [values] at ih ⊢
    simp only [List.filterMap_cons, hsub, List.map_cons, ih, hkeyed s sub hsub]

/-- The subscription found under `s` is removed by `send` exactly if its own call fails. -/
theorem Keyed.mem_deadOf {b : InMemDestinationBackend κ} (hkeyed : b.Keyed)
    {answers : Answers κ} {order : List SubscriptionId} {m : OutboundMessage}
    (horder : order.Perm b.subscriptions.keys) {s : SubscriptionId} {sub : Subscription κ}
    (hs : b.subscriptions.lookup s = some sub) :
    s ∈ b.deadOf answers order m ↔ answers (sub.send m) = .err := by
  simp only [deadOf, List.mem_map, List.mem_filter, mem_values b horder, decide_eq_true_eq]
  constructor
  · rintro ⟨sub', ⟨⟨s', hs'⟩, herr⟩, rfl⟩
    rw [hkeyed s' sub' hs'] at hs
    rw [hs'] at hs
    rwa [← Option.some.inj hs]
  · intro herr
    exact ⟨sub, ⟨⟨s, hs⟩, herr⟩, hkeyed s sub hs⟩

end InMemDestinationBackend

/-! ## The cases of a step -/

namespace InMemDestination

variable {d d' : InMemDestination κ} {answers : Answers κ} {uuid : String}
  {order : List SubscriptionId} {os : List (DestinationObs κ)} {a : DestinationAction κ}

/-- **What a handle's call does**: the action is enqueued, or there is no receiver and the
handle answers itself. -/
theorem call_cases (d : InMemDestination κ) (answers : Answers κ) (a : DestinationAction κ) :
    (∃ m, d.mailbox.send a = some m ∧ d.call answers a = (⟨d.backend, m⟩, [.called a true])) ∨
      (d.mailbox.isGone = true ∧ d.call answers a
        = (d, .called a false :: observe answers (failure d.backend.id a))) := by
  rw [call]
  cases h : d.mailbox.send a with
  | some m => exact Or.inl ⟨m, rfl, rfl⟩
  | none => exact Or.inr ⟨Mailbox.send_eq_none.mp h, rfl⟩

/-- **What a turn of the loop does**: the loop runs and takes the first action; `Close`
leaves it, any other action is performed, and the loop goes on unless a call panicked. -/
theorem process_cases (h : d.process answers uuid order = some (d', os)) :
    order.Perm d.backend.subscriptions.keys ∧
      ∃ a q, d.mailbox = .listening (a :: q) ∧
        ((a = .close ∧ d' = ⟨d.backend, .leaving q⟩ ∧ os = [.took .close uuid]) ∨
          (a ≠ .close ∧
            d' = settle (.listening q) answers (d.backend.perform answers uuid order a) ∧
            os = .took a uuid
              :: observe answers (d.backend.perform answers uuid order a).2)) := by
  rw [process] at h
  split at h
  · rename_i hperm
    refine ⟨List.isPerm_iff.mp hperm, ?_⟩
    cases hrecv : d.mailbox.recv with
    | none => simp [hrecv] at h
    | some r =>
      obtain ⟨a, m⟩ := r
      obtain ⟨q, hq, rfl⟩ := Mailbox.recv_eq_some.mp hrecv
      rw [hrecv] at h
      refine ⟨a, q, hq, ?_⟩
      cases a <;>
        (obtain ⟨rfl, rfl⟩ := Prod.mk.inj (Option.some.inj h)
         simp)
  · simp at h

/-- What closing the receiver does. -/
theorem finish_cases (h : d.finish = some (d', os)) :
    ∃ q, d.mailbox = .leaving q ∧ d' = ⟨d.backend, .finished⟩ ∧ os = [.finished] := by
  rw [finish] at h
  cases hm : d.mailbox with
  | leaving q =>
    rw [hm] at h
    obtain ⟨rfl, rfl⟩ := Prod.mk.inj (Option.some.inj h)
    exact ⟨q, rfl, rfl, rfl⟩
  | _ => simp [hm] at h

@[simp] theorem settle_backend (m : Mailbox (DestinationAction κ)) (answers : Answers κ)
    (r : InMemDestinationBackend κ × List (Invocation κ)) :
    (settle m answers r).backend = r.1 := rfl

/-- The loop goes on if no call panicked. -/
theorem settle_mailbox (m : Mailbox (DestinationAction κ)) (answers : Answers κ)
    (r : InMemDestinationBackend κ × List (Invocation κ)) :
    ((∀ i ∈ r.2, answers i ≠ .panic) ∧ (settle m answers r).mailbox = m) ∨
      ((∃ i ∈ r.2, answers i = .panic) ∧ (settle m answers r).mailbox = .panicked) := by
  by_cases h : ∃ i ∈ r.2, answers i = .panic
  · refine Or.inr ⟨h, ?_⟩
    simp only [settle]
    rw [if_pos (by simpa using h)]
  · refine Or.inl ⟨fun i hi hp => h ⟨i, hi, hp⟩, ?_⟩
    simp only [settle]
    rw [if_neg (by simpa using h)]

/-! ## The steps of a destination and its handles -/

/-- **All that can happen at a destination**, with the state and the observations it leads
to: `Turn s l s' os` has one case for each way in which a label can be carried out. -/
inductive Turn (s : DestinationRun κ) :
    DestinationLabel κ → DestinationRun κ → List (DestinationObs κ) → Prop
  /-- An action is enqueued. -/
  | accepted {a : DestinationAction κ} {answers : Answers κ} {m : Mailbox (DestinationAction κ)}
      (fresh : ∀ k ∈ a.caller?, k ∉ s.closures) (hsend : s.destination.mailbox.send a = some m) :
      Turn s (.call a answers)
        ⟨⟨s.destination.backend, m⟩, s.uuids, a.caller?.toList ++ s.closures⟩ [.called a true]
  /-- There is no receiver, and the handle answers itself. -/
  | refused {a : DestinationAction κ} {answers : Answers κ}
      (fresh : ∀ k ∈ a.caller?, k ∉ s.closures) (gone : s.destination.mailbox.isGone = true) :
      Turn s (.call a answers) ⟨s.destination, s.uuids, a.caller?.toList ++ s.closures⟩
        (.called a false :: observe answers (failure s.destination.backend.id a))
  /-- The backend takes a `Close` and leaves the loop. -/
  | closed {uuid : String} {order : List SubscriptionId} {answers : Answers κ}
      {q : List (DestinationAction κ)} (fresh : uuid ∉ s.uuids)
      (hmail : s.destination.mailbox = .listening (.close :: q)) :
      Turn s (.process uuid order answers)
        ⟨⟨s.destination.backend, .leaving q⟩, uuid :: s.uuids, s.closures⟩ [.took .close uuid]
  /-- The backend takes and performs another action. -/
  | performed {uuid : String} {order : List SubscriptionId} {answers : Answers κ}
      {a : DestinationAction κ} {q : List (DestinationAction κ)} (fresh : uuid ∉ s.uuids)
      (horder : order.Perm s.destination.backend.subscriptions.keys)
      (hmail : s.destination.mailbox = .listening (a :: q)) (hclose : a ≠ .close) :
      Turn s (.process uuid order answers)
        ⟨settle (.listening q) answers (s.destination.backend.perform answers uuid order a),
          uuid :: s.uuids, s.closures⟩
        (.took a uuid :: observe answers (s.destination.backend.perform answers uuid order a).2)
  /-- The backend closes its receiver. -/
  | finished {q : List (DestinationAction κ)} (hmail : s.destination.mailbox = .leaving q) :
      Turn s .finish ⟨⟨s.destination.backend, .finished⟩, s.uuids, s.closures⟩ [.finished]

/-- Every step is one of these cases. -/
theorem turn_of_step [DecidableEq κ] {s s' : DestinationRun κ} {l : DestinationLabel κ}
    (h : lts.step s l = some (s', os)) : Turn s l s' os := by
  cases l with
  | call a answers =>
      simp only [lts] at h
      split at h
      · rename_i hfresh
        obtain ⟨rfl, rfl⟩ := Prod.mk.inj (Option.some.inj h)
        rcases call_cases s.destination answers a with ⟨m, hm, hcall⟩ | ⟨hgone, hcall⟩
        · rw [hcall]
          exact Turn.accepted hfresh hm
        · rw [hcall]
          exact Turn.refused hfresh hgone
      · simp at h
  | process uuid order answers =>
      simp only [lts] at h
      split at h
      · simp at h
      · rename_i hfresh
        obtain ⟨⟨d', os'⟩, hproc, heq⟩ := Option.map_eq_some_iff.mp h
        obtain ⟨rfl, rfl⟩ := Prod.mk.inj heq
        obtain ⟨horder, a, q, hmail, hcase⟩ := process_cases hproc
        rcases hcase with ⟨rfl, rfl, rfl⟩ | ⟨hclose, rfl, rfl⟩
        · exact Turn.closed hfresh hmail
        · exact Turn.performed hfresh horder hmail hclose
  | finish =>
      simp only [lts] at h
      obtain ⟨⟨d', os'⟩, hfin, heq⟩ := Option.map_eq_some_iff.mp h
      obtain ⟨rfl, rfl⟩ := Prod.mk.inj heq
      obtain ⟨q, hmail, rfl, rfl⟩ := finish_cases hfin
      exact Turn.finished hmail

end InMemDestination
