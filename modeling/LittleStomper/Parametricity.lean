/-
# Destinations do not look at their callers

The closures in the actions of a destination forward to subscribers and senders.  A
destination calls them, and never looks at them: two destinations that differ only in
these objects go on to differ only in them, as long as the objects answer alike.

`r k k'` says that `k'` takes the place of `k`.  Each type that mentions such objects has
its relation `Rel r`, and `Rel.call`, `Rel.process` and `Rel.finish` say that every step
leads from related states to related ones, with related observations.
-/
import LittleStomper.InMemoryStep
import Mathlib.Data.List.Forall2

/-- What corresponds to something is something. -/
theorem Option.Rel.of_some {α β : Type*} {R : α → β → Prop} {a : α} {o : Option β}
    (h : Option.Rel R (Option.some a) o) : ∃ b, o = Option.some b ∧ R a b := by
  cases h with
  | some hab => exact ⟨_, rfl, hab⟩

/-! ## Mailboxes -/

namespace Mailbox

variable {α β : Type*} {R : α → β → Prop} {m : Mailbox α} {m' : Mailbox β} {a : α} {b : β}

/-- Two mailboxes in the same state, whose items correspond. -/
inductive Rel (R : α → β → Prop) : Mailbox α → Mailbox β → Prop
  | listening {q : List α} {q' : List β} (h : List.Forall₂ R q q') :
      Rel R (.listening q) (.listening q')
  | leaving {q : List α} {q' : List β} (h : List.Forall₂ R q q') : Rel R (.leaving q) (.leaving q')
  | finished : Rel R .finished .finished
  | panicked : Rel R .panicked .panicked

/-- Corresponding items are both accepted or both refused. -/
theorem Rel.send (h : m.Rel R m') (hab : R a b) : Option.Rel (Rel R) (m.send a) (m'.send b) := by
  have hone : List.Forall₂ R [a] [b] := List.Forall₂.cons hab List.Forall₂.nil
  cases h with
  | listening hq => exact Option.Rel.some (Rel.listening (List.rel_append hq hone))
  | leaving hq => exact Option.Rel.some (Rel.leaving (List.rel_append hq hone))
  | finished => exact Option.Rel.none
  | panicked => exact Option.Rel.none

/-- The first items correspond, and so does what is left. -/
theorem Rel.recv (h : m.Rel R m') :
    Option.Rel (fun x y => R x.1 y.1 ∧ Rel R x.2 y.2) m.recv m'.recv := by
  cases h with
  | listening hq =>
      cases hq with
      | nil => exact Option.Rel.none
      | cons hab hrest => exact Option.Rel.some ⟨hab, Rel.listening hrest⟩
  | _ => exact Option.Rel.none

/-- Leaving the loop keeps the items. -/
theorem Rel.leave (h : m.Rel R m') : m.leave.Rel R m'.leave := by
  cases h with
  | listening hq => exact Rel.leaving hq
  | leaving hq => exact Rel.leaving hq
  | finished => exact Rel.finished
  | panicked => exact Rel.panicked

end Mailbox

/-! ## Actions, calls and observations -/

variable {κ κ' : Type} {r : κ → κ' → Prop}

/-- The same call of corresponding objects. -/
inductive Invocation.Rel (r : κ → κ' → Prop) : Invocation κ → Invocation κ' → Prop
  | subscribeCallback {k : κ} {k' : κ'} (h : r k k') (d : DestinationId)
      (sub : Option SubscriptionId) (result : StomperResult SubscriptionId) :
      Rel r (.subscribeCallback k d sub result) (.subscribeCallback k' d sub result)
  | unsubscribeCallback {k : κ} {k' : κ'} (h : r k k') (sub : Option SubscriptionId)
      (result : StomperResult SubscriptionId) :
      Rel r (.unsubscribeCallback k sub result) (.unsubscribeCallback k' sub result)
  | send {k : κ} {k' : κ'} (h : r k k') (s : SubscriptionId) (sub : Option SubscriptionId)
      (m : OutboundMessage) : Rel r (.send k s sub m) (.send k' s sub m)
  | sendCallback {k : κ} {k' : κ'} (h : r k k') (id : Option MessageId)
      (result : StomperResult MessageId) :
      Rel r (.sendCallback k id result) (.sendCallback k' id result)

/-- The same action on behalf of corresponding objects. -/
inductive DestinationAction.Rel (r : κ → κ' → Prop) :
    DestinationAction κ → DestinationAction κ' → Prop
  | subscribe {k : κ} {k' : κ'} (sub : Option SubscriptionId) (h : r k k') :
      Rel r (.subscribe sub k) (.subscribe sub k')
  | unsubscribe {k : κ} {k' : κ'} (s : SubscriptionId) (h : r k k') :
      Rel r (.unsubscribe s k) (.unsubscribe s k')
  | send {k : κ} {k' : κ'} (message : InboundMessage) (h : r k k') :
      Rel r (.send message k) (.send message k')
  | close : Rel r .close .close

/-- The same subscription of corresponding objects. -/
structure Subscription.Rel (r : κ → κ' → Prop) (s : Subscription κ) (s' : Subscription κ') :
    Prop where
  ident : s'.id = s.id
  subId : s'.subscriberSubId = s.subscriberSubId
  sendFn : r s.sendFn s'.sendFn

/-- The same observation of corresponding objects. -/
inductive DestinationObs.Rel (r : κ → κ' → Prop) : DestinationObs κ → DestinationObs κ' → Prop
  | called {a : DestinationAction κ} {a' : DestinationAction κ'} (h : a.Rel r a')
      (accepted : Bool) : Rel r (.called a accepted) (.called a' accepted)
  | took {a : DestinationAction κ} {a' : DestinationAction κ'} (h : a.Rel r a') (uuid : String) :
      Rel r (.took a uuid) (.took a' uuid)
  | invoked {i : Invocation κ} {i' : Invocation κ'} (h : i.Rel r i') (reply : Reply) :
      Rel r (.invoked i reply) (.invoked i' reply)
  | finished : Rel r .finished .finished

/-- Corresponding objects answer alike. -/
def Answers.Rel (r : κ → κ' → Prop) (answers : Answers κ) (answers' : Answers κ') : Prop :=
  ∀ i i', Invocation.Rel r i i' → answers' i' = answers i

/-- Corresponding subscriptions are sent a message by corresponding calls. -/
theorem Subscription.Rel.send {s : Subscription κ} {s' : Subscription κ'} (h : s.Rel r s')
    (m : OutboundMessage) : (s.send m).Rel r (s'.send m) := by
  rw [Subscription.send, Subscription.send, h.ident, h.subId]
  exact Invocation.Rel.send h.sendFn _ _ _

/-- Corresponding calls with their replies are corresponding observations. -/
theorem InMemDestination.observe_rel {answers : Answers κ} {answers' : Answers κ'}
    (hanswers : Answers.Rel r answers answers') {is : List (Invocation κ)}
    {is' : List (Invocation κ')} (h : List.Forall₂ (Invocation.Rel r) is is') :
    List.Forall₂ (DestinationObs.Rel r) (observe answers is) (observe answers' is') := by
  refine List.rel_map ?_ h
  intro i i' hi
  show DestinationObs.Rel r (.invoked i (answers i)) (.invoked i' (answers' i'))
  rw [hanswers i i' hi]
  exact DestinationObs.Rel.invoked hi _

/-- Corresponding calls panic together. -/
theorem Answers.Rel.any_panic {answers : Answers κ} {answers' : Answers κ'}
    (hanswers : Answers.Rel r answers answers') {is : List (Invocation κ)}
    {is' : List (Invocation κ')} (h : List.Forall₂ (Invocation.Rel r) is is') :
    is'.any (fun i => answers' i = .panic) = is.any fun i => answers i = .panic := by
  induction h with
  | nil => rfl
  | cons hi _ ih => rw [List.any_cons, List.any_cons, ih, hanswers _ _ hi]

/-! ## The backend -/

namespace InMemDestinationBackend

/-- Two backends with the same subscriptions of corresponding objects. -/
structure Rel (r : κ → κ' → Prop) (b : InMemDestinationBackend κ)
    (b' : InMemDestinationBackend κ') : Prop where
  ident : b'.id = b.id
  lookup : ∀ s, Option.Rel (Subscription.Rel r) (b.subscriptions.lookup s)
    (b'.subscriptions.lookup s)

variable {b : InMemDestinationBackend κ} {b' : InMemDestinationBackend κ'}
  {answers : Answers κ} {answers' : Answers κ'}

/-- They have the same keys. -/
theorem Rel.keys (h : b.Rel r b') : b.subscriptions.keys.Perm b'.subscriptions.keys := by
  refine (List.perm_ext_iff_of_nodup b.subscriptions.nodupKeys b'.subscriptions.nodupKeys).mpr ?_
  intro s
  show s ∈ b.subscriptions.keys ↔ s ∈ b'.subscriptions.keys
  rw [← AList.mem_keys, ← AList.mem_keys, ← AList.lookup_isSome, ← AList.lookup_isSome]
  have hs := h.lookup s
  generalize b.subscriptions.lookup s = o at hs
  generalize b'.subscriptions.lookup s = o' at hs
  cases hs with
  | some _ => exact Iff.rfl
  | none => exact Iff.rfl

/-- The values correspond in every order of the keys. -/
theorem Rel.values (h : b.Rel r b') (order : List SubscriptionId) :
    List.Forall₂ (Subscription.Rel r) (b.values order) (b'.values order) := by
  refine List.rel_filterMap (R := Eq) ?_ (List.forall₂_eq_eq_eq ▸ rfl)
  rintro s _ rfl
  exact h.lookup s

/-- **The loop of `send`** calls corresponding subscriptions, and the same ones fail. -/
theorem sendLoop_rel (hanswers : Answers.Rel r answers answers') (m : OutboundMessage)
    {subs : List (Subscription κ)} {subs' : List (Subscription κ')}
    (h : List.Forall₂ (Subscription.Rel r) subs subs') :
    List.Forall₂ (Invocation.Rel r) (sendLoop answers m subs).1 (sendLoop answers' m subs').1 ∧
      (sendLoop answers' m subs').2 = (sendLoop answers m subs).2 := by
  induction h with
  | nil => exact ⟨List.Forall₂.nil, rfl⟩
  | @cons s s' subs subs' hs _ ih =>
      have hsend := hs.send m
      rw [sendLoop, sendLoop, hanswers _ _ hsend]
      cases answers (s.send m) with
      | panic => exact ⟨List.Forall₂.cons hsend List.Forall₂.nil, rfl⟩
      | err =>
          refine ⟨List.Forall₂.cons hsend ih.1, ?_⟩
          show (sendLoop answers' m subs').2.map (s'.id :: ·) = _
          rw [ih.2, hs.ident]
      | ok => exact ⟨List.Forall₂.cons hsend ih.1, ih.2⟩

/-- Removing the same subscriptions leaves corresponding ones. -/
theorem Rel.erase (h : b.Rel r b') (ids : List SubscriptionId) :
    Rel r { b with subscriptions := ids.foldl (fun m s => m.erase s) b.subscriptions }
      { b' with subscriptions := ids.foldl (fun m s => m.erase s) b'.subscriptions } := by
  refine ⟨h.ident, fun s => ?_⟩
  simp only [lookup_foldl_erase]
  split_ifs
  · exact Option.Rel.none
  · exact h.lookup s

/-- `add_subscription`. -/
theorem Rel.addSubscription (h : b.Rel r b') (uuid : String) (sub : Option SubscriptionId)
    {k : κ} {k' : κ'} (hk : r k k') :
    Rel r (b.addSubscription uuid sub k).1 (b'.addSubscription uuid sub k').1 ∧
      List.Forall₂ (Invocation.Rel r) (b.addSubscription uuid sub k).2
        (b'.addSubscription uuid sub k').2 := by
  constructor
  · refine ⟨h.ident, fun s => ?_⟩
    rw [addSubscription_fst, addSubscription_fst]
    by_cases hs : s = ⟨uuid⟩
    · subst hs
      rw [AList.lookup_insert, AList.lookup_insert]
      exact Option.Rel.some ⟨rfl, rfl, hk⟩
    · rw [AList.lookup_insert_ne hs, AList.lookup_insert_ne hs]
      exact h.lookup s
  · rw [addSubscription_snd, addSubscription_snd, h.ident]
    exact List.Forall₂.cons (Invocation.Rel.subscribeCallback hk _ _ _) List.Forall₂.nil

/-- `remove_subscription`. -/
theorem Rel.removeSubscription (h : b.Rel r b') (s : SubscriptionId) {k : κ} {k' : κ'}
    (hk : r k k') :
    Rel r (b.removeSubscription s k).1 (b'.removeSubscription s k').1 ∧
      List.Forall₂ (Invocation.Rel r) (b.removeSubscription s k).2
        (b'.removeSubscription s k').2 := by
  refine ⟨h.erase [s], ?_⟩
  have hsub : ((b'.subscriptions.lookup s).bind fun sub => sub.subscriberSubId)
      = (b.subscriptions.lookup s).bind fun sub => sub.subscriberSubId := by
    have hs := h.lookup s
    generalize b.subscriptions.lookup s = o at hs
    generalize b'.subscriptions.lookup s = o' at hs
    cases hs with
    | some hs => exact hs.subId
    | none => rfl
  rw [InMemDestinationBackend.removeSubscription, InMemDestinationBackend.removeSubscription, hsub]
  exact List.Forall₂.cons (Invocation.Rel.unsubscribeCallback hk _ _) List.Forall₂.nil

/-- `send`. -/
theorem Rel.send (h : b.Rel r b') (hanswers : Answers.Rel r answers answers') (uuid : String)
    (order : List SubscriptionId) (message : InboundMessage) {k : κ} {k' : κ'} (hk : r k k') :
    Rel r (b.send answers uuid order message k).1 (b'.send answers' uuid order message k').1 ∧
      List.Forall₂ (Invocation.Rel r) (b.send answers uuid order message k).2
        (b'.send answers' uuid order message k').2 := by
  have hout : b'.outMessage uuid message = b.outMessage uuid message := by
    rw [outMessage, outMessage, h.ident]
  obtain ⟨hcalls, hdead⟩ := sendLoop_rel hanswers (b.outMessage uuid message) (h.values order)
  rw [InMemDestinationBackend.send, InMemDestinationBackend.send, hout, hdead]
  cases (sendLoop answers (b.outMessage uuid message) (b.values order)).2 with
  | none => exact ⟨h, hcalls⟩
  | some dead =>
      refine ⟨h.erase dead, List.rel_append hcalls ?_⟩
      exact List.Forall₂.cons (Invocation.Rel.sendCallback hk _ _) List.Forall₂.nil

/-- **Performing corresponding actions** leaves corresponding backends and makes corresponding
calls. -/
theorem Rel.perform (h : b.Rel r b') (hanswers : Answers.Rel r answers answers') (uuid : String)
    (order : List SubscriptionId) {a : DestinationAction κ} {a' : DestinationAction κ'}
    (ha : a.Rel r a') :
    Rel r (b.perform answers uuid order a).1 (b'.perform answers' uuid order a').1 ∧
      List.Forall₂ (Invocation.Rel r) (b.perform answers uuid order a).2
        (b'.perform answers' uuid order a').2 := by
  cases ha with
  | subscribe sub hk => exact h.addSubscription uuid sub hk
  | unsubscribe s hk => exact h.removeSubscription s hk
  | send message hk => exact h.send hanswers uuid order message hk
  | close => exact ⟨h, List.Forall₂.nil⟩

end InMemDestinationBackend

/-! ## The destination -/

namespace InMemDestination

/-- Two destinations that differ only in the objects behind their closures. -/
structure Rel (r : κ → κ' → Prop) (D : InMemDestination κ) (D' : InMemDestination κ') : Prop where
  backend : D.backend.Rel r D'.backend
  mailbox : D.mailbox.Rel (DestinationAction.Rel r) D'.mailbox

variable {D : InMemDestination κ} {D' : InMemDestination κ'} {answers : Answers κ}
  {answers' : Answers κ'}

/-- New destinations have no closures. -/
theorem create_rel (d : DestinationId) : Rel r (create d) (create d) where
  backend := ⟨rfl, fun _ => Option.Rel.none⟩
  mailbox := Mailbox.Rel.listening List.Forall₂.nil

/-- The callbacks of a handle that finds no receiver correspond. -/
theorem failure_rel (d : DestinationId) {a : DestinationAction κ} {a' : DestinationAction κ'}
    (ha : a.Rel r a') : List.Forall₂ (Invocation.Rel r) (failure d a) (failure d a') := by
  cases ha with
  | subscribe sub hk =>
      exact List.Forall₂.cons (Invocation.Rel.subscribeCallback hk _ _ _) List.Forall₂.nil
  | unsubscribe s hk =>
      exact List.Forall₂.cons (Invocation.Rel.unsubscribeCallback hk _ _) List.Forall₂.nil
  | send message hk =>
      exact List.Forall₂.cons (Invocation.Rel.sendCallback hk _ _) List.Forall₂.nil
  | close => exact List.Forall₂.nil

/-- **Corresponding calls of handles** are accepted or refused together. -/
theorem Rel.call (h : D.Rel r D') (hanswers : Answers.Rel r answers answers')
    {a : DestinationAction κ} {a' : DestinationAction κ'} (ha : a.Rel r a') :
    (D.call answers a).1.Rel r (D'.call answers' a').1 ∧
      List.Forall₂ (DestinationObs.Rel r) (D.call answers a).2 (D'.call answers' a').2 := by
  have hsend := h.mailbox.send ha
  rw [InMemDestination.call, InMemDestination.call]
  generalize D.mailbox.send a = o at hsend
  generalize D'.mailbox.send a' = o' at hsend
  cases hsend with
  | some hrel =>
      exact ⟨⟨h.backend, hrel⟩,
        List.Forall₂.cons (DestinationObs.Rel.called ha true) List.Forall₂.nil⟩
  | none =>
      rw [h.backend.ident]
      exact ⟨h, List.Forall₂.cons (DestinationObs.Rel.called ha false)
        (observe_rel hanswers (failure_rel _ ha))⟩

/-- The end of a turn of the loop. -/
theorem settle_rel (hanswers : Answers.Rel r answers answers')
    {m : Mailbox (DestinationAction κ)} {m' : Mailbox (DestinationAction κ')}
    (hm : m.Rel (DestinationAction.Rel r) m')
    {x : InMemDestinationBackend κ × List (Invocation κ)}
    {x' : InMemDestinationBackend κ' × List (Invocation κ')} (hb : x.1.Rel r x'.1)
    (hcalls : List.Forall₂ (Invocation.Rel r) x.2 x'.2) :
    (settle m answers x).Rel r (settle m' answers' x') := by
  refine ⟨hb, ?_⟩
  show Mailbox.Rel _ (if x.2.any _ then _ else _) (if x'.2.any _ then _ else _)
  rw [hanswers.any_panic hcalls]
  split_ifs
  · exact Mailbox.Rel.panicked
  · exact hm

/-- **Corresponding turns of the loop.** -/
theorem Rel.process (h : D.Rel r D') (hanswers : Answers.Rel r answers answers') (uuid : String)
    (order : List SubscriptionId) :
    Option.Rel (fun x x' => x.1.Rel r x'.1 ∧ List.Forall₂ (DestinationObs.Rel r) x.2 x'.2)
      (D.process answers uuid order) (D'.process answers' uuid order) := by
  have horder : order.isPerm D'.backend.subscriptions.keys
      = order.isPerm D.backend.subscriptions.keys := by
    rw [Bool.eq_iff_iff, List.isPerm_iff, List.isPerm_iff]
    exact ⟨fun h' => h'.trans h.backend.keys.symm, fun h' => h'.trans h.backend.keys⟩
  have hrecv := h.mailbox.recv
  rw [InMemDestination.process, InMemDestination.process, horder]
  split_ifs
  · generalize D.mailbox.recv = o at hrecv
    generalize D'.mailbox.recv = o' at hrecv
    cases hrecv with
    | none => exact Option.Rel.none
    | @some x x' hx =>
        obtain ⟨a, m⟩ := x
        obtain ⟨a', m'⟩ := x'
        obtain ⟨ha, hm⟩ := hx
        have hperform := h.backend.perform hanswers uuid order ha
        have hturn : Option.Rel
            (fun x x' => Rel r x.1 x'.1 ∧ List.Forall₂ (DestinationObs.Rel r) x.2 x'.2)
            (some (settle m answers (D.backend.perform answers uuid order a),
              .took a uuid :: observe answers (D.backend.perform answers uuid order a).2))
            (some (settle m' answers' (D'.backend.perform answers' uuid order a'),
              .took a' uuid :: observe answers' (D'.backend.perform answers' uuid order a').2)) :=
          Option.Rel.some ⟨settle_rel hanswers hm hperform.1 hperform.2,
            List.Forall₂.cons (DestinationObs.Rel.took ha uuid)
              (observe_rel hanswers hperform.2)⟩
        cases ha with
        | close =>
            exact Option.Rel.some ⟨⟨h.backend, hm.leave⟩,
              List.Forall₂.cons (DestinationObs.Rel.took DestinationAction.Rel.close uuid)
                List.Forall₂.nil⟩
        | subscribe sub hk => exact hturn
        | unsubscribe s hk => exact hturn
        | send message hk => exact hturn
  · exact Option.Rel.none

/-- Corresponding receivers are closed together. -/
theorem Rel.finish (h : D.Rel r D') :
    Option.Rel (fun x x' => x.1.Rel r x'.1 ∧ List.Forall₂ (DestinationObs.Rel r) x.2 x'.2)
      D.finish D'.finish := by
  obtain ⟨b, m⟩ := D
  obtain ⟨b', m'⟩ := D'
  obtain ⟨hb, hm⟩ := h
  cases hm with
  | leaving hq =>
      exact Option.Rel.some ⟨⟨hb, Mailbox.Rel.finished⟩,
        List.Forall₂.cons DestinationObs.Rel.finished List.Forall₂.nil⟩
  | _ => exact Option.Rel.none

end InMemDestination
