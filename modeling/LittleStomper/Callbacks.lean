/-
# One callback per request

Every `subscribe`, `unsubscribe` and `send` on a destination is a request that is owed
one callback: with a result if the backend took the action, with an error otherwise.
There are two who answer, the backend and the handle that finds no receiver; requests
are lost in between, when the loop is left while they wait, or when they are enqueued
after the loop was left and before the receiver is closed.

`Answerable` is the condition on a step under which no request gets there.  A run serves
all its requests exactly when all its steps meet it (`answeredOnce_iff_answerable`).
-/
import LittleStomper.InMemoryStep

variable {κ : Type} [DecidableEq κ]

namespace DestinationAction

/-- The call is the callback that answers the action. -/
def isAnsweredBy : DestinationAction κ → Invocation κ → Bool
  | subscribe _ k, .subscribeCallback k' _ _ _ => k' = k
  | unsubscribe _ k, .unsubscribeCallback k' _ _ => k' = k
  | send _ k, .sendCallback k' _ _ => k' = k
  | _, _ => false

/-- An answer goes to the caller. -/
theorem caller?_of_isAnsweredBy {a : DestinationAction κ} {i : Invocation κ}
    (h : a.isAnsweredBy i = true) : a.caller? = some i.target := by
  cases a <;> cases i <;> simp_all [isAnsweredBy, caller?, Invocation.target]

omit [DecidableEq κ] in
/-- A request has a caller. -/
theorem isRequest_iff {a : DestinationAction κ} :
    a.isRequest = true ↔ ∃ k, a.caller? = some k := Option.isSome_iff_exists

end DestinationAction

open DestinationAction

namespace DestinationObs

/-- The request made in an observation. -/
def request? : DestinationObs κ → Option (DestinationAction κ)
  | called a _ => if a.isRequest then some a else none
  | _ => none

/-- The callback for `a` seen in an observation. -/
def callback? (a : DestinationAction κ) : DestinationObs κ → Option (Invocation κ)
  | invoked i _ => if a.isAnsweredBy i then some i else none
  | _ => none

/-- The requests made so far. -/
def requests (tr : List (DestinationObs κ)) : List (DestinationAction κ) := tr.filterMap request?

/-- The callbacks for `a` so far. -/
def callbacks (a : DestinationAction κ) (tr : List (DestinationObs κ)) : List (Invocation κ) :=
  tr.filterMap (callback? a)

/-- The backend took `a`. -/
def Took (a : DestinationAction κ) (tr : List (DestinationObs κ)) : Prop :=
  ∃ uuid, took a uuid ∈ tr

/-- The request `a` has had exactly one callback, with a result if the backend took it and
with an error otherwise. -/
def AnsweredOnce (a : DestinationAction κ) (tr : List (DestinationObs κ)) : Prop :=
  ∃ i, callbacks a tr = [i] ∧ (i.isErr = false ↔ Took a tr)

omit [DecidableEq κ] in
@[simp] theorem requests_append (tr os : List (DestinationObs κ)) :
    requests (tr ++ os) = requests tr ++ requests os := List.filterMap_append

@[simp] theorem callbacks_append (a : DestinationAction κ) (tr os : List (DestinationObs κ)) :
    callbacks a (tr ++ os) = callbacks a tr ++ callbacks a os := List.filterMap_append

omit [DecidableEq κ] in
@[simp] theorem took_append (a : DestinationAction κ) (tr os : List (DestinationObs κ)) :
    Took a (tr ++ os) ↔ Took a tr ∨ Took a os := by
  simp [Took, exists_or]

omit [DecidableEq κ] in
/-- What was requested is a request. -/
theorem isRequest_of_mem_requests {a : DestinationAction κ} {tr : List (DestinationObs κ)}
    (h : a ∈ requests tr) : a.isRequest = true := by
  obtain ⟨o, -, ho⟩ := List.mem_filterMap.mp h
  cases o with
  | called a' accepted =>
      simp only [request?, Option.ite_none_right_eq_some, Option.some.injEq] at ho
      exact ho.2 ▸ ho.1
  | took a' uuid => simp [request?] at ho
  | invoked i reply => simp [request?] at ho
  | finished => simp [request?] at ho

omit [DecidableEq κ] in
/-- Calls of subscribers and senders make no requests. -/
@[simp] theorem requests_observe (answers : Answers κ) (is : List (Invocation κ)) :
    requests (InMemDestination.observe answers is) = [] := by
  simp [requests, InMemDestination.observe, request?]

/-- The callbacks for `a` among some calls. -/
theorem callbacks_observe (a : DestinationAction κ) (answers : Answers κ)
    (is : List (Invocation κ)) :
    callbacks a (InMemDestination.observe answers is) = is.filter a.isAnsweredBy := by
  induction is with
  | nil => rfl
  | cons i is ih =>
      simp only [callbacks, InMemDestination.observe, List.map_cons, List.filterMap_cons,
        callback?, List.filter_cons] at ih ⊢
      rw [ih]
      by_cases hi : a.isAnsweredBy i = true
      · simp [hi]
      · simp [hi]

omit [DecidableEq κ] in
/-- Calls are not actions taken. -/
@[simp] theorem not_took_observe (a : DestinationAction κ) (answers : Answers κ)
    (is : List (Invocation κ)) : ¬ Took a (InMemDestination.observe answers is) := by
  simp [Took, InMemDestination.observe]

/-- What is seen of one request changes nothing for another. -/
theorem AnsweredOnce.append {a : DestinationAction κ} {tr os : List (DestinationObs κ)}
    (h : AnsweredOnce a tr) (hcall : callbacks a os = []) (htook : ¬ Took a os) :
    AnsweredOnce a (tr ++ os) := by
  obtain ⟨i, hi, herr⟩ := h
  refine ⟨i, ?_, ?_⟩
  · rw [callbacks_append, hi, hcall, List.append_nil]
  · rw [took_append, herr]
    simp [htook]

end DestinationObs

open DestinationObs

/-! ## Who is answered by a step -/

namespace InMemDestinationBackend

omit [DecidableEq κ] in
/-- A call of `send` answers nothing. -/
theorem not_isErr_answer {b : InMemDestinationBackend κ} {uuid : String}
    {a : DestinationAction κ} {i : Invocation κ} (h : i ∈ b.answer uuid a) : i.isErr = false := by
  cases a <;> simp_all [answer, Invocation.isErr] <;> (subst h; rfl)

/-- The backend's answer to an action is its callback. -/
theorem isAnsweredBy_answer {b : InMemDestinationBackend κ} {uuid : String}
    {a : DestinationAction κ} {i : Invocation κ} (h : i ∈ b.answer uuid a) :
    a.isAnsweredBy i = true := by
  cases a <;> simp [answer] at h <;> (subst h; simp [isAnsweredBy])

/-- A call of `send` is not a callback. -/
theorem not_isAnsweredBy_sends {b : InMemDestinationBackend κ} {uuid : String}
    {order : List SubscriptionId} {a a' : DestinationAction κ} {i : Invocation κ}
    (h : i ∈ b.sends uuid order a') : a.isAnsweredBy i = false := by
  cases a' with
  | send message k =>
      obtain ⟨sub, -, rfl⟩ := List.mem_map.mp h
      cases a <;> rfl
  | subscribe sub k => simp [sends] at h
  | unsubscribe subId k => simp [sends] at h
  | close => simp [sends] at h

/-- Performing one action answers no other caller. -/
theorem not_isAnsweredBy_perform {b : InMemDestinationBackend κ} {answers : Answers κ}
    {uuid : String} {order : List SubscriptionId} {a a' : DestinationAction κ}
    (hne : a.caller? ≠ a'.caller?) {i : Invocation κ}
    (h : i ∈ (b.perform answers uuid order a').2) : a.isAnsweredBy i = false := by
  rcases mem_perform b answers uuid order h with hi | hi
  · exact not_isAnsweredBy_sends hi
  · by_contra hans
    apply hne
    rw [caller?_of_isAnsweredBy (by simpa using hans),
      caller?_of_isAnsweredBy (isAnsweredBy_answer hi)]

end InMemDestinationBackend

namespace InMemDestination

open InMemDestinationBackend

/-- A handle that finds no receiver answers its own request, with an error. -/
theorem filter_failure (id : DestinationId) {a : DestinationAction κ}
    (h : a.isRequest = true) :
    ∃ i, (failure id a).filter a.isAnsweredBy = [i] ∧ i.isErr = true := by
  cases a with
  | subscribe sub k =>
      exact ⟨.subscribeCallback k id sub (.error ⟨"Subscribe failed"⟩),
        by simp [failure, isAnsweredBy], rfl⟩
  | unsubscribe subId k =>
      exact ⟨.unsubscribeCallback k none (.error ⟨"Unsubscribe failed"⟩),
        by simp [failure, isAnsweredBy], rfl⟩
  | send message k =>
      exact ⟨.sendCallback k message.senderMessageId (.error ⟨"Send failed"⟩),
        by simp [failure, isAnsweredBy], rfl⟩
  | close => simp [isRequest, caller?] at h

/-- A handle answers no other caller. -/
theorem filter_failure_of_ne (id : DestinationId) {a a' : DestinationAction κ}
    (hne : a.caller? ≠ a'.caller?) : (failure id a').filter a.isAnsweredBy = [] := by
  rw [List.filter_eq_nil_iff]
  intro i hi hans
  apply hne
  rw [caller?_of_isAnsweredBy hans]
  cases a' <;> simp [failure] at hi <;> (subst hi; rfl)

/-! ## The books -/

/-- What holds of the requests in every run: no two have the same caller, and those that
wait have been made once and have neither been taken nor answered. -/
structure Books (s : DestinationRun κ) (tr : List (DestinationObs κ)) : Prop where
  boxed : ∀ a ∈ requests tr, ∀ k ∈ a.caller?, k ∈ s.closures
  seen : ∀ a, callbacks a tr ≠ [] ∨ Took a tr → ∀ k ∈ a.caller?, k ∈ s.closures
  distinct : ∀ a ∈ requests tr, ∀ a' ∈ requests tr, a.caller? = a'.caller? → a = a'
  waiting : ∀ a ∈ s.destination.mailbox.queue, a.isRequest = true →
    a ∈ requests tr ∧ callbacks a tr = [] ∧ ¬ Took a tr
  once : (s.destination.mailbox.queue.filterMap caller?).Nodup

/-- All requests were answered, except for those that wait for a running loop. -/
structure Served (s : DestinationRun κ) (tr : List (DestinationObs κ)) : Prop where
  answered : ∀ a ∈ requests tr, a ∈ s.destination.mailbox.queue ∨ AnsweredOnce a tr
  left : ∀ q, s.destination.mailbox = .leaving q → ∀ a ∈ q, a.isRequest = false

/-- Some request was not answered and never will be. -/
def Lost (s : DestinationRun κ) (tr : List (DestinationObs κ)) : Prop :=
  ∃ a ∈ requests tr, callbacks a tr = [] ∧
    (a ∈ s.destination.mailbox.queue → ∃ q, s.destination.mailbox = .leaving q)

/-- Taking the action `a` ends the loop: it is a `Close`, or its callback panics. -/
def Stops (b : InMemDestinationBackend κ) (answers : Answers κ) (uuid : String)
    (a : DestinationAction κ) : Prop :=
  a = .close ∨ ∃ i ∈ b.answer uuid a, answers i = .panic

/-- No subscriber that a `Send` is passed to panics. -/
def PassesOn (b : InMemDestinationBackend κ) (answers : Answers κ) (uuid : String) :
    DestinationAction κ → Prop
  | .send message _ => ∀ s sub, b.subscriptions.lookup s = some sub →
      answers (sub.send (b.outMessage uuid message)) ≠ .panic
  | _ => True

/-- **The condition of a step that loses no request**: nothing is requested between the end
of the loop and the closing of the receiver, no subscriber panics when it is sent a
message, and no request waits behind an action that ends the loop. -/
def Answerable (s : DestinationRun κ) : DestinationLabel κ → Prop
  | .call a _ => a.isRequest = true → ∀ q, s.destination.mailbox ≠ .leaving q
  | .process uuid _ answers => ∀ a q, s.destination.mailbox = .listening (a :: q) →
      PassesOn s.destination.backend answers uuid a ∧
        (Stops s.destination.backend answers uuid a → ∀ a' ∈ q, a'.isRequest = false)
  | .finish => True

/-! ## What the observations of a step say about a request -/

omit [DecidableEq κ] in
/-- Two requests with different callers are different. -/
theorem ne_of_caller?_ne {a a' : DestinationAction κ} (h : a.caller? ≠ a'.caller?) : a ≠ a' :=
  fun heq => h (congrArg caller? heq)

/-- A handle's call, seen by another request. -/
theorem callbacks_refused {answers : Answers κ} {id : DestinationId}
    {a a' : DestinationAction κ} (hne : a.caller? ≠ a'.caller?) :
    callbacks a (.called a' false :: observe answers (failure id a')) = [] := by
  show callbacks a (observe answers (failure id a')) = []
  rw [callbacks_observe, filter_failure_of_ne id hne]

/-- A turn of the loop, seen by another request. -/
theorem callbacks_performed {b : InMemDestinationBackend κ} {answers : Answers κ}
    {uuid : String} {order : List SubscriptionId} {a a' : DestinationAction κ}
    (hne : a.caller? ≠ a'.caller?) :
    callbacks a (.took a' uuid :: observe answers (b.perform answers uuid order a').2) = [] := by
  show callbacks a (observe answers (b.perform answers uuid order a').2) = []
  rw [callbacks_observe, List.filter_eq_nil_iff]
  intro i hi
  simp [not_isAnsweredBy_perform hne hi]

/-- A turn of the loop, seen by the request it takes, if no `send` panics. -/
theorem callbacks_performed_self {b : InMemDestinationBackend κ} {answers : Answers κ}
    {uuid : String} {order : List SubscriptionId} {a : DestinationAction κ}
    (h : ∀ i ∈ b.sends uuid order a, answers i ≠ .panic) :
    callbacks a (.took a uuid :: observe answers (b.perform answers uuid order a).2)
      = (b.answer uuid a).toList := by
  show callbacks a (observe answers (b.perform answers uuid order a).2) = _
  rw [callbacks_observe, perform_snd b answers uuid order a h, List.filter_append]
  have hsends : (b.sends uuid order a).filter a.isAnsweredBy = [] := by
    rw [List.filter_eq_nil_iff]
    intro i hi
    simp [not_isAnsweredBy_sends hi]
  have hanswer : (b.answer uuid a).toList.filter a.isAnsweredBy = (b.answer uuid a).toList := by
    rw [List.filter_eq_self]
    intro i hi
    exact isAnsweredBy_answer (Option.mem_toList.mp hi)
  rw [hsends, hanswer, List.nil_append]

omit [DecidableEq κ] in
/-- What a turn of the loop takes. -/
theorem took_performed {answers : Answers κ} {uuid : String} {is : List (Invocation κ)}
    {a a' : DestinationAction κ} : Took a (.took a' uuid :: observe answers is) ↔ a = a' := by
  constructor
  · rintro ⟨u, hu⟩
    rcases List.mem_cons.mp hu with heq | hmem
    · exact (DestinationObs.took.inj heq).1
    · exact absurd ⟨u, hmem⟩ (not_took_observe a answers is)
  · rintro rfl
    exact ⟨uuid, List.mem_cons_self⟩

omit [DecidableEq κ] in
/-- The requests seen in a handle's call. -/
theorem requests_called (a : DestinationAction κ) (accepted : Bool) (answers : Answers κ)
    (is : List (Invocation κ)) :
    requests (.called a accepted :: observe answers is) = if a.isRequest then [a] else [] := by
  have hobs : requests (observe answers is) = [] := requests_observe answers is
  simp only [requests, List.filterMap_cons, request?] at hobs ⊢
  rw [hobs]
  by_cases hr : a.isRequest = true
  · simp [hr]
  · simp [hr]

omit [DecidableEq κ] in
/-- The mailbox after an action was performed holds at most what waited. -/
theorem queue_settle_subset (q : List (DestinationAction κ)) (answers : Answers κ)
    (r : InMemDestinationBackend κ × List (Invocation κ)) :
    (settle (.listening q) answers r).mailbox.queue = q ∨
      (settle (.listening q) answers r).mailbox.queue = [] := by
  rcases settle_mailbox (.listening q) answers r with ⟨-, h⟩ | ⟨-, h⟩
  · exact Or.inl (by rw [h]; rfl)
  · exact Or.inr (by rw [h]; rfl)

/-! ## Every step keeps the books -/

/-- A new request: its caller is new, so nothing was seen of it. -/
theorem Books.called {s : DestinationRun κ} {tr os : List (DestinationObs κ)} (h : Books s tr)
    {a : DestinationAction κ} {d' : InMemDestination κ}
    (fresh : ∀ k ∈ a.caller?, k ∉ s.closures)
    (hreq : requests os = if a.isRequest then [a] else [])
    (hother : ∀ a', a'.caller? ≠ a.caller? → callbacks a' os = []) (htook : ∀ a', ¬ Took a' os)
    (hqueue : d'.mailbox.queue = s.destination.mailbox.queue ∨
      d'.mailbox.queue = s.destination.mailbox.queue ++ [a] ∧ callbacks a os = []) :
    Books ⟨d', s.uuids, a.caller?.toList ++ s.closures⟩ (tr ++ os) := by
  have hnew : ∀ a' ∈ requests tr, a'.isRequest = true → a'.caller? ≠ a.caller? := by
    intro a' ha' hreq' heq
    obtain ⟨k, hk⟩ := isRequest_iff.mp hreq'
    exact fresh k (heq ▸ hk) (h.boxed a' ha' k hk)
  have hmem : ∀ a' ∈ requests (tr ++ os), a' ∈ requests tr ∨ a' = a := by
    intro a' ha'
    rw [requests_append, hreq, List.mem_append] at ha'
    rcases ha' with ha' | ha'
    · exact Or.inl ha'
    · split at ha'
      · exact Or.inr (List.mem_singleton.mp ha')
      · simp at ha'
  have hkeep : ∀ a' ∈ s.destination.mailbox.queue, a'.isRequest = true →
      a' ∈ requests (tr ++ os) ∧ callbacks a' (tr ++ os) = [] ∧ ¬ Took a' (tr ++ os) := by
    intro a' ha' hr'
    obtain ⟨hin, hcall, hno⟩ := h.waiting a' ha' hr'
    rw [requests_append, callbacks_append, took_append, hcall, hother a' (hnew a' hin hr')]
    exact ⟨List.mem_append_left _ hin, rfl, fun ho => ho.elim hno (htook a')⟩
  constructor
  · intro a' ha' k hk
    rcases hmem a' ha' with hin | rfl
    · exact List.mem_append_right _ (h.boxed a' hin k hk)
    · exact List.mem_append_left _ (Option.mem_toList.mpr hk)
  · intro a' hseen k hk
    by_cases hcaller : a'.caller? = a.caller?
    · exact List.mem_append_left _ (Option.mem_toList.mpr (hcaller ▸ hk))
    · rw [callbacks_append, took_append, hother a' hcaller, List.append_nil] at hseen
      refine List.mem_append_right _ (h.seen a' ?_ k hk)
      exact hseen.imp_right fun ho => ho.resolve_right (htook a')
  · intro a₁ h₁ a₂ h₂ heq
    rcases hmem a₁ h₁ with hin₁ | rfl
    · rcases hmem a₂ h₂ with hin₂ | rfl
      · exact h.distinct a₁ hin₁ a₂ hin₂ heq
      · exact absurd heq (hnew a₁ hin₁ (isRequest_of_mem_requests hin₁))
    · rcases hmem a₂ h₂ with hin₂ | rfl
      · exact absurd heq.symm (hnew a₂ hin₂ (isRequest_of_mem_requests hin₂))
      · rfl
  · intro a' ha' hr'
    rcases hqueue with hq | ⟨hq, hcall⟩
    · exact hkeep a' (hq ▸ ha') hr'
    · rw [hq, List.mem_append, List.mem_singleton] at ha'
      rcases ha' with hin | rfl
      · exact hkeep a' hin hr'
      · obtain ⟨k, hk⟩ := isRequest_iff.mp hr'
        have hunseen : ¬ (callbacks a' tr ≠ [] ∨ Took a' tr) := fun hs =>
          fresh k hk (h.seen a' hs k hk)
        rw [not_or, not_not] at hunseen
        refine ⟨?_, ?_, ?_⟩
        · rw [requests_append, hreq, if_pos hr']
          exact List.mem_append_right _ List.mem_cons_self
        · rw [callbacks_append, hunseen.1, hcall, List.nil_append]
        · rw [took_append]
          exact fun ho => ho.elim hunseen.2 (htook a')
  · rcases hqueue with hq | ⟨hq, -⟩
    · rw [hq]
      exact h.once
    · rw [hq, List.filterMap_append, List.nodup_append]
      refine ⟨h.once, ?_, ?_⟩
      · cases hc : a.caller? <;> simp [hc]
      · intro k hk k' hk' heq
        obtain ⟨a', ha', hk₁⟩ := List.mem_filterMap.mp hk
        have hk₂ : a.caller? = some k' := by simpa using hk'
        have hr' : a'.isRequest = true := isRequest_iff.mpr ⟨k, hk₁⟩
        exact hnew a' (h.waiting a' ha' hr').1 hr' (by rw [hk₁, hk₂, heq])

/-- The head of the queue is taken: it is another caller's than all that waits behind it. -/
theorem Books.caller?_ne {s : DestinationRun κ} {tr : List (DestinationObs κ)} (h : Books s tr)
    {a : DestinationAction κ} {q : List (DestinationAction κ)}
    (hmail : s.destination.mailbox = .listening (a :: q)) {a' : DestinationAction κ}
    (ha' : a' ∈ q) (hr' : a'.isRequest = true) : a'.caller? ≠ a.caller? := by
  obtain ⟨k, hk⟩ := isRequest_iff.mp hr'
  intro heq
  have honce := h.once
  rw [hmail, Mailbox.queue_listening, List.filterMap_cons_some (heq ▸ hk), List.nodup_cons] at honce
  exact honce.1 (List.mem_filterMap.mpr ⟨a', ha', hk⟩)

/-- Only the action that is performed is taken and called back. -/
theorem Books.performed {s : DestinationRun κ} {tr : List (DestinationObs κ)} (h : Books s tr)
    {uuid : String} {order : List SubscriptionId} {answers : Answers κ} {a : DestinationAction κ}
    {q : List (DestinationAction κ)} (hmail : s.destination.mailbox = .listening (a :: q))
    (hclose : a ≠ .close) (uuids : List String) :
    Books ⟨settle (.listening q) answers (s.destination.backend.perform answers uuid order a),
        uuids, s.closures⟩
      (tr ++ .took a uuid
        :: observe answers (s.destination.backend.perform answers uuid order a).2) := by
  have hqueue : s.destination.mailbox.queue = a :: q := by rw [hmail]; rfl
  have hra : a.isRequest = true := by cases a <;> simp_all [isRequest, caller?]
  have hina := (h.waiting a (hqueue ▸ List.mem_cons_self) hra).1
  have hreq : ∀ is : List (Invocation κ), requests (.took a uuid :: observe answers is) = [] :=
    requests_observe answers
  constructor
  · rw [requests_append, hreq, List.append_nil]
    exact h.boxed
  · intro a' hseen k hk
    by_cases hcaller : a'.caller? = a.caller?
    · exact h.boxed a hina k (hcaller ▸ hk)
    · refine h.seen a' ?_ k hk
      rw [callbacks_append, callbacks_performed hcaller, List.append_nil, took_append,
        took_performed] at hseen
      exact hseen.imp_right fun ho => ho.resolve_right (ne_of_caller?_ne hcaller)
  · rw [requests_append, hreq, List.append_nil]
    exact h.distinct
  · intro a' ha' hr'
    have hq : a' ∈ q := by
      rcases queue_settle_subset q answers
        (s.destination.backend.perform answers uuid order a) with hq | hq
      · exact hq ▸ ha'
      · rw [hq] at ha'
        simp at ha'
    have hne := h.caller?_ne hmail hq hr'
    obtain ⟨hin, hcall, hno⟩ := h.waiting a' (hqueue ▸ List.mem_cons_of_mem _ hq) hr'
    rw [requests_append, hreq, List.append_nil, callbacks_append, hcall,
      callbacks_performed hne, took_append, took_performed]
    exact ⟨hin, rfl, fun ho => ho.elim hno (ne_of_caller?_ne hne)⟩
  · have honce := h.once
    rw [hqueue] at honce
    rcases queue_settle_subset q answers
      (s.destination.backend.perform answers uuid order a) with hq | hq
    · rw [hq]
      exact (List.Sublist.filterMap caller? (List.sublist_cons_self a q)).nodup honce
    · rw [hq]
      exact List.nodup_nil

/-- **Every step keeps the books.** -/
theorem Books.step {s s' : DestinationRun κ} {l : DestinationLabel κ}
    {tr os : List (DestinationObs κ)} (h : Books s tr) (hstep : Turn s l s' os) :
    Books s' (tr ++ os) := by
  cases hstep with
  | @accepted a answers m fresh hsend =>
      refine h.called fresh (requests_called a true answers []) (fun _ _ => rfl)
        (fun a' ht => by simp [Took] at ht) (Or.inr ⟨Mailbox.queue_send hsend, rfl⟩)
  | @refused a answers fresh gone =>
      refine h.called fresh (requests_called a false answers _) (fun _ hne => callbacks_refused hne)
        (fun a' ht => ?_) (Or.inl rfl)
      obtain ⟨u, hu⟩ := ht
      rcases List.mem_cons.mp hu with heq | hmem
      · cases heq
      · exact not_took_observe a' answers _ ⟨u, hmem⟩
  | @closed uuid order answers q fresh hmail =>
      have htook : ∀ a, Took a ([.took .close uuid] : List (DestinationObs κ)) →
          a.caller? = none := by
        rintro a ⟨u, hu⟩
        obtain ⟨rfl, -⟩ := DestinationObs.took.inj (List.mem_singleton.mp hu)
        rfl
      have hqueue : s.destination.mailbox.queue = .close :: q := by rw [hmail]; rfl
      constructor
      · simpa [requests, request?] using h.boxed
      · intro a hseen k hk
        refine h.seen a ?_ k hk
        rw [callbacks_append, took_append] at hseen
        rcases hseen with hc | ht | ht
        · exact Or.inl (by simpa [callbacks, callback?] using hc)
        · exact Or.inr ht
        · exact absurd hk (by simp [htook a ht])
      · simpa [requests, request?] using h.distinct
      · intro a ha hr
        obtain ⟨hin, hcall, hno⟩ := h.waiting a (hqueue ▸ List.mem_cons_of_mem _ ha) hr
        refine ⟨by simpa [requests, request?] using hin,
          by simpa [callbacks, callback?] using hcall, ?_⟩
        rw [took_append]
        rintro (ht | ht)
        · exact hno ht
        · simp [isRequest, htook a ht] at hr
      · have honce := h.once
        rw [hqueue] at honce
        exact honce
  | performed fresh horder hmail hclose => exact h.performed hmail hclose _
  | @finished q hmail =>
      constructor
      · simpa [requests, request?] using h.boxed
      · simpa [callbacks, callback?, Took] using h.seen
      · simpa [requests, request?] using h.distinct
      · intro a ha
        simp at ha
      · exact List.nodup_nil

/-! ## Served or lost -/

/-- An action that is enqueued waits, and nothing is requested behind the end of the loop. -/
theorem Served.accepted {s : DestinationRun κ} {tr : List (DestinationObs κ)} (h : Served s tr)
    {a : DestinationAction κ} {answers : Answers κ} {m : Mailbox (DestinationAction κ)}
    (hC : Answerable s (.call a answers)) (hsend : s.destination.mailbox.send a = some m)
    (closures : List κ) :
    Served ⟨⟨s.destination.backend, m⟩, s.uuids, closures⟩ (tr ++ [.called a true]) := by
  have hreq := requests_called a true answers ([] : List (Invocation κ))
  constructor
  · intro a' ha'
    rw [requests_append, List.mem_append] at ha'
    rcases ha' with hin | hnew
    · rcases h.answered a' hin with hq | hans
      · left
        rw [show (m : Mailbox _).queue = _ from Mailbox.queue_send hsend]
        exact List.mem_append_left _ hq
      · exact Or.inr (hans.append rfl fun ht => by simp [Took] at ht)
    · left
      rw [show (m : Mailbox _).queue = _ from Mailbox.queue_send hsend]
      have : a' = a := by
        rw [show requests [DestinationObs.called a true] = _ from hreq] at hnew
        split at hnew <;> simp_all
      exact List.mem_append_right _ (List.mem_singleton.mpr this)
  · intro q hq a' ha'
    rcases Mailbox.send_eq_some hsend with ⟨q', -, rfl⟩ | ⟨q', hmail, rfl⟩
    · cases hq
    · obtain rfl := Mailbox.leaving.inj hq
      rcases List.mem_append.mp ha' with hin | hlast
      · exact h.left q' hmail a' hin
      · obtain rfl := List.mem_singleton.mp hlast
        by_contra hr
        exact hC (by simpa using hr) q' hmail

/-- A handle that finds no receiver answers itself. -/
theorem Served.refused {s : DestinationRun κ} {tr : List (DestinationObs κ)} (h : Served s tr)
    (hbooks : Books s tr) {a : DestinationAction κ} (answers : Answers κ)
    (fresh : ∀ k ∈ a.caller?, k ∉ s.closures) (gone : s.destination.mailbox.isGone = true)
    (closures : List κ) :
    Served ⟨s.destination, s.uuids, closures⟩ (tr ++ .called a false
      :: observe answers (failure s.destination.backend.id a)) := by
  have hreq := requests_called a false answers (failure s.destination.backend.id a)
  have htook : ∀ a', ¬ Took a' (.called a false
      :: observe answers (failure s.destination.backend.id a)) := by
    rintro a' ⟨u, hu⟩
    rcases List.mem_cons.mp hu with heq | hmem
    · cases heq
    · exact not_took_observe a' answers _ ⟨u, hmem⟩
  refine ⟨fun a' ha' => ?_, fun q hq => ?_⟩
  · right
    rw [requests_append, List.mem_append] at ha'
    rcases ha' with hin | hnew
    · rcases h.answered a' hin with hq | hans
      · rw [Mailbox.queue_of_isGone gone] at hq
        simp at hq
      · obtain ⟨k, hk⟩ := isRequest_iff.mp (isRequest_of_mem_requests hin)
        have hne : a'.caller? ≠ a.caller? := fun heq =>
          fresh k (heq ▸ hk) (hbooks.boxed a' hin k hk)
        exact hans.append (callbacks_refused hne) (htook a')
    · obtain ⟨hr, rfl⟩ : a.isRequest = true ∧ a' = a := by
        rw [hreq] at hnew
        split at hnew <;> simp_all
      obtain ⟨k, hk⟩ := isRequest_iff.mp hr
      have hunseen : ¬ (callbacks a' tr ≠ [] ∨ Took a' tr) := fun hs =>
        fresh k hk (hbooks.seen a' hs k hk)
      rw [not_or, not_not] at hunseen
      obtain ⟨i, hi, herr⟩ := filter_failure s.destination.backend.id hr
      refine ⟨i, ?_, ?_⟩
      · rw [callbacks_append, hunseen.1, List.nil_append]
        show callbacks a' (observe answers (failure s.destination.backend.id a')) = [i]
        rw [callbacks_observe, hi]
      · rw [took_append]
        simp [herr, hunseen.2, htook a']
  · exact h.left q hq

/-- An action that is performed is answered, and if its answer stops the loop, no request waits
behind it. -/
theorem Served.performed {s : DestinationRun κ} {tr : List (DestinationObs κ)} (h : Served s tr)
    (hbooks : Books s tr) {uuid : String} {order : List SubscriptionId} {answers : Answers κ}
    {a : DestinationAction κ} {q : List (DestinationAction κ)}
    (hC : Answerable s (.process uuid order answers))
    (horder : order.Perm s.destination.backend.subscriptions.keys)
    (hmail : s.destination.mailbox = .listening (a :: q)) (hclose : a ≠ .close)
    (uuids : List String) :
    Served ⟨settle (.listening q) answers (s.destination.backend.perform answers uuid order a),
        uuids, s.closures⟩
      (tr ++ .took a uuid
        :: observe answers (s.destination.backend.perform answers uuid order a).2) := by
  obtain ⟨hpass, hstop⟩ := hC a q hmail
  set b := s.destination.backend with hb
  have hqueue : s.destination.mailbox.queue = a :: q := by rw [hmail]; rfl
  have hra : a.isRequest = true := by cases a <;> simp_all [isRequest, caller?]
  have hsends : ∀ i ∈ b.sends uuid order a, answers i ≠ .panic := by
    intro i hi
    obtain ⟨message, k, id, sub, rfl, hid, rfl⟩ := (mem_sends b uuid order horder).mp hi
    exact hpass id sub hid
  have hreq : ∀ is : List (Invocation κ), requests (.took a uuid :: observe answers is) = [] :=
    requests_observe answers
  refine ⟨fun a' ha' => ?_, fun q' hq' => ?_⟩
  · rw [requests_append, hreq, List.append_nil] at ha'
    by_cases heq : a' = a
    · subst heq
      obtain ⟨-, hcall, hno⟩ := hbooks.waiting a' (hqueue ▸ List.mem_cons_self) hra
      obtain ⟨i, hi⟩ : ∃ i, b.answer uuid a' = some i := by
        cases a' <;> simp_all [answer]
      refine Or.inr ⟨i, ?_, ?_⟩
      · rw [callbacks_append, hcall, callbacks_performed_self hsends, hi]
        rfl
      · simp only [not_isErr_answer hi, took_append, took_performed, or_true]
    · have hne : a'.caller? ≠ a.caller? := fun hc => heq (hbooks.distinct a' ha' a
        (hbooks.waiting a (hqueue ▸ List.mem_cons_self) hra).1 hc)
      rcases h.answered a' ha' with hq | hans
      · rw [hqueue] at hq
        have hin : a' ∈ q := (List.mem_cons.mp hq).resolve_left heq
        left
        rcases settle_mailbox (.listening q) answers (b.perform answers uuid order a) with
          ⟨-, hm⟩ | ⟨⟨i, hi, hpanic⟩, -⟩
        · rw [hm]
          exact hin
        · -- only the answer can have panicked, and then nothing was requested behind it
          have hans : i ∈ b.answer uuid a :=
            (mem_perform b answers uuid order hi).resolve_left fun hs => hsends i hs hpanic
          have hno := hstop (Or.inr ⟨i, hans, hpanic⟩) a' hin
          simp [isRequest_of_mem_requests ha'] at hno
      · refine Or.inr (hans.append (callbacks_performed hne) ?_)
        rw [took_performed]
        exact heq
  · rcases settle_mailbox (.listening q) answers (b.perform answers uuid order a) with
      ⟨-, hm⟩ | ⟨-, hm⟩
    · rw [hm] at hq'
      cases hq'
    · rw [hm] at hq'
      cases hq'

/-- **A step that meets the condition serves its requests.** -/
theorem Served.step {s s' : DestinationRun κ} {l : DestinationLabel κ}
    {tr os : List (DestinationObs κ)} (h : Served s tr) (hbooks : Books s tr)
    (hC : Answerable s l) (hstep : Turn s l s' os) : Served s' (tr ++ os) := by
  cases hstep with
  | accepted fresh hsend => exact h.accepted hC hsend _
  | refused fresh gone => exact h.refused hbooks _ fresh gone _
  | @closed uuid order answers q fresh hmail =>
      obtain ⟨-, hstop⟩ := hC .close q hmail
      have hqueue : s.destination.mailbox.queue = .close :: q := by rw [hmail]; rfl
      refine ⟨fun a ha => ?_, fun q' hq' => ?_⟩
      · have hnothing : requests ([.took .close uuid] : List (DestinationObs κ)) = [] := rfl
        rw [requests_append, hnothing, List.append_nil] at ha
        have hne : a ≠ .close := by
          rintro rfl
          simpa [isRequest, caller?] using isRequest_of_mem_requests ha
        rcases h.answered a ha with hq | hans
        · rw [hqueue] at hq
          exact Or.inl ((List.mem_cons.mp hq).resolve_left hne)
        · refine Or.inr (hans.append rfl ?_)
          rintro ⟨u, hu⟩
          exact hne (DestinationObs.took.inj (List.mem_singleton.mp hu)).1
      · obtain rfl := Mailbox.leaving.inj hq'
        exact hstop (Or.inl rfl)
  | performed fresh horder hmail hclose =>
      exact h.performed hbooks hC horder hmail hclose _
  | @finished q hmail =>
      refine ⟨fun a ha => ?_, fun q' hq' => by cases hq'⟩
      rw [requests_append, show requests ([.finished] : List (DestinationObs κ)) = [] from rfl,
        List.append_nil] at ha
      rcases h.answered a ha with hq | hans
      · rw [hmail] at hq
        have hno := h.left q hmail a hq
        simp [isRequest_of_mem_requests ha] at hno
      · exact Or.inr (hans.append rfl fun ht => by simp [Took] at ht)

/-- **A lost request stays lost.** -/
theorem Lost.step {s s' : DestinationRun κ} {l : DestinationLabel κ}
    {tr os : List (DestinationObs κ)} (h : Lost s tr) (hbooks : Books s tr)
    (hstep : Turn s l s' os) : Lost s' (tr ++ os) := by
  obtain ⟨a, ha, hcall, hgone⟩ := h
  have hin : a ∈ requests (tr ++ os) := by
    rw [requests_append]
    exact List.mem_append_left _ ha
  obtain ⟨k, hk⟩ := isRequest_iff.mp (isRequest_of_mem_requests ha)
  have hknown : k ∈ s.closures := hbooks.boxed a ha k hk
  refine ⟨a, hin, ?_⟩
  rw [callbacks_append, hcall, List.nil_append]
  cases hstep with
  | @accepted a' answers m fresh hsend =>
      refine ⟨rfl, fun hq => ?_⟩
      rw [show (m : Mailbox _).queue = _ from Mailbox.queue_send hsend, List.mem_append,
        List.mem_singleton] at hq
      rcases hq with hq | rfl
      · obtain ⟨q, hmail⟩ := hgone hq
        rcases Mailbox.send_eq_some hsend with ⟨q', hmail', -⟩ | ⟨q', -, rfl⟩
        · rw [hmail] at hmail'
          cases hmail'
        · exact ⟨_, rfl⟩
      · exact absurd hknown (fresh k hk)
  | @refused a' answers fresh gone =>
      exact ⟨callbacks_refused fun heq => fresh k (heq ▸ hk) hknown, hgone⟩
  | @closed uuid order answers q fresh hmail =>
      refine ⟨rfl, fun hq => ?_⟩
      exact ⟨q, rfl⟩
  | @performed uuid order answers a' q fresh horder hmail hclose =>
      have hqueue : s.destination.mailbox.queue = a' :: q := by rw [hmail]; rfl
      have hnot : a ∉ s.destination.mailbox.queue := by
        intro hq
        obtain ⟨q', hmail'⟩ := hgone hq
        rw [hmail] at hmail'
        cases hmail'
      rw [hqueue, List.mem_cons, not_or] at hnot
      have hra : a'.isRequest = true := by cases a' <;> simp_all [isRequest, caller?]
      have hin' := (hbooks.waiting a' (hqueue ▸ List.mem_cons_self) hra).1
      refine ⟨callbacks_performed fun heq => hnot.1 (hbooks.distinct a ha a' hin' heq),
        fun hq => ?_⟩
      rcases queue_settle_subset q answers
        (s.destination.backend.perform answers uuid order a') with hq' | hq'
      · exact absurd (hq' ▸ hq) hnot.2
      · rw [hq'] at hq
        simp at hq
  | finished hmail =>
      refine ⟨rfl, fun hq => ?_⟩
      simp at hq

/-- A backend that panics loses the action it performs, or a request that waits behind it. -/
theorem lost_of_performed {s : DestinationRun κ} {tr : List (DestinationObs κ)}
    (hbooks : Books s tr) {uuid : String} {order : List SubscriptionId} {answers : Answers κ}
    {a : DestinationAction κ} {q : List (DestinationAction κ)}
    (hC : ¬ Answerable s (.process uuid order answers))
    (horder : order.Perm s.destination.backend.subscriptions.keys)
    (hmail : s.destination.mailbox = .listening (a :: q)) (hclose : a ≠ .close)
    (uuids : List String) :
    Lost ⟨settle (.listening q) answers (s.destination.backend.perform answers uuid order a),
        uuids, s.closures⟩
      (tr ++ .took a uuid
        :: observe answers (s.destination.backend.perform answers uuid order a).2) := by
  set b := s.destination.backend with hb
  have hqueue : s.destination.mailbox.queue = a :: q := by rw [hmail]; rfl
  have hra : a.isRequest = true := by cases a <;> simp_all [isRequest, caller?]
  have hpanicked : (∃ i ∈ (b.perform answers uuid order a).2, answers i = .panic) →
      (settle (.listening q) answers (b.perform answers uuid order a)).mailbox
        = .panicked := by
    intro hex
    rcases settle_mailbox (.listening q) answers (b.perform answers uuid order a) with
      ⟨hno, -⟩ | ⟨-, hm⟩
    · obtain ⟨i, hi, hpanic⟩ := hex
      exact absurd hpanic (hno i hi)
    · exact hm
  by_cases hsends : ∃ i ∈ b.sends uuid order a, answers i = .panic
  · -- the action is taken, and the backend dies before it answers
    obtain ⟨hex, honly⟩ := perform_snd_of_panic b answers uuid order a hsends
    obtain ⟨hin, hcall, -⟩ := hbooks.waiting a (hqueue ▸ List.mem_cons_self) hra
    refine ⟨a, ?_, ?_, fun hq => ?_⟩
    · rw [requests_append]
      exact List.mem_append_left _ hin
    · rw [callbacks_append, hcall, List.nil_append]
      show callbacks a (observe answers _) = []
      rw [callbacks_observe, List.filter_eq_nil_iff]
      intro i hi
      simp [not_isAnsweredBy_sends (honly i hi)]
    · rw [hpanicked hex] at hq
      simp at hq
  · have hsends' : ∀ i ∈ b.sends uuid order a, answers i ≠ .panic :=
      fun i hi hp => hsends ⟨i, hi, hp⟩
    have hpass : PassesOn b answers uuid a := by
      cases a with
      | send message k =>
          intro id sub hid
          exact hsends' _ ((mem_sends b uuid order horder).mpr
            ⟨message, k, id, sub, rfl, hid, rfl⟩)
      | _ => trivial
    obtain ⟨hstop, a', ha', hr'⟩ :
        Stops b answers uuid a ∧ ∃ a' ∈ q, a'.isRequest = true := by
      by_contra hno
      apply hC
      intro a₁ q₁ hmail'
      obtain ⟨rfl, rfl⟩ := List.cons.inj (Mailbox.listening.inj (hmail ▸ hmail'))
      refine ⟨hpass, fun hstop a' ha' => ?_⟩
      simpa using fun hr => hno ⟨hstop, a', ha', hr⟩
    obtain ⟨i, hi, hpanic⟩ := hstop.resolve_left hclose
    have hex : ∃ i ∈ (b.perform answers uuid order a).2, answers i = .panic := by
      rw [perform_snd b answers uuid order a hsends']
      exact ⟨i, List.mem_append_right _ (Option.mem_toList.mpr hi), hpanic⟩
    obtain ⟨hin, hcall, -⟩ := hbooks.waiting a' (hqueue ▸ List.mem_cons_of_mem _ ha') hr'
    refine ⟨a', ?_, ?_, fun hq => ?_⟩
    · rw [requests_append]
      exact List.mem_append_left _ hin
    · rw [callbacks_append, hcall, callbacks_performed (hbooks.caller?_ne hmail ha' hr')]
      rfl
    · rw [hpanicked hex] at hq
      simp at hq

/-- **A step that does not meet the condition loses a request.** -/
theorem lost_of_not_answerable {s s' : DestinationRun κ} {l : DestinationLabel κ}
    {tr os : List (DestinationObs κ)} (hbooks : Books s tr) (hC : ¬ Answerable s l)
    (hstep : Turn s l s' os) : Lost s' (tr ++ os) := by
  cases hstep with
  | @accepted a answers m fresh hsend =>
      simp only [Answerable, not_forall, not_not] at hC
      obtain ⟨hr, q, hmail⟩ := hC
      obtain ⟨k, hk⟩ := isRequest_iff.mp hr
      have hunseen : callbacks a tr = [] := by
        by_contra hs
        exact fresh k hk (hbooks.seen a (Or.inl hs) k hk)
      rcases Mailbox.send_eq_some hsend with ⟨q', hmail', -⟩ | ⟨q', -, rfl⟩
      · rw [hmail] at hmail'
        cases hmail'
      · refine ⟨a, ?_, ?_, fun _ => ⟨_, rfl⟩⟩
        · rw [requests_append, List.mem_append]
          right
          have hone : requests [DestinationObs.called a true] = _ :=
            requests_called a true answers []
          rw [hone, if_pos hr]
          exact List.mem_cons_self
        · rw [callbacks_append, hunseen]
          rfl
  | @refused a answers fresh gone =>
      simp only [Answerable, not_forall, not_not] at hC
      obtain ⟨-, q, hmail⟩ := hC
      rw [hmail] at gone
      simp [Mailbox.isGone] at gone
  | @closed uuid order answers q fresh hmail =>
      have hqueue : s.destination.mailbox.queue = .close :: q := by rw [hmail]; rfl
      obtain ⟨a, ha, hr⟩ : ∃ a ∈ q, a.isRequest = true := by
        by_contra hno
        apply hC
        intro a' q' hmail'
        obtain ⟨rfl, rfl⟩ := List.cons.inj (Mailbox.listening.inj (hmail ▸ hmail'))
        exact ⟨trivial, fun _ a' ha' => by simpa using fun hr => hno ⟨a', ha', hr⟩⟩
      obtain ⟨hin, hcall, -⟩ := hbooks.waiting a (hqueue ▸ List.mem_cons_of_mem _ ha) hr
      refine ⟨a, ?_, ?_, fun _ => ⟨q, rfl⟩⟩
      · rw [requests_append]
        exact List.mem_append_left _ hin
      · rw [callbacks_append, hcall]
        rfl
  | performed fresh horder hmail hclose =>
      exact lost_of_performed hbooks hC horder hmail hclose _
  | finished hmail => exact absurd trivial hC

/-! ## Runs -/

/-- The books are kept in every run. -/
theorem books {d : DestinationId} {ls : List (DestinationLabel κ)}
    {tr : List (DestinationObs κ)} {s : DestinationRun κ}
    (h : lts.Run LTS.Free (initial d) ls tr s) : Books s tr := by
  refine h.invariant ?_ fun _ ih _ hstep => ih.step (turn_of_step hstep)
  refine ⟨fun a ha => ?_, fun a ha => ?_, fun a ha => ?_, fun a ha => ?_, List.nodup_nil⟩
  · simp [requests] at ha
  · simp [callbacks, Took] at ha
  · simp [requests] at ha
  · simp [initial, create] at ha

/-- Every run either meets the condition at each step, or has lost a request. -/
theorem answerable_or_lost {d : DestinationId} {ls : List (DestinationLabel κ)}
    {tr : List (DestinationObs κ)} {s : DestinationRun κ}
    (h : lts.Run LTS.Free (initial d) ls tr s) :
    lts.Run Answerable (initial d) ls tr s ∨ Lost s tr := by
  induction h with
  | refl => exact Or.inl (LTS.Run.refl _)
  | @snoc s₁ s₂ ls₁ tr₁ os l hrun _ hstep ih =>
      have hbooks := books hrun
      rcases ih with hans | hlost
      · by_cases hC : Answerable s₁ l
        · exact Or.inl (hans.snoc hC hstep)
        · exact Or.inr (lost_of_not_answerable hbooks hC (turn_of_step hstep))
      · exact Or.inr (hlost.step hbooks (turn_of_step hstep))

/-- In a run that meets the condition every request is served. -/
theorem served {d : DestinationId} {ls : List (DestinationLabel κ)}
    {tr : List (DestinationObs κ)} {s : DestinationRun κ}
    (h : lts.Run Answerable (initial d) ls tr s) : Served s tr := by
  refine h.invariant ⟨fun a ha => ?_, fun q hq => by cases hq⟩ fun hrun ih hC hstep =>
    ih.step (books hrun.free) hC (turn_of_step hstep)
  simp [requests] at ha

/-- Nothing is left to do: the backend has stopped, or nothing waits. -/
def AtRest (s : DestinationRun κ) : Prop :=
  s.destination.mailbox.isGone = true ∨ s.destination.mailbox.queue = []

/-- **One callback per request.**  Once nothing is left to do, every request has had exactly
one callback, with a result if the backend took it and with an error otherwise, if and
only if no step of the run was of the kind that loses requests. -/
theorem answeredOnce_iff_answerable {d : DestinationId} {ls : List (DestinationLabel κ)}
    {tr : List (DestinationObs κ)} {s : DestinationRun κ}
    (h : lts.Run LTS.Free (initial d) ls tr s) (hrest : AtRest s) :
    (∀ a ∈ requests tr, AnsweredOnce a tr) ↔ lts.Run Answerable (initial d) ls tr s := by
  constructor
  · intro hans
    refine (answerable_or_lost h).resolve_right ?_
    rintro ⟨a, ha, hcall, -⟩
    obtain ⟨i, hi, -⟩ := hans a ha
    rw [hcall] at hi
    cases hi
  · intro hrun a ha
    have hempty : s.destination.mailbox.queue = [] := hrest.elim Mailbox.queue_of_isGone id
    refine ((served hrun).answered a ha).resolve_left ?_
    rw [hempty]
    exact List.not_mem_nil

/-- The theorem applied to a subscribe call that the backend takes. -/
theorem answeredOnce_iff_answerable_subscribe :
    let ls : List (DestinationLabel Nat) :=
      [.call (.subscribe (some ⟨"sub-0"⟩) 0) fun _ => .ok, .process "uuid-0" [] fun _ => .ok]
    ∃ tr s, lts.Run LTS.Free (initial ⟨"/queue/a"⟩) ls tr s ∧ AtRest s ∧
      ((∀ a ∈ requests tr, AnsweredOnce a tr) ↔
        lts.Run Answerable (initial ⟨"/queue/a"⟩) ls tr s) := by
  intro ls
  have hrun := LTS.Run.exec_get lts LTS.Free (initial ⟨"/queue/a"⟩) ls (by decide)
  have hrest : AtRest ((lts.exec LTS.Free (initial ⟨"/queue/a"⟩) ls).get (by decide)).1 :=
    Or.inr rfl
  exact ⟨_, _, hrun, hrest, answeredOnce_iff_answerable hrun hrest⟩

/-- **Requests are lost**: a subscribe call between a `close` call and the backend's taking it
is accepted, and never answered. -/
theorem subscribe_behind_close_unanswered :
    ¬ ∀ (d : DestinationId) (ls : List (DestinationLabel Nat)) (tr : List (DestinationObs Nat))
        (s : DestinationRun Nat), lts.Run LTS.Free (initial d) ls tr s → AtRest s →
      ∀ a ∈ requests tr, AnsweredOnce a tr := by
  intro hall
  let ls : List (DestinationLabel Nat) :=
    [.call .close fun _ => .ok, .call (.subscribe (some ⟨"sub-0"⟩) 0) fun _ => .ok,
      .process "uuid-0" [] fun _ => .ok, .finish]
  have hrun := LTS.Run.exec_get lts LTS.Free (initial ⟨"/queue/a"⟩) ls (by decide)
  obtain ⟨i, hi, -⟩ := hall _ _ _ _ hrun (Or.inl rfl) (.subscribe (some ⟨"sub-0"⟩) 0)
    (by decide)
  cases hi

end InMemDestination
