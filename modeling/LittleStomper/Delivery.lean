/-
# A backend honours its subscribers

The messages a backend passes to the `send` of a subscription are the feed owed to that
subscription (`Library/Feed.lean`) on the log of the actions the backend took: every
`Send` taken after its `Subscribe`, once and in order, up to its `Unsubscribe` or up to
its first failed `send`, whatever happens to the other subscriptions and in whatever
order the map yields them.

The invariant `Delivers` says that the map holds exactly the live subscriptions, each
under its own id; one action is one entry of the log, followed by the failures.
-/
import LittleStomper.InMemoryStep
import LittleStomper.Library.Feed

open LogEntry

variable {κ : Type}

namespace DestinationObs

/-- The entry an observation makes in the log of the destination `d`. -/
def logged? (d : DestinationId) :
    DestinationObs κ → Option (LogEntry SubscriptionId OutboundMessage)
  | took (.subscribe _ _) uuid => some (subscribed ⟨uuid⟩)
  | took (.unsubscribe subId _) _ => some (unsubscribed subId)
  | took (.send message _) uuid => some (sent ⟨d, ⟨uuid⟩, message.body⟩)
  | invoked (.send _ subscription _ _) .err => some (failed subscription)
  | _ => none

/-- The message an observation passes to the `send` of the subscription `s`. -/
def passed? (s : SubscriptionId) : DestinationObs κ → Option OutboundMessage
  | invoked (.send _ subscription _ message) _ => if subscription = s then some message else none
  | _ => none

/-- The action that a handle enqueued. -/
def accepted? : DestinationObs κ → Option (DestinationAction κ)
  | called a true => some a
  | _ => none

/-- The action that the backend took. -/
def taken? : DestinationObs κ → Option (DestinationAction κ)
  | took a _ => some a
  | _ => none

/-- What happened at the destination `d`. -/
def log (d : DestinationId) (tr : List (DestinationObs κ)) :
    List (LogEntry SubscriptionId OutboundMessage) :=
  tr.filterMap (logged? d)

/-- The messages passed to the `send` of the subscription `s`. -/
def passed (s : SubscriptionId) (tr : List (DestinationObs κ)) : List OutboundMessage :=
  tr.filterMap (passed? s)

@[simp] theorem log_append (d : DestinationId) (tr os : List (DestinationObs κ)) :
    log d (tr ++ os) = log d tr ++ log d os := List.filterMap_append

@[simp] theorem passed_append (s : SubscriptionId) (tr os : List (DestinationObs κ)) :
    passed s (tr ++ os) = passed s tr ++ passed s os := List.filterMap_append

/-- The entry made by a call of a subscription's `send`. -/
theorem logged?_send (d : DestinationId) (s : Subscription κ) (m : OutboundMessage)
    (reply : Reply) : logged? d (invoked (s.send m) reply)
      = if reply = .err then some (failed s.id) else none := by
  cases reply <;> rfl

/-- The message passed by a call of a subscription's `send`. -/
theorem passed?_send (k : SubscriptionId) (s : Subscription κ) (m : OutboundMessage)
    (reply : Reply) : passed? k (invoked (s.send m) reply)
      = if s.id = k then some m else none := rfl

/-- The log of the calls of `send` of some subscriptions: those that fail. -/
theorem log_observe_sends (d : DestinationId) (answers : Answers κ) (m : OutboundMessage)
    (subs : List (Subscription κ)) :
    log d (InMemDestination.observe answers (subs.map (·.send m)))
      = ((subs.filter fun s => answers (s.send m) = .err).map (·.id)).map failed := by
  induction subs with
  | nil => rfl
  | cons s subs ih =>
    simp only [log, InMemDestination.observe, List.map_cons, List.filterMap_cons,
      List.filter_cons, logged?_send] at ih ⊢
    rw [ih]
    by_cases herr : answers (s.send m) = .err
    · simp [herr]
    · simp [herr]

/-- Each of them passes the message to one subscription. -/
theorem passed_observe_sends (k : SubscriptionId) (answers : Answers κ) (m : OutboundMessage)
    (subs : List (Subscription κ)) :
    passed k (InMemDestination.observe answers (subs.map (·.send m)))
      = ((subs.map (·.id)).filter (· = k)).map fun _ => m := by
  induction subs with
  | nil => rfl
  | cons s subs ih =>
    simp only [passed, InMemDestination.observe, List.map_cons, List.filterMap_cons,
      List.filter_cons, passed?_send] at ih ⊢
    rw [ih]
    by_cases hk : s.id = k
    · simp [hk]
    · simp [hk]

end DestinationObs

open DestinationObs

namespace InMemDestination

open InMemDestinationBackend

/-- No subscriber panics in `send` (it succeeds or fails). -/
def SendsReturn (s : DestinationRun κ) : DestinationLabel κ → Prop
  | .process _ _ answers => ∀ id sub m,
      s.destination.backend.subscriptions.lookup id = some sub → answers (sub.send m) ≠ .panic
  | _ => True

/-- The invariant: the map holds exactly the live subscriptions, each under its own id, and
every subscription was passed what it is owed. -/
structure Delivers (d : DestinationId) (s : DestinationRun κ) (tr : List (DestinationObs κ)) :
    Prop where
  id : s.destination.backend.id = d
  keyed : s.destination.backend.Keyed
  live : ∀ k, (s.destination.backend.subscriptions.lookup k).isSome ↔ Live k (log d tr)
  drawn : ∀ k, ¬ Absent k (log d tr) → k.str ∈ s.uuids
  fed : ∀ k, passed k tr = feed k (log d tr)

/-- Observations that make no entry and pass no message, and a change that leaves the map
alone, keep the invariant. -/
theorem Delivers.silent {d : DestinationId} {s s' : DestinationRun κ}
    {tr os : List (DestinationObs κ)} (h : Delivers d s tr)
    (hback : s'.destination.backend = s.destination.backend) (huuids : s.uuids ⊆ s'.uuids)
    (hlog : log d os = []) (hpassed : ∀ k, passed k os = []) : Delivers d s' (tr ++ os) where
  id := by rw [hback, h.id]
  keyed := by rw [hback]; exact h.keyed
  live := by simpa [hback, hlog] using h.live
  drawn := fun k hk => huuids (h.drawn k (by simpa [hlog] using hk))
  fed := by simpa [hlog, hpassed] using h.fed

/-- A handle that answers itself passes no message. -/
theorem observe_failure (d id : DestinationId) (answers : Answers κ) (a : DestinationAction κ) :
    log d (observe answers (failure id a)) = [] ∧
      ∀ k, passed k (observe answers (failure id a)) = [] := by
  cases a <;> simp [failure, observe, log, passed, logged?, passed?]

/-- One subscription more. -/
theorem Delivers.subscribe {d : DestinationId} {s : DestinationRun κ}
    {tr : List (DestinationObs κ)} (h : Delivers d s tr) {answers : Answers κ} {uuid : String}
    {order : List SubscriptionId} {sub : Option SubscriptionId} {k : κ}
    {m : Mailbox (DestinationAction κ)} (hfresh : uuid ∉ s.uuids) :
    let r := s.destination.backend.perform answers uuid order (.subscribe sub k)
    Delivers d ⟨settle m answers r, uuid :: s.uuids, s.closures⟩
      (tr ++ .took (.subscribe sub k) uuid :: observe answers r.2) := by
  intro r
  have hos : r.2 = [.subscribeCallback k s.destination.backend.id sub (.ok ⟨uuid⟩)] :=
    addSubscription_snd _ _ _ _
  have hlog : log d (tr ++ .took (.subscribe sub k) uuid :: observe answers r.2)
      = log d tr ++ [subscribed ⟨uuid⟩] := by
    rw [hos]
    simp [log, observe, logged?]
  have hpassed : ∀ i, passed i (.took (.subscribe sub k) uuid :: observe answers r.2) = [] := by
    intro i
    rw [hos]
    simp [passed, observe, passed?]
  have habsent : Absent ⟨uuid⟩ (log d tr) := by
    by_contra hc
    exact hfresh (h.drawn ⟨uuid⟩ hc)
  constructor
  · rw [settle_backend, perform_id, h.id]
  · intro i sub' hi
    rw [settle_backend, lookup_perform_subscribe] at hi
    split_ifs at hi with hnew
    · rw [← Option.some.inj hi, hnew]
    · exact h.keyed i sub' hi
  · intro i
    rw [settle_backend, lookup_perform_subscribe, hlog, live_concat]
    split_ifs with hnew
    · subst hnew
      simp [starts, habsent]
    · rw [h.live i]
      simp [ends, starts, Ne.symm hnew]
  · intro i hi
    rw [hlog, absent_concat] at hi
    by_cases hnew : i = ⟨uuid⟩
    · subst hnew
      exact List.mem_cons_self
    · refine List.mem_cons_of_mem _ (h.drawn i fun ha => hi ⟨ha, ?_⟩)
      simp [starts, Ne.symm hnew]
  · intro i
    rw [passed_append, hpassed, hlog, feed_concat, h.fed i]
    simp [message?]

/-- One subscription less. -/
theorem Delivers.unsubscribe {d : DestinationId} {s : DestinationRun κ}
    {tr : List (DestinationObs κ)} (h : Delivers d s tr) {answers : Answers κ} {uuid : String}
    {order : List SubscriptionId} {subId : SubscriptionId} {k : κ}
    {m : Mailbox (DestinationAction κ)} :
    let r := s.destination.backend.perform answers uuid order (.unsubscribe subId k)
    Delivers d ⟨settle m answers r, uuid :: s.uuids, s.closures⟩
      (tr ++ .took (.unsubscribe subId k) uuid :: observe answers r.2) := by
  intro r
  have hlog : log d (tr ++ .took (.unsubscribe subId k) uuid :: observe answers r.2)
      = log d tr ++ [unsubscribed subId] := by
    simp [r, log, observe, logged?, perform, removeSubscription]
  have hpassed : ∀ i, passed i (.took (.unsubscribe subId k) uuid :: observe answers r.2) = [] := by
    intro i
    simp [r, passed, observe, passed?, perform, removeSubscription]
  constructor
  · rw [settle_backend, perform_id, h.id]
  · intro i sub' hi
    rw [settle_backend, lookup_perform_unsubscribe] at hi
    split_ifs at hi with hold
    exact h.keyed i sub' hi
  · intro i
    rw [settle_backend, lookup_perform_unsubscribe, hlog, live_concat]
    split_ifs with hold
    · subst hold
      simp [ends, starts]
    · rw [h.live i]
      simp [ends, starts, Ne.symm hold]
  · intro i hi
    rw [hlog, absent_concat] at hi
    exact List.mem_cons_of_mem _ (h.drawn i fun ha => hi ⟨ha, rfl⟩)
  · intro i
    rw [passed_append, hpassed, hlog, feed_concat, h.fed i]
    simp [message?]

/-- One message more: it is passed to the subscriptions held, and those that fail go. -/
theorem Delivers.send {d : DestinationId} {s : DestinationRun κ}
    {tr : List (DestinationObs κ)} (h : Delivers d s tr) {answers : Answers κ} {uuid : String}
    {order : List SubscriptionId} {message : InboundMessage} {k : κ}
    {m : Mailbox (DestinationAction κ)}
    (horder : order.Perm s.destination.backend.subscriptions.keys)
    (hreturn : ∀ id sub m, s.destination.backend.subscriptions.lookup id = some sub →
      answers (sub.send m) ≠ .panic) :
    let r := s.destination.backend.perform answers uuid order (.send message k)
    Delivers d ⟨settle m answers r, uuid :: s.uuids, s.closures⟩
      (tr ++ .took (.send message k) uuid :: observe answers r.2) := by
  intro r
  set b := s.destination.backend
  have hvalues : ∀ sub ∈ b.values order,
      answers (sub.send (b.outMessage uuid message)) ≠ .panic := by
    intro sub hsub
    obtain ⟨id, hid⟩ := (mem_values b horder).mp hsub
    exact hreturn id sub _ hid
  have hos : r.2 = _ := perform_send_snd b answers uuid order message k hvalues
  have hout : b.outMessage uuid message = ⟨d, ⟨uuid⟩, message.body⟩ := by
    rw [outMessage, h.id]
  have hlog : log d (tr ++ .took (.send message k) uuid :: observe answers r.2)
      = (log d tr ++ [sent (b.outMessage uuid message)])
        ++ (b.deadOf answers order (b.outMessage uuid message)).map failed := by
    have hcons : log d (.took (.send message k) uuid :: observe answers r.2)
        = sent (b.outMessage uuid message) :: log d (observe answers r.2) := by
      rw [hout]
      rfl
    rw [log_append, hcons, hos, observe, List.map_append, log_append]
    have hsends := log_observe_sends d answers (b.outMessage uuid message) (b.values order)
    rw [observe] at hsends
    rw [hsends, List.append_assoc]
    simp [log, logged?, deadOf]
  have hmem : ∀ i, i ∈ order ↔ Live i (log d tr) := by
    intro i
    rw [← h.live i, AList.lookup_isSome, AList.mem_keys, horder.mem_iff]
  have hpassed : ∀ i, passed i (.took (.send message k) uuid :: observe answers r.2)
      = (order.filter (· = i)).map fun _ => b.outMessage uuid message := by
    intro i
    have hcons : passed i (.took (.send message k) uuid :: observe answers r.2)
        = passed i (observe answers r.2) := rfl
    have hsends := passed_observe_sends i answers (b.outMessage uuid message) (b.values order)
    rw [observe] at hsends
    rw [hcons, hos, observe, List.map_append, passed_append, hsends,
      h.keyed.map_id_values fun s hs => horder.mem_iff.mp hs]
    simp [passed, passed?]
  constructor
  · rw [settle_backend, perform_id, h.id]
  · intro i sub' hi
    rw [settle_backend, lookup_perform_send b answers uuid order message k i hvalues] at hi
    split_ifs at hi with hdead
    exact h.keyed i sub' hi
  · intro i
    rw [settle_backend, lookup_perform_send b answers uuid order message k i hvalues, hlog,
      live_append_failed, live_concat]
    split_ifs with hdead
    · simp [hdead]
    · rw [h.live i]
      simp [ends, starts, hdead]
  · intro i hi
    rw [hlog, absent_append_failed, absent_concat] at hi
    exact List.mem_cons_of_mem _ (h.drawn i fun ha => hi ⟨ha, rfl⟩)
  · intro i
    rw [passed_append, hpassed, hlog, feed_append_failed, feed_concat, h.fed i]
    congr 1
    have hnodup : order.Nodup := horder.nodup_iff.mpr b.subscriptions.nodupKeys
    split_ifs with hlive
    · rw [List.filter_eq, List.count_eq_one_of_mem hnodup ((hmem i).mpr hlive)]
      rfl
    · rw [List.filter_eq, List.count_eq_zero_of_not_mem fun hi => hlive ((hmem i).mp hi)]
      rfl

/-- **After a `Send` exactly the subscriptions whose own call succeeded remain.** -/
theorem lookup_send {d d' : InMemDestination κ} (hkeyed : d.backend.Keyed) {answers : Answers κ}
    {uuid : String} {order : List SubscriptionId} {message : InboundMessage} {k : κ}
    {q : List (DestinationAction κ)} {os : List (DestinationObs κ)}
    (hreturn : ∀ id sub m, d.backend.subscriptions.lookup id = some sub →
      answers (sub.send m) ≠ .panic)
    (hmail : d.mailbox = .listening (.send message k :: q))
    (h : d.process answers uuid order = some (d', os)) (s : SubscriptionId) :
    d'.backend.subscriptions.lookup s
      = (d.backend.subscriptions.lookup s).filter fun sub =>
          answers (sub.send (d.backend.outMessage uuid message)) = .ok := by
  obtain ⟨horder, a, q', hmail', hcase⟩ := process_cases h
  obtain ⟨rfl, rfl⟩ : a = .send message k ∧ q' = q := by
    rw [hmail] at hmail'
    simpa [eq_comm] using hmail'
  rcases hcase with ⟨hc, -, -⟩ | ⟨-, rfl, -⟩
  · simp at hc
  · have hvalues : ∀ sub ∈ d.backend.values order,
        answers (sub.send (d.backend.outMessage uuid message)) ≠ .panic := by
      intro sub hsub
      obtain ⟨id, hid⟩ := (mem_values _ horder).mp hsub
      exact hreturn id sub _ hid
    rw [settle_backend, lookup_perform_send _ _ _ _ _ _ _ hvalues]
    cases hs : d.backend.subscriptions.lookup s with
    | none => simp
    | some sub =>
      simp only [hkeyed.mem_deadOf horder hs]
      have hne := hreturn s sub (d.backend.outMessage uuid message) hs
      cases hreply : answers (sub.send (d.backend.outMessage uuid message)) with
      | panic => exact absurd hreply hne
      | ok => simp [Option.filter, hreply]
      | err => simp [Option.filter, hreply]

variable [DecidableEq κ]

/-- **Every step keeps the invariant.** -/
theorem Delivers.step {d : DestinationId} {s s' : DestinationRun κ} {l : DestinationLabel κ}
    {tr os : List (DestinationObs κ)} (h : Delivers d s tr) (hreturn : SendsReturn s l)
    (hstep : lts.step s l = some (s', os)) : Delivers d s' (tr ++ os) := by
  cases turn_of_step hstep with
  | accepted _ _ => exact h.silent rfl (fun _ hu => hu) rfl fun _ => rfl
  | refused _ _ =>
      exact h.silent rfl (fun _ hu => hu) (observe_failure d _ _ _).1 (observe_failure d _ _ _).2
  | closed _ _ => exact h.silent rfl (List.subset_cons_self _ _) rfl fun _ => rfl
  | @performed uuid order answers a q hfresh horder _ hclose =>
      cases a with
      | subscribe sub k => exact h.subscribe hfresh
      | unsubscribe subId k => exact h.unsubscribe
      | send message k => exact h.send horder hreturn
      | close => exact absurd rfl hclose
  | finished _ => exact h.silent rfl (fun _ hu => hu) rfl fun _ => rfl

/-- **A backend honours its subscribers**: in every run in which no subscriber panics in
`send`, the invariant holds. -/
theorem delivers {d : DestinationId} {ls : List (DestinationLabel κ)}
    {tr : List (DestinationObs κ)} {s : DestinationRun κ}
    (h : lts.Run SendsReturn (initial d) ls tr s) : Delivers d s tr := by
  refine h.invariant ?_ fun _ ih hC hstep => ih.step hC hstep
  exact ⟨rfl, fun s sub hs => by simp [initial, create] at hs, by simp [initial, create, log],
    fun k hk => absurd (fun e he => by simp [log] at he) hk, fun k => rfl⟩

/-! ## First in, first out -/

omit [DecidableEq κ] in
/-- The calls of subscribers enqueue nothing and take nothing. -/
theorem observe_queue (answers : Answers κ) (is : List (Invocation κ)) :
    (observe answers is).filterMap accepted? = [] ∧ (observe answers is).filterMap taken? = [] := by
  simp [observe, accepted?, taken?]

/-- **Actions are taken in the order in which they were enqueued.** -/
theorem fifo {C : DestinationRun κ → DestinationLabel κ → Prop} {d : DestinationId}
    {ls : List (DestinationLabel κ)} {tr : List (DestinationObs κ)} {s : DestinationRun κ}
    (h : lts.Run C (initial d) ls tr s) :
    Mailbox.Tracks (tr.filterMap accepted?) (tr.filterMap taken?) s.destination.mailbox := by
  refine h.invariant (P := fun s tr => Mailbox.Tracks (tr.filterMap accepted?)
    (tr.filterMap taken?) s.destination.mailbox) ?_ ?_
  · show ([] : List (DestinationAction κ)) = [] ++ []
    rfl
  intro ls tr os s s' l _ ih _ hstep
  rw [List.filterMap_append, List.filterMap_append]
  cases turn_of_step hstep with
  | accepted fresh hsend =>
      have hih := ih.send hsend
      simpa [List.filterMap_cons, accepted?, taken?] using hih
  | @refused a answers fresh gone =>
      have hobserve := observe_queue answers (failure s.destination.backend.id a)
      simpa [List.filterMap_cons, accepted?, taken?, hobserve] using ih
  | closed fresh hmail =>
      have hih := ih.recv (Mailbox.recv_eq_some.mpr ⟨_, hmail, rfl⟩)
      simpa [List.filterMap_cons, accepted?, taken?, Mailbox.Tracks] using hih
  | @performed uuid order answers a q fresh horder hmail hclose =>
      have hih := ih.recv (Mailbox.recv_eq_some.mpr ⟨_, hmail, rfl⟩)
      have hobserve := observe_queue answers
        (s.destination.backend.perform answers uuid order a).2
      simp only [List.filterMap_cons, accepted?, taken?, hobserve, List.append_nil]
      rcases settle_mailbox (.listening q) answers
        (s.destination.backend.perform answers uuid order a) with ⟨-, hm⟩ | ⟨-, hm⟩
      · rw [hm]
        exact hih
      · rw [hm]
        exact hih.initial
  | finished hmail =>
      simp only [List.filterMap_cons, List.filterMap_nil, accepted?, taken?, List.append_nil]
      exact ih.initial

/-! ## All of it -/

/-- **What a destination owes its subscribers.** -/
structure Honours (d : DestinationId) (s : DestinationRun κ) (tr : List (DestinationObs κ)) :
    Prop where
  /-- Actions are taken in the order in which they were enqueued. -/
  queue : Mailbox.Tracks (tr.filterMap accepted?) (tr.filterMap taken?) s.destination.mailbox
  /-- Every subscription was passed its feed, and nothing else. -/
  fed : ∀ k, passed k tr = feed k (log d tr)
  /-- Every subscription is stored under its own id. -/
  keyed : s.destination.backend.Keyed
  /-- After a `Send` the subscriptions are those whose own `send` succeeded. -/
  survivors : ∀ {answers : Answers κ} {uuid : String} {order : List SubscriptionId}
    {message : InboundMessage} {k : κ} {q : List (DestinationAction κ)} {s' : DestinationRun κ}
    {os : List (DestinationObs κ)}, SendsReturn s (.process uuid order answers) →
    s.destination.mailbox = .listening (.send message k :: q) →
    lts.step s (.process uuid order answers) = some (s', os) → ∀ id,
      s'.destination.backend.subscriptions.lookup id
        = (s.destination.backend.subscriptions.lookup id).filter fun sub =>
            answers (sub.send (s.destination.backend.outMessage uuid message)) = .ok

/-- A backend that has honoured its subscribers keeps on doing so. -/
theorem honours {d : DestinationId} {ls : List (DestinationLabel κ)}
    {tr : List (DestinationObs κ)} {s : DestinationRun κ}
    (h : lts.Run SendsReturn (initial d) ls tr s) : Honours d s tr where
  queue := fifo h
  fed := (delivers h).fed
  keyed := (delivers h).keyed
  survivors := by
    intro answers uuid order message k q s' os hreturn hmail hstep
    simp only [lts] at hstep
    split at hstep
    · cases hstep
    · obtain ⟨⟨d', os'⟩, hproc, heq⟩ := Option.map_eq_some_iff.mp hstep
      obtain ⟨rfl, rfl⟩ := Prod.mk.inj heq
      exact lookup_send (delivers h).keyed hreturn hmail hproc

end InMemDestination
