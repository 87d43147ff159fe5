/-
# ERROR frames

STOMP has the server close the connection just after an ERROR frame.  A connected session
does not: it queues a `Close` for itself, and goes on with whatever its three sources of
events offer until that `Close` is taken.

`Quiet` is the condition on a step under which this makes no difference.  In a run the
ERROR frame is the last thing said exactly when all steps meet it
(`errorIsLast_iff_quiet`).
-/
import LittleStomper.ClientStep
import LittleStomper.Library.Trace
import LittleStomper.Wire

open ClientEvent Trace

namespace SessionObs

/-- An ERROR frame is output. -/
def isError : SessionObs → Bool
  | output (.inl (.error _)) => true
  | _ => false

/-- Something is output, or a client frame is dispatched to the destinations. -/
def acts : SessionObs → Bool
  | output _ => true
  | call _ => true
  | _ => false

/-- After an ERROR frame nothing is output and nothing is dispatched. -/
def ErrorIsLast (tr : List SessionObs) : Prop := NoneBehind isError acts tr

end SessionObs

open SessionObs

/-! ## Loud events -/

/-- The kinds of events that make a session output or dispatch something. -/
def ClientEvent.loud (resetFails : Bool) : ClientEvent → Bool
  | connected _ => true
  | clientFrame (.error _) => true
  | clientFrame (.ok (.connect _)) => true
  | clientFrame (.ok (.subscribe _ _)) => true
  | clientFrame (.ok (.send _ (some _))) => true
  | clientFrame (.ok (.unsubscribe _)) => true
  | serverMessage _ _ => !resetFails
  | error _ => true
  | heartbeat => true
  | _ => false

namespace Session

/-- The loud events are those that do not panic and lead to a call or a message. -/
theorem loud_iff (p : Params) (s : ClientSession) (resetFails : Bool) (e : ClientEvent) :
    e.loud resetFails = true ↔ e.panics resetFails = false ∧
      ((e.call? s.activeSubscriptionsByClientId).isSome = true ∨
        (s.message? p e).isSome = true) := by
  cases e with
  | clientFrame result =>
      cases result with
      | error err => simp [loud, ClientEvent.panics, ClientSession.message?, fault?]
      | ok frame =>
          cases frame with
          | send d body => cases body <;> simp [loud, ClientEvent.panics, call?]
          | unsubscribe i =>
              cases hentry : s.activeSubscriptionsByClientId ⟨i⟩ <;>
                simp [loud, ClientEvent.panics, call?, ClientSession.message?, fault?, hentry]
          | _ => simp [loud, ClientEvent.panics, call?, ClientSession.message?, fault?, plain?]
  | serverMessage i m =>
      simp [loud, ClientEvent.panics, call?, ClientSession.message?, fault?, plain?]
  | _ => simp [loud, ClientEvent.panics, call?, ClientSession.message?, fault?, plain?]

/-- An event that ends the session is not loud. -/
theorem not_loud_of_ends {e : ClientEvent} (resetFails : Bool) (h : e.ends = true) :
    e.loud resetFails = false := by
  cases e with
  | clientFrame result =>
      cases result with
      | error err => simp [ends] at h
      | ok frame => cases frame <;> simp_all [ends, loud]
  | _ => simp_all [ends, loud]

/-- Before the outcome is clear nothing is output. -/
theorem not_failed_begun (s : ClientSession) (e : ClientEvent) : ¬ Seen isError (begun s e) := by
  rintro ⟨o, ho, herr⟩
  simp only [begun, List.mem_append, List.mem_cons, List.mem_map] at ho
  rcases ho with (rfl | ⟨timer, -, rfl⟩) | ⟨call, -, rfl⟩
  · cases herr
  · cases herr
  · cases herr

/-- An event is handled in silence up to its call. -/
theorem silent_begun (s : ClientSession) (e : ClientEvent) :
    Never acts (begun s e) ↔ (e.call? s.activeSubscriptionsByClientId).isSome = false := by
  cases hcall : e.call? s.activeSubscriptionsByClientId <;> simp [Never, begun, acts, hcall]

variable {p : Params} {s : ClientSession} {resetFails : Bool} {e : ClientEvent} {s' : Session}
  {os : List SessionObs}

/-- **An event is handled in silence exactly if it is not loud.** -/
theorem Handles.silent_iff (h : Handles p s resetFails e s' os) :
    Never acts os ↔ e.loud resetFails = false := by
  have hloud := loud_iff p s resetFails e
  cases h with
  | stuck hpanic =>
      have hnot : e.loud resetFails = false := by
        rw [← Bool.not_eq_true, hloud, hpanic]
        simp
      cases e <;> simp [clientMessageReceived, Never, acts, hnot]
  | callPanics hpanic hcall =>
      rw [never_append, silent_begun, hloud.mpr ⟨hpanic, Or.inl (by rw [hcall]; rfl)⟩, hcall]
      simp
  | ends hpanic hends =>
      have hnot := not_loud_of_ends resetFails hends
      have hcall : (e.call? s.activeSubscriptionsByClientId).isSome = false := by
        by_contra hc
        rw [hloud.mpr ⟨hpanic, Or.inl (by rwa [Bool.not_eq_false] at hc)⟩] at hnot
        cases hnot
      rw [silent_begun, hcall, hnot]
  | goesOn hpanic hends =>
      rw [never_append, silent_begun, ← Bool.not_eq_true (e.loud resetFails), hloud, hpanic]
      cases hm : s.message? p e <;> simp [Never, acts]

/-- Handling one event outputs an ERROR frame at the end or not at all. -/
theorem Handles.errorIsLast (h : Handles p s resetFails e s' os) : ErrorIsLast os := by
  have hbegun : ErrorIsLast (begun s e) := NoneBehind.of_not_seen (not_failed_begun s e)
  cases h with
  | stuck hpanic =>
      exact NoneBehind.of_not_seen (by cases e <;> simp [clientMessageReceived, Seen, isError])
  | callPanics hpanic hcall => exact NoneBehind.concat (not_failed_begun s e) _
  | ends hpanic hends => exact hbegun
  | goesOn hpanic hends =>
      cases hm : s.message? p e with
      | none => simpa using hbegun
      | some m => exact NoneBehind.concat (not_failed_begun s e) _

/-- An event without a fault leads to no ERROR frame. -/
theorem Handles.not_failed (h : Handles p s resetFails e s' os)
    (hfault : e.fault? p s.activeSubscriptionsByClientId = none) : ¬ Seen isError os := by
  cases h with
  | stuck hpanic => cases e <;> simp [clientMessageReceived, Seen, isError]
  | callPanics hpanic hcall =>
      intro hseen
      rcases seen_append.mp hseen with hseen | hseen
      · exact not_failed_begun s e hseen
      · simp [Seen, isError] at hseen
  | ends hpanic hends => exact not_failed_begun s e
  | goesOn hpanic hends =>
      intro hseen
      rcases seen_append.mp hseen with hseen | hseen
      · exact not_failed_begun s e hseen
      · rw [ClientSession.message?, hfault] at hseen
        cases e <;> simp [Seen, isError, plain?] at hseen

/-- If the session goes on, it has queued a `Close` exactly if it output an ERROR frame. -/
theorem Handles.failed_iff {r : ClientSession} (h : Handles p s resetFails e (running r) os) :
    r.events = s.events ++ (if (e.fault? p s.activeSubscriptionsByClientId).isSome then [.close]
      else []) ∧ (Seen isError os ↔ (e.fault? p s.activeSubscriptionsByClientId).isSome = true) ∧
      e ≠ .close := by
  have hnot := h.not_failed
  cases h with
  | goesOn hpanic hends =>
      refine ⟨rfl, ?_, ?_⟩
      · cases hfault : e.fault? p s.activeSubscriptionsByClientId with
        | some text =>
            rw [seen_append, ClientSession.message?, hfault]
            simp [Seen, isError]
        | none => simpa using hnot hfault
      · rintro rfl
        simp [ClientEvent.ends] at hends

/-! ## Runs -/

/-- A running session has a `Close` waiting exactly if it has output an ERROR frame. -/
def Closing (s : Session) (tr : List SessionObs) : Prop :=
  ∀ r, s = running r → (Seen isError tr ↔ .close ∈ r.events)

/-- **Every step keeps a `Close` waiting behind an ERROR frame**, and no other `Close`. -/
theorem Closing.step {s s' : Session} {input : SessionInput} {tr os : List SessionObs}
    (h : Closing s tr) (hstart : s = awaiting → tr = []) (hturn : Turn p s input s' os) :
    Closing s' (tr ++ os) := by
  intro r hr
  have hhandled : ∀ {s₀ : ClientSession} {rf : Bool} {e : ClientEvent},
      (Seen isError tr ↔ .close ∈ s₀.events ∨ e = .close) → Handles p s₀ rf e s' os →
      (Seen isError (tr ++ os) ↔ .close ∈ r.events) := by
    intro s₀ rf e hclose hhandles
    rw [hr] at hhandles
    obtain ⟨hevents, hfailed, hne⟩ := hhandles.failed_iff
    rw [seen_append, hfailed, hevents, hclose]
    by_cases hfault : (e.fault? p s₀.activeSubscriptionsByClientId).isSome = true
    · simp [hfault]
    · simp [hfault, hne]
  cases hturn with
  | rejected hfirst => cases hr
  | overflows hfirst hnew => cases hr
  | connected hfirst hnew =>
      obtain rfl := Session.running.inj hr
      obtain ⟨hevents, -, -⟩ := new_eq_some hnew
      rw [hevents, hstart rfl]
      simp [Seen, isError]
  | client hhandles =>
      refine hhandled ?_ hhandles
      rw [h _ rfl]
      refine ⟨Or.inl, fun hc => hc.resolve_right ?_⟩
      rintro heq
      rw [heq] at hhandles
      rw [hr] at hhandles
      exact hhandles.failed_iff.2.2 rfl
  | own hevents hhandles =>
      refine hhandled ?_ hhandles
      rw [h _ rfl, hevents, List.mem_cons, or_comm, eq_comm]
  | heartbeat hheartbeat hhandles =>
      refine hhandled ?_ hhandles
      rw [h _ rfl]
      simp
  | missed hlistening hheartbeat =>
      obtain rfl := Session.running.inj hr
      rw [List.append_nil, h _ rfl]
      simp [ClientSession.sendEvent]
  | @delivered s₀ e hfrom =>
      obtain rfl := Session.running.inj hr
      rw [List.append_nil, h _ rfl]
      cases e <;> simp_all [ClientSession.sendEvent, fromSubscriber]
  | sinkFails => cases hr

/-- Nothing is observed of a session before its first item. -/
theorem eq_nil_of_awaiting {C : Session → SessionInput × (DestinationCall → Bool) → Prop}
    {ls : List (SessionInput × (DestinationCall → Bool))} {tr : List SessionObs}
    (h : (lts p).Run C awaiting ls tr awaiting) : tr = [] := by
  have hinv : ∀ s, (lts p).Run C awaiting ls tr s → s = awaiting → tr = [] := by
    intro s hrun
    refine hrun.invariant (P := fun s tr => s = awaiting → tr = []) (fun _ => rfl) ?_
    intro _ _ _ _ _ _ _ _ _ hstep heq
    exact absurd heq (turn_of_step hstep).ne_awaiting
  exact hinv _ h rfl

/-- In every run a `Close` waits behind an ERROR frame. -/
theorem closing {C : Session → SessionInput × (DestinationCall → Bool) → Prop}
    {ls : List (SessionInput × (DestinationCall → Bool))} {tr : List SessionObs} {s : Session}
    (h : (lts p).Run C awaiting ls tr s) : Closing s tr := by
  refine h.invariant (fun r hr => by cases hr) fun hrun ih _ hstep => ?_
  refine ih.step ?_ (turn_of_step hstep)
  rintro rfl
  exact eq_nil_of_awaiting hrun

/-- **The condition of a step that says nothing behind an ERROR frame**: as long as a `Close`
waits in the session's channel, no loud event is taken from any of its three sources. -/
def Quiet (p : Params) : Session → SessionInput × (DestinationCall → Bool) → Prop
  | running s, (.client item, _) => .close ∈ s.events → (clientEvent p item).loud false = false
  | running s, (.own resetFails, _) =>
      .close ∈ s.events → ∀ e ∈ s.events.head?, e.loud resetFails = false
  | running s, (.heartbeat, _) => .close ∉ s.events
  | _, _ => True

/-- A step is silent behind an ERROR frame exactly if it meets the condition. -/
theorem Turn.silent_iff_quiet {s s' : Session} {l : SessionInput × (DestinationCall → Bool)}
    {tr os : List SessionObs} (h : Closing s tr) (hstart : s = awaiting → tr = [])
    (hturn : Turn p s l.1 s' os) : (Seen isError tr → Never acts os) ↔ Quiet p s l := by
  obtain ⟨input, panics⟩ := l
  cases hturn with
  | rejected hfirst => simp [hstart rfl, Quiet]
  | overflows hfirst hnew => simp [hstart rfl, Quiet]
  | connected hfirst hnew => simp [hstart rfl, Quiet]
  | client hhandles => rw [Quiet, ← h _ rfl, hhandles.silent_iff]
  | own hevents hhandles =>
      rw [Quiet, ← h _ rfl, hhandles.silent_iff, hevents]
      simp
  | heartbeat hheartbeat hhandles =>
      rw [Quiet, ← h _ rfl, hhandles.silent_iff]
      simp [loud]
  | missed hlistening hheartbeat => simp [Quiet]
  | delivered hfrom => simp [Quiet]
  | sinkFails => simp [Quiet]

/-- No step contradicts itself: an ERROR frame is the last of what it says. -/
theorem Turn.errorIsLast {s s' : Session} {input : SessionInput} {os : List SessionObs}
    (hturn : Turn p s input s' os) : ErrorIsLast os := by
  cases hturn with
  | rejected hfirst => exact NoneBehind.concat not_seen_nil _
  | overflows hfirst hnew => exact NoneBehind.concat not_seen_nil _
  | connected hfirst hnew => exact NoneBehind.of_not_seen (by simp [Seen, isError])
  | client hhandles => exact hhandles.errorIsLast
  | own hevents hhandles => exact hhandles.errorIsLast
  | heartbeat hheartbeat hhandles => exact hhandles.errorIsLast
  | missed hlistening hheartbeat => exact NoneBehind.of_not_seen not_seen_nil
  | delivered hfrom => exact NoneBehind.of_not_seen not_seen_nil
  | sinkFails => exact NoneBehind.of_not_seen not_seen_nil

/-- **When an ERROR frame is the last word.**  In a run of a session with arbitrary
surroundings, nothing is output and nothing is dispatched behind an ERROR frame if and only
if no step takes a loud event while a `Close` waits in the session's channel. -/
theorem errorIsLast_iff_quiet {ls : List (SessionInput × (DestinationCall → Bool))}
    {tr : List SessionObs} {s : Session} (h : (lts p).Run LTS.Free awaiting ls tr s) :
    ErrorIsLast tr ↔ (lts p).Run (Quiet p) awaiting ls tr s := by
  refine LTS.Run.characterize (NoneBehind.of_not_seen not_seen_nil) NoneBehind.of_append ?_ h
  intro ls tr os s' s'' l hrun hlast hstep
  have hturn : Turn p s' l.1 s'' os := turn_of_step hstep
  rw [ErrorIsLast, noneBehind_append hlast hturn.errorIsLast]
  refine hturn.silent_iff_quiet (closing hrun) ?_
  rintro rfl
  exact eq_nil_of_awaiting hrun

/-- The theorem applied to a session that takes its `Close` right after the ERROR frame. -/
theorem errorIsLast_iff_quiet_second_connect :
    let p := Params.knowing [sampleConnect] true
    let ls : List (SessionInput × (DestinationCall → Bool)) :=
      [(.first sampleConnect.item defaultClientFactory, fun _ => false),
        (.client sampleConnect.item, fun _ => false), (.own false, fun _ => false)]
    ∃ tr s, (lts p).Run LTS.Free awaiting ls tr s ∧
      .output (.inl (.error "Already connected.")) ∈ tr ∧
      (ErrorIsLast tr ↔ (lts p).Run (Quiet p) awaiting ls tr s) := by
  intro p ls
  have hrun := LTS.Run.exec_get (lts p) LTS.Free awaiting ls (by decide)
  exact ⟨_, _, hrun, by decide, errorIsLast_iff_quiet hrun⟩

/-- **An ERROR frame is not the last word**: two more CONNECT frames, both taken before the
session's own `Close`, are answered with two ERROR frames. -/
theorem error_behind_error :
    ¬ ∀ (p : Params) (ls : List (SessionInput × (DestinationCall → Bool)))
        (tr : List SessionObs) (s : Session),
      (lts p).Run LTS.Free awaiting ls tr s → ErrorIsLast tr := by
  intro hall
  let p := Params.knowing [sampleConnect] true
  let ls : List (SessionInput × (DestinationCall → Bool)) :=
    [(.first sampleConnect.item defaultClientFactory, fun _ => false),
      (.client sampleConnect.item, fun _ => false), (.client sampleConnect.item, fun _ => false)]
  let second : List SessionObs :=
    [.handled (.clientFrame (.ok sampleConnect)), .reset .client,
      .output (.inl (.error "Already connected."))]
  have hrun := LTS.Run.exec_get (lts p) LTS.Free awaiting ls (by decide)
  have hsilent : Never acts second :=
    hall p ls _ _ hrun
      [.handled (.connected ⟨0, 0⟩),
        .output (.inl (.connected (ClientSession.connectedFrame defaultClient ⟨0, 0⟩))),
        .handled (.clientFrame (.ok sampleConnect)), .reset .client]
      (.output (.inl (.error "Already connected."))) second (by decide) rfl
  exact absurd (hsilent (.output (.inl (.error "Already connected."))) (by decide)) (by decide)

end Session
