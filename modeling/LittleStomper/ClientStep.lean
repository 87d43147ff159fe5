/-
# What one step of a session does

The specification of `handleEvent` by the kind of event (what it makes of the table,
which call it makes, what it outputs and whether it goes wrong), and from it the cases of
a step of a session, in the form in which all later proofs use them.
-/
import LittleStomper.Client

/-- The table `active_subscriptions_by_client_id`. -/
abbrev ActiveSubscriptions := SubscriptionId → Option (DestinationId × SubscriptionId)

/-! ## Events by their effect -/

namespace ClientEvent

/-- The table after the event. -/
def tableAfter (T : ActiveSubscriptions) : ClientEvent → ActiveSubscriptions
  | subscribed d i (.ok s) => Function.update T i (some (d, s))
  | unsubscribed i (.ok _) => Function.update T i none
  | _ => T

/-- The call the event leads to. -/
def call? (T : ActiveSubscriptions) : ClientEvent → Option DestinationCall
  | clientFrame (.ok (.subscribe d i)) => some (.subscribe ⟨d⟩ (some ⟨i⟩))
  | clientFrame (.ok (.send d (some body))) => some (.send ⟨d⟩ ⟨none, body⟩)
  | clientFrame (.ok (.unsubscribe i)) => (T ⟨i⟩).map fun entry => .unsubscribe entry.1 entry.2
  | _ => none

/-- The text of the ERROR frame the event leads to. -/
def fault? (p : Params) (T : ActiveSubscriptions) : ClientEvent → Option String
  | error message => some message
  | clientFrame (.error err) => some ("Error processing client message: " ++ p.debugError err)
  | clientFrame (.ok (.connect _)) => some "Already connected."
  | clientFrame (.ok (.unsubscribe i)) =>
      if T ⟨i⟩ = none then some ("Attempt to unsubscribe from unknown subscription: " ++ i)
      else none
  | _ => none

/-- What else the event puts out. -/
def plain? (client : Client) : ClientEvent → Option ServerMessage
  | connected intervals => some (.inl (.connected (ClientSession.connectedFrame client intervals)))
  | serverMessage i message => some (.inl (.message (ClientSession.messageFrame i message)))
  | heartbeat => some (.inr eol)
  | _ => none

/-- The timer the event resets. -/
def timer? : ClientEvent → Option HeartbeatTimer
  | clientFrame _ => some .client
  | clientHeartbeat => some .client
  | serverMessage _ _ => some .server
  | _ => none

/-- The event ends the session. -/
def ends : ClientEvent → Bool
  | close => true
  | clientFrame (.ok .disconnect) => true
  | _ => false

/-- The handler panics: on a frame that is not implemented, on a SEND without a body, and
when the server heartbeat cannot be reset. -/
def panics (resetFails : Bool) : ClientEvent → Bool
  | clientFrame (.ok (.send _ none)) => true
  | clientFrame (.ok .abort) => true
  | clientFrame (.ok .ack) => true
  | clientFrame (.ok .begin) => true
  | clientFrame (.ok .commit) => true
  | clientFrame (.ok .nack) => true
  | serverMessage _ _ => resetFails
  | _ => false

end ClientEvent

open ClientEvent

/-! ## The handler -/

namespace ClientSession

/-- What an event leaves behind: nothing but its effects. -/
def after (p : Params) (s : ClientSession) (e : ClientEvent) : ClientSession :=
  { s with
    events := s.events ++
      if (e.fault? p s.activeSubscriptionsByClientId).isSome then [.close] else []
    activeSubscriptionsByClientId := e.tableAfter s.activeSubscriptionsByClientId }

/-- What an event puts out. -/
def message? (p : Params) (s : ClientSession) (e : ClientEvent) : Option ServerMessage :=
  match e.fault? p s.activeSubscriptionsByClientId with
  | some text => some (.inl (.error text))
  | none => e.plain? s.client

/-- **The specification of `handle_event`.** -/
theorem handleEvent_eq (p : Params) (s : ClientSession) (resetFails : Bool) (e : ClientEvent) :
    s.handleEvent p resetFails e =
      if e.panics resetFails then none
      else some ⟨s.after p e, if e.ends then .dead else .alive, s.message? p e,
        e.call? s.activeSubscriptionsByClientId, e.timer?⟩ := by
  cases e with
  | connected intervals =>
      simp [handleEvent, ClientEvent.panics, after, fault?, tableAfter, ends, message?, plain?,
        call?, timer?, frameResult, alive]
  | close =>
      simp [handleEvent, ClientEvent.panics, after, fault?, tableAfter, ends, message?, plain?,
        call?, timer?, dead]
  | clientHeartbeat =>
      simp [handleEvent, ClientEvent.panics, after, fault?, tableAfter, ends, message?, plain?,
        call?, timer?, alive]
  | serverMessage i message =>
      cases resetFails <;>
        simp [handleEvent, ClientEvent.panics, after, fault?, tableAfter, ends, message?, plain?,
          call?, timer?, serverMessage, frameResult, alive]
  | subscribed d i result =>
      cases result <;>
        simp [handleEvent, ClientEvent.panics, after, fault?, tableAfter, ends, message?, plain?,
          call?, timer?, subscribed, setSubscription, alive]
  | unsubscribed i result =>
      cases result <;>
        simp [handleEvent, ClientEvent.panics, after, fault?, tableAfter, ends, message?, plain?,
          call?, timer?, unsubscribed, setSubscription, alive, Except.isOk, Except.toBool]
  | error message =>
      simp [handleEvent, ClientEvent.panics, after, fault?, tableAfter, ends, message?,
        call?, timer?, error, sendEvent, frameResult, alive]
  | heartbeat =>
      simp [handleEvent, ClientEvent.panics, after, fault?, tableAfter, ends, message?, plain?,
        call?, timer?, alive]
  | clientFrame result =>
      cases result with
      | error err =>
          simp [handleEvent, clientFrame, ClientEvent.panics, after, fault?, tableAfter, ends,
            message?, call?, timer?, error, sendEvent, frameResult, alive]
      | ok frame =>
          cases frame with
          | send d body =>
              cases body <;>
                simp [handleEvent, clientFrame, handle, ClientEvent.panics, after, fault?,
                  tableAfter, ends, message?, plain?, call?, timer?, alive]
          | unsubscribe i =>
              cases hentry : s.activeSubscriptionsByClientId ⟨i⟩ <;>
                simp [handleEvent, clientFrame, handle, unsubscribe, hentry, ClientEvent.panics,
                  after, fault?, tableAfter, ends, message?, plain?, call?, timer?, error,
                  sendEvent, frameResult, alive]
          | _ =>
              simp [handleEvent, clientFrame, handle, ClientEvent.panics, after, fault?,
                tableAfter, ends, message?, plain?, call?, timer?, error, sendEvent, frameResult,
                alive, dead]

end ClientSession

/-! ## The session -/

namespace Session

/-- What is observed before the outcome of handling an event is clear. -/
def begun (s : ClientSession) (e : ClientEvent) : List SessionObs :=
  .handled e :: e.timer?.toList.map .reset
    ++ (e.call? s.activeSubscriptionsByClientId).toList.map .call

/-- **What can become of an event**: the handler panics, the call it makes panics, the
session ends, or the session goes on. -/
inductive Handles (p : Params) (s : ClientSession) (resetFails : Bool) (e : ClientEvent) :
    Session → List SessionObs → Prop
  | stuck (hpanic : e.panics resetFails = true) :
      Handles p s resetFails e ended (.handled e :: clientMessageReceived e ++ [.panicked])
  | callPanics {call : DestinationCall} (hpanic : e.panics resetFails = false)
      (hcall : e.call? s.activeSubscriptionsByClientId = some call) :
      Handles p s resetFails e ended (begun s e ++ [.panicked])
  | ends (hpanic : e.panics resetFails = false) (hends : e.ends = true) :
      Handles p s resetFails e ended (begun s e)
  | goesOn (hpanic : e.panics resetFails = false) (hends : e.ends = false) :
      Handles p s resetFails e (running (s.after p e))
        (begun s e ++ (s.message? p e).toList.map .output)

/-- `run` does one of these. -/
theorem handles_run (p : Params) (panics : DestinationCall → Bool) (s : ClientSession)
    (resetFails : Bool) (e : ClientEvent) :
    Handles p s resetFails e (run p panics s resetFails e).1 (run p panics s resetFails e).2 := by
  rw [run, ClientSession.handleEvent_eq]
  cases hpanic : e.panics resetFails with
  | true => exact Handles.stuck hpanic
  | false =>
      simp only [Bool.false_eq_true, if_false]
      by_cases hcall : (e.call? s.activeSubscriptionsByClientId).any panics = true
      · obtain ⟨call, hcall', -⟩ := (Option.any_eq_true _ _).mp hcall
        rw [if_pos hcall]
        exact Handles.callPanics hpanic hcall'
      · rw [if_neg hcall]
        cases hends : e.ends with
        | true => exact Handles.ends hpanic hends
        | false => exact Handles.goesOn hpanic hends

/-- **All that can happen to a session.** -/
inductive Turn (p : Params) : Session → SessionInput → Session → List SessionObs → Prop
  /-- The first item is not accepted. -/
  | rejected {item : Option (StomperResult Bytes)} {factory : ClientFactory} {err : StomperError}
      (hfirst : validateAndConnect (clientEvent p item) factory = .error err) :
      Turn p awaiting (.first item factory) ended [.output (.inl (.error err.message))]
  /-- Computing the period of the client's heartbeat overflows. -/
  | overflows {item : Option (StomperResult Bytes)} {factory : ClientFactory}
      {requested : HeartBeatIntervalls} {client : Client}
      (hfirst : validateAndConnect (clientEvent p item) factory = .ok (requested, client))
      (hnew : ClientSession.new p requested client = none) :
      Turn p awaiting (.first item factory) ended [.panicked]
  /-- The session is connected. -/
  | connected {item : Option (StomperResult Bytes)} {factory : ClientFactory}
      {requested : HeartBeatIntervalls} {client : Client} {s : ClientSession}
      (hfirst : validateAndConnect (clientEvent p item) factory = .ok (requested, client))
      (hnew : ClientSession.new p requested client = some s) :
      Turn p awaiting (.first item factory) (running s)
        [.handled (.connected ⟨requested.expected, requested.supplied⟩),
          .output (.inl (.connected
            (ClientSession.connectedFrame client ⟨requested.expected, requested.supplied⟩)))]
  /-- An item of the client's stream is handled. -/
  | client {s : ClientSession} {item : Option (StomperResult Bytes)} {s' : Session}
      {os : List SessionObs} (hhandles : Handles p s false (clientEvent p item) s' os) :
      Turn p (running s) (.client item) s' os
  /-- An event of the session's channel is handled. -/
  | own {s : ClientSession} {resetFails : Bool} {e : ClientEvent} {events : List ClientEvent}
      {s' : Session} {os : List SessionObs} (hevents : s.events = e :: events)
      (hhandles : Handles p { s with events := events } resetFails e s' os) :
      Turn p (running s) (.own resetFails) s' os
  /-- A tick of the server heartbeat is handled. -/
  | heartbeat {s : ClientSession} {s' : Session} {os : List SessionObs}
      (hheartbeat : 0 < s.serverHeartbeat) (hhandles : Handles p s false .heartbeat s' os) :
      Turn p (running s) .heartbeat s' os
  /-- The heartbeat listener reports. -/
  | missed {s : ClientSession} (hlistening : s.listening = true)
      (hheartbeat : 0 < s.clientHeartbeat) :
      Turn p (running s) .missedHeartbeat
        (running ({ s with listening := false }.sendEvent (.error "Missed heartbeat"))) []
  /-- An event is put into the session's channel. -/
  | delivered {s : ClientSession} {e : ClientEvent} (hfrom : e.fromSubscriber = true) :
      Turn p (running s) (.deliver e) (running (s.sendEvent e)) []
  /-- The sink fails. -/
  | sinkFails {s : ClientSession} : Turn p (running s) .sinkFails ended []

/-- A new session's table and channel are empty. -/
theorem new_eq_some {p : Params} {requested : HeartBeatIntervalls} {client : Client}
    {s : ClientSession} (h : ClientSession.new p requested client = some s) :
    s.events = [] ∧ s.activeSubscriptionsByClientId = (fun _ => none) ∧ s.client = client := by
  obtain ⟨period, -, rfl⟩ := Option.map_eq_some_iff.mp h
  exact ⟨rfl, rfl, rfl⟩

/-- Every step is one of these cases. -/
theorem turn_of_step {p : Params} {panics : DestinationCall → Bool} {s s' : Session}
    {input : SessionInput} {os : List SessionObs}
    (h : step p panics s input = some (s', os)) : Turn p s input s' os := by
  cases s with
  | awaiting =>
      cases input with
      | first item factory =>
          rw [step, Option.some.injEq, connect] at h
          cases hfirst : validateAndConnect (clientEvent p item) factory with
          | error err =>
              rw [hfirst] at h
              obtain ⟨rfl, rfl⟩ := Prod.mk.inj h
              exact Turn.rejected hfirst
          | ok accepted =>
              obtain ⟨requested, client⟩ := accepted
              rw [hfirst] at h
              cases hnew : ClientSession.new p requested client with
              | none =>
                  simp only [hnew] at h
                  obtain ⟨rfl, rfl⟩ := Prod.mk.inj h
                  exact Turn.overflows hfirst hnew
              | some s =>
                  simp only [hnew] at h
                  obtain ⟨-, -, rfl⟩ := new_eq_some hnew
                  obtain ⟨rfl, rfl⟩ := Prod.mk.inj h
                  exact Turn.connected hfirst hnew
      | _ => simp [step] at h
  | running s =>
      cases input with
      | client item =>
          obtain ⟨rfl, rfl⟩ := Prod.mk.inj (Option.some.inj h)
          exact Turn.client (handles_run p panics s false (clientEvent p item))
      | own resetFails =>
          rw [step] at h
          cases hevents : s.events with
          | nil => simp [hevents] at h
          | cons e events =>
              simp only [hevents] at h
              obtain ⟨rfl, rfl⟩ := Prod.mk.inj (Option.some.inj h)
              exact Turn.own hevents (handles_run p panics { s with events := events } resetFails e)
      | heartbeat =>
          rw [step] at h
          split at h
          · rename_i hheartbeat
            obtain ⟨rfl, rfl⟩ := Prod.mk.inj (Option.some.inj h)
            exact Turn.heartbeat hheartbeat (handles_run p panics s false .heartbeat)
          · simp at h
      | missedHeartbeat =>
          rw [step] at h
          split at h
          · rename_i hcond
            obtain ⟨rfl, rfl⟩ := Prod.mk.inj (Option.some.inj h)
            obtain ⟨hlistening, hheartbeat⟩ := Bool.and_eq_true_iff.mp hcond
            exact Turn.missed hlistening (of_decide_eq_true hheartbeat)
          · simp at h
      | deliver e =>
          rw [step] at h
          split at h
          · rename_i hfrom
            obtain ⟨rfl, rfl⟩ := Prod.mk.inj (Option.some.inj h)
            exact Turn.delivered hfrom
          · simp at h
      | sinkFails =>
          obtain ⟨rfl, rfl⟩ := Prod.mk.inj (Option.some.inj h)
          exact Turn.sinkFails
      | first item factory => simp [step] at h
  | ended => cases input <;> simp [step] at h

/-- The event that an input makes a session handle. -/
def next? (p : Params) : Session → SessionInput → Option ClientEvent
  | running _, .client item => some (clientEvent p item)
  | running s, .own _ => s.events.head?
  | running _, .heartbeat => some .heartbeat
  | _, _ => none

/-- **A step of a running session** handles the next event, or no event. -/
theorem Turn.running_cases {p : Params} {r : ClientSession} {s' : Session}
    {input : SessionInput} {os : List SessionObs} (h : Turn p (running r) input s' os) :
    (∃ e r₀ resetFails, next? p (running r) input = some e ∧
        r₀.activeSubscriptionsByClientId = r.activeSubscriptionsByClientId ∧
        r₀.client = r.client ∧ Handles p r₀ resetFails e s' os ∧
        (r.events = r₀.events ∧ e.fromSubscriber = false ∨ r.events = e :: r₀.events)) ∨
      (next? p (running r) input = none ∧ os = [] ∧ (s' = ended ∨
        ∃ r', s' = running r' ∧
          r'.activeSubscriptionsByClientId = r.activeSubscriptionsByClientId ∧
          ((∃ e, input = .deliver e ∧ r'.events = r.events ++ [e]) ∨
            r'.events = r.events ++ [.error "Missed heartbeat"]))) := by
  cases h with
  | @client _ item _ _ hhandles =>
      refine Or.inl ⟨_, r, false, rfl, rfl, rfl, hhandles, Or.inl ⟨rfl, ?_⟩⟩
      unfold clientEvent
      split
      · rfl
      · rfl
      · split <;> rfl
  | @own _ resetFails e events _ _ hevents hhandles =>
      refine Or.inl ⟨e, { r with events := events }, resetFails, ?_, rfl, rfl, hhandles,
        Or.inr hevents⟩
      rw [next?, hevents]
      rfl
  | heartbeat hheartbeat hhandles =>
      exact Or.inl ⟨_, r, false, rfl, rfl, rfl, hhandles, Or.inl ⟨rfl, rfl⟩⟩
  | missed hlistening hheartbeat =>
      exact Or.inr ⟨rfl, rfl, Or.inr ⟨_, rfl, rfl, Or.inr rfl⟩⟩
  | @delivered _ e hfrom => exact Or.inr ⟨rfl, rfl, Or.inr ⟨_, rfl, rfl, Or.inl ⟨e, rfl, rfl⟩⟩⟩
  | sinkFails => exact Or.inr ⟨rfl, rfl, Or.inl rfl⟩

/-- No step leads back to the first item. -/
theorem Turn.ne_awaiting {p : Params} {s s' : Session} {input : SessionInput}
    {os : List SessionObs} (h : Turn p s input s' os) : s' ≠ awaiting := by
  have hhandles : ∀ {r : ClientSession} {resetFails : Bool} {e : ClientEvent},
      Handles p r resetFails e s' os → s' ≠ awaiting := by
    intro r resetFails e hr
    cases hr <;> simp
  cases h with
  | client h => exact hhandles h
  | own hevents h => exact hhandles h
  | heartbeat hheartbeat h => exact hhandles h
  | _ => simp

end Session
