/-
# Sessions and their timers

A connected session has two timers.  The stream of the server heartbeat is one of the three
sources of its events, and every tick of it becomes a heartbeat for the client; it is reset
when a message is sent to the client.  The other timer watches the client: a task of its own
waits for the first tick and reports it to the session; it is reset whenever something comes
in from the client.

`TimedSession` puts a session with arbitrary surroundings, its timers and a clock together.
The timers decide what `Session.step` leaves open: whether a reset fails, when the heartbeat
stream has something to offer, and when the listener reports.
-/
import LittleStomper.ClientStep
import LittleStomper.Custody

namespace TimerObs

/-- `poll_next` returned `Ready(Some(()))`. -/
def isEmission : TimerObs → Bool
  | polled _ (.ready (some ())) => true
  | _ => false

/-- `poll_next` returned, and not `Pending`. -/
def isReady : TimerObs → Bool
  | polled _ (.ready _) => true
  | _ => false

/-- `poll_next` panicked. -/
def isPanic : TimerObs → Bool
  | panicked _ => true
  | _ => false

end TimerObs

/-- The timer is dropped, if it has not been. -/
def TimerState.release (s : TimerState) : TimerState := s.timer.elim s s.dropTimer

/-! ## The timers of a session -/

/-- The timer for an interval in milliseconds: without one, it never ticks. -/
def heartbeatTimer (millis : Nat) : TimerState :=
  if 0 < millis then ResettableTimer.create (Duration.fromMillis millis)
  else ResettableTimer.default

/-- The timer that never ticks has the period `0`. -/
theorem heartbeatTimer_eq (millis : Nat) :
    heartbeatTimer millis = ResettableTimer.create (Duration.fromMillis millis) := by
  rw [heartbeatTimer]
  split_ifs with hpos
  · rfl
  · rw [Nat.eq_zero_of_not_pos hpos]
    rfl

/-- `server_heartbeat_stream` and `client_heartbeat_stream`, with their resetters. -/
structure Heartbeats where
  server : TimerState
  client : TimerState
  deriving DecidableEq, Repr

namespace Heartbeats

/-- The timers made for a session. -/
def create (s : ClientSession) : Heartbeats where
  server := heartbeatTimer s.serverHeartbeat
  client := heartbeatTimer s.clientHeartbeat

/-- The resets that a session asked for. -/
def react (now : Instant) (h : Heartbeats) (os : List SessionObs) : Heartbeats where
  server := if .reset .server ∈ os then (h.server.send now .reset).1 else h.server
  client := if .reset .client ∈ os then (h.client.send now .reset).1 else h.client

/-- The session is over: its heartbeat stream and the two resetters are dropped. -/
def release (h : Heartbeats) : Heartbeats where
  server := { h.server.release with resetter := false }
  client := { h.client with resetter := false }

/-- The timers of a session that has become `s`. -/
def after (now : Instant) (h : Option Heartbeats) (s : Session) (os : List SessionObs) :
    Option Heartbeats :=
  match s with
  | .awaiting => h
  | .running r => some ((h.getD (create r)).react now os)
  | .ended => h.map fun h => (h.react now os).release

/-- The timers of a session that has just been connected. -/
theorem after_connected {now : Instant} {r : ClientSession} {os : List SessionObs}
    (hos : ∀ timer, .reset timer ∉ os) :
    after now none (.running r) os =
      some ⟨ResettableTimer.create (Duration.fromMillis r.serverHeartbeat),
        ResettableTimer.create (Duration.fromMillis r.clientHeartbeat)⟩ := by
  simp [after, react, hos, create, heartbeatTimer_eq]

/-- Resetting the server heartbeat returns an error. -/
def resetFails (h : Heartbeats) : Bool := !h.server.accepts

/-- What a session may be told to do apart from its timers: they decide whether a reset fails,
and when there is a tick. -/
def allows (h : Option Heartbeats) : SessionInput → Bool
  | .own resetFails => h.any fun h => h.resetFails == resetFails
  | .heartbeat => false
  | .missedHeartbeat => false
  | _ => true

end Heartbeats

/-! ## A session with its timers and a clock -/

/-- A session, its timers once it is connected, and the time. -/
structure TimedSession where
  now : Instant
  session : Session
  heartbeats : Option Heartbeats

/-- What makes a session or its timers move. -/
inductive TimedLabel where
  | advance (d : Duration)
  /-- The session moves, and these calls on the destinations panic. -/
  | session (input : SessionInput) (panics : DestinationCall → Bool)
  /-- The merge polls the stream of the server heartbeat. -/
  | pollServer (panics : DestinationCall → Bool)
  /-- The heartbeat listener polls its timer. -/
  | pollClient
  /-- A task of the server heartbeat runs. -/
  | serverTask (i : TaskId) (move : TaskMove)
  /-- A task of the timer that watches the client runs. -/
  | clientTask (i : TaskId) (move : TaskMove)

/-- What can be observed of a session in time. -/
inductive TimedObs where
  | session (now : Instant) (o : SessionObs)
  /-- The heartbeat listener has reported, and is done. -/
  | missed (now : Instant)
  deriving DecidableEq

namespace TimedSession

variable (p : Params) (x : TimedSession)

/-- No item has come in. -/
def start (now : Instant) : TimedSession := ⟨now, .awaiting, none⟩

/-- The session has moved. -/
def moved (h : Option Heartbeats) (r : Session × List SessionObs) :
    TimedSession × List TimedObs :=
  (⟨x.now, r.1, Heartbeats.after x.now h r.1 r.2⟩, r.2.map (.session x.now))

/-- The merge polls the stream of the server heartbeat: a tick is handled. -/
def pollServer (panics : DestinationCall → Bool) : Option (TimedSession × List TimedObs) :=
  match x.session, x.heartbeats with
  | .running _, some h =>
    (h.server.step x.now .poll).bind fun r =>
      let h := some { h with server := r.1 }
      if r.2.any (·.isEmission) then (x.session.step p panics .heartbeat).map (x.moved h)
      else if r.2.any (·.isPanic) then some (x.moved h (.ended, [.panicked]))
      else some ({ x with heartbeats := h }, [])
  | _, _ => none

/-- The heartbeat listener polls its timer: when `next` resolves, it reports to the session, if
this still runs, and its task is over, which drops the timer. -/
def pollClient : Option (TimedSession × List TimedObs) :=
  x.heartbeats.bind fun h => (h.client.step x.now .poll).map fun r =>
    if r.2.any (·.isReady) then
      let h := some { h with client := r.1.release }
      match x.session.step p (fun _ => false) .missedHeartbeat with
      | some (s, _) => (⟨x.now, s, h⟩, [.missed x.now])
      | none => ({ x with heartbeats := h }, [])
    else ({ x with heartbeats := some { h with client := r.1 } }, [])

/-- One step of a session with its timers and a clock. -/
def step : TimedLabel → Option (TimedSession × List TimedObs)
  | .advance d => some ({ x with now := x.now + d }, [])
  | .session input panics =>
    if Heartbeats.allows x.heartbeats input then
      (x.session.step p panics input).map (x.moved x.heartbeats)
    else none
  | .pollServer panics => x.pollServer p panics
  | .pollClient => x.pollClient p
  | .serverTask i move =>
    x.heartbeats.bind fun h => (h.server.step x.now (.task i move)).map fun r =>
      ({ x with heartbeats := some { h with server := r.1 } }, [])
  | .clientTask i move =>
    x.heartbeats.bind fun h => (h.client.step x.now (.task i move)).map fun r =>
      ({ x with heartbeats := some { h with client := r.1 } }, [])

/-- A session with arbitrary surroundings, its timers, their tasks and the clock, in any
order. -/
def lts : LTS TimedSession TimedLabel TimedObs where
  step x l := x.step p l

end TimedSession
