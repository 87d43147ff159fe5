/-
# The system in time

The sessions and destinations of `World`, with the timers of every session and one clock.  A
session moves only as its timers let it; its heartbeat stream and its heartbeat listener are
driven by them.
-/
import LittleStomper.Heartbeats
import LittleStomper.SystemStep

/-- The system, the timers of the sessions that were connected, and the time. -/
structure TimedWorld where
  now : Instant
  world : World
  heartbeats : SessionId → Option Heartbeats

/-- Who moves. -/
inductive TimedWorldLabel where
  | advance (d : Duration)
  /-- Somebody moves, apart from the timers. -/
  | world (l : Label)
  /-- The merge of a session polls the stream of the server heartbeat. -/
  | pollServer (c : SessionId)
  /-- The heartbeat listener of a session polls its timer. -/
  | pollClient (c : SessionId)
  /-- A task of the server heartbeat of a session runs. -/
  | serverTask (c : SessionId) (i : TaskId) (move : TaskMove)
  /-- A task of the timer that watches a client runs. -/
  | clientTask (c : SessionId) (i : TaskId) (move : TaskMove)

/-- What can be observed of the system, and when. -/
inductive TimedWorldObs where
  | world (now : Instant) (o : Obs)
  /-- The heartbeat listener of a session has reported, and is done. -/
  | missed (now : Instant) (c : SessionId)
  deriving DecidableEq

namespace TimedWorld

variable (p : Params) (x : TimedWorld)

/-- No session has begun. -/
def start (now : Instant) : TimedWorld := ⟨now, .initial, fun _ => none⟩

def setHeartbeats (c : SessionId) (h : Heartbeats) : TimedWorld :=
  { x with heartbeats := Function.update x.heartbeats c (some h) }

/-- A session has moved. -/
def moved (c : SessionId) (r : World × List Obs) : TimedWorld × List TimedWorldObs :=
  ({ x with
      world := r.1
      heartbeats := Function.update x.heartbeats c
        (Heartbeats.after x.now (x.heartbeats c) (r.1.sessions c) (Obs.atSession c r.2)) },
    r.2.map (.world x.now))

/-- Somebody moves, apart from the timers. -/
def stepWorld : Label → Option (TimedWorld × List TimedWorldObs)
  | .session c input =>
    if Heartbeats.allows (x.heartbeats c) input then
      (x.world.step p (.session c input)).map (x.moved c)
    else none
  | l => (x.world.step p l).map fun r => ({ x with world := r.1 }, r.2.map (.world x.now))

/-- The merge of a session polls the stream of the server heartbeat: a tick is handled. -/
def pollServer (c : SessionId) : Option (TimedWorld × List TimedWorldObs) :=
  match x.world.sessions c, x.heartbeats c with
  | .running _, some h =>
    (h.server.step x.now .poll).bind fun r =>
      let x := x.setHeartbeats c { h with server := r.1 }
      if r.2.any (·.isEmission) then (x.world.step p (.session c .heartbeat)).map (x.moved c)
      else if r.2.any (·.isPanic) then
        some (x.moved c (x.world.setSession c .ended, [.session c .panicked]))
      else some (x, [])
  | _, _ => none

/-- The heartbeat listener of a session polls its timer: when `next` resolves, it reports to the
session, if this still runs, and its task is over, which drops the timer. -/
def pollClient (c : SessionId) : Option (TimedWorld × List TimedWorldObs) :=
  (x.heartbeats c).bind fun h => (h.client.step x.now .poll).map fun r =>
    if r.2.any (·.isReady) then
      let x := x.setHeartbeats c { h with client := r.1.release }
      match x.world.step p (.session c .missedHeartbeat) with
      | some (w, _) => ({ x with world := w }, [.missed x.now c])
      | none => (x, [])
    else (x.setHeartbeats c { h with client := r.1 }, [])

/-- One step of the system. -/
def step : TimedWorldLabel → Option (TimedWorld × List TimedWorldObs)
  | .advance d => some ({ x with now := x.now + d }, [])
  | .world l => x.stepWorld p l
  | .pollServer c => x.pollServer p c
  | .pollClient c => x.pollClient p c
  | .serverTask c i move =>
    (x.heartbeats c).bind fun h => (h.server.step x.now (.task i move)).map fun r =>
      (x.setHeartbeats c { h with server := r.1 }, [])
  | .clientTask c i move =>
    (x.heartbeats c).bind fun h => (h.client.step x.now (.task i move)).map fun r =>
      (x.setHeartbeats c { h with client := r.1 }, [])

/-- The system of sessions and destinations with all timers and the clock, in any order. -/
def lts : LTS TimedWorld TimedWorldLabel TimedWorldObs where
  step x l := x.step p l

/-! ## Parts of the system -/

/-- One session of the system, with its timers and the clock. -/
def atSession (c : SessionId) : TimedSession := ⟨x.now, x.world.sessions c, x.heartbeats c⟩

end TimedWorld

namespace TimedWorldObs

/-- What is observed of one session. -/
def ofSession? (c : SessionId) : TimedWorldObs → Option TimedObs
  | world now o => (Obs.ofSession? c o).map (.session now)
  | missed now c' => if c' = c then some (.missed now) else none

/-- What is observed of the sessions and destinations. -/
def ofWorld? : TimedWorldObs → Option Obs
  | world _ o => some o
  | missed _ _ => none

/-- A session's observations of what is observed of the sessions and destinations. -/
@[simp] theorem filterMap_ofSession?_map_world (c : SessionId) (t : Instant) (os : List Obs) :
    (os.map (world t)).filterMap (ofSession? c) = (Obs.atSession c os).map (.session t) := by
  rw [Obs.atSession, List.filterMap_map, List.map_filterMap]
  rfl

@[simp] theorem filterMap_ofWorld?_map_world (t : Instant) (os : List Obs) :
    (os.map (world t)).filterMap ofWorld? = os := by
  rw [List.filterMap_map]
  exact List.filterMap_some

end TimedWorldObs
