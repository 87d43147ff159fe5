/-
# A step of a session with its timers

`TimedSession.Turn` lists what can happen to a connected session, its timers and the clock.

The session only ever resets its timers and never changes their periods, and it has their
resetters: such a timer `Serves` its period.  While a session runs, the timer of its server
heartbeat serves the period that the client asked for (`attended`), so no reset fails.
-/
import LittleStomper.Heartbeats

/-! ## Timers that are only reset -/

namespace HeldTimer

/-- A timer with a resetter that has only been reset: it has its period, and has ticked only
if this elapses. -/
def Serves (period : Duration) (h : HeldTimer) : Prop :=
  h.resetter = true ∧ (∀ c ∈ h.commands, c = .reset) ∧
    match h with
    | fresh p _ _ => p = period
    | started k => (k.ticks ≠ 0 → period.asMillis ≠ 0) ∧
      (k.future = .created period ∨ k.future = .receiving period ∧ period.asMillis = 0 ∨
        ∃ deadline, k.future = .selecting period deadline ∧ period.asMillis ≠ 0)

variable {now : Instant} {period : Duration} {h h' : HeldTimer} {a : TimerAction}
  {os : List TimerObs}

/-- A timer that serves can be reset. -/
theorem Serves.accepts (hserves : h.Serves period) : h.accepts = true := by
  cases h with
  | fresh p commands resetter => rfl
  | started k =>
      show k.future.ownsReceiver = true
      obtain ⟨-, -, -, hfuture | ⟨hfuture, -⟩ | ⟨deadline, hfuture, -⟩⟩ := hserves
      · rw [hfuture]; rfl
      · rw [hfuture]; rfl
      · rw [hfuture]; rfl

/-- A reset of such a timer is queued. -/
theorem Serves.send (hserves : h.Serves period) :
    (h.toState.send now .reset).1 = (h.queue .reset).toState := by
  rw [TimerState.send, toState_accepts, hserves.accepts, if_pos rfl, toState_queue]

/-- A reset keeps the period. -/
theorem Serves.queue (hserves : h.Serves period) : (h.queue .reset).Serves period := by
  obtain ⟨hresetter, hcommands, hshape⟩ := hserves
  cases h with
  | fresh p commands resetter =>
      refine ⟨hresetter, fun c hc => ?_, hshape⟩
      exact (List.mem_append.mp hc).elim (hcommands c) List.mem_singleton.mp
  | started k =>
      refine ⟨hresetter, fun c hc => ?_, hshape⟩
      exact (List.mem_append.mp hc).elim (hcommands c) List.mem_singleton.mp

/-- The call of a task has the period. -/
theorem serves_create (now : Instant) (period : Duration) :
    createTaskWithReceiver now period = .created period ∨
      createTaskWithReceiver now period = .receiving period ∧ period.asMillis = 0 ∨
      ∃ deadline, createTaskWithReceiver now period = .selecting period deadline ∧
        period.asMillis ≠ 0 := by
  rw [createTaskWithReceiver]
  by_cases hmillis : period.asMillis = 0
  · exact Or.inr (Or.inl ⟨if_pos hmillis, hmillis⟩)
  · exact Or.inr (Or.inr ⟨_, if_neg hmillis, hmillis⟩)

/-- The period of the call that waits is the period of the timer. -/
theorem Serves.awaiting {k : TimerChain} {p : Duration} (hserves : (started k).Serves period)
    (hfuture : k.future.awaiting? = some p) : p = period := by
  obtain ⟨-, -, -, hk | ⟨hk, -⟩ | ⟨deadline, hk, -⟩⟩ := hserves
  · rw [hk] at hfuture
    cases hfuture
  · rw [hk] at hfuture
    exact (Option.some.inj hfuture).symm
  · rw [hk] at hfuture
    exact (Option.some.inj hfuture).symm

/-- **Polls and tasks keep the period.** -/
theorem Step.serves (hstep : Step now h a h' os) (hserves : h.Serves period)
    (hcommand : ∀ c, a ≠ .command c) (hdrop : a ≠ .dropResetter) : h'.Serves period := by
  cases hstep with
  | sent hresetter haccepts => exact absurd rfl (hcommand _)
  | unsent hresetter haccepts => exact absurd rfl (hcommand _)
  | dropResetter hresetter => exact absurd rfl hdrop
  | initialised =>
      obtain ⟨hresetter, hcommands, rfl⟩ := hserves
      exact ⟨hresetter, hcommands, fun hticks => absurd rfl hticks, Or.inl rfl⟩
  | waits hpolled => exact hserves
  | emits hpolled => exact hserves
  | @starts k p hfuture =>
      obtain ⟨hresetter, hcommands, hticks, hshape⟩ := hserves
      obtain rfl : p = period := by
        rw [hfuture] at hshape
        simpa using hshape
      exact ⟨hresetter, hcommands, hticks, serves_create now p⟩
  | @consumes k p c commands hfuture hcommands =>
      obtain rfl := hserves.awaiting hfuture
      obtain ⟨hresetter, hreset, hticks, -⟩ := hserves
      have hall : ∀ c' ∈ c :: commands, c' = .reset := hcommands ▸ hreset
      obtain rfl := hall c List.mem_cons_self
      exact ⟨hresetter, fun c' hc' => hall c' (List.mem_cons_of_mem _ hc'), hticks,
        serves_create now p⟩
  | stops hfuture hcommands hresetter => cases hserves.1.symm.trans hresetter
  | closes hfuture hcommands hresetter => cases hserves.1.symm.trans hresetter
  | @ticks k p deadline hfuture hdue =>
      obtain rfl := hserves.awaiting (p := p) (by rw [hfuture]; rfl)
      obtain ⟨hresetter, hcommands, -, hshape⟩ := hserves
      have hmillis : p.asMillis ≠ 0 := by
        rw [hfuture] at hshape
        simpa using hshape
      exact ⟨hresetter, hcommands, fun _ => hmillis, Or.inl rfl⟩
  | @ticksAlone k p deadline hfuture hdue =>
      obtain ⟨-, -, -, hshape⟩ := hserves
      rw [hfuture] at hshape
      simp at hshape

/-- What a poll or a task does to a timer that serves. -/
theorem Serves.step {s' : TimerState} (hserves : h.Serves period)
    (hcommand : ∀ c, a ≠ .command c) (hresetter : a ≠ .dropResetter) (hdrop : a ≠ .drop)
    (hstep : h.toState.step now a = some (s', os)) :
    ∃ h', s' = h'.toState ∧ Step now h a h' os ∧ h'.Serves period := by
  rcases step_cases hstep with ⟨rfl, -, -⟩ | ⟨h', hs', hheld⟩
  · exact absurd rfl hdrop
  · exact ⟨h', hs', hheld, hheld.serves hserves hcommand hresetter⟩

end HeldTimer

/-! ## Steps of a connected session -/

namespace TimedSession

/-- **All that can happen to a connected session, its timers and the clock.** -/
inductive Turn (p : Params) (now : Instant) (r : ClientSession) (h : Heartbeats) :
    TimedLabel → TimedSession → List TimedObs → Prop
  | advance {d : Duration} : Turn p now r h (.advance d) ⟨now + d, .running r, some h⟩ []
  /-- The session moves, apart from its timers. -/
  | session {input : SessionInput} {panics : DestinationCall → Bool} {s' : Session}
      {os : List SessionObs} (hallows : Heartbeats.allows (some h) input = true)
      (hturn : Session.Turn p (.running r) input s' os) :
      Turn p now r h (.session input panics) ⟨now, s', Heartbeats.after now (some h) s' os⟩
        (os.map (.session now))
  /-- The heartbeat stream has nothing to offer. -/
  | serverWaits {panics : DestinationCall → Bool} {server : TimerState} {tos : List TimerObs}
      (hpoll : h.server.step now .poll = some (server, tos))
      (hemission : tos.any (·.isEmission) = false) (hpanic : tos.any (·.isPanic) = false) :
      Turn p now r h (.pollServer panics) ⟨now, .running r, some { h with server := server }⟩ []
  /-- The heartbeat stream panics. -/
  | serverPanics {panics : DestinationCall → Bool} {server : TimerState} {tos : List TimerObs}
      {hb : Option Heartbeats} (hpoll : h.server.step now .poll = some (server, tos))
      (hpanic : tos.any (·.isPanic) = true) :
      Turn p now r h (.pollServer panics) ⟨now, .ended, hb⟩ [.session now .panicked]
  /-- The heartbeat stream offers a tick. -/
  | serverBeats {panics : DestinationCall → Bool} {server : TimerState} {tos : List TimerObs}
      {s' : Session} {os : List SessionObs}
      (hpoll : h.server.step now .poll = some (server, tos))
      (hemission : tos.any (·.isEmission) = true)
      (hturn : Session.Turn p (.running r) .heartbeat s' os) :
      Turn p now r h (.pollServer panics)
        ⟨now, s', Heartbeats.after now (some { h with server := server }) s' os⟩
        (os.map (.session now))
  /-- The listener waits on. -/
  | clientWaits {client : TimerState} {tos : List TimerObs}
      (hpoll : h.client.step now .poll = some (client, tos))
      (hready : tos.any (·.isReady) = false) :
      Turn p now r h .pollClient ⟨now, .running r, some { h with client := client }⟩ []
  /-- The listener reports. -/
  | missed {client : TimerState} {tos : List TimerObs} {s' : Session}
      (hpoll : h.client.step now .poll = some (client, tos)) (hready : tos.any (·.isReady) = true)
      (hturn : Session.Turn p (.running r) .missedHeartbeat s' []) :
      Turn p now r h .pollClient ⟨now, s', some { h with client := client.release }⟩ [.missed now]
  /-- The listener is done without a report. -/
  | unreported {client : TimerState} {tos : List TimerObs}
      (hpoll : h.client.step now .poll = some (client, tos))
      (hready : tos.any (·.isReady) = true) :
      Turn p now r h .pollClient ⟨now, .running r, some { h with client := client.release }⟩ []
  | serverTask {i : TaskId} {move : TaskMove} {server : TimerState} {tos : List TimerObs}
      (htask : h.server.step now (.task i move) = some (server, tos)) :
      Turn p now r h (.serverTask i move) ⟨now, .running r, some { h with server := server }⟩ []
  | clientTask {i : TaskId} {move : TaskMove} {client : TimerState} {tos : List TimerObs}
      (htask : h.client.step now (.task i move) = some (client, tos)) :
      Turn p now r h (.clientTask i move) ⟨now, .running r, some { h with client := client }⟩ []

variable {p : Params} {now : Instant} {r : ClientSession} {h : Heartbeats} {l : TimedLabel}
  {x x' : TimedSession} {os : List TimedObs}

/-- Every step of a connected session is one of these cases. -/
theorem turn_of_step (hstep : (lts p).step ⟨now, .running r, some h⟩ l = some (x', os)) :
    Turn p now r h l x' os := by
  cases l with
  | advance d =>
      obtain ⟨rfl, rfl⟩ := Prod.mk.inj (Option.some.inj hstep)
      exact Turn.advance
  | session input panics =>
      simp only [lts, step] at hstep
      split at hstep
      · rename_i hallows
        obtain ⟨⟨s', sos⟩, hs, heq⟩ := Option.map_eq_some_iff.mp hstep
        obtain ⟨rfl, rfl⟩ := Prod.mk.inj heq
        exact Turn.session hallows (Session.turn_of_step hs)
      · cases hstep
  | pollServer panics =>
      simp only [lts, step, pollServer] at hstep
      obtain ⟨⟨server, tos⟩, hpoll, hrest⟩ := Option.bind_eq_some_iff.mp hstep
      simp only at hrest
      split at hrest
      · rename_i hemission
        obtain ⟨⟨s', sos⟩, hs, heq⟩ := Option.map_eq_some_iff.mp hrest
        obtain ⟨rfl, rfl⟩ := Prod.mk.inj heq
        exact Turn.serverBeats hpoll hemission (Session.turn_of_step hs)
      · rename_i hemission
        split at hrest
        · rename_i hpanic
          obtain ⟨rfl, rfl⟩ := Prod.mk.inj (Option.some.inj hrest)
          exact Turn.serverPanics hpoll hpanic
        · rename_i hpanic
          obtain ⟨rfl, rfl⟩ := Prod.mk.inj (Option.some.inj hrest)
          exact Turn.serverWaits hpoll (by simpa using hemission) (by simpa using hpanic)
  | pollClient =>
      simp only [lts, step, pollClient, Option.bind_some] at hstep
      obtain ⟨⟨client, tos⟩, hpoll, hrest⟩ := Option.map_eq_some_iff.mp hstep
      simp only at hrest
      split at hrest
      · rename_i hready
        split at hrest
        · rename_i s' sos hs
          have hturn := Session.turn_of_step hs
          obtain ⟨rfl, rfl⟩ := Prod.mk.inj hrest
          have hnil : sos = [] := by cases hturn; rfl
          subst hnil
          exact Turn.missed hpoll hready hturn
        · obtain ⟨rfl, rfl⟩ := Prod.mk.inj hrest
          exact Turn.unreported hpoll hready
      · rename_i hready
        obtain ⟨rfl, rfl⟩ := Prod.mk.inj hrest
        exact Turn.clientWaits hpoll (by simpa using hready)
  | serverTask i move =>
      simp only [lts, step, Option.bind_some] at hstep
      obtain ⟨⟨server, tos⟩, htask, heq⟩ := Option.map_eq_some_iff.mp hstep
      obtain ⟨rfl, rfl⟩ := Prod.mk.inj heq
      exact Turn.serverTask htask
  | clientTask i move =>
      simp only [lts, step, Option.bind_some] at hstep
      obtain ⟨⟨client, tos⟩, htask, heq⟩ := Option.map_eq_some_iff.mp hstep
      obtain ⟨rfl, rfl⟩ := Prod.mk.inj heq
      exact Turn.clientTask htask

/-- Before its first item a session has no timers: the clock moves, or the first item comes. -/
theorem awaiting_cases
    (hstep : (lts p).step ⟨now, .awaiting, none⟩ l = some (x', os)) :
    (∃ d, l = .advance d ∧ os = [] ∧ x' = ⟨now + d, .awaiting, none⟩) ∨
      ∃ item factory panics s' sos, l = .session (.first item factory) panics ∧
        Session.Turn p .awaiting (.first item factory) s' sos ∧
        x' = ⟨now, s', Heartbeats.after now none s' sos⟩ ∧ os = sos.map (.session now) := by
  cases l with
  | advance d =>
      obtain ⟨rfl, rfl⟩ := Prod.mk.inj (Option.some.inj hstep)
      exact Or.inl ⟨d, rfl, rfl, rfl⟩
  | session input panics =>
      simp only [lts, step] at hstep
      split at hstep
      · obtain ⟨⟨s', sos⟩, hs, heq⟩ := Option.map_eq_some_iff.mp hstep
        obtain ⟨rfl, rfl⟩ := Prod.mk.inj heq
        have hturn := Session.turn_of_step hs
        cases input with
        | first item factory => exact Or.inr ⟨item, factory, panics, s', sos, rfl, hturn, rfl, rfl⟩
        | _ => cases hturn
      · cases hstep
  | pollServer panics => simp [lts, step, pollServer] at hstep
  | pollClient => simp [lts, step, pollClient] at hstep
  | serverTask i move => simp [lts, step] at hstep
  | clientTask i move => simp [lts, step] at hstep

/-- A session that is over stays so, and nothing is observed of it as time goes on. -/
theorem ended_cases {hb : Option Heartbeats}
    (hstep : (lts p).step ⟨now, .ended, hb⟩ l = some (x', os)) :
    x'.session = .ended ∧ os = [] ∧ now ≤ x'.now := by
  cases l with
  | advance d =>
      obtain ⟨rfl, rfl⟩ := Prod.mk.inj (Option.some.inj hstep)
      exact ⟨rfl, rfl, Nat.le_add_right _ _⟩
  | session input panics =>
      simp only [lts, step] at hstep
      split at hstep
      · obtain ⟨⟨s', sos⟩, hs, -⟩ := Option.map_eq_some_iff.mp hstep
        cases Session.turn_of_step hs
      · cases hstep
  | pollServer panics => simp [lts, step, pollServer] at hstep
  | pollClient =>
      simp only [lts, step, pollClient] at hstep
      obtain ⟨h, -, hrest⟩ := Option.bind_eq_some_iff.mp hstep
      obtain ⟨⟨client, tos⟩, -, hrest⟩ := Option.map_eq_some_iff.mp hrest
      simp only [Session.step] at hrest
      split at hrest <;>
        (obtain ⟨rfl, rfl⟩ := Prod.mk.inj hrest
         exact ⟨rfl, rfl, le_rfl⟩)
  | serverTask i move =>
      simp only [lts, step] at hstep
      obtain ⟨h, -, hrest⟩ := Option.bind_eq_some_iff.mp hstep
      obtain ⟨⟨server, tos⟩, -, heq⟩ := Option.map_eq_some_iff.mp hrest
      obtain ⟨rfl, rfl⟩ := Prod.mk.inj heq
      exact ⟨rfl, rfl, le_rfl⟩
  | clientTask i move =>
      simp only [lts, step] at hstep
      obtain ⟨h, -, hrest⟩ := Option.bind_eq_some_iff.mp hstep
      obtain ⟨⟨client, tos⟩, -, heq⟩ := Option.map_eq_some_iff.mp hrest
      obtain ⟨rfl, rfl⟩ := Prod.mk.inj heq
      exact ⟨rfl, rfl, le_rfl⟩

end TimedSession

/-! ## The session's part -/

namespace Session

variable {p : Params} {r r' : ClientSession} {input : SessionInput} {os : List SessionObs}

/-- The session is connected. -/
def isRunning : Session → Bool
  | running _ => true
  | _ => false

theorem eq_running_of_isRunning {s : Session} (h : s.isRunning = true) : ∃ r, s = running r := by
  cases s with
  | running r => exact ⟨r, rfl⟩
  | awaiting => cases h
  | ended => cases h

/-- The intervals of a session never change. -/
theorem Turn.intervals (h : Turn p (running r) input (running r') os) :
    r'.serverHeartbeat = r.serverHeartbeat ∧ r'.clientHeartbeat = r.clientHeartbeat := by
  have hhandles : ∀ {r₀ : ClientSession} {resetFails : Bool} {e : ClientEvent},
      Handles p r₀ resetFails e (running r') os →
      r'.serverHeartbeat = r₀.serverHeartbeat ∧ r'.clientHeartbeat = r₀.clientHeartbeat := by
    intro r₀ resetFails e hh
    cases hh
    exact ⟨rfl, rfl⟩
  cases h with
  | client hh => exact hhandles hh
  | own hevents hh =>
      have hkept := hhandles hh
      exact hkept
  | heartbeat hheartbeat hh => exact hhandles hh
  | missed hlistening hheartbeat => exact ⟨rfl, rfl⟩
  | delivered hfrom => exact ⟨rfl, rfl⟩

/-- A timer that is reset on behalf of an event is the timer of that event. -/
theorem Handles.reset_iff {resetFails : Bool} {e : ClientEvent} {s' : Session}
    {timer : HeartbeatTimer} (h : Handles p r resetFails e s' os)
    (hpanic : e.panics resetFails = false) :
    .reset timer ∈ os ↔ e.timer? = some timer := by
  cases h with
  | stuck hp => rw [hpanic] at hp; cases hp
  | callPanics _ hcall => simp [begun, eq_comm]
  | ends _ hends => simp [begun, eq_comm]
  | goesOn _ hends => simp [begun, eq_comm]

/-- Whoever resets the server heartbeat sends a message to the client. -/
theorem Handles.output_of_reset {resetFails : Bool} {e : ClientEvent}
    (h : Handles p r resetFails e (running r') os) (hreset : .reset .server ∈ os) :
    ∃ m, .output m ∈ os := by
  cases h with
  | goesOn hpanic hends =>
      cases e with
      | serverMessage i m =>
          exact ⟨.inl (.message (ClientSession.messageFrame i m)), by
            simp [ClientSession.message?, ClientEvent.fault?, ClientEvent.plain?]⟩
      | _ => simp [begun, ClientEvent.timer?] at hreset

/-- Whoever resets the server heartbeat sends a message to the client. -/
theorem Turn.output_of_reset (h : Turn p (running r) input (running r') os)
    (hreset : .reset .server ∈ os) : ∃ m, .output m ∈ os := by
  cases h with
  | client hh => exact hh.output_of_reset hreset
  | own hevents hh => exact hh.output_of_reset hreset
  | heartbeat hheartbeat hh => exact hh.output_of_reset hreset
  | missed hlistening hheartbeat => cases hreset
  | delivered hfrom => cases hreset

end Session

namespace HeldTimer

/-- The timer after the resets that a session asked for. -/
def reacts (h : HeldTimer) (asked : Bool) : HeldTimer := if asked then h.queue .reset else h

variable {period : Duration} {h : HeldTimer}

theorem Serves.reacts (hserves : h.Serves period) (asked : Bool) :
    (h.reacts asked).Serves period := by
  cases asked with
  | true => exact hserves.queue
  | false => exact hserves

/-- What a session that goes on does to a timer that serves. -/
theorem Serves.after_server (hserves : h.Serves period) (now : Instant) (client : TimerState)
    (r : ClientSession) (os : List SessionObs) :
    Heartbeats.after now (some ⟨h.toState, client⟩) (.running r) os =
      some ⟨(h.reacts (decide (.reset .server ∈ os))).toState,
        if .reset .client ∈ os then (client.send now .reset).1 else client⟩ := by
  by_cases hreset : .reset .server ∈ os
  · simp [Heartbeats.after, Heartbeats.react, HeldTimer.reacts, hreset, hserves.send]
  · simp [Heartbeats.after, Heartbeats.react, HeldTimer.reacts, hreset]

end HeldTimer

namespace TimedSession

variable {p : Params} {x x' : TimedSession} {l : TimedLabel} {os : List TimedObs}

/-- A property of the time, a connected session, the timer of its server heartbeat and what was
observed. -/
abbrev ServerProperty := Instant → ClientSession → HeldTimer → List TimedObs → Prop

/-- **What a property has to survive** to hold as long as a session is connected. -/
structure Kept (p : Params) (C : TimedSession → TimedLabel → Prop) (P : ServerProperty) : Prop where
  /-- The session is connected. -/
  connect : ∀ {t item factory r sos},
    Session.Turn p .awaiting (.first item factory) (.running r) sos →
    P t r (.fresh (Duration.fromMillis r.serverHeartbeat) [] true) (sos.map (.session t))
  /-- Time passes. -/
  advance : ∀ {t r h client tr d}, P t r h tr → h.Serves (Duration.fromMillis r.serverHeartbeat) →
    C ⟨t, .running r, some ⟨HeldTimer.toState h, client⟩⟩ (.advance d) → P (t + d) r h tr
  /-- The session moves, apart from its timers. -/
  moves : ∀ {t r h tr input r' sos}, P t r h tr →
    h.Serves (Duration.fromMillis r.serverHeartbeat) →
    Session.Turn p (.running r) input (.running r') sos →
    P t r' (h.reacts (decide (.reset .server ∈ sos))) (tr ++ sos.map (.session t))
  /-- The merge polls the heartbeat stream and handles a tick. -/
  beats : ∀ {t r h tr h' tos r' sos}, P t r h tr →
    h.Serves (Duration.fromMillis r.serverHeartbeat) → HeldTimer.Step t h .poll h' tos →
    tos.any (·.isEmission) = true → Session.Turn p (.running r) .heartbeat (.running r') sos →
    P t r' (h'.reacts (decide (.reset .server ∈ sos))) (tr ++ sos.map (.session t))
  /-- The merge polls the heartbeat stream in vain, or a task of it runs. -/
  timer : ∀ {t r h tr a h' tos}, P t r h tr → h.Serves (Duration.fromMillis r.serverHeartbeat) →
    HeldTimer.Step t h a h' tos → (∀ c, a ≠ .command c) → a ≠ .dropResetter →
    tos.any (·.isEmission) = false → P t r h' tr
  /-- The heartbeat listener reports. -/
  missed : ∀ {t r h tr r'}, P t r h tr →
    Session.Turn p (.running r) .missedHeartbeat (.running r') [] → P t r' h (tr ++ [.missed t])

/-- Before the first item nothing was observed and there are no timers; while the session is
connected, the timer of its server heartbeat serves the interval that the client asked for, and
has the property. -/
def Holds (P : ServerProperty) (x : TimedSession) (tr : List TimedObs) : Prop :=
  (x.session = .awaiting → x.heartbeats = none ∧ tr = []) ∧
    ∀ r, x.session = .running r → ∃ h client, x.heartbeats = some ⟨HeldTimer.toState h, client⟩ ∧
      h.Serves (Duration.fromMillis r.serverHeartbeat) ∧ P x.now r h tr

/-- A session whose timers have moved. -/
theorem Holds.of_session {P : ServerProperty} {t : Instant} {r : ClientSession} {h : HeldTimer}
    {client : TimerState} {tr : List TimedObs}
    (hserves : h.Serves (Duration.fromMillis r.serverHeartbeat)) (hP : P t r h tr) :
    Holds P ⟨t, .running r, some ⟨h.toState, client⟩⟩ tr := by
  refine ⟨by simp, fun r' hr' => ?_⟩
  obtain rfl := Session.running.inj hr'
  exact ⟨h, client, rfl, hserves, hP⟩

/-- A session that is over. -/
theorem Holds.of_ended {P : ServerProperty} {tr : List TimedObs} (h : x.session = .ended) :
    Holds P x tr :=
  ⟨by simp [h], by simp [h]⟩

/-- A session that moves, after its timer. -/
theorem Holds.of_turn {P : ServerProperty} {t : Instant} {r : ClientSession} {h : HeldTimer}
    {client : TimerState} {input : SessionInput} {s' : Session} {sos : List SessionObs}
    {tr : List TimedObs} (hserves : h.Serves (Duration.fromMillis r.serverHeartbeat))
    (hturn : Session.Turn p (.running r) input s' sos)
    (hP : ∀ r', s' = .running r' →
      P t r' (h.reacts (decide (.reset .server ∈ sos))) (tr ++ sos.map (.session t))) :
    Holds P ⟨t, s', Heartbeats.after t (some ⟨h.toState, client⟩) s' sos⟩
      (tr ++ sos.map (.session t)) := by
  cases s' with
  | awaiting => exact absurd rfl hturn.ne_awaiting
  | ended => exact Holds.of_ended rfl
  | running r' =>
      rw [hserves.after_server]
      refine Holds.of_session ?_ (hP r' rfl)
      rw [hturn.intervals.1]
      exact hserves.reacts _

/-- The first step of a session. -/
theorem Holds.first {C : TimedSession → TimedLabel → Prop} {P : ServerProperty}
    (hkept : Kept p C P) {t : Instant}
    (hstep : (lts p).step ⟨t, .awaiting, none⟩ l = some (x', os)) : Holds P x' os := by
  rcases awaiting_cases hstep with ⟨d, rfl, rfl, rfl⟩ |
    ⟨item, factory, panics, s', sos, rfl, hturn, rfl, rfl⟩
  · exact ⟨fun _ => ⟨rfl, rfl⟩, by simp⟩
  · cases s' with
    | awaiting => exact absurd rfl hturn.ne_awaiting
    | running r =>
        have hfresh : (HeldTimer.fresh (Duration.fromMillis r.serverHeartbeat) [] true).Serves
            (Duration.fromMillis r.serverHeartbeat) := ⟨rfl, by simp [HeldTimer.commands], rfl⟩
        have hconnect := hkept.connect (t := t) hturn
        cases hturn with
        | connected hfirst hnew =>
            rw [Heartbeats.after_connected (by simp)]
            exact Holds.of_session hfresh hconnect
    | ended => exact Holds.of_ended rfl

/-- **Every step keeps such a property.** -/
theorem Holds.step {C : TimedSession → TimedLabel → Prop} {P : ServerProperty}
    {tr : List TimedObs} (hkept : Kept p C P) (hx : Holds P x tr) (hC : C x l)
    (hstep : (lts p).step x l = some (x', os)) : Holds P x' (tr ++ os) := by
  obtain ⟨t, s, hb⟩ := x
  cases s with
  | awaiting =>
      obtain ⟨rfl, rfl⟩ := hx.1 rfl
      exact Holds.first hkept hstep
  | running r =>
      obtain ⟨h, client, rfl, hserves, hP⟩ := hx.2 r rfl
      have htimer : ∀ {a : TimerAction} {server : TimerState} {tos : List TimerObs},
          (∀ c, a ≠ .command c) → a ≠ .dropResetter → a ≠ .drop →
          h.toState.step t a = some (server, tos) → tos.any (·.isEmission) = false →
          Holds P ⟨t, .running r, some ⟨server, client⟩⟩ tr := by
        intro a server tos hcommand hresetter hdrop hact hemission
        obtain ⟨h', rfl, hheld, hserves'⟩ := hserves.step hcommand hresetter hdrop hact
        exact Holds.of_session hserves'
          (hkept.timer hP hserves hheld hcommand hresetter hemission)
      cases turn_of_step hstep with
      | advance =>
          rw [List.append_nil]
          exact Holds.of_session hserves (hkept.advance hP hserves hC)
      | session hallows hturn =>
          refine Holds.of_turn hserves hturn ?_
          rintro r' rfl
          exact hkept.moves hP hserves hturn
      | serverWaits hpoll hemission hpanic =>
          rw [List.append_nil]
          exact htimer (by simp) (by simp) (by simp) hpoll hemission
      | serverPanics hpoll hpanic => exact Holds.of_ended rfl
      | serverBeats hpoll hemission hturn =>
          obtain ⟨h', rfl, hheld, hserves'⟩ := hserves.step (by simp) (by simp) (by simp) hpoll
          refine Holds.of_turn hserves' hturn ?_
          rintro r' rfl
          exact hkept.beats hP hserves hheld hemission hturn
      | clientWaits hpoll hready =>
          rw [List.append_nil]
          exact Holds.of_session hserves hP
      | @missed client' tos s' hpoll hready hturn =>
          cases s' with
          | awaiting => exact absurd rfl hturn.ne_awaiting
          | ended => exact Holds.of_ended rfl
          | running r' =>
              refine Holds.of_session ?_ (hkept.missed hP hturn)
              rw [hturn.intervals.1]
              exact hserves
      | unreported hpoll hready =>
          rw [List.append_nil]
          exact Holds.of_session hserves hP
      | @serverTask i move server tos htask =>
          rw [List.append_nil]
          refine htimer (by simp) (by simp) (by simp) htask ?_
          obtain ⟨h', -, hheld, -⟩ := hserves.step (by simp) (by simp) (by simp) htask
          cases hheld <;> rfl
      | clientTask htask =>
          rw [List.append_nil]
          exact Holds.of_session hserves hP
  | ended =>
      obtain ⟨hended, rfl, -⟩ := ended_cases hstep
      exact Holds.of_ended hended

/-- **Rule for connected sessions.**  Such a property holds in every run, as long as the session
is connected. -/
theorem holds {C : TimedSession → TimedLabel → Prop} {P : ServerProperty} {now : Instant}
    {ls : List TimedLabel} {tr : List TimedObs} (hkept : Kept p C P)
    (hrun : (lts p).Run C (start now) ls tr x) : Holds P x tr :=
  hrun.invariant ⟨fun _ => ⟨rfl, rfl⟩, by simp [start]⟩
    fun _ hx hC hstep => hx.step hkept hC hstep

/-- Every run has the property that is always true. -/
theorem kept_true {C : TimedSession → TimedLabel → Prop} : Kept p C fun _ _ _ _ => True :=
  ⟨fun _ => trivial, fun _ _ _ => trivial, fun _ _ _ => trivial, fun _ _ _ _ _ => trivial,
    fun _ _ _ _ _ _ => trivial, fun _ _ => trivial⟩

section

variable {C : TimedSession → TimedLabel → Prop} {now : Instant} {ls : List TimedLabel}
  {tr : List TimedObs}

/-- **The timer of a connected session serves** the interval that its client asked for, whatever
has happened. -/
theorem attended (hrun : (lts p).Run C (start now) ls tr x) {r : ClientSession}
    (hr : x.session = .running r) :
    ∃ h client, x.heartbeats = some ⟨HeldTimer.toState h, client⟩ ∧
      h.Serves (Duration.fromMillis r.serverHeartbeat) := by
  obtain ⟨h, client, hheartbeats, hserves, -⟩ := (holds kept_true hrun).2 r hr
  exact ⟨h, client, hheartbeats, hserves⟩

/-- Of a session that waits for its first item nothing has been observed. -/
theorem unobserved (hrun : (lts p).Run C (start now) ls tr x) (hx : x.session = .awaiting) :
    tr = [] :=
  ((holds kept_true hrun).1 hx).2

end

end TimedSession
