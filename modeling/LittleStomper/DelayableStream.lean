/-
# The resettable timer

`src/asynchronous/delayable_stream.rs`: a stream of ticks whose period can be started anew
or changed from outside.  The stream itself only holds the handle of a task.  A task waits
for its period to elapse or for a command; when the period has elapsed it spawns its
successor and finishes with the successor's handle, which the stream picks up when it is
polled.

* A task runs when its label is taken, which may be late; only the clock says what has
  elapsed.  Every instant is representable.  When the runtime wakes a task that sleeps is up to
  its time driver (`TimeDriver`).
* A call of `create_task_with_receiver` that awaits another one stays suspended until that
  one returns, so the pending calls of a task form a stack.
* The runtime: `abort` stops a task that is not finished, and does nothing to one that is;
  a handle that is dropped leaves its task alone.
-/
import LittleStomper.Library.Run
import Mathlib.Algebra.Group.Nat.Defs

/-! ## Time -/

/-- `Duration`, in nanoseconds. -/
abbrev Duration := Nat

/-- `Instant`, in nanoseconds since the start. -/
abbrev Instant := Nat

/-- `Duration::from_millis`. -/
def Duration.fromMillis (millis : Nat) : Duration := millis * 10 ^ 6

/-- `Duration::as_millis`. -/
def Duration.asMillis (d : Duration) : Nat := d / 10 ^ 6

/-! ## Commands, futures and tasks -/

/-- `ResettableTimerCommand`. -/
inductive ResettableTimerCommand where
  | reset
  | changePeriod (newPeriod : Duration)
  deriving DecidableEq, Repr

/-- `command_to_new_period`. -/
def ResettableTimerCommand.toNewPeriod (period : Duration) : ResettableTimerCommand → Duration
  | reset => period
  | changePeriod newPeriod => newPeriod

/-- The tasks of a timer, in the order in which they are spawned. -/
abbrev TaskId := Nat

/-- What the innermost call of a timer task waits for. -/
inductive TimerFuture where
  /-- `create_task_with_receiver` has been spawned and not been polled. -/
  | created (period : Duration)
  /-- A command; the period is below a millisecond. -/
  | receiving (period : Duration)
  /-- A command or the end of its sleep. -/
  | selecting (period : Duration) (deadline : Instant)
  /-- `pending()`: nothing, since the sender was dropped. -/
  | pending (period : Duration)
  /-- `create_task_no_receiver`: the end of its sleep. -/
  | sleeping (period : Duration) (deadline : Instant)
  deriving DecidableEq, Repr

/-- A call of `create_task_with_receiver`, polled: its sleep is set to `now + period`. -/
def createTaskWithReceiver (now : Instant) (period : Duration) : TimerFuture :=
  if period.asMillis = 0 then .receiving period else .selecting period (now + period)

/-- A call of `create_task_no_receiver`: the sleep begins with the call. -/
def createTaskNoReceiver (now : Instant) (period : Duration) : TimerFuture :=
  .sleeping period (now + period)

/-- The call owns the receiver of the commands.  Once the sender is dropped, whoever has the
receiver keeps it to no purpose. -/
def TimerFuture.ownsReceiver : TimerFuture → Bool
  | created _ => true
  | receiving _ => true
  | selecting _ _ => true
  | pending _ => true
  | sleeping _ _ => false

/-- A task of a timer. -/
inductive TimerTask where
  /-- Not finished: the periods of its suspended calls, the innermost first, and the call
  that they wait for. -/
  | running (suspended : List Duration) (future : TimerFuture)
  /-- `StreamState::Fired`. -/
  | fired (newTask : TaskId)
  /-- Stopped by `abort`. -/
  | aborted
  deriving DecidableEq, Repr

namespace TimerTask

/-- The task owns the receiver of the commands. -/
def ownsReceiver : TimerTask → Bool
  | running _ future => future.ownsReceiver
  | _ => false

/-- The task is not finished. -/
def isRunning : TimerTask → Bool
  | running _ _ => true
  | _ => false

end TimerTask

/-! ## Timers -/

/-- `ResettableTimer`; `receiver` says that it still has the receiver. -/
structure ResettableTimer where
  period : Duration
  receiver : Bool
  task : Option TaskId
  deriving DecidableEq, Repr

/-- A timer with its tasks, its channel of commands and its resetter.  `timer` is gone once
it is dropped, and so is the resetter. -/
structure TimerState where
  timer : Option ResettableTimer
  tasks : List TimerTask
  commands : List ResettableTimerCommand
  resetter : Bool
  deriving DecidableEq, Repr

/-- `Poll`. -/
inductive Poll (α : Type) where
  | pending
  | ready (value : α)
  deriving DecidableEq, Repr

/-- `Poll::map`. -/
def Poll.map {α β : Type} (f : α → β) : Poll α → Poll β
  | pending => pending
  | ready value => ready (f value)

/-- What can be observed of a timer, and when. -/
inductive TimerObs where
  /-- `reset` or `change_period` was called, and whether it succeeded. -/
  | sent (now : Instant) (command : ResettableTimerCommand) (ok : Bool)
  /-- A task received a command. -/
  | consumed (now : Instant) (command : ResettableTimerCommand)
  /-- A task noticed that the resetter was dropped. -/
  | closed (now : Instant)
  /-- A period has elapsed. -/
  | ticked (now : Instant)
  /-- `poll_next` returned. -/
  | polled (now : Instant) (result : Poll (Option Unit))
  /-- `poll_next` panicked. -/
  | panicked (now : Instant)
  deriving DecidableEq, Repr

/-- What makes a task move. -/
inductive TaskMove where
  /-- It is polled for the first time. -/
  | start
  /-- The channel has a command for it, or no sender any more. -/
  | receive
  /-- Its sleep is over. -/
  | elapse
  deriving DecidableEq, Repr

/-- What can be done with a timer. -/
inductive TimerAction where
  /-- `reset` or `change_period`. -/
  | command (command : ResettableTimerCommand)
  /-- The resetter is dropped. -/
  | dropResetter
  /-- `poll_next`. -/
  | poll
  /-- A task runs. -/
  | task (task : TaskId) (move : TaskMove)
  /-- The timer is dropped. -/
  | drop
  deriving DecidableEq, Repr

/-- `create`. -/
def ResettableTimer.create (period : Duration) : TimerState where
  timer := some ⟨period, true, none⟩
  tasks := []
  commands := []
  resetter := true

/-- `default`: a timer that does not tick until its period is changed. -/
def ResettableTimer.default : TimerState := ResettableTimer.create (Duration.fromMillis 0)

namespace TimerState

/-- The receiver of the commands exists. -/
def accepts (s : TimerState) : Bool :=
  s.timer.any (·.receiver) || s.tasks.any (·.ownsReceiver)

def setTask (s : TimerState) (i : TaskId) (task : TimerTask) : TimerState :=
  { s with tasks := s.tasks.set i task }

/-- `tokio::task::spawn`. -/
def spawn (s : TimerState) (future : TimerFuture) : TimerState :=
  { s with tasks := s.tasks ++ [.running [] future] }

/-! ### The resetter -/

/-- `reset` and `change_period`. -/
def send (now : Instant) (s : TimerState) (command : ResettableTimerCommand) :
    TimerState × List TimerObs :=
  if s.accepts then
    ({ s with commands := s.commands ++ [command] }, [.sent now command true])
  else (s, [.sent now command false])

/-! ### The tasks -/

/-- `receive` resolves: with the next command, which is passed on to a nested call, or
without one if the sender was dropped. -/
def receive (now : Instant) (s : TimerState) (i : TaskId) (suspended : List Duration)
    (period : Duration) (closed : TimerTask) : Option (TimerState × List TimerObs) :=
  match s.commands with
  | command :: commands =>
    let nested := createTaskWithReceiver now (command.toNewPeriod period)
    some ({ s.setTask i (.running (period :: suspended) nested) with commands := commands },
      [.consumed now command])
  | [] => if s.resetter then none else some (s.setTask i closed, [.closed now])

/-- The sleep is over: the task, and every suspended call of it, returns `Fired` with the
task it has spawned. -/
def fire (now : Instant) (s : TimerState) (i : TaskId) (newTask : TimerFuture) :
    TimerState × List TimerObs :=
  ((s.setTask i (.fired s.tasks.length)).spawn newTask, [.ticked now])

/-- A task is polled, and this move of it is ready. -/
def runTask (now : Instant) (s : TimerState) (i : TaskId) (move : TaskMove) :
    Option (TimerState × List TimerObs) :=
  match s.tasks[i]? with
  | some (.running suspended future) =>
    match move, future with
    | .start, .created period =>
      some (s.setTask i (.running suspended (createTaskWithReceiver now period)), [])
    | .receive, .receiving period =>
      s.receive now i suspended period (.running suspended (.pending period))
    | .receive, .selecting period _ =>
      s.receive now i suspended period
        (.running (period :: suspended) (createTaskNoReceiver now period))
    | .elapse, .selecting period deadline =>
      if deadline ≤ now then some (s.fire now i (.created period)) else none
    | .elapse, .sleeping period deadline =>
      if deadline ≤ now then some (s.fire now i (createTaskNoReceiver now period)) else none
    | _, _ => none
  | _ => none

/-- Polling a `JoinHandle`. -/
def pollHandle (s : TimerState) (i : TaskId) : Poll (Except Unit TaskId) :=
  match s.tasks[i]? with
  | some (.fired newTask) => .ready (.ok newTask)
  | some .aborted => .ready (.error ())
  | _ => .pending

/-! ### The stream -/

/-- `poll_existing_task`. -/
def pollExistingTask (s : TimerState) (t : ResettableTimer) (i : TaskId) :
    TimerState × Poll (Option Unit) :=
  match s.pollHandle i with
  | .pending => (s, .pending)
  | .ready (.ok newTask) =>
    ({ s with timer := some { t with task := some newTask } }, .ready (some ()))
  | .ready (.error _) => (s, .ready none)

/-- `initialise`; `none` is the panic of its `expect`. -/
def initialise (s : TimerState) (t : ResettableTimer) : Option (TimerState × Poll (Option Unit)) :=
  if t.receiver then
    let s' := { s.spawn (.created t.period) with
      timer := some { t with receiver := false, task := some s.tasks.length } }
    some (s', (s'.pollHandle s.tasks.length).map fun _ => none)
  else none

/-- `poll_next`. -/
def pollNext (s : TimerState) (t : ResettableTimer) : Option (TimerState × Poll (Option Unit)) :=
  match t.task with
  | some i => some (s.pollExistingTask t i)
  | none => s.initialise t

/-- `JoinHandle::abort`. -/
def abort (s : TimerState) (i : TaskId) : TimerState :=
  match s.tasks[i]? with
  | some (.running _ _) => s.setTask i .aborted
  | _ => s

/-- `Drop::drop`. -/
def dropTimer (s : TimerState) (t : ResettableTimer) : TimerState :=
  { (t.task.elim s s.abort) with timer := none }

/-! ### Steps -/

/-- One step at a given time. -/
def step (now : Instant) (s : TimerState) : TimerAction → Option (TimerState × List TimerObs)
  | .command command => if s.resetter then some (s.send now command) else none
  | .dropResetter => if s.resetter then some ({ s with resetter := false }, []) else none
  | .poll => s.timer.map fun t =>
    match s.pollNext t with
    | some (s', result) => (s', [.polled now result])
    | none => (s, [.panicked now])
  | .task i move => s.runTask now i move
  | .drop => s.timer.map fun t => (s.dropTimer t, [])

/-- The tasks that are not finished. -/
def unfinished (s : TimerState) : List TaskId :=
  (List.range s.tasks.length).filter fun i => s.tasks[i]?.any (·.isRunning)

end TimerState

/-! ## What is ready -/

/-- What is relied on of the time driver of the runtime, which wakes the tasks that sleep.  It
counts whole milliseconds: no sleep is over before its deadline, an earlier deadline is not
served later, and a deadline at a whole millisecond is kept. -/
structure TimeDriver where
  /-- When the driver wakes a task that sleeps to the deadline. -/
  wake : Instant → Instant
  notBefore : ∀ deadline, deadline ≤ wake deadline
  mono : ∀ {deadline deadline'}, deadline ≤ deadline' → wake deadline ≤ wake deadline'
  onTime : ∀ millis, wake (Duration.fromMillis millis) = Duration.fromMillis millis

namespace TimeDriver

/-- A driver without a resolution of its own. -/
def exact : TimeDriver where
  wake deadline := deadline
  notBefore _ := Nat.le_refl _
  mono h := h
  onTime _ := rfl

/-- The driver that rounds a deadline up to the next millisecond. -/
def millis : TimeDriver where
  wake deadline := (deadline + 999999) / 10 ^ 6 * 10 ^ 6
  notBefore _ := by lia
  mono h := by lia
  onTime n := by simp only [Duration.fromMillis]; lia

/-- **A sleep is less than a millisecond too long.** -/
theorem wake_lt (time : TimeDriver) (deadline : Instant) :
    time.wake deadline < deadline + Duration.fromMillis 1 := by
  have hnext : time.wake deadline ≤
      time.wake (Duration.fromMillis ((deadline + 999999) / 10 ^ 6)) :=
    time.mono (by simp only [Duration.fromMillis]; lia)
  rw [time.onTime] at hnext
  simp only [Duration.fromMillis] at hnext ⊢
  lia

end TimeDriver

/-- The deadline of the sleep that a call waits for. -/
def TimerFuture.deadline? : TimerFuture → Option Instant
  | selecting _ deadline => some deadline
  | sleeping _ deadline => some deadline
  | _ => none

/-- The deadline of the sleep that a task waits for. -/
def TimerTask.deadline? : TimerTask → Option Instant
  | running _ future => future.deadline?
  | _ => none

namespace TimerState

/-- A task need not be woken for the move, or has been. -/
def isAwake (time : TimeDriver) (now : Instant) (s : TimerState) (i : TaskId) : TaskMove → Bool
  | .elapse => (s.tasks[i]?.bind TimerTask.deadline?).all fun deadline => time.wake deadline ≤ now
  | _ => true

/-- The runtime has a task make the move. -/
def canMove (time : TimeDriver) (now : Instant) (s : TimerState) (i : TaskId)
    (move : TaskMove) : Bool :=
  s.isAwake time now i move && (s.runTask now i move).isSome

/-- No task of the timer can move. -/
def isSettled (time : TimeDriver) (now : Instant) (s : TimerState) : Bool :=
  (List.range s.tasks.length).all fun i =>
    [.start, .receive, .elapse].all fun move => !s.canMove time now i move

/-- A poll of the stream, if it is still there, finds nothing and changes nothing. -/
def isIdle (s : TimerState) : Bool := s.timer.all fun t => s.pollNext t = some (s, .pending)

end TimerState

/-! ## A timer and its clock -/

/-- A timer together with the time. -/
structure ClockedTimer where
  now : Instant
  state : TimerState
  deriving DecidableEq, Repr

/-- The clock moves, or something is done with the timer. -/
inductive TimerLabel where
  | advance (d : Duration)
  | act (action : TimerAction)
  deriving DecidableEq, Repr

namespace ClockedTimer

/-- A new timer. -/
def start (now : Instant) (period : Duration) : ClockedTimer := ⟨now, ResettableTimer.create period⟩

/-- One step of a timer with a clock. -/
def step (x : ClockedTimer) : TimerLabel → Option (ClockedTimer × List TimerObs)
  | .advance d => some (⟨x.now + d, x.state⟩, [])
  | .act action => (x.state.step x.now action).map fun r => (⟨x.now, r.1⟩, r.2)

/-- A timer, its users, its tasks and the clock, in any order. -/
def lts : LTS ClockedTimer TimerLabel TimerObs where
  step := step

end ClockedTimer
