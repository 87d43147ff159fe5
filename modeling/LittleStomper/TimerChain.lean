/-
# The chain of tasks

A timer that is held is in one of two shapes (`HeldTimer`).  Before its first poll it has
the receiver and no task.  Afterwards its tasks form a chain (`TimerChain`): every task but
the last has finished with the handle of the next one, and the last one waits.  The stream
holds the handle of some task of the chain, which need not be the last.

`HeldTimer.step_cases` lists all that can happen to a timer that is held, and
`HeldTimer.Step.enabled` that all of it can.
-/
import LittleStomper.DelayableStream
import Mathlib.Data.List.Range

/-! ## Polls that find nothing -/

/-- An idle stream is one whose polls find nothing. -/
theorem TimerState.isIdle_iff {s : TimerState} (now : Instant) :
    s.isIdle = true ↔
      ∀ s' os, s.step now .poll = some (s', os) → s' = s ∧ os = [.polled now .pending] := by
  cases ht : s.timer with
  | none => simp [isIdle, step, ht]
  | some t =>
      rw [isIdle, ht, Option.all_some, decide_eq_true_eq]
      cases hpoll : s.pollNext t with
      | none =>
          have hstep : s.step now .poll = some (s, [.panicked now]) := by simp [step, ht, hpoll]
          simp [hstep]
      | some r =>
          obtain ⟨s', result⟩ := r
          have hstep : s.step now .poll = some (s', [.polled now result]) := by
            simp [step, ht, hpoll]
          simp [hstep]

/-! ## Chains -/

/-- The first `n` tasks of a chain: each has finished with the handle of the next. -/
def links (n : Nat) : List TimerTask := (List.range n).map fun i => .fired (i + 1)

@[simp] theorem links_length (n : Nat) : (links n).length = n := by simp [links]

theorem links_succ (n : Nat) : links (n + 1) = links n ++ [.fired (n + 1)] := by
  simp [links, List.range_succ]

/-- A task before the last one. -/
theorem links_getElem? {n i : Nat} (h : i < n) (last : TimerTask) :
    (links n ++ [last])[i]? = some (.fired (i + 1)) := by
  rw [List.getElem?_append_left (by simpa using h), links]
  simp [h]

/-- The last task. -/
@[simp] theorem links_getElem?_last (n : Nat) (last : TimerTask) :
    (links n ++ [last])[n]? = some last := by
  simp

/-- There are no more tasks. -/
theorem links_getElem?_gt {n i : Nat} (h : n < i) (last : TimerTask) :
    (links n ++ [last])[i]? = none := by
  simp
  omega

/-- Only the last task of a chain can have the receiver. -/
@[simp] theorem links_any_ownsReceiver (n : Nat) (last : TimerTask) :
    (links n ++ [last]).any (·.ownsReceiver) = last.ownsReceiver := by
  simp [links, TimerTask.ownsReceiver]

/-- Only the last task of a chain meets a condition that no finished task meets. -/
theorem filter_links {f : TimerTask → Bool} (hfired : ∀ i, f (.fired i) = false) (n : Nat)
    {last : TimerTask} (hlast : f last = true) :
    (List.range (links n ++ [last]).length).filter (fun i => (links n ++ [last])[i]?.any f)
      = [n] := by
  have hsome : ∀ i, i < n → ((links n ++ [last])[i]?.any f) = false := by
    intro i hi
    rw [links_getElem? hi, Option.any_some, hfired]
  rw [List.length_append, links_length, List.length_singleton, List.range_succ, List.filter_append,
    List.filter_eq_nil_iff.mpr (by simpa using hsome)]
  simp [hlast]

/-- A timer that has been polled and is held: after `ticks` ticks the last task waits in
`future`, and the stream has picked up `polled` of them. -/
structure TimerChain where
  period : Duration
  polled : Nat
  ticks : Nat
  suspended : List Duration
  future : TimerFuture
  commands : List ResettableTimerCommand
  resetter : Bool
  /-- Only what has ticked is picked up. -/
  polled_le : polled ≤ ticks

/-- The state of the timer with this chain. -/
def TimerChain.toState (k : TimerChain) : TimerState where
  timer := some ⟨k.period, false, some k.polled⟩
  tasks := links k.ticks ++ [.running k.suspended k.future]
  commands := k.commands
  resetter := k.resetter

/-- A timer that is held. -/
inductive HeldTimer where
  /-- It has not been polled. -/
  | fresh (period : Duration) (commands : List ResettableTimerCommand) (resetter : Bool)
  | started (k : TimerChain)

/-- The period with which a call of `create_task_with_receiver` waits for a command. -/
def TimerFuture.awaiting? : TimerFuture → Option Duration
  | receiving period => some period
  | selecting period _ => some period
  | _ => none

namespace HeldTimer

/-- The state of a timer that is held. -/
def toState : HeldTimer → TimerState
  | fresh period commands resetter => ⟨some ⟨period, true, none⟩, [], commands, resetter⟩
  | started k => k.toState

/-- The commands that wait. -/
def commands : HeldTimer → List ResettableTimerCommand
  | fresh _ commands _ => commands
  | started k => k.commands

/-- The resetter exists. -/
def resetter : HeldTimer → Bool
  | fresh _ _ resetter => resetter
  | started k => k.resetter

/-- A command is queued. -/
def queue (h : HeldTimer) (command : ResettableTimerCommand) : HeldTimer :=
  match h with
  | fresh period commands resetter => fresh period (commands ++ [command]) resetter
  | started k => started { k with commands := k.commands ++ [command] }

/-- The resetter is dropped. -/
def dropResetter : HeldTimer → HeldTimer
  | fresh period commands _ => fresh period commands false
  | started k => started { k with resetter := false }

/-- A command can be received by somebody. -/
def accepts : HeldTimer → Bool
  | fresh _ _ _ => true
  | started k => k.future.ownsReceiver

/-- The timer is dropped.  If it held the handle of the last task, this is stopped. -/
def dropped : HeldTimer → TimerState
  | fresh _ commands resetter => ⟨none, [], commands, resetter⟩
  | started k =>
    { k.toState with
      timer := none
      tasks := links k.ticks ++
        [if k.polled = k.ticks then .aborted else .running k.suspended k.future] }

@[simp] theorem toState_accepts (h : HeldTimer) : h.toState.accepts = h.accepts := by
  cases h with
  | fresh period commands resetter => rfl
  | started k =>
      rw [TimerState.accepts, toState, TimerChain.toState, links_any_ownsReceiver]
      rfl

@[simp] theorem toState_resetter (h : HeldTimer) : h.toState.resetter = h.resetter := by
  cases h <;> rfl

@[simp] theorem toState_commands (h : HeldTimer) : h.toState.commands = h.commands := by
  cases h <;> rfl

/-- **All that can happen to a timer that is held**, short of being dropped. -/
inductive Step (now : Instant) : HeldTimer → TimerAction → HeldTimer → List TimerObs → Prop
  /-- A command is sent. -/
  | sent {h : HeldTimer} {c : ResettableTimerCommand} (hresetter : h.resetter = true)
      (haccepts : h.accepts = true) :
      Step now h (.command c) (h.queue c) [.sent now c true]
  /-- A command cannot be sent. -/
  | unsent {h : HeldTimer} {c : ResettableTimerCommand} (hresetter : h.resetter = true)
      (haccepts : h.accepts = false) :
      Step now h (.command c) h [.sent now c false]
  /-- The resetter is dropped. -/
  | dropResetter {h : HeldTimer} (hresetter : h.resetter = true) :
      Step now h .dropResetter h.dropResetter []
  /-- The first poll. -/
  | initialised {period : Duration} {commands : List ResettableTimerCommand} {resetter : Bool} :
      Step now (fresh period commands resetter) .poll
        (started ⟨period, 0, 0, [], .created period, commands, resetter, Nat.le_refl 0⟩)
        [.polled now .pending]
  /-- There is nothing to pick up. -/
  | waits {k : TimerChain} (hpolled : k.polled = k.ticks) :
      Step now (started k) .poll (started k) [.polled now .pending]
  /-- A tick is picked up. -/
  | emits {k : TimerChain} (hpolled : k.polled < k.ticks) :
      Step now (started k) .poll
        (started { k with polled := k.polled + 1, polled_le := hpolled })
        [.polled now (.ready (some ()))]
  /-- The last task is polled for the first time. -/
  | starts {k : TimerChain} {period : Duration} (hfuture : k.future = .created period) :
      Step now (started k) (.task k.ticks .start)
        (started { k with future := createTaskWithReceiver now period }) []
  /-- The last task receives a command. -/
  | consumes {k : TimerChain} {period : Duration} {c : ResettableTimerCommand}
      {commands : List ResettableTimerCommand} (hfuture : k.future.awaiting? = some period)
      (hcommands : k.commands = c :: commands) :
      Step now (started k) (.task k.ticks .receive)
        (started { k with
          suspended := period :: k.suspended
          future := createTaskWithReceiver now (c.toNewPeriod period)
          commands := commands }) [.consumed now c]
  /-- The last task notices that the resetter is gone, and will never tick. -/
  | stops {k : TimerChain} {period : Duration} (hfuture : k.future = .receiving period)
      (hcommands : k.commands = []) (hresetter : k.resetter = false) :
      Step now (started k) (.task k.ticks .receive)
        (started { k with future := .pending period }) [.closed now]
  /-- The last task notices that the resetter is gone, and begins its period anew. -/
  | closes {k : TimerChain} {period : Duration} {deadline : Instant}
      (hfuture : k.future = .selecting period deadline)
      (hcommands : k.commands = []) (hresetter : k.resetter = false) :
      Step now (started k) (.task k.ticks .receive)
        (started { k with
          suspended := period :: k.suspended
          future := createTaskNoReceiver now period }) [.closed now]
  /-- The last task ticks and hands the receiver to the next. -/
  | ticks {k : TimerChain} {period : Duration} {deadline : Instant}
      (hfuture : k.future = .selecting period deadline) (hdue : deadline ≤ now) :
      Step now (started k) (.task k.ticks .elapse)
        (started { k with
          ticks := k.ticks + 1
          suspended := []
          future := .created period
          polled_le := Nat.le_succ_of_le k.polled_le }) [.ticked now]
  /-- The last task ticks; there is no receiver to hand on. -/
  | ticksAlone {k : TimerChain} {period : Duration} {deadline : Instant}
      (hfuture : k.future = .sleeping period deadline) (hdue : deadline ≤ now) :
      Step now (started k) (.task k.ticks .elapse)
        (started { k with
          ticks := k.ticks + 1
          suspended := []
          future := createTaskNoReceiver now period
          polled_le := Nat.le_succ_of_le k.polled_le }) [.ticked now]

variable {now : Instant} {s' : TimerState} {a : TimerAction} {os : List TimerObs}

@[simp] theorem toState_queue (h : HeldTimer) (c : ResettableTimerCommand) :
    (h.queue c).toState = { h.toState with commands := h.toState.commands ++ [c] } := by
  cases h <;> rfl

@[simp] theorem toState_dropResetter (h : HeldTimer) :
    h.dropResetter.toState = { h.toState with resetter := false } := by
  cases h <;> rfl

/-- No task but the last can move. -/
theorem runTask_cases {k : TimerChain} {i : TaskId} {move : TaskMove}
    (hstep : k.toState.runTask now i move = some (s', os)) :
    i = k.ticks ∧ k.toState.tasks[i]? = some (.running k.suspended k.future) := by
  rcases Nat.lt_trichotomy i k.ticks with hi | rfl | hi
  · have htask : k.toState.tasks[i]? = _ := links_getElem? hi _
    simp [TimerState.runTask, htask] at hstep
  · exact ⟨rfl, links_getElem?_last _ _⟩
  · have htask : k.toState.tasks[i]? = _ := links_getElem?_gt hi _
    simp [TimerState.runTask, htask] at hstep

/-- The last task has received a command, or has noticed that the resetter is gone. -/
theorem receive_cases {k : TimerChain} {period : Duration} {closed : TimerTask}
    (hawait : k.future.awaiting? = some period)
    (hstep : k.toState.receive now k.ticks k.suspended period closed = some (s', os)) :
    (∃ k', s' = TimerChain.toState k' ∧
        Step now (started k) (.task k.ticks .receive) (started k') os) ∨
      (k.commands = [] ∧ k.resetter = false ∧ os = [.closed now] ∧
        s' = k.toState.setTask k.ticks closed) := by
  rw [TimerState.receive] at hstep
  split at hstep
  · rename_i c commands hcommands
    obtain ⟨rfl, rfl⟩ := Prod.mk.inj (Option.some.inj hstep)
    exact Or.inl ⟨_, by simp [TimerChain.toState, TimerState.setTask],
      Step.consumes hawait hcommands⟩
  · rename_i hcommands
    split at hstep
    · cases hstep
    · rename_i hresetter
      obtain ⟨rfl, rfl⟩ := Prod.mk.inj (Option.some.inj hstep)
      exact Or.inr ⟨hcommands, by simpa [TimerChain.toState] using hresetter, rfl, rfl⟩

/-- The last task has ticked. -/
theorem fire_last (k : TimerChain) (future : TimerFuture) :
    k.toState.fire now k.ticks future = (TimerChain.toState { k with
      ticks := k.ticks + 1
      suspended := []
      future := future
      polled_le := Nat.le_succ_of_le k.polled_le }, [.ticked now]) := by
  simp [TimerState.fire, TimerState.spawn, TimerState.setTask, TimerChain.toState, links_succ]

/-- The last task ticks only when its sleep is over. -/
theorem fire_cases {k : TimerChain} {deadline : Instant} {future : TimerFuture}
    (hstep : (if deadline ≤ now then some (k.toState.fire now k.ticks future) else none)
      = some (s', os)) :
    deadline ≤ now ∧ os = [.ticked now] ∧ s' = TimerChain.toState { k with
      ticks := k.ticks + 1
      suspended := []
      future := future
      polled_le := Nat.le_succ_of_le k.polled_le } := by
  split at hstep
  · rename_i hdue
    rw [fire_last] at hstep
    obtain ⟨rfl, rfl⟩ := Prod.mk.inj (Option.some.inj hstep)
    exact ⟨hdue, rfl, rfl⟩
  · cases hstep

/-- **What the last task can do.** -/
theorem task_cases {k : TimerChain} {i : TaskId} {move : TaskMove}
    (hstep : k.toState.runTask now i move = some (s', os)) :
    ∃ k', s' = TimerChain.toState k' ∧ Step now (started k) (.task i move) (started k') os := by
  obtain ⟨rfl, htask⟩ := runTask_cases hstep
  simp only [TimerState.runTask, htask] at hstep
  split at hstep
  · rename_i period hfuture
    obtain ⟨rfl, rfl⟩ := Prod.mk.inj (Option.some.inj hstep)
    exact ⟨_, by simp [TimerChain.toState, TimerState.setTask], Step.starts hfuture⟩
  · rename_i period hfuture
    rcases receive_cases (by rw [hfuture]; rfl) hstep with
      hconsumed | ⟨hcommands, hresetter, rfl, rfl⟩
    · exact hconsumed
    · exact ⟨_, by simp [TimerChain.toState, TimerState.setTask],
        Step.stops hfuture hcommands hresetter⟩
  · rename_i period deadline hfuture
    rcases receive_cases (by rw [hfuture]; rfl) hstep with
      hconsumed | ⟨hcommands, hresetter, rfl, rfl⟩
    · exact hconsumed
    · exact ⟨_, by simp [TimerChain.toState, TimerState.setTask],
        Step.closes hfuture hcommands hresetter⟩
  · rename_i period deadline hfuture
    obtain ⟨hdue, rfl, rfl⟩ := fire_cases hstep
    exact ⟨_, rfl, Step.ticks hfuture hdue⟩
  · rename_i period deadline hfuture
    obtain ⟨hdue, rfl, rfl⟩ := fire_cases hstep
    exact ⟨_, rfl, Step.ticksAlone hfuture hdue⟩
  · cases hstep

/-- A poll of a started timer polls the handle that it holds. -/
theorem step_poll (k : TimerChain) :
    (started k).toState.step now .poll =
      let r := k.toState.pollExistingTask ⟨k.period, false, some k.polled⟩ k.polled
      some (r.1, [.polled now r.2]) := rfl

/-- The handle of the last task is pending. -/
theorem poll_waits {k : TimerChain} (hpolled : k.polled = k.ticks) :
    (started k).toState.step now .poll = some ((started k).toState, [.polled now .pending]) := by
  have htask : k.toState.tasks[k.polled]? = some (.running k.suspended k.future) := by
    rw [hpolled]
    exact links_getElem?_last _ _
  have hpoll : k.toState.pollHandle k.polled = .pending := by
    rw [TimerState.pollHandle, htask]
  rw [step_poll, TimerState.pollExistingTask, hpoll]
  rfl

/-- The handle of a task before the last yields the handle of the next. -/
theorem poll_emits {k : TimerChain} (hpolled : k.polled < k.ticks) :
    (started k).toState.step now .poll =
      some ((started { k with polled := k.polled + 1, polled_le := hpolled }).toState,
        [.polled now (.ready (some ()))]) := by
  have htask : k.toState.tasks[k.polled]? = some (.fired (k.polled + 1)) := links_getElem? hpolled _
  have hpoll : k.toState.pollHandle k.polled = .ready (.ok (k.polled + 1)) := by
    rw [TimerState.pollHandle, htask]
  rw [step_poll, TimerState.pollExistingTask, hpoll]
  rfl

/-- **What a poll does.** -/
theorem poll_cases {h : HeldTimer} (hstep : h.toState.step now .poll = some (s', os)) :
    ∃ h', s' = h'.toState ∧ Step now h .poll h' os := by
  cases h with
  | fresh period commands resetter =>
      obtain ⟨rfl, rfl⟩ := Prod.mk.inj (Option.some.inj hstep)
      exact ⟨_, rfl, Step.initialised⟩
  | started k =>
      rcases Nat.lt_or_eq_of_le k.polled_le with hpolled | hpolled
      · rw [poll_emits hpolled] at hstep
        obtain ⟨rfl, rfl⟩ := Prod.mk.inj (Option.some.inj hstep)
        exact ⟨_, rfl, Step.emits hpolled⟩
      · rw [poll_waits hpolled] at hstep
        obtain ⟨rfl, rfl⟩ := Prod.mk.inj (Option.some.inj hstep)
        exact ⟨_, rfl, Step.waits hpolled⟩

/-- **What dropping the timer does.** -/
theorem step_drop (h : HeldTimer) : h.toState.step now .drop = some (h.dropped, []) := by
  cases h with
  | fresh period commands resetter => rfl
  | started k =>
      show some (({ k.toState.abort k.polled with timer := none } : TimerState), []) = _
      rcases Nat.lt_or_eq_of_le k.polled_le with hpolled | hpolled
      · have htask : k.toState.tasks[k.polled]? = _ := links_getElem? hpolled _
        rw [TimerState.abort, htask, dropped, if_neg (Nat.ne_of_lt hpolled)]
        rfl
      · have htask : k.toState.tasks[k.polled]? = some (.running k.suspended k.future) := by
          rw [hpolled]
          exact links_getElem?_last _ _
        rw [TimerState.abort, htask, dropped, if_pos hpolled]
        simp [TimerState.setTask, TimerChain.toState, hpolled]

/-- **Every step of a timer that is held** drops it or is one of these. -/
theorem step_cases {h : HeldTimer} (hstep : h.toState.step now a = some (s', os)) :
    (a = .drop ∧ os = [] ∧ s' = h.dropped) ∨ ∃ h', s' = h'.toState ∧ Step now h a h' os := by
  cases a with
  | command c =>
      right
      simp only [TimerState.step, TimerState.send, toState_accepts] at hstep
      split at hstep
      · rename_i hresetter
        rw [toState_resetter] at hresetter
        split at hstep
        · rename_i haccepts
          obtain ⟨rfl, rfl⟩ := Prod.mk.inj (Option.some.inj hstep)
          exact ⟨_, (toState_queue h c).symm, Step.sent hresetter haccepts⟩
        · rename_i haccepts
          obtain ⟨rfl, rfl⟩ := Prod.mk.inj (Option.some.inj hstep)
          exact ⟨_, rfl, Step.unsent hresetter (by simpa using haccepts)⟩
      · cases hstep
  | dropResetter =>
      right
      simp only [TimerState.step] at hstep
      split at hstep
      · rename_i hresetter
        rw [toState_resetter] at hresetter
        obtain ⟨rfl, rfl⟩ := Prod.mk.inj (Option.some.inj hstep)
        exact ⟨_, (toState_dropResetter h).symm, Step.dropResetter hresetter⟩
      · cases hstep
  | poll => exact Or.inr (poll_cases hstep)
  | task i move =>
      right
      cases h with
      | fresh period commands resetter => cases hstep
      | started k =>
          obtain ⟨k', rfl, hk'⟩ := task_cases hstep
          exact ⟨_, rfl, hk'⟩
  | drop =>
      rw [step_drop] at hstep
      obtain ⟨rfl, rfl⟩ := Prod.mk.inj (Option.some.inj hstep)
      exact Or.inl ⟨rfl, rfl, rfl⟩

/-- A move of the last task. -/
theorem runTask_last (k : TimerChain) (move : TaskMove) :
    (started k).toState.step now (.task k.ticks move) =
      k.toState.runTask now k.ticks move := rfl

/-- The last task need not be woken, or its sleep is over. -/
theorem isAwake_last (time : TimeDriver) (k : TimerChain) :
    k.toState.isAwake time now k.ticks .elapse =
      k.future.deadline?.all fun deadline => decide (time.wake deadline ≤ now) := by
  have htask : k.toState.tasks[k.ticks]? = some (.running k.suspended k.future) :=
    links_getElem?_last _ _
  rw [TimerState.isAwake, htask]
  rfl

/-- Where no task can move, the last one cannot, unless it has to be woken first. -/
theorem stuck_of_settled {time : TimeDriver} {k : TimerChain} {move : TaskMove}
    (hsettled : k.toState.isSettled time now = true)
    (hawake : k.toState.isAwake time now k.ticks move = true) :
    (started k).toState.step now (.task k.ticks move) = none := by
  rw [TimerState.isSettled, List.all_eq_true] at hsettled
  have hmoves := hsettled k.ticks (by simp [TimerChain.toState])
  rw [List.all_eq_true] at hmoves
  have hmove := hmoves move (by cases move <;> simp)
  rw [TimerState.canMove, hawake, Bool.true_and, Option.not_isSome] at hmove
  rw [runTask_last]
  exact Option.isNone_iff_eq_none.mp hmove

/-- A stream that has been polled is idle if it has followed the chain to its end. -/
@[simp] theorem isIdle_started (k : TimerChain) :
    (started k).toState.isIdle = decide (k.polled = k.ticks) := by
  rw [Bool.eq_iff_iff, TimerState.isIdle_iff 0, decide_eq_true_eq]
  rcases Nat.lt_or_eq_of_le k.polled_le with hpolled | hpolled
  · rw [poll_emits hpolled]
    simp [Nat.ne_of_lt hpolled]
  · rw [poll_waits hpolled]
    simp [hpolled]

/-- The first poll starts the timer. -/
@[simp] theorem isIdle_fresh (period : Duration) (commands : List ResettableTimerCommand)
    (resetter : Bool) : (fresh period commands resetter).toState.isIdle = false := by
  rw [Bool.eq_false_iff, Ne, TimerState.isIdle_iff 0]
  intro hidle
  have hlength := congrArg (fun s : TimerState => s.tasks.length) (hidle _ _ rfl).1
  cases hlength

/-- **Each of these steps can be taken.** -/
theorem Step.enabled {h h' : HeldTimer} (hstep : Step now h a h' os) :
    h.toState.step now a = some (h'.toState, os) := by
  have htask : ∀ k : TimerChain, k.toState.tasks[k.ticks]? = some (.running k.suspended k.future) :=
    fun k => links_getElem?_last _ _
  cases hstep with
  | sent hresetter haccepts =>
      simp [TimerState.step, TimerState.send, hresetter, haccepts]
  | unsent hresetter haccepts =>
      simp [TimerState.step, TimerState.send, hresetter, haccepts]
  | dropResetter hresetter => simp [TimerState.step, hresetter]
  | initialised => rfl
  | waits hpolled => exact poll_waits hpolled
  | emits hpolled => exact poll_emits hpolled
  | @starts k period hfuture =>
      rw [runTask_last, TimerState.runTask, htask, hfuture]
      simp [TimerState.setTask, toState, TimerChain.toState]
  | @consumes k period c commands hfuture hcommands =>
      rw [runTask_last, TimerState.runTask, htask]
      cases hk : k.future with
      | receiving q =>
          obtain rfl : q = period := by simpa [hk, TimerFuture.awaiting?] using hfuture
          simp [TimerState.receive, TimerState.setTask, toState, TimerChain.toState, hcommands]
      | selecting q deadline =>
          obtain rfl : q = period := by simpa [hk, TimerFuture.awaiting?] using hfuture
          simp [TimerState.receive, TimerState.setTask, toState, TimerChain.toState, hcommands]
      | _ => simp [hk, TimerFuture.awaiting?] at hfuture
  | @stops k period hfuture hcommands hresetter =>
      rw [runTask_last, TimerState.runTask, htask, hfuture]
      simp [TimerState.receive, TimerState.setTask, toState, TimerChain.toState, hcommands,
        hresetter]
  | @closes k period deadline hfuture hcommands hresetter =>
      rw [runTask_last, TimerState.runTask, htask, hfuture]
      simp [TimerState.receive, TimerState.setTask, toState, TimerChain.toState, hcommands,
        hresetter]
  | @ticks k period deadline hfuture hdue =>
      rw [runTask_last, TimerState.runTask, htask, hfuture]
      simp only [if_pos hdue, fire_last]
      rfl
  | @ticksAlone k period deadline hfuture hdue =>
      rw [runTask_last, TimerState.runTask, htask, hfuture]
      simp only [if_pos hdue, fire_last]
      rfl

end HeldTimer

/-! ## Runs -/

/-- `poll_next` was called. -/
def TimerObs.isPoll : TimerObs → Bool
  | polled _ _ => true
  | panicked _ => true
  | _ => false

/-- A timer that is dropped stays dropped, and is not polled. -/
theorem TimerState.step_dropped {now : Instant} {s s' : TimerState} {a : TimerAction}
    {os : List TimerObs} (hdropped : s.timer = none) (h : s.step now a = some (s', os)) :
    s'.timer = none ∧ ∀ o ∈ os, o.isPoll = false := by
  cases a with
  | command c =>
      simp only [step, send] at h
      split at h
      · split at h <;>
          (obtain ⟨rfl, rfl⟩ := Prod.mk.inj (Option.some.inj h)
           exact ⟨hdropped, by simp [TimerObs.isPoll]⟩)
      · cases h
  | dropResetter =>
      simp only [step] at h
      split at h
      · obtain ⟨rfl, rfl⟩ := Prod.mk.inj (Option.some.inj h)
        exact ⟨hdropped, by simp⟩
      · cases h
  | poll => simp [step, hdropped] at h
  | task i move =>
      have hreceive : ∀ {suspended period closed},
          s.receive now i suspended period closed = some (s', os) →
          s'.timer = none ∧ ∀ o ∈ os, o.isPoll = false := by
        intro suspended period closed hr
        rw [receive] at hr
        split at hr
        · obtain ⟨rfl, rfl⟩ := Prod.mk.inj (Option.some.inj hr)
          exact ⟨hdropped, by simp [TimerObs.isPoll]⟩
        · split at hr
          · cases hr
          · obtain ⟨rfl, rfl⟩ := Prod.mk.inj (Option.some.inj hr)
            exact ⟨hdropped, by simp [TimerObs.isPoll]⟩
      have hfire : ∀ {future}, some (s.fire now i future) = some (s', os) →
          s'.timer = none ∧ ∀ o ∈ os, o.isPoll = false := by
        intro future hr
        obtain ⟨rfl, rfl⟩ := Prod.mk.inj (Option.some.inj hr)
        exact ⟨hdropped, by simp [TimerObs.isPoll]⟩
      simp only [step, runTask] at h
      split at h
      · split at h
        · obtain ⟨rfl, rfl⟩ := Prod.mk.inj (Option.some.inj h)
          exact ⟨hdropped, by simp⟩
        · exact hreceive h
        · exact hreceive h
        · split at h
          · exact hfire h
          · cases h
        · split at h
          · exact hfire h
          · cases h
        · cases h
      · cases h
  | drop => simp [step, hdropped] at h

namespace ClockedTimer

/-- A step moves the clock and leaves the timer as it is, or is something done with the
timer at that time. -/
theorem step_cases {x x' : ClockedTimer} {l : TimerLabel} {os : List TimerObs}
    (h : lts.step x l = some (x', os)) :
    (∃ d, l = .advance d ∧ os = [] ∧ x' = ⟨x.now + d, x.state⟩) ∨
      ∃ a, l = .act a ∧ x'.now = x.now ∧ x.state.step x.now a = some (x'.state, os) := by
  cases l with
  | advance d =>
      obtain ⟨rfl, rfl⟩ := Prod.mk.inj (Option.some.inj h)
      exact Or.inl ⟨d, rfl, rfl, rfl⟩
  | act a =>
      obtain ⟨⟨s', os'⟩, hstep, heq⟩ := Option.map_eq_some_iff.mp h
      obtain ⟨rfl, rfl⟩ := Prod.mk.inj heq
      exact Or.inr ⟨a, rfl, rfl, hstep⟩

/-- What is done with a timer at a time is a step. -/
theorem step_act {now : Instant} {s s' : TimerState} {a : TimerAction} {os : List TimerObs}
    (h : s.step now a = some (s', os)) :
    lts.step ⟨now, s⟩ (.act a) = some (⟨now, s'⟩, os) :=
  Option.map_eq_some_iff.mpr ⟨_, h, rfl⟩

/-- The timer is held and has a property, or it is dropped, had the property when it was, and
has not been polled since. -/
def HoldsUntilDrop (P : Instant → HeldTimer → List TimerObs → Prop) (x : ClockedTimer)
    (tr : List TimerObs) : Prop :=
  (∃ h : HeldTimer, x.state = h.toState ∧ P x.now h tr) ∨
    (x.state.timer = none ∧ ∃ t h before after, tr = before ++ after ∧ P t h before ∧
      ∀ o ∈ after, o.isPoll = false)

/-- **Rule for timers.**  A property of the time, of the timer that is held and of what was
observed holds in every run until the timer is dropped, if it holds at the start and is kept by
the clock and by all that can happen to a timer that is held. -/
theorem invariant {C : ClockedTimer → TimerLabel → Prop} {now : Instant} {h₀ : HeldTimer}
    {P : Instant → HeldTimer → List TimerObs → Prop} {ls : List TimerLabel} {tr : List TimerObs}
    {x : ClockedTimer} (hrun : lts.Run C ⟨now, h₀.toState⟩ ls tr x) (init : P now h₀ [])
    (advance : ∀ {t : Instant} {h : HeldTimer} {tr : List TimerObs} {d : Duration}, P t h tr →
      C ⟨t, h.toState⟩ (.advance d) → P (t + d) h tr)
    (act : ∀ {t : Instant} {h h' : HeldTimer} {tr os : List TimerObs} {a : TimerAction},
      P t h tr → C ⟨t, h.toState⟩ (.act a) → h.Step t a h' os → P t h' (tr ++ os)) :
    HoldsUntilDrop P x tr := by
  refine hrun.invariant (P := HoldsUntilDrop P) (Or.inl ⟨h₀, rfl, init⟩) ?_
  intro _ tr os x x' l _ ih hC hstep
  rcases step_cases hstep with ⟨d, rfl, rfl, rfl⟩ | ⟨a, rfl, hnow, hact⟩
  · rw [List.append_nil]
    rcases ih with ⟨h, hh, hP⟩ | hdropped
    · obtain ⟨t, s⟩ := x
      obtain rfl : s = h.toState := hh
      exact Or.inl ⟨h, rfl, advance hP hC⟩
    · exact Or.inr hdropped
  · rcases ih with ⟨h, hh, hP⟩ | ⟨hdropped, t, h, before, after, rfl, hP, hafter⟩
    · obtain ⟨t, s⟩ := x
      obtain rfl : s = h.toState := hh
      rcases HeldTimer.step_cases hact with ⟨rfl, rfl, hdropped⟩ | ⟨h', hh', hstep'⟩
      · refine Or.inr ⟨?_, t, h, tr, [], rfl, hP, by simp⟩
        rw [hdropped]
        cases h <;> rfl
      · refine Or.inl ⟨h', hh', ?_⟩
        rw [hnow]
        exact act hP hC hstep'
    · obtain ⟨hdropped', hos⟩ := TimerState.step_dropped hdropped hact
      refine Or.inr ⟨hdropped', t, h, before, after ++ os, (List.append_assoc _ _ _), hP, ?_⟩
      exact fun o ho => (List.mem_append.mp ho).elim (hafter o) (hos o)

/-- A timer that is not dropped is held. -/
theorem held {C : ClockedTimer → TimerLabel → Prop} {now : Instant} {period : Duration}
    {ls : List TimerLabel} {tr : List TimerObs} {x : ClockedTimer}
    (hrun : lts.Run C (start now period) ls tr x) :
    x.state.timer = none ∨ ∃ h : HeldTimer, x.state = h.toState := by
  have hinv : HoldsUntilDrop (fun _ _ _ => True) x tr :=
    @invariant C now (.fresh period [] true) _ ls tr x hrun trivial (fun _ _ => trivial)
      fun _ _ _ => trivial
  rcases hinv with ⟨h, hh, -⟩ | ⟨hdropped, -⟩
  · exact Or.inr ⟨h, hh⟩
  · exact Or.inl hdropped

end ClockedTimer
