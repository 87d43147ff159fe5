/-
# Ticks that nobody has picked up

The chain of tasks goes on without the stream: the last task ticks and spawns its successor
whether or not the stream is polled.  As long as some tick has not been picked up, the stream
holds the handle of a task that has finished long ago, and

* a reset reaches the last task, but a poll still yields the old tick;
* dropping the timer aborts a task that is over, and the last task runs on.

If every tick has been picked up, neither happens (`reset_postpones_iff`,
`drop_ends_chain_iff`).  What is left of a timer that was dropped goes on as if it were held
(`RunsAs.step`).
-/
import LittleStomper.TimerChain

/-- Every tick has been picked up: the stream, if it was polled, holds the handle of the last
task. -/
def TimerState.upToDate (s : TimerState) : Bool :=
  s.timer.all fun t => t.task.all fun i => i + 1 = s.tasks.length

namespace HeldTimer

/-- The stream is up to date if its handle is that of the last task. -/
@[simp] theorem upToDate_started (k : TimerChain) :
    (started k).toState.upToDate = decide (k.polled = k.ticks) := by
  simp [TimerState.upToDate, toState, TimerChain.toState]

@[simp] theorem upToDate_fresh (period : Duration) (commands : List ResettableTimerCommand)
    (resetter : Bool) : (fresh period commands resetter).toState.upToDate = true := rfl

end HeldTimer

/-! ## Dropping the timer -/

namespace TimerState

/-- The timer is gone and nothing runs. -/
def IsOver (s : TimerState) : Prop := s.timer = none ∧ ∀ task ∈ s.tasks, task.isRunning = false

variable {now : Instant} {s s' : TimerState} {a : TimerAction} {os : List TimerObs}

/-- Without a task that runs there is no receiver. -/
theorem IsOver.accepts (h : s.IsOver) : s.accepts = false := by
  obtain ⟨hdropped, htasks⟩ := h
  rw [TimerState.accepts, hdropped, Option.any_none, Bool.false_or, List.any_eq_false]
  intro task htask
  have hrunning := htasks task htask
  cases task with
  | running suspended future => cases hrunning
  | _ => simp [TimerTask.ownsReceiver]

/-- Nothing runs exactly if no task is unfinished. -/
theorem isOver_iff (hdropped : s.timer = none) : s.IsOver ↔ s.unfinished = [] := by
  rw [IsOver, unfinished, List.filter_eq_nil_iff, List.forall_mem_iff_getElem]
  simp only [hdropped, true_and, List.mem_range]
  constructor
  · intro h i hi
    simpa [List.getElem?_eq_getElem hi] using h i hi
  · intro h i hi
    simpa [List.getElem?_eq_getElem hi] using h i hi

/-- **Where nothing runs, nothing will**: no task is spawned, and every command is refused. -/
theorem IsOver.step (h : s.IsOver) (hstep : s.step now a = some (s', os)) :
    s'.IsOver ∧ s'.tasks = s.tasks ∧ ∀ o ∈ os, ∃ c, o = .sent now c false := by
  cases a with
  | command c =>
      simp only [TimerState.step, TimerState.send, h.accepts] at hstep
      split at hstep
      · obtain ⟨rfl, rfl⟩ := Prod.mk.inj (Option.some.inj hstep)
        exact ⟨h, rfl, by simp⟩
      · cases hstep
  | dropResetter =>
      simp only [TimerState.step] at hstep
      split at hstep
      · obtain ⟨rfl, rfl⟩ := Prod.mk.inj (Option.some.inj hstep)
        exact ⟨h, rfl, by simp⟩
      · cases hstep
  | poll => simp [TimerState.step, h.1] at hstep
  | task i move =>
      simp only [TimerState.step, TimerState.runTask] at hstep
      split at hstep
      · rename_i suspended future htask
        have hrunning := h.2 _ (List.mem_of_getElem? htask)
        cases hrunning
      · cases hstep
  | drop => simp [TimerState.step, h.1] at hstep

end TimerState

namespace ClockedTimer

variable {now : Instant} {period : Duration} {ls : List TimerLabel} {tr os : List TimerObs}
  {x x' : ClockedTimer}

/-- The chain has ended for good: in every run from here on no task is unfinished, no task is
spawned and every command is refused. -/
def ChainEnded (x : ClockedTimer) : Prop :=
  ∀ ls tr x', lts.Run LTS.Free x ls tr x' → x'.state.unfinished = [] ∧
    x'.state.tasks.length = x.state.tasks.length ∧ ∀ t c, .sent t c true ∉ tr

/-- Where nothing runs the chain has ended. -/
theorem chainEnded_of_isOver (h : x.state.IsOver) : ChainEnded x := by
  intro ls tr x' hrun
  have hinv : x'.state.IsOver ∧ x'.state.tasks = x.state.tasks ∧ ∀ t c, .sent t c true ∉ tr := by
    refine hrun.invariant (P := fun x' tr => x'.state.IsOver ∧ x'.state.tasks = x.state.tasks ∧
      ∀ t c, .sent t c true ∉ tr) ⟨h, rfl, by simp⟩ ?_
    intro _ tr os y y' l _ ⟨hover, htasks, hsent⟩ _ hstep
    rcases step_cases hstep with ⟨d, -, rfl, rfl⟩ | ⟨a, -, -, hact⟩
    · exact ⟨hover, htasks, by simpa using hsent⟩
    · obtain ⟨hover', htasks', hsent'⟩ := hover.step hact
      refine ⟨hover', htasks'.trans htasks, fun t c hmem => ?_⟩
      rcases List.mem_append.mp hmem with hmem | hmem
      · exact hsent t c hmem
      · obtain ⟨c', hrefused⟩ := hsent' _ hmem
        cases hrefused
  obtain ⟨hover, htasks, hsent⟩ := hinv
  exact ⟨(TimerState.isOver_iff hover.1).mp hover, by rw [htasks], hsent⟩

/-- What is left of a timer that was up to date when it was dropped. -/
theorem isOver_dropped (h : HeldTimer) : h.dropped.IsOver ↔ h.toState.upToDate = true := by
  cases h with
  | fresh period commands resetter =>
      simp [HeldTimer.dropped, TimerState.IsOver]
  | started k =>
      rw [HeldTimer.upToDate_started, decide_eq_true_eq]
      constructor
      · intro hover
        by_contra hne
        have hlast := hover.2 (.running k.suspended k.future) (by simp [HeldTimer.dropped, hne])
        cases hlast
      · intro heq
        refine ⟨rfl, fun task htask => ?_⟩
        simp only [HeldTimer.dropped, heq, if_true, links, List.mem_append, List.mem_map,
          List.mem_singleton] at htask
        rcases htask with ⟨i, -, rfl⟩ | rfl
        · rfl
        · rfl

/-- **When dropping a timer ends its chain.**  In every state that some run reaches, dropping
the timer ends the chain of its tasks if and only if every tick has been picked up. -/
theorem drop_ends_chain_iff (hrun : lts.Run LTS.Free (start now period) ls tr x)
    (hdrop : lts.step x (.act .drop) = some (x', os)) :
    ChainEnded x' ↔ x.state.upToDate = true := by
  rcases step_cases hdrop with ⟨d, hl, -, -⟩ | ⟨a, hl, -, hact⟩
  · cases hl
  obtain rfl := TimerLabel.act.inj hl
  rcases held hrun with hdropped | ⟨h, hh⟩
  · simp [TimerState.step, hdropped] at hact
  rw [hh, HeldTimer.step_drop] at hact
  obtain ⟨hx', -⟩ := Prod.mk.inj (Option.some.inj hact)
  rw [hh, ← isOver_dropped, hx']
  constructor
  · intro hended
    have hdropped : x'.state.timer = none := by
      rw [← hx']
      cases h <;> rfl
    exact (TimerState.isOver_iff hdropped).mpr (hended [] [] x' (LTS.Run.refl x')).1
  · exact chainEnded_of_isOver

/-- A timer of five seconds that is polled once and then left alone until it has ticked. -/
def leftAlone : List TimerLabel :=
  [.act .poll, .act (.task 0 .start), .advance (Duration.fromMillis 5000),
    .act (.task 0 .elapse), .act (.task 1 .start)]

/-- The theorem applied to a timer whose tick is picked up before it is dropped. -/
theorem drop_ends_chain_iff_polled :
    let ls := leftAlone ++ [.act .poll]
    ∃ tr x x' os, lts.Run LTS.Free (start 0 (Duration.fromMillis 5000)) ls tr x ∧
      lts.step x (.act .drop) = some (x', os) ∧ x.state.upToDate = true ∧
      (ChainEnded x' ↔ x.state.upToDate = true) := by
  intro ls
  let r := (lts.exec LTS.Free (start 0 (Duration.fromMillis 5000)) ls).get (by decide)
  have hrun : lts.Run LTS.Free _ ls r.2 r.1 := LTS.Run.exec_get _ _ _ _ (by decide)
  have hdrop := LTS.step_get lts r.1 (.act .drop) (by decide)
  exact ⟨_, _, _, _, hrun, hdrop, by decide, drop_ends_chain_iff hrun hdrop⟩

/-- **A timer that is dropped can run on**: its tick was not picked up, so the drop aborts a
task that is over, and the next task still receives a reset. -/
theorem dropped_timer_runs_on :
    ¬ ∀ (now : Instant) (period : Duration) (ls : List TimerLabel) (tr os : List TimerObs)
        (x x' : ClockedTimer), lts.Run LTS.Free (start now period) ls tr x →
      lts.step x (.act .drop) = some (x', os) → ChainEnded x' := by
  intro hall
  let r := (lts.exec LTS.Free (start 0 (Duration.fromMillis 5000)) leftAlone).get (by decide)
  have hrun : lts.Run LTS.Free _ leftAlone r.2 r.1 := LTS.Run.exec_get _ _ _ _ (by decide)
  let d := (lts.step r.1 (.act .drop)).get (by decide)
  have hdrop : lts.step r.1 (.act .drop) = some (d.1, d.2) := LTS.step_get _ _ _ (by decide)
  have hreset := LTS.Run.exec_get lts LTS.Free d.1
    [.act (.command .reset), .act (.task 1 .receive)] (by decide)
  have hended := hall _ _ _ _ _ _ _ hrun hdrop _ _ _ hreset
  exact hended.2.2 (Duration.fromMillis 5000) .reset (by decide)

end ClockedTimer

/-! ## Going on without the timer -/

/-- The timer is dropped, and its last task runs on. -/
def TimerChain.released (k : TimerChain) : TimerState := { k.toState with timer := none }

namespace TimerState

variable {now : Instant} {s s' : TimerState} {a : TimerAction} {os : List TimerObs}

/-- Whether the timer is there does not matter to a task that receives. -/
theorem receive_timer (s : TimerState) (t : Option ResettableTimer) (i : TaskId)
    (suspended : List Duration) (period : Duration) (closed : TimerTask) :
    ({ s with timer := t } : TimerState).receive now i suspended period closed =
      (s.receive now i suspended period closed).map fun r => ({ r.1 with timer := t }, r.2) := by
  obtain ⟨timer, tasks, commands, resetter⟩ := s
  cases commands with
  | nil => cases resetter <;> rfl
  | cons c commands => rfl

/-- Whether the timer is there does not matter to its tasks. -/
theorem runTask_timer (s : TimerState) (t : Option ResettableTimer) (i : TaskId) (move : TaskMove) :
    ({ s with timer := t } : TimerState).runTask now i move =
      (s.runTask now i move).map fun r => ({ r.1 with timer := t }, r.2) := by
  unfold runTask
  cases s.tasks[i]? with
  | none => rfl
  | some task =>
      cases task with
      | running suspended future =>
          cases move with
          | start => cases future <;> rfl
          | receive =>
              cases future with
              | receiving period => exact receive_timer s t i _ _ _
              | selecting period deadline => exact receive_timer s t i _ _ _
              | _ => rfl
          | elapse =>
              cases future with
              | selecting period deadline =>
                  simp only
                  split <;> rfl
              | sleeping period deadline =>
                  simp only
                  split <;> rfl
              | _ => rfl
      | _ => rfl

/-- **What is left of a timer goes on as if the timer were there**: a timer that has been polled
has no receiver, and takes no part in what its tasks do. -/
theorem step_held {t : ResettableTimer} (hreceiver : t.receiver = false) (hdropped : s.timer = none)
    (hstep : s.step now a = some (s', os)) :
    ({ s with timer := some t } : TimerState).step now a
      = some ({ s' with timer := some t }, os) := by
  have haccepts : ({ s with timer := some t } : TimerState).accepts = s.accepts := by
    simp [accepts, hreceiver, hdropped]
  cases a with
  | command c =>
      simp only [step, send, haccepts] at hstep ⊢
      split at hstep
      · rename_i hresetter
        rw [if_pos hresetter]
        split at hstep
        · rename_i hac
          obtain ⟨rfl, rfl⟩ := Prod.mk.inj (Option.some.inj hstep)
          rw [if_pos hac]
        · rename_i hac
          obtain ⟨rfl, rfl⟩ := Prod.mk.inj (Option.some.inj hstep)
          rw [if_neg hac]
      · cases hstep
  | dropResetter =>
      simp only [step] at hstep ⊢
      split at hstep
      · rename_i hresetter
        obtain ⟨rfl, rfl⟩ := Prod.mk.inj (Option.some.inj hstep)
        rw [if_pos hresetter]
      · cases hstep
  | poll => simp [step, hdropped] at hstep
  | task i move =>
      have hrun : s.runTask now i move = some (s', os) := hstep
      show ({ s with timer := some t } : TimerState).runTask now i move = _
      rw [runTask_timer, hrun]
      rfl
  | drop => simp [step, hdropped] at hstep

end TimerState

namespace HeldTimer

variable {now : Instant} {s' : TimerState} {a : TimerAction} {os : List TimerObs}

/-- A timer that was polled stays so. -/
theorem Step.stays_started {k : TimerChain} {h' : HeldTimer}
    (hstep : Step now (started k) a h' os) : ∃ k', h' = HeldTimer.started k' := by
  cases hstep <;> exact ⟨_, rfl⟩

/-- **All that can happen to a timer that is dropped** while its last task runs on. -/
theorem released_cases {k : TimerChain} (hstep : k.released.step now a = some (s', os)) :
    ∃ k', s' = k'.released ∧ Step now (started k) a (HeldTimer.started k') os := by
  have hheld := TimerState.step_held (t := ⟨k.period, false, some k.polled⟩) rfl rfl hstep
  have hdropped := (TimerState.step_dropped rfl hstep).1
  rcases step_cases (h := .started k) hheld with ⟨rfl, -, -⟩ | ⟨h', hh', hstep'⟩
  · cases hstep
  obtain ⟨k', rfl⟩ := hstep'.stays_started
  refine ⟨k', ?_, hstep'⟩
  obtain ⟨timer, tasks, commands, resetter⟩ := s'
  obtain rfl : timer = none := hdropped
  have heq := congrArg (fun s : TimerState => { s with timer := none }) hh'
  exact heq

end HeldTimer

/-- The tasks are those of the timer `h`, which is held, or was dropped and left them alone. -/
inductive TimerState.RunsAs : HeldTimer → TimerState → Prop
  | held (h : HeldTimer) : RunsAs h h.toState
  | released (k : TimerChain) : RunsAs (.started k) k.released

namespace TimerState

variable {now : Instant} {h : HeldTimer} {s s' : TimerState} {a : TimerAction} {os : List TimerObs}

/-- What is left of a timer that is dropped: nothing that runs, or its last task. -/
theorem runsAs_dropped (h : HeldTimer) : h.dropped.IsOver ∨ RunsAs h h.dropped := by
  by_cases hover : h.dropped.IsOver
  · exact Or.inl hover
  · right
    rw [ClockedTimer.isOver_dropped] at hover
    cases h with
    | fresh period commands resetter => exact absurd rfl hover
    | started k =>
        rw [HeldTimer.upToDate_started, decide_eq_true_eq] at hover
        have hreleased : (HeldTimer.started k).dropped = k.released := by
          rw [HeldTimer.dropped, if_neg hover]
          rfl
        rw [hreleased]
        exact RunsAs.released k

/-- **All that can happen to the tasks of a timer**, held or not: one of the steps of a timer that
is held, or the timer is dropped. -/
theorem RunsAs.step (hs : RunsAs h s) (hstep : s.step now a = some (s', os)) :
    (∃ h', RunsAs h' s' ∧ HeldTimer.Step now h a h' os) ∨
      os = [] ∧ (s'.IsOver ∨ RunsAs h s') := by
  cases hs with
  | held =>
      rcases HeldTimer.step_cases hstep with ⟨-, rfl, rfl⟩ | ⟨h', rfl, hstep'⟩
      · exact Or.inr ⟨rfl, runsAs_dropped h⟩
      · exact Or.inl ⟨h', RunsAs.held h', hstep'⟩
  | released k =>
      obtain ⟨k', rfl, hstep'⟩ := HeldTimer.released_cases hstep
      exact Or.inl ⟨_, RunsAs.released k', hstep'⟩

end TimerState

/-! ## Resetting the timer -/

/-- The period of a call. -/
def TimerFuture.period : TimerFuture → Duration
  | created period => period
  | receiving period => period
  | selecting period _ => period
  | pending period => period
  | sleeping period _ => period

/-- The period of the last task, if it is not finished. -/
def TimerState.period? (s : TimerState) : Option Duration :=
  s.tasks.getLast?.bind fun
    | .running _ future => some future.period
    | _ => none

/-- No later command brings the next emission before `earliest`: a `ChangePeriod` that is
received has a period that never elapses, or that does not elapse before. -/
def Patient (earliest : Instant) : ClockedTimer → TimerLabel → Prop
  | x, .act (.task _ .receive) => ∀ period, x.state.commands.head? = some (.changePeriod period) →
      period.asMillis = 0 ∨ earliest ≤ x.now + period
  | _, _ => True

/-- However the timer goes on, it emits nothing before `earliest`, unless it is told to. -/
def ClockedTimer.SilentUntil (earliest : Instant) (x : ClockedTimer) : Prop :=
  ∀ ls tr x', lts.Run (Patient earliest) x ls tr x' →
    ∀ t, .polled t (.ready (some ())) ∈ tr → earliest ≤ t

/-- The call does not tick before `earliest`, and neither does a call that replaces it now. -/
def TimerFuture.NotBefore (earliest now : Instant) : TimerFuture → Prop
  | created _ => earliest ≤ now
  | receiving period => period.asMillis = 0 ∨ earliest ≤ now + period
  | selecting period deadline => earliest ≤ deadline ∧ earliest ≤ now + period
  | pending _ => True
  | sleeping _ deadline => earliest ≤ deadline

section NotBefore

variable {earliest now : Instant} {period : Duration}

/-- A call begins with its whole period before it. -/
theorem TimerFuture.notBefore_create (h : period.asMillis = 0 ∨ earliest ≤ now + period) :
    (createTaskWithReceiver now period).NotBefore earliest now := by
  rw [createTaskWithReceiver]
  split
  · exact h
  · rename_i hmillis
    exact ⟨h.resolve_left hmillis, h.resolve_left hmillis⟩

/-- Time passes. -/
theorem TimerFuture.NotBefore.advance {future : TimerFuture} (h : future.NotBefore earliest now)
    (d : Duration) : future.NotBefore earliest (now + d) := by
  cases future with
  | created period => exact Nat.le_add_right_of_le h
  | receiving period => exact h.imp id fun hp => hp.trans (by lia)
  | selecting period deadline => exact ⟨h.1, h.2.trans (by lia)⟩
  | pending period => trivial
  | sleeping period deadline => exact h

/-- A call that waits for a command can begin its period anew. -/
theorem TimerFuture.NotBefore.awaiting {future : TimerFuture} (h : future.NotBefore earliest now)
    (hfuture : future.awaiting? = some period) : period.asMillis = 0 ∨ earliest ≤ now + period := by
  cases future with
  | receiving p =>
      obtain rfl := Option.some.inj hfuture
      exact h
  | selecting p deadline =>
      obtain rfl := Option.some.inj hfuture
      exact Or.inr h.2
  | _ => cases hfuture

end NotBefore

/-- A started timer that has no tick from before `earliest`, and will have none. -/
def HeldTimer.NotBefore (earliest now : Instant) : HeldTimer → Prop
  | fresh _ _ _ => False
  | started k => (k.polled < k.ticks → earliest ≤ now) ∧ k.future.NotBefore earliest now

/-- **Every patient step keeps the timer silent.** -/
theorem HeldTimer.Step.notBefore {earliest now : Instant} {h h' : HeldTimer} {a : TimerAction}
    {os : List TimerObs} (hstep : Step now h a h' os) (hh : h.NotBefore earliest now)
    (hpatient : Patient earliest ⟨now, h.toState⟩ (.act a)) :
    h'.NotBefore earliest now ∧ ∀ t, .polled t (.ready (some ())) ∈ os → earliest ≤ t := by
  cases hstep with
  | @sent h c hresetter haccepts => exact ⟨by cases h <;> exact hh, by simp⟩
  | unsent hresetter haccepts => exact ⟨hh, by simp⟩
  | @dropResetter h hresetter => exact ⟨by cases h <;> exact hh, by simp⟩
  | initialised => exact absurd hh id
  | waits hpolled => exact ⟨hh, by simp⟩
  | emits hpolled =>
      refine ⟨⟨fun _ => hh.1 hpolled, hh.2⟩, ?_⟩
      simpa using hh.1 hpolled
  | starts hfuture =>
      have hcreated := hh.2
      rw [hfuture] at hcreated
      exact ⟨⟨hh.1, TimerFuture.notBefore_create (Or.inr (Nat.le_add_right_of_le hcreated))⟩,
        by simp⟩
  | @consumes k period c commands hfuture hcommands =>
      refine ⟨⟨hh.1, TimerFuture.notBefore_create ?_⟩, by simp⟩
      cases c with
      | reset => exact hh.2.awaiting hfuture
      | changePeriod newPeriod =>
          refine hpatient newPeriod ?_
          rw [HeldTimer.toState_commands, HeldTimer.commands, hcommands]
          rfl
  | stops hfuture hcommands hresetter => exact ⟨⟨hh.1, trivial⟩, by simp⟩
  | closes hfuture hcommands hresetter =>
      have hselecting := hh.2
      rw [hfuture] at hselecting
      exact ⟨⟨hh.1, hselecting.2⟩, by simp⟩
  | ticks hfuture hdue =>
      have hselecting := hh.2
      rw [hfuture] at hselecting
      have hnow := hselecting.1.trans hdue
      exact ⟨⟨fun _ => hnow, hnow⟩, by simp⟩
  | ticksAlone hfuture hdue =>
      have hsleeping := hh.2
      rw [hfuture] at hsleeping
      have hnow := Nat.le_trans hsleeping hdue
      exact ⟨⟨fun _ => hnow, Nat.le_add_right_of_le hnow⟩, by simp⟩

namespace ClockedTimer

variable {now earliest : Instant} {period : Duration} {ls : List TimerLabel}
  {tr os : List TimerObs} {x x' : ClockedTimer}

/-- A timer that has nothing before `earliest` is silent. -/
theorem silentUntil_of_notBefore {h : HeldTimer} (hx : x.state = h.toState)
    (hh : h.NotBefore earliest x.now) : SilentUntil earliest x := by
  obtain ⟨now, s⟩ := x
  obtain rfl : s = h.toState := hx
  intro ls tr x' hrun
  have hinv : HoldsUntilDrop (fun t h tr => h.NotBefore earliest t ∧
      ∀ u, .polled u (.ready (some ())) ∈ tr → earliest ≤ u) x' tr := by
    refine invariant hrun ⟨hh, by simp⟩ ?_ ?_
    · rintro t h tr d ⟨hh, htr⟩ -
      refine ⟨?_, htr⟩
      cases h with
      | fresh period commands resetter => exact hh
      | started k => exact ⟨fun hp => Nat.le_add_right_of_le (hh.1 hp), hh.2.advance d⟩
    · rintro t h h' tr os a ⟨hh, htr⟩ hpatient hstep
      obtain ⟨hh', hos⟩ := hstep.notBefore hh hpatient
      exact ⟨hh', fun u hu => (List.mem_append.mp hu).elim (htr u) (hos u)⟩
  rcases hinv with ⟨-, -, -, htr⟩ | ⟨-, -, -, before, after, rfl, ⟨-, htr⟩, hafter⟩
  · exact htr
  · intro u hu
    refine (List.mem_append.mp hu).elim (htr u) fun ha => ?_
    cases hafter _ ha

/-- A tick that has not been picked up can be picked up at once. -/
theorem emits_at_once {k : TimerChain} (hx : x.state = (HeldTimer.started k).toState)
    (hpolled : k.polled < k.ticks) :
    ∃ x', lts.step x (.act .poll) = some (x', [.polled x.now (.ready (some ()))]) := by
  have hemits := (@HeldTimer.Step.emits x.now k hpolled).enabled
  rw [← hx] at hemits
  exact ⟨⟨x.now, _⟩, step_act hemits⟩

/-- A timer that is dropped is silent. -/
theorem silentUntil_of_dropped (hdropped : x.state.timer = none) : SilentUntil earliest x := by
  intro ls tr x' hrun
  have hinv : x'.state.timer = none ∧ ∀ o ∈ tr, o.isPoll = false := by
    refine hrun.invariant (P := fun x' tr => x'.state.timer = none ∧ ∀ o ∈ tr, o.isPoll = false)
      ⟨hdropped, by simp⟩ ?_
    intro _ tr os y y' l _ ⟨hnone, htr⟩ _ hstep
    rcases step_cases hstep with ⟨d, -, rfl, rfl⟩ | ⟨a, -, -, hact⟩
    · exact ⟨hnone, by simpa using htr⟩
    · obtain ⟨hnone', hos⟩ := TimerState.step_dropped hnone hact
      exact ⟨hnone', fun o ho => (List.mem_append.mp ho).elim (htr o) (hos o)⟩
  intro t ht
  cases hinv.2 _ ht

/-- **When a reset postpones the next emission.**  In every state that some run reaches, if the
last task receives a command, nothing is emitted before the whole period `q` has passed (the
period as it is for a reset, the new one for a change of it), if and only if every tick had been
picked up before or that period is empty. -/
theorem reset_postpones_iff {l : TimerLabel} {c : ResettableTimerCommand} {q : Duration}
    (hrun : lts.Run LTS.Free (start now period) ls tr x) (hstep : lts.step x l = some (x', os))
    (hconsumed : .consumed x.now c ∈ os)
    (hperiod : c = .reset ∧ x.state.period? = some q ∨ c = .changePeriod q) :
    SilentUntil (x.now + q) x' ↔ x.state.upToDate = true ∨ q = 0 := by
  rcases step_cases hstep with ⟨d, -, rfl, -⟩ | ⟨a, rfl, hnow, hact⟩
  · cases hconsumed
  rcases held hrun with hdropped | ⟨h, hh⟩
  · have hdropped' := (TimerState.step_dropped hdropped hact).1
    exact iff_of_true (silentUntil_of_dropped hdropped')
      (Or.inl (by rw [TimerState.upToDate, hdropped]; rfl))
  rw [hh] at hact hperiod ⊢
  rcases HeldTimer.step_cases hact with ⟨-, rfl, -⟩ | ⟨h', hh', hheld⟩
  · cases hconsumed
  cases hheld with
  | @consumes k p c' commands hfuture hcommands =>
      obtain ⟨-, rfl⟩ := TimerObs.consumed.inj (List.mem_singleton.mp hconsumed)
      obtain rfl : c.toNewPeriod p = q := by
        rcases hperiod with ⟨rfl, hperiod⟩ | rfl
        · have hq : k.future.period = q := by
            simpa [TimerState.period?, HeldTimer.toState, TimerChain.toState] using hperiod
          have hpq : p = q := by
            cases hk : k.future <;> simp_all [TimerFuture.awaiting?, TimerFuture.period]
          exact hpq
        · rfl
      rw [HeldTimer.upToDate_started, decide_eq_true_eq]
      constructor
      · intro hsilent
        by_contra hnot
        rw [not_or] at hnot
        have hpolled := Nat.lt_of_le_of_ne k.polled_le hnot.1
        obtain ⟨x'', hpoll⟩ := emits_at_once hh' hpolled
        rw [hnow] at hpoll
        have hpatient : Patient (x.now + c.toNewPeriod p) x' (.act .poll) := trivial
        have hlate := hsilent _ _ _ (LTS.Run.single hpatient hpoll) x.now List.mem_cons_self
        have hpositive := Nat.pos_of_ne_zero hnot.2
        lia
      · intro hcond
        refine silentUntil_of_notBefore hh' ⟨fun hp => ?_, ?_⟩
        · rcases hcond with hpolled | hzero
          · exact absurd hpolled (Nat.ne_of_lt hp)
          · rw [hnow, hzero]
            exact le_rfl
        · rw [hnow]
          exact TimerFuture.notBefore_create (Or.inr le_rfl)
  | _ => simp at hconsumed

/-- The theorem applied to a timer that is reset when nothing has ticked yet. -/
theorem reset_postpones_iff_early :
    let ls : List TimerLabel := [.act .poll, .act (.task 0 .start),
      .advance (Duration.fromMillis 4000), .act (.command .reset)]
    ∃ tr x x' os, lts.Run LTS.Free (start 0 (Duration.fromMillis 5000)) ls tr x ∧
      lts.step x (.act (.task 0 .receive)) = some (x', os) ∧
      (SilentUntil (x.now + Duration.fromMillis 5000) x' ↔
        x.state.upToDate = true ∨ Duration.fromMillis 5000 = 0) := by
  intro ls
  let r := (lts.exec LTS.Free (start 0 (Duration.fromMillis 5000)) ls).get (by decide)
  have hrun : lts.Run LTS.Free _ ls r.2 r.1 := LTS.Run.exec_get _ _ _ _ (by decide)
  have hstep := LTS.step_get lts r.1 (.act (.task 0 .receive)) (by decide)
  exact ⟨_, _, _, _, hrun, hstep, reset_postpones_iff (c := .reset)
    (q := Duration.fromMillis 5000) hrun hstep (by decide) (Or.inl ⟨rfl, by decide⟩)⟩

/-- **A reset need not postpone anything**: the period has elapsed and nobody has polled, the
timer is reset, and the next poll still emits at once. -/
theorem emission_despite_reset :
    ¬ ∀ (now : Instant) (period q : Duration) (ls : List TimerLabel) (tr os : List TimerObs)
        (x x' : ClockedTimer) (l : TimerLabel) (c : ResettableTimerCommand),
      lts.Run LTS.Free (start now period) ls tr x → .sent x.now c true ∈ tr →
      lts.step x l = some (x', os) → .consumed x.now c ∈ os →
      (c = .reset ∧ x.state.period? = some q ∨ c = .changePeriod q) →
      x.state.resetter = true → SilentUntil (x.now + q) x' := by
  intro hall
  let ls := leftAlone ++ [.act (.command .reset)]
  let r := (lts.exec LTS.Free (start 0 (Duration.fromMillis 5000)) ls).get (by decide)
  have hrun : lts.Run LTS.Free _ ls r.2 r.1 := LTS.Run.exec_get _ _ _ _ (by decide)
  let d := (lts.step r.1 (.act (.task 1 .receive))).get (by decide)
  have hstep : lts.step r.1 (.act (.task 1 .receive)) = some (d.1, d.2) :=
    LTS.step_get _ _ _ (by decide)
  have hsilent := hall _ _ (Duration.fromMillis 5000) _ _ _ _ _ _ .reset hrun (by decide) hstep
    (by decide) (Or.inl ⟨rfl, by decide⟩) (by decide)
  let e := (lts.step d.1 (.act .poll)).get (by decide)
  have hpoll : lts.step d.1 (.act .poll) = some (e.1, e.2) := LTS.step_get _ _ _ (by decide)
  have hlate := hsilent _ _ _ (LTS.Run.single (show Patient _ d.1 (.act .poll) from trivial) hpoll)
    (Duration.fromMillis 5000) (by decide)
  exact absurd hlate (by decide)

end ClockedTimer
