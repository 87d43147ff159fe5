/-
# How deep a timer task nests

A call of `create_task_with_receiver` that receives a command does not begin anew: it awaits a
further call, and stays on the stack of its task until that one returns.  Only a tick unwinds
the stack, since the next task is spawned and not awaited.

So the stack of the task that waits has one call more than commands were received since the
last tick, whatever becomes of the timer (`nesting`).  One constant bounds it under a set of
schedules exactly if some number bounds the commands that are received between two ticks
(`heightBounded_iff`), and there is none for the timers that are only reset
(`not_heightBounded`).
-/
import LittleStomper.Library.Trace
import LittleStomper.Backlog
import LittleStomper.Custody

open Trace

/-! ## Stacks and commands -/

/-- The calls of `create_task_with_receiver` on the stack of a task: those that are suspended,
and the one that they wait for, which is such a call if it owns the receiver. -/
def TimerTask.height : TimerTask → Nat
  | running suspended future => suspended.length + future.ownsReceiver.toNat
  | _ => 0

/-- A period has elapsed. -/
def TimerObs.isTick : TimerObs → Bool
  | ticked _ => true
  | _ => false

/-- The commands received since the last tick. -/
def receivedSinceTick (tr : List TimerObs) : List ResettableTimerCommand :=
  consumedCommands (since TimerObs.isTick tr)

/-- Without a tick the commands add up. -/
theorem receivedSinceTick_append {tr os : List TimerObs} (h : Never TimerObs.isTick os) :
    receivedSinceTick (tr ++ os) = receivedSinceTick tr ++ consumedCommands os := by
  unfold receivedSinceTick consumedCommands
  rw [since_append_of_never h, List.filterMap_append]

/-- A tick starts the count anew. -/
@[simp] theorem receivedSinceTick_tick (tr : List TimerObs) (now : Instant) :
    receivedSinceTick (tr ++ [.ticked now]) = [] := by
  rw [receivedSinceTick, since_concat_of_marked rfl]
  rfl

namespace HeldTimer

/-- The height of the stack of the task that is not finished. -/
def height : HeldTimer → Nat
  | fresh _ _ _ => 0
  | started k => TimerTask.height (.running k.suspended k.future)

/-- **The stack counts the commands**: it has one call more than were received since the last
tick, unless the receiver is gone and no call is left. -/
def Nested (h : HeldTimer) (tr : List TimerObs) : Prop :=
  h.height = (receivedSinceTick tr).length + 1 ∨ h.height = 0 ∧ receivedSinceTick tr = []

variable {now : Instant} {h h' : HeldTimer} {a : TimerAction} {tr os : List TimerObs}

/-- The calls on the stack where the last one owns the receiver. -/
theorem height_of_owns {k : TimerChain} (howns : k.future.ownsReceiver = true) :
    (started k).height = k.suspended.length + 1 := by
  rw [height, TimerTask.height, howns]
  rfl

/-- A call that waits for a command owns the receiver. -/
theorem owns_of_awaiting {future : TimerFuture} {period : Duration}
    (h : future.awaiting? = some period) : future.ownsReceiver = true := by
  cases future with
  | receiving p => rfl
  | selecting p deadline => rfl
  | _ => cases h

/-- **Every step keeps count.** -/
theorem Step.nested (hstep : Step now h a h' os) (hn : h.Nested tr) : h'.Nested (tr ++ os) := by
  -- most steps neither tick nor receive a command, and leave the stack as high as it is
  have hsilent : h'.height = h.height → Never TimerObs.isTick os → consumedCommands os = [] →
      h'.Nested (tr ++ os) := by
    intro hheight htick hconsumed
    unfold Nested
    rw [receivedSinceTick_append htick, hconsumed, List.append_nil, hheight]
    exact hn
  cases hstep with
  | @sent h c hresetter haccepts =>
      exact hsilent (by cases h <;> rfl) (by simp [Never, TimerObs.isTick]) rfl
  | @dropResetter h hresetter => exact hsilent (by cases h <;> rfl) never_nil rfl
  | initialised =>
      -- the first call
      obtain ⟨-, hnone⟩ : _ ∧ receivedSinceTick tr = [] := hn.resolve_left (by simp [height])
      left
      rw [receivedSinceTick_append (by simp [Never, TimerObs.isTick]), hnone]
      rfl
  | @starts k period hfuture =>
      have howns : k.future.ownsReceiver = true := by rw [hfuture]; rfl
      refine hsilent ?_ never_nil rfl
      rw [height_of_owns (ownsReceiver_createTaskWithReceiver _ _), height_of_owns howns]
  | @consumes k period c commands hfuture hcommands =>
      have hheight := height_of_owns (owns_of_awaiting hfuture)
      have hcount : (started k).height = (receivedSinceTick tr).length + 1 := by
        refine hn.resolve_right fun hgone => ?_
        rw [hheight] at hgone
        cases hgone.1
      left
      rw [height_of_owns (ownsReceiver_createTaskWithReceiver _ _),
        receivedSinceTick_append (by simp [Never, TimerObs.isTick]), List.length_append,
        List.length_cons, ← hheight, hcount]
      rfl
  | @stops k period hfuture hcommands hresetter =>
      have howns : k.future.ownsReceiver = true := by rw [hfuture]; rfl
      refine hsilent ?_ (by simp [Never, TimerObs.isTick]) rfl
      rw [height_of_owns howns]
      rfl
  | @closes k period deadline hfuture hcommands hresetter =>
      -- the call that has waited is suspended now
      have howns : k.future.ownsReceiver = true := by rw [hfuture]; rfl
      refine hsilent ?_ (by simp [Never, TimerObs.isTick]) rfl
      rw [height_of_owns howns]
      rfl
  | ticks hfuture hdue =>
      left
      rw [receivedSinceTick_tick]
      rfl
  | ticksAlone hfuture hdue => exact Or.inr ⟨rfl, receivedSinceTick_tick _ _⟩
  | _ => exact hsilent rfl (by simp [Never, TimerObs.isTick]) rfl

end HeldTimer

/-! ## Heights of stacks -/

namespace TimerState

variable {h : HeldTimer} {s : TimerState}

/-- A finished task has no stack. -/
theorem height_of_mem_links {n : Nat} {task : TimerTask} (htask : task ∈ links n) :
    task.height = 0 := by
  obtain ⟨i, -, rfl⟩ := List.mem_map.mp htask
  rfl

/-- No stack is higher than that of the last task. -/
theorem RunsAs.height_le (hs : RunsAs h s) : ∀ task ∈ s.tasks, task.height ≤ h.height := by
  have hchain : ∀ k : TimerChain, ∀ task ∈ k.toState.tasks,
      task.height ≤ (HeldTimer.started k).height := by
    intro k task htask
    rcases List.mem_append.mp htask with htask | htask
    · rw [height_of_mem_links htask]
      exact Nat.zero_le _
    · obtain rfl := List.mem_singleton.mp htask
      exact le_rfl
  cases hs with
  | held =>
      cases h with
      | fresh period commands resetter => simp [HeldTimer.toState]
      | started k => exact hchain k
  | released k => exact hchain k

/-- A bound on all stacks is one on that of the last task. -/
theorem RunsAs.le_of_forall {b : Nat} (hs : RunsAs h s) (hb : ∀ task ∈ s.tasks, task.height ≤ b) :
    h.height ≤ b := by
  have hlast : ∀ k : TimerChain, .running k.suspended k.future ∈ k.toState.tasks :=
    fun k => List.mem_append_right _ (List.mem_singleton_self _)
  cases hs with
  | held =>
      cases h with
      | fresh period commands resetter => exact Nat.zero_le _
      | started k => exact hb _ (hlast k)
  | released k => exact hb _ (hlast k)

/-- Where nothing runs there are no stacks. -/
theorem IsOver.height_eq (hover : s.IsOver) : ∀ task ∈ s.tasks, task.height = 0 := by
  intro task htask
  have hrunning := hover.2 task htask
  cases task with
  | running suspended future => cases hrunning
  | _ => rfl

end TimerState

/-! ## Runs -/

namespace ClockedTimer

variable {now : Instant} {period : Duration} {ls : List TimerLabel} {tr os : List TimerObs}
  {x x' : ClockedTimer} {l : TimerLabel} {h : HeldTimer}

/-- The tasks are those of a timer whose stack counts the commands, or nothing runs. -/
def Nesting (x : ClockedTimer) (tr : List TimerObs) : Prop :=
  (∃ h, TimerState.RunsAs h x.state ∧ h.Nested tr) ∨ x.state.IsOver

/-- **Every step keeps count**, or ends all tasks and is not observed. -/
theorem nesting_of_runsAs (hs : TimerState.RunsAs h x.state) (hn : h.Nested tr)
    (hstep : lts.step x l = some (x', os)) :
    (∃ h', TimerState.RunsAs h' x'.state ∧ h'.Nested (tr ++ os)) ∨ x'.state.IsOver ∧ os = [] := by
  rcases step_cases hstep with ⟨d, rfl, rfl, rfl⟩ | ⟨a, rfl, -, hact⟩
  · rw [List.append_nil]
    exact Or.inl ⟨h, hs, hn⟩
  · rcases hs.step hact with ⟨h', hs', hstep'⟩ | ⟨rfl, hover | hs'⟩
    · exact Or.inl ⟨h', hs', hstep'.nested hn⟩
    · exact Or.inr ⟨hover, rfl⟩
    · rw [List.append_nil]
      exact Or.inl ⟨h, hs', hn⟩

/-- Where nothing runs, nothing ticks and nothing is received. -/
theorem receivedSinceTick_of_isOver (tr : List TimerObs) (hover : x.state.IsOver)
    (hstep : lts.step x l = some (x', os)) :
    x'.state.IsOver ∧ receivedSinceTick (tr ++ os) = receivedSinceTick tr := by
  rcases step_cases hstep with ⟨d, rfl, rfl, rfl⟩ | ⟨a, rfl, -, hact⟩
  · exact ⟨hover, by rw [List.append_nil]⟩
  · obtain ⟨hover', -, hrefused⟩ := hover.step hact
    refine ⟨hover', ?_⟩
    have htick : Never TimerObs.isTick os := by
      intro o ho
      obtain ⟨c, rfl⟩ := hrefused o ho
      rfl
    have hconsumed : consumedCommands os = [] := by
      refine List.filterMap_eq_nil_iff.mpr fun o ho => ?_
      obtain ⟨c, rfl⟩ := hrefused o ho
      rfl
    rw [receivedSinceTick_append htick, hconsumed, List.append_nil]

/-- **The stacks count the commands in every run**, also after the timer was dropped. -/
theorem nesting {C : ClockedTimer → TimerLabel → Prop}
    (hrun : lts.Run C (start now period) ls tr x) : Nesting x tr := by
  refine hrun.invariant (P := Nesting) ?_ ?_
  · exact Or.inl ⟨_, TimerState.RunsAs.held (.fresh period [] true), Or.inr ⟨rfl, rfl⟩⟩
  · rintro ls tr os x x' l - (⟨h, hs, hn⟩ | hover) - hstep
    · rcases nesting_of_runsAs hs hn hstep with hgoes | ⟨hover, -⟩
      · exact Or.inl hgoes
      · exact Or.inr hover
    · exact Or.inr (receivedSinceTick_of_isOver tr hover hstep).1

/-- No stack has more than one call more than commands were received since the last tick. -/
theorem Nesting.height_le (hnest : Nesting x tr) :
    ∀ task ∈ x.state.tasks, task.height ≤ (receivedSinceTick tr).length + 1 := by
  intro task htask
  rcases hnest with ⟨h, hs, hn⟩ | hover
  · refine (hs.height_le task htask).trans ?_
    rcases hn with hheight | ⟨hheight, -⟩
    · exact hheight.le
    · rw [hheight]
      exact Nat.zero_le _
  · rw [hover.height_eq task htask]
    exact Nat.zero_le _

/-! ## Bounds -/

/-- A set of schedules: at which instant and with which period the timer is made, and what
happens then. -/
abbrev Schedules := Instant → Duration → List TimerLabel → Prop

/-- Some schedule of the set gets the timer to `x`, and `tr` is observed on the way. -/
def Reached (S : Schedules) (x : ClockedTimer) (tr : List TimerObs) : Prop :=
  ∃ now period ls rest, S now period (ls ++ rest) ∧ lts.Run LTS.Free (start now period) ls tr x

/-- **A timer task does not nest deeper and deeper**: one constant bounds the stacks in every
state that is reached. -/
def HeightBounded (S : Schedules) : Prop :=
  ∃ b, ∀ x tr, Reached S x tr → ∀ task ∈ x.state.tasks, task.height ≤ b

/-- What is bounded along a whole run bounds the commands received in it. -/
theorem received_le {n : Nat} (hrun : lts.Run LTS.Free (start now period) ls tr x)
    (hb : ∀ ls₁ rest tr₁ x₁, ls = ls₁ ++ rest → lts.Run LTS.Free (start now period) ls₁ tr₁ x₁ →
      ∀ task ∈ x₁.state.tasks, task.height ≤ n + 1) : (receivedSinceTick tr).length ≤ n := by
  induction hrun with
  | refl => exact Nat.zero_le n
  | @snoc x x' ls tr os l hrun hC hstep ih =>
      have ih := ih fun ls₁ rest tr₁ x₁ heq => hb ls₁ (rest ++ [l]) tr₁ x₁ (by rw [heq]; simp)
      rcases nesting hrun with ⟨h, hs, hn⟩ | hover
      · rcases nesting_of_runsAs hs hn hstep with ⟨h', hs', hn'⟩ | ⟨-, rfl⟩
        · have hheight : h'.height ≤ n + 1 :=
            hs'.le_of_forall (hb _ [] _ _ (by simp) (hrun.snoc hC hstep))
          rcases hn' with hcount | ⟨-, hnone⟩
          · rw [hcount] at hheight
            exact Nat.le_of_succ_le_succ hheight
          · rw [hnone]
            exact Nat.zero_le n
        · -- the drop that ends all tasks is not observed
          rw [List.append_nil]
          exact ih
      · -- and nothing is received any more
        rw [(receivedSinceTick_of_isOver _ hover hstep).2]
        exact ih

/-- **The exact bound**: the stacks have at most `n + 1` calls if and only if at most `n` commands
are received between two ticks. -/
theorem heights_le_iff (S : Schedules) (n : Nat) :
    (∀ x tr, Reached S x tr → ∀ task ∈ x.state.tasks, task.height ≤ n + 1) ↔
      ∀ x tr, Reached S x tr → (receivedSinceTick tr).length ≤ n := by
  constructor
  · rintro hb x tr ⟨now, period, ls, rest, hS, hrun⟩
    refine received_le hrun fun ls₁ rest₁ tr₁ x₁ heq hrun₁ => hb x₁ tr₁ ?_
    refine ⟨now, period, ls₁, rest₁ ++ rest, ?_, hrun₁⟩
    rw [← List.append_assoc, ← heq]
    exact hS
  · intro hn x tr hreached task htask
    obtain ⟨now, period, ls, rest, -, hrun⟩ := id hreached
    exact ((nesting hrun).height_le task htask).trans (Nat.succ_le_succ (hn x tr hreached))

/-- **When a timer task does not nest deeper and deeper.**  For every set of schedules, one
constant bounds the stacks in all states reached if and only if some number bounds the commands
that are received between two ticks. -/
theorem heightBounded_iff (S : Schedules) :
    HeightBounded S ↔ ∃ n, ∀ x tr, Reached S x tr → (receivedSinceTick tr).length ≤ n := by
  constructor
  · rintro ⟨b, hb⟩
    refine ⟨b, (heights_le_iff S b).mp fun x tr hreached task htask => ?_⟩
    exact (hb x tr hreached task htask).trans (Nat.le_succ b)
  · rintro ⟨n, hn⟩
    exact ⟨n + 1, (heights_le_iff S n).mpr hn⟩

/-! ## Resets without a tick -/

/-- A timer is polled, and then reset `n` times, whereby its task receives each reset. -/
def resets : Nat → List TimerLabel
  | 0 => [.act .poll, .act (.task 0 .start)]
  | n + 1 => resets n ++ [.act (.command .reset), .act (.task 0 .receive)]

/-- **Every reset leaves one more call behind.** -/
theorem run_resets (now : Instant) (period : Duration) (n : Nat) :
    ∃ tr, lts.Run LTS.Free (start now period) (resets n) tr
      ⟨now, TimerChain.toState ⟨period, 0, 0, List.replicate n period,
        createTaskWithReceiver now period, [], true, le_rfl⟩⟩ := by
  have hawait : (createTaskWithReceiver now period).awaiting? = some period := by
    unfold createTaskWithReceiver
    split <;> rfl
  induction n with
  | zero =>
      have hpoll := step_act (@HeldTimer.Step.initialised now period [] true).enabled
      let k : TimerChain := ⟨period, 0, 0, [], .created period, [], true, le_rfl⟩
      have hstarts := step_act (@HeldTimer.Step.starts now k period rfl).enabled
      exact ⟨_, (LTS.Run.single trivial hpoll).snoc trivial hstarts⟩
  | succ n ih =>
      obtain ⟨tr, hrun⟩ := ih
      let k : TimerChain := ⟨period, 0, 0, List.replicate n period,
        createTaskWithReceiver now period, [], true, le_rfl⟩
      have howns : k.future.ownsReceiver = true := HeldTimer.owns_of_awaiting hawait
      have hsent := step_act (@HeldTimer.Step.sent now (.started k) .reset rfl howns).enabled
      let k' : TimerChain := { k with commands := [.reset] }
      have hconsumes :=
        step_act (@HeldTimer.Step.consumes now k' period .reset [] hawait rfl).enabled
      exact ⟨_, hrun.trans ((LTS.Run.single trivial hsent).snoc trivial hconsumes)⟩

/-- **No constant bounds the stacks**: a timer that is reset again and again before it ticks nests
as deep as it is reset often. -/
theorem not_heightBounded :
    ¬ HeightBounded fun _ _ ls => .act .drop ∉ ls ∧ .act .dropResetter ∉ ls := by
  rintro ⟨b, hb⟩
  have hkept : ∀ n, .act .drop ∉ resets n ∧ .act .dropResetter ∉ resets n := by
    intro n
    induction n with
    | zero => simp [resets]
    | succ n ih => simp [resets, ih]
  obtain ⟨tr, hrun⟩ := run_resets 0 0 b
  have hle := hb _ tr ⟨0, 0, resets b, [], by simpa using hkept b, hrun⟩ _
    (List.mem_append_right _ (List.mem_singleton_self _))
  rw [TimerTask.height, HeldTimer.ownsReceiver_createTaskWithReceiver, List.length_replicate] at hle
  exact Nat.not_succ_le_self b hle

end ClockedTimer
