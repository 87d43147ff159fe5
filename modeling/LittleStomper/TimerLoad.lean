/-
# What a timer has left to do

The steps of a timer take no time, so an instant could hold infinitely many of them: a task that
spawns its successor at once, or a stream that always has something to offer.  Neither happens.
The sleeps are at least a millisecond long, every command is received once, and every tick is
picked up once; so a timer has a number of moves left while the clock stands still
(`TimerState.load`), which every move of a task makes smaller (`Lives.task`), and every poll that
finds something (`Lives.poll`).  This is true of the tasks of a timer that was dropped, too.
-/
import LittleStomper.HeartbeatsStep
import LittleStomper.ServerHeartbeat
import Mathlib.Algebra.GroupWithZero.Nat
import Mathlib.Algebra.Order.BigOperators.Group.Finset

/-! ## What a timer has left to do -/

/-- The moves that a call has left while the clock stands still, with the tick that comes of
them. -/
def TimerFuture.load (now : Instant) : TimerFuture → Nat
  | created _ => 2
  | receiving _ => 1
  | selecting _ deadline => if deadline ≤ now then 4 else 1
  | pending _ => 0
  | sleeping _ deadline => if deadline ≤ now then 4 else 0

/-- The moves that a task has left. -/
def TimerTask.load (now : Instant) : TimerTask → Nat
  | running _ future => future.load now
  | _ => 0

/-- The moves that a timer has left: those of its tasks, one for each command that waits and each
tick to be picked up, and the first poll with what comes of it. -/
def TimerState.load (now : Instant) (s : TimerState) : Nat :=
  s.commands.length + (s.tasks.map (TimerTask.load now)).sum +
    match s.timer with
    | none => 0
    | some t =>
      match t.task with
      | none => 3
      | some i => s.tasks.length - (i + 1)

/-- A call that sleeps does so for a millisecond at least. -/
def TimerFuture.Paced : TimerFuture → Prop
  | selecting period _ => period.asMillis ≠ 0
  | sleeping period _ => period.asMillis ≠ 0
  | _ => True

/-- A period of a millisecond is not over at once. -/
theorem not_due_of_asMillis {now : Instant} {period : Duration} (h : period.asMillis ≠ 0) :
    ¬ now + period ≤ now := by
  have hpos : 0 < period := Nat.pos_of_ne_zero fun hzero => h (by rw [hzero]; rfl)
  exact Nat.not_le.mpr (Nat.lt_add_of_pos_right hpos)

/-- A new call sleeps long enough, and has nothing to do but to wait for a command. -/
theorem createTaskWithReceiver_load (now : Instant) (period : Duration) :
    (createTaskWithReceiver now period).Paced ∧
      (createTaskWithReceiver now period).load now = 1 := by
  rw [createTaskWithReceiver]
  split
  · exact ⟨trivial, rfl⟩
  · rename_i hmillis
    exact ⟨hmillis, if_neg (not_due_of_asMillis hmillis)⟩

namespace HeldTimer

variable {now : Instant} {k k' : TimerChain} {a : TimerAction} {h h' : HeldTimer}
  {os : List TimerObs}

/-- The calls of a timer that is held sleep long enough. -/
def Paced : HeldTimer → Prop
  | fresh _ _ _ => True
  | started k => k.future.Paced

/-- The moves that the chain of tasks has left. -/
def chainLoad (now : Instant) (k : TimerChain) : Nat := k.commands.length + k.future.load now

/-- The moves of a chain of tasks are those of its last task. -/
theorem sum_load_links (now : Instant) (n : Nat) (task : TimerTask) :
    ((links n ++ [task]).map (TimerTask.load now)).sum = task.load now := by
  have hlinks : ((links n).map (TimerTask.load now)).sum = 0 := by
    rw [List.sum_eq_zero_iff]
    intro m hm
    simp only [links, List.mem_map] at hm
    obtain ⟨t, ⟨i, -, rfl⟩, rfl⟩ := hm
    rfl
  rw [List.map_append, List.sum_append, hlinks, Nat.zero_add]
  simp

/-- The moves that a timer has left once it was polled. -/
theorem load_started (now : Instant) (k : TimerChain) :
    (started k).toState.load now = chainLoad now k + (k.ticks - k.polled) := by
  have hlength : (links k.ticks ++ [TimerTask.running k.suspended k.future]).length
      = k.ticks + 1 := by
    simp
  rw [TimerState.load, toState, TimerChain.toState]
  simp only [sum_load_links, hlength, chainLoad, TimerTask.load]
  omega

/-- **Every step keeps the sleeps long enough.** -/
theorem Step.paced (hstep : Step now h a h' os) (hpaced : h.Paced) : h'.Paced := by
  cases hstep with
  | @sent h c hresetter haccepts => cases h <;> exact hpaced
  | unsent hresetter haccepts => exact hpaced
  | @dropResetter h hresetter => cases h <;> exact hpaced
  | initialised => trivial
  | waits hpolled => exact hpaced
  | emits hpolled => exact hpaced
  | @starts k period hfuture => exact (createTaskWithReceiver_load now period).1
  | consumes hfuture hcommands => exact (createTaskWithReceiver_load now _).1
  | stops hfuture hcommands hresetter => trivial
  | @closes k period deadline hfuture hcommands hresetter =>
      have hk : k.future.Paced := hpaced
      rw [hfuture] at hk
      exact hk
  | ticks hfuture hdue => trivial
  | @ticksAlone k period deadline hfuture hdue =>
      have hk : k.future.Paced := hpaced
      rw [hfuture] at hk
      exact hk

/-- **A task that moves has less to do**, and the tick that comes of it is paid for. -/
theorem Step.chainLoad_lt {i : TaskId} {move : TaskMove}
    (hstep : Step now (started k) (.task i move) (started k') os) (hpaced : k.future.Paced) :
    k'.polled = k.polled ∧ k.ticks ≤ k'.ticks ∧
      chainLoad now k' + (k'.ticks - k.ticks) < chainLoad now k := by
  cases hstep with
  | @starts k period hfuture =>
      refine ⟨rfl, Nat.le_refl _, ?_⟩
      simp only [chainLoad, (createTaskWithReceiver_load now period).2]
      simp only [hfuture, TimerFuture.load]
      omega
  | @consumes k period c commands hfuture hcommands =>
      refine ⟨rfl, Nat.le_refl _, ?_⟩
      have hload : 1 ≤ k.future.load now := by
        cases hk : k.future with
        | receiving q => exact Nat.le_refl 1
        | selecting q deadline =>
            rw [TimerFuture.load]
            split <;> omega
        | _ => simp [hk, TimerFuture.awaiting?] at hfuture
      simp only [chainLoad, hcommands, (createTaskWithReceiver_load now _).2, List.length_cons]
      omega
  | @stops k period hfuture hcommands hresetter =>
      refine ⟨rfl, Nat.le_refl _, ?_⟩
      simp only [chainLoad, hfuture, TimerFuture.load]
      omega
  | @closes k period deadline hfuture hcommands hresetter =>
      have hmillis : period.asMillis ≠ 0 := by
        rw [hfuture] at hpaced
        exact hpaced
      refine ⟨rfl, Nat.le_refl _, ?_⟩
      simp only [chainLoad, hfuture, createTaskNoReceiver, TimerFuture.load,
        if_neg (not_due_of_asMillis hmillis)]
      split <;> omega
  | @ticks k period deadline hfuture hdue =>
      refine ⟨rfl, Nat.le_succ _, ?_⟩
      simp only [chainLoad, hfuture, TimerFuture.load, if_pos hdue]
      omega
  | @ticksAlone k period deadline hfuture hdue =>
      have hmillis : period.asMillis ≠ 0 := by
        rw [hfuture] at hpaced
        exact hpaced
      refine ⟨rfl, Nat.le_succ _, ?_⟩
      simp only [chainLoad, hfuture, createTaskNoReceiver, TimerFuture.load, if_pos hdue,
        if_neg (not_due_of_asMillis hmillis)]
      omega

end HeldTimer

namespace TimerState

variable {now : Instant} {h : HeldTimer} {s s' : TimerState} {a : TimerAction} {os : List TimerObs}

/-- The tasks of the timer are over, or run as those of a timer that is held, with sleeps that are
long enough. -/
def Lives (s : TimerState) : Prop := s.IsOver ∨ ∃ h : HeldTimer, RunsAs h s ∧ h.Paced

/-- A new timer. -/
theorem lives_create (period : Duration) : (ResettableTimer.create period).Lives :=
  Or.inr ⟨.fresh period [] true, RunsAs.held _, trivial⟩

/-- **Every step keeps this.** -/
theorem Lives.step (hs : s.Lives) (hstep : s.step now a = some (s', os)) : s'.Lives := by
  rcases hs with hover | ⟨h, hruns, hpaced⟩
  · exact Or.inl (hover.step hstep).1
  · rcases hruns.step hstep with ⟨h', hruns', hheld⟩ | ⟨-, hover | hruns'⟩
    · exact Or.inr ⟨h', hruns', hheld.paced hpaced⟩
    · exact Or.inl hover
    · exact Or.inr ⟨h, hruns', hpaced⟩

/-- A timer that is dropped. -/
theorem Lives.release (hs : s.Lives) : s.release.Lives := by
  cases ht : s.timer with
  | none =>
      rw [TimerState.release, ht]
      exact hs
  | some t =>
      have hdrop : s.step 0 .drop = some (s.dropTimer t, []) := by simp [TimerState.step, ht]
      rw [TimerState.release, ht]
      exact hs.step hdrop

/-- A command that is queued changes nothing else. -/
theorem RunsAs.queue (hs : RunsAs h s) (c : ResettableTimerCommand) :
    RunsAs (h.queue c) { s with commands := s.commands ++ [c] } := by
  cases hs with
  | held =>
      rw [← HeldTimer.toState_queue]
      exact RunsAs.held _
  | released k => exact RunsAs.released { k with commands := k.commands ++ [c] }

/-- Nor does the resetter. -/
theorem RunsAs.dropResetter (hs : RunsAs h s) :
    RunsAs h.dropResetter { s with resetter := false } := by
  cases hs with
  | held =>
      rw [← HeldTimer.toState_dropResetter]
      exact RunsAs.held _
  | released k => exact RunsAs.released { k with resetter := false }

/-- The timer is reset, or not. -/
theorem Lives.resets (hs : s.Lives) (asked : Prop) [Decidable asked] :
    (if asked then (s.send now .reset).1 else s).Lives := by
  rw [TimerState.send]
  split
  · split
    · rename_i haccepts
      rcases hs with hover | ⟨h, hruns, hpaced⟩
      · rw [hover.accepts] at haccepts
        cases haccepts
      · refine Or.inr ⟨h.queue .reset, hruns.queue .reset, ?_⟩
        cases h <;> exact hpaced
    · exact hs
  · exact hs

/-- The resetter is dropped. -/
theorem Lives.dropResetter (hs : s.Lives) : ({ s with resetter := false } : TimerState).Lives := by
  rcases hs with hover | ⟨h, hruns, hpaced⟩
  · exact Or.inl hover
  · refine Or.inr ⟨h.dropResetter, hruns.dropResetter, ?_⟩
    cases h <;> exact hpaced

/-! ### Less to do -/

/-- What is left of a timer that was dropped has the moves of its last task. -/
theorem load_released (now : Instant) (k : TimerChain) :
    k.released.load now = HeldTimer.chainLoad now k := by
  rw [TimerState.load, TimerChain.released, TimerChain.toState]
  simp only [HeldTimer.sum_load_links, HeldTimer.chainLoad, TimerTask.load]
  omega

/-- **A task that moves has less to do.** -/
theorem Lives.task (hs : s.Lives) {i : TaskId} {move : TaskMove}
    (hstep : s.step now (.task i move) = some (s', os)) : s'.load now < s.load now := by
  rcases hs with hover | ⟨h, hruns, hpaced⟩
  · -- nothing runs, so no task moves
    have hrun : s.runTask now i move = some (s', os) := hstep
    rw [runTask] at hrun
    split at hrun
    · rename_i suspended future htask
      have hrunning := hover.2 _ (List.mem_of_getElem? htask)
      cases hrunning
    · cases hrun
  · cases hruns with
    | held =>
        cases h with
        | fresh period commands resetter => cases hstep
        | started k =>
            obtain ⟨k', rfl, hheld⟩ := HeldTimer.task_cases hstep
            obtain ⟨hpolled, hticks, hless⟩ := hheld.chainLoad_lt hpaced
            have hk := k.polled_le
            show (HeldTimer.started k').toState.load now < (HeldTimer.started k).toState.load now
            rw [HeldTimer.load_started, HeldTimer.load_started]
            omega
    | released k =>
        obtain ⟨k', rfl, hheld⟩ := HeldTimer.released_cases hstep
        obtain ⟨-, -, hless⟩ := hheld.chainLoad_lt hpaced
        rw [load_released, load_released]
        omega

/-- **A poll leaves less to do**, or it finds nothing and changes nothing. -/
theorem Lives.poll (hs : s.Lives) (hstep : s.step now .poll = some (s', os)) :
    os.any (·.isPanic) = false ∧
      (s'.load now < s.load now ∨ s' = s ∧ os.any (·.isReady) = false) := by
  rcases hs with hover | ⟨h, hruns, hpaced⟩
  · simp [TimerState.step, hover.1] at hstep
  · cases hruns with
    | held =>
        obtain ⟨h', rfl, hheld⟩ := HeldTimer.poll_cases hstep
        cases hheld with
        | @initialised period commands resetter =>
            refine ⟨rfl, Or.inl ?_⟩
            rw [HeldTimer.load_started]
            show commands.length + 2 + (0 - 0) < commands.length + 0 + 3
            omega
        | waits hpolled => exact ⟨rfl, Or.inr ⟨rfl, rfl⟩⟩
        | @emits k hpolled =>
            refine ⟨rfl, Or.inl ?_⟩
            rw [HeldTimer.load_started, HeldTimer.load_started]
            show HeldTimer.chainLoad now k + (k.ticks - (k.polled + 1)) < _
            omega
    | released k => simp [TimerState.step, TimerChain.released] at hstep

/-- A reset is one more thing to do, and leaves the timer alone. -/
theorem load_resets_le (now : Instant) (s : TimerState) (asked : Prop) [Decidable asked] :
    (if asked then (s.send now .reset).1 else s).load now ≤ s.load now + 1 ∧
      (if asked then (s.send now .reset).1 else s).timer = s.timer := by
  rw [TimerState.send]
  split
  · split
    · refine ⟨?_, rfl⟩
      simp only [TimerState.load, List.length_append, List.length_singleton]
      omega
    · exact ⟨Nat.le_succ _, rfl⟩
  · exact ⟨Nat.le_succ _, rfl⟩

/-- A timer that is dropped is gone. -/
theorem release_timer (s : TimerState) : s.release.timer = none := by
  cases ht : s.timer with
  | none => rw [TimerState.release, ht]; exact ht
  | some t => rw [TimerState.release, ht]; rfl

/-- **A timer that is dropped has no more to do** than before. -/
theorem Lives.load_release_le (hs : s.Lives) : s.release.load now ≤ s.load now := by
  rcases hs with hover | ⟨h, hruns, hpaced⟩
  · rw [TimerState.release, hover.1]
    exact Nat.le_refl _
  · cases hruns with
    | released k => exact Nat.le_refl _
    | held =>
        have hdropped : h.toState.release = h.dropped := by
          have hdrop : h.toState.step now .drop = some (h.dropped, []) := HeldTimer.step_drop h
          cases h with
          | fresh period commands resetter => rfl
          | started k => exact congrArg Prod.fst (Option.some.inj hdrop)
        rw [hdropped]
        cases h with
        | fresh period commands resetter => exact Nat.le_add_right _ _
        | started k =>
            rw [HeldTimer.load_started, HeldTimer.dropped, TimerState.load]
            simp only [HeldTimer.sum_load_links, HeldTimer.chainLoad]
            split
            · show k.commands.length + 0 + 0 ≤ _
              omega
            · show k.commands.length + k.future.load now + 0 ≤ _
              omega

/-- **A stream that has nothing to offer** is idle: there is no tick that it could pick up. -/
theorem Lives.isIdle (hs : s.Lives) (now : Instant)
    (hpoll : ∀ s' os, s.step now .poll = some (s', os) → s' = s ∧ os.any (·.isReady) = false) :
    s.isIdle = true := by
  rcases hs with hover | ⟨h, hruns, hpaced⟩
  · simp [TimerState.isIdle, hover.1]
  · cases hruns with
    | released k => rfl
    | held =>
        cases h with
        | fresh period commands resetter =>
            have hstill := (hpoll _ _ rfl).1
            have hlength := congrArg (fun s : TimerState => s.tasks.length) hstill
            cases hlength
        | started k =>
            rcases Nat.lt_or_eq_of_le k.polled_le with hpolled | hpolled
            · have hready := (hpoll _ _ (HeldTimer.poll_emits hpolled)).2
              cases hready
            · simp [hpolled]

end TimerState

/-! ## What the timers of a session have left to do -/

namespace Heartbeats

variable {now : Instant} {hb : Option Heartbeats} {h h' : Heartbeats} {s : Session}
  {os : List SessionObs}

/-- Both timers of a session. -/
def Lives (h : Heartbeats) : Prop := h.server.Lives ∧ h.client.Lives

/-- What comes of the report of a listener, which comes once. -/
def report (client : TimerState) : Nat := if client.timer.isSome then 7 else 0

/-- The moves of both timers, and what comes of the listener's report. -/
def load (now : Instant) (h : Heartbeats) : Nat :=
  h.server.load now + h.client.load now + report h.client

/-- A listener does not come back. -/
theorem report_le {client client' : TimerState} {a : TimerAction} {tos : List TimerObs}
    (hstep : client.step now a = some (client', tos)) : report client' ≤ report client := by
  cases ht : client.timer with
  | none =>
      have hdropped := (TimerState.step_dropped ht hstep).1
      rw [report, report, ht, hdropped]
  | some t =>
      rw [report, report, ht]
      split
      · exact Nat.le_refl 7
      · exact Nat.zero_le 7

/-- The resets that a session asks for. -/
theorem Lives.react (hlives : h.Lives) : (h.react now os).Lives :=
  ⟨hlives.1.resets _, hlives.2.resets _⟩

/-- **Whatever becomes of the session.** -/
theorem lives_after (hlives : ∀ h, hb = some h → h.Lives) (h' : Heartbeats)
    (hafter : after now hb s os = some h') : h'.Lives := by
  cases s with
  | awaiting => exact hlives h' hafter
  | running r =>
      obtain rfl := Option.some.inj hafter
      cases hb with
      | none =>
          have hcreated : (create r).Lives := by
            rw [create, heartbeatTimer_eq, heartbeatTimer_eq]
            exact ⟨TimerState.lives_create _, TimerState.lives_create _⟩
          exact hcreated.react
      | some h => exact (hlives h rfl).react
  | ended =>
      obtain ⟨h, rfl, rfl⟩ := Option.map_eq_some_iff.mp hafter
      have hreact : (h.react now os).Lives := (hlives h rfl).react
      exact ⟨hreact.1.release.dropResetter, hreact.2.dropResetter⟩

/-- The two resets are two more things to do. -/
theorem load_react_le (now : Instant) (h : Heartbeats) (os : List SessionObs) :
    (h.react now os).load now ≤ h.load now + 2 := by
  obtain ⟨hserver, -⟩ := TimerState.load_resets_le now h.server (.reset .server ∈ os)
  obtain ⟨hclient, htimer⟩ := TimerState.load_resets_le now h.client (.reset .client ∈ os)
  simp only [load, react, report, htimer]
  omega

/-- **Whatever becomes of the session**, there is no more to do than for two resets. -/
theorem load_after_le (hlives : h.Lives) (hafter : after now (some h) s os = some h') :
    h'.load now ≤ h.load now + 2 := by
  cases s with
  | awaiting =>
      obtain rfl := Option.some.inj hafter
      exact Nat.le_add_right _ _
  | running r =>
      obtain rfl := Option.some.inj hafter
      exact load_react_le now h os
  | ended =>
      obtain rfl := Option.some.inj hafter
      have hreact := load_react_le now h os
      have hreacts : (h.react now os).Lives := hlives.react
      have hrelease : (h.react now os).server.release.load now
          ≤ (h.react now os).server.load now := hreacts.1.load_release_le
      rw [load] at hreact ⊢
      exact Nat.le_trans (Nat.add_le_add_right (Nat.add_le_add_right hrelease _) _) hreact

end Heartbeats

/-- **The timers of every session** have sleeps that are long enough, in every run. -/
theorem TimedSession.lives {p : Params} {C : TimedSession → TimedLabel → Prop} {now : Instant}
    {x : TimedSession} {ls : List TimedLabel} {tr : List TimedObs}
    (hrun : (lts p).Run C (start now) ls tr x) : ∀ h, x.heartbeats = some h → h.Lives := by
  refine hrun.invariant (P := fun x _ => ∀ h, x.heartbeats = some h → h.Lives)
    (fun h hh => by cases hh) ?_
  intro _ _ os x x' l _ ih _ hstep
  cases l with
  | advance d =>
      obtain ⟨rfl, rfl⟩ := Prod.mk.inj (Option.some.inj hstep)
      exact ih
  | session input panics =>
      simp only [lts, step] at hstep
      split at hstep
      · obtain ⟨r, -, heq⟩ := Option.map_eq_some_iff.mp hstep
        obtain ⟨rfl, rfl⟩ := Prod.mk.inj heq
        exact Heartbeats.lives_after ih
      · cases hstep
  | pollServer panics =>
      simp only [lts, step, pollServer] at hstep
      split at hstep
      · rename_i r h hr hh
        obtain ⟨⟨server, tos⟩, hpoll, hrest⟩ := Option.bind_eq_some_iff.mp hstep
        have hlives := ih h hh
        have hpolled : ∀ h', some { h with server := server } = some h' → h'.Lives := by
          rintro h' heq
          obtain rfl := Option.some.inj heq
          exact ⟨hlives.1.step hpoll, hlives.2⟩
        simp only at hrest
        split at hrest
        · obtain ⟨r, -, heq⟩ := Option.map_eq_some_iff.mp hrest
          obtain ⟨rfl, rfl⟩ := Prod.mk.inj heq
          exact Heartbeats.lives_after hpolled
        · split at hrest
          · obtain ⟨rfl, rfl⟩ := Prod.mk.inj (Option.some.inj hrest)
            exact @Heartbeats.lives_after _ _ .ended [.panicked] hpolled
          · obtain ⟨rfl, rfl⟩ := Prod.mk.inj (Option.some.inj hrest)
            exact hpolled
      · cases hstep
  | pollClient =>
      obtain ⟨h, hh, hrest⟩ := Option.bind_eq_some_iff.mp hstep
      obtain ⟨⟨client, tos⟩, hpoll, heq⟩ := Option.map_eq_some_iff.mp hrest
      have hlives := ih h hh
      have hclient : client.Lives := hlives.2.step hpoll
      have hreleased : ∀ h', some { h with client := client.release } = some h' → h'.Lives := by
        rintro h' heq
        obtain rfl := Option.some.inj heq
        exact ⟨hlives.1, hclient.release⟩
      simp only at heq
      split at heq
      · split at heq
        · obtain ⟨rfl, rfl⟩ := Prod.mk.inj heq
          exact hreleased
        · obtain ⟨rfl, rfl⟩ := Prod.mk.inj heq
          exact hreleased
      · obtain ⟨rfl, rfl⟩ := Prod.mk.inj heq
        intro h' hh'
        obtain rfl := Option.some.inj hh'
        exact ⟨hlives.1, hclient⟩
  | serverTask i move =>
      obtain ⟨h, hh, hrest⟩ := Option.bind_eq_some_iff.mp hstep
      obtain ⟨⟨server, tos⟩, htask, heq⟩ := Option.map_eq_some_iff.mp hrest
      obtain ⟨rfl, rfl⟩ := Prod.mk.inj heq
      intro h' hh'
      obtain rfl := Option.some.inj hh'
      exact ⟨(ih h hh).1.step htask, (ih h hh).2⟩
  | clientTask i move =>
      obtain ⟨h, hh, hrest⟩ := Option.bind_eq_some_iff.mp hstep
      obtain ⟨⟨client, tos⟩, htask, heq⟩ := Option.map_eq_some_iff.mp hrest
      obtain ⟨rfl, rfl⟩ := Prod.mk.inj heq
      intro h' hh'
      obtain rfl := Option.some.inj hh'
      exact ⟨(ih h hh).1, (ih h hh).2.step htask⟩
