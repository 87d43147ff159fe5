/-
# The resettable timer is a deadline timer

The chain of tasks keeps what a deadline timer keeps in two fields: the last task carries the
period and what it is counted from, and the finished tasks that the stream has not followed
are the ticks that nobody has taken.  If tasks run as soon as they can, every step of the
resettable timer is a step of the deadline timer or no step at all, and the clock moves only
when the deadline timer lets it.

Both wait for the time driver, which is rounded up to milliseconds.  So a tick comes less than a
millisecond after its deadline (`refines_deadline_timer`), but not always at it (`tick_late`).
-/
import LittleStomper.TimerChain
import LittleStomper.Library.Deadline
import Mathlib.Algebra.Order.Group.Nat

/-! ## The abstract timer -/

/-- Periods below a millisecond never elapse.  A command is one that was received (`some`), or
the news that the resetter is gone (`none`), which leaves the period as it is. -/
def timerRules (time : TimeDriver) : DeadlineTimer.Rules Nat (Option ResettableTimerCommand) where
  counts period := decide (Duration.fromMillis 1 ≤ period)
  apply
    | none, period => period
    | some .reset, period => period
    | some (.changePeriod newPeriod), _ => newPeriod
  wake := time.wake

/-- It is what the command does to a task. -/
theorem timerRules_apply (time : TimeDriver) (c : ResettableTimerCommand) (period : Duration) :
    (timerRules time).apply (some c) period = c.toNewPeriod period := by
  cases c <;> rfl

/-- The periods that elapse are those for which a task sleeps. -/
theorem timerRules_counts (time : TimeDriver) (period : Duration) :
    (timerRules time).counts period = decide (period.asMillis ≠ 0) := by
  refine decide_eq_decide.mpr ?_
  simp only [Duration.fromMillis, Duration.asMillis]
  lia

/-- What an observation means for the deadline timer. -/
def TimerObs.event? : TimerObs → Option (DeadlineTimer.Event Nat (Option ResettableTimerCommand))
  | sent _ _ _ => none
  | consumed now c => some (.commanded now (some c))
  | closed now => some (.commanded now none)
  | ticked now => some (.ticked now)
  | polled now .pending => some (.polled now false)
  | polled now (.ready (some ())) => some (.polled now true)
  | polled _ (.ready none) => none
  | panicked _ => none

/-- The stream has ended or panicked. -/
def TimerObs.isFailure : TimerObs → Bool
  | polled _ (.ready none) => true
  | panicked _ => true
  | _ => false

/-- The schedules of a timer that is held whose tasks run as soon as they can: the clock waits for
them, and they wait for the time driver. -/
def Prompt (time : TimeDriver) : ClockedTimer → TimerLabel → Bool
  | x, .advance _ => x.state.isSettled time x.now
  | x, .act (.task i move) => x.state.isAwake time x.now i move
  | _, .act .drop => false
  | _, _ => true

/-! ## What the chain stands for -/

/-- The last task waits for what the deadline timer waits for. -/
def TimerFuture.Tracks (t : DeadlineTimer Nat) : TimerFuture → Prop
  | created period => t.period = period ∧ t.since = some t.now
  | receiving period => t.period = period ∧ period.asMillis = 0 ∧ t.since.isSome
  | selecting period deadline =>
    t.period = period ∧ period.asMillis ≠ 0 ∧ ∃ b, t.since = some b ∧ deadline = b + period
  | pending period => t.period = period ∧ period.asMillis = 0 ∧ t.since.isSome
  | sleeping period deadline =>
    t.period = period ∧ period.asMillis ≠ 0 ∧ ∃ b, t.since = some b ∧ deadline = b + period

/-- The deadline timer that a held timer stands for. -/
def HeldTimer.Tracks (t : DeadlineTimer Nat) : HeldTimer → Prop
  | fresh period _ _ => t.period = period ∧ t.since = none ∧ t.waiting = []
  | started k => k.polled + t.waiting.length = k.ticks ∧ k.future.Tracks t

/-- A timer and its clock stand for a deadline timer. -/
def ClockedTimer.Tracks (x : ClockedTimer) (t : DeadlineTimer Nat) : Prop :=
  t.now = x.now ∧ ∃ h : HeldTimer, x.state = h.toState ∧ h.Tracks t

namespace TimerFuture

variable {time : TimeDriver} {t : DeadlineTimer Nat} {period : Duration} {deadline : Instant}
  {future : TimerFuture}

/-- A call that has just begun. -/
theorem tracks_create (hperiod : t.period = period) (hsince : t.since = some t.now) :
    (createTaskWithReceiver t.now period).Tracks t := by
  rw [createTaskWithReceiver]
  split
  · rename_i hmillis
    exact ⟨hperiod, hmillis, by rw [hsince]; rfl⟩
  · rename_i hmillis
    exact ⟨hperiod, hmillis, t.now, hsince, rfl⟩

/-- A call that waits for a command has the period of the timer, which was started. -/
theorem Tracks.awaiting (h : future.Tracks t) (hfuture : future.awaiting? = some period) :
    t.period = period ∧ t.since.isSome = true := by
  cases future with
  | receiving p =>
      obtain rfl := Option.some.inj hfuture
      exact ⟨h.1, h.2.2⟩
  | selecting p deadline =>
      obtain rfl := Option.some.inj hfuture
      obtain ⟨hperiod, -, b, hsince, -⟩ := h
      exact ⟨hperiod, by rw [hsince]; rfl⟩
  | _ => cases hfuture

/-- The timer was started. -/
theorem Tracks.started (h : future.Tracks t) : ∃ b, t.since = some b := by
  cases future with
  | created p => exact ⟨_, h.2⟩
  | receiving p => exact Option.isSome_iff_exists.mp h.2.2
  | selecting p deadline => exact ⟨_, h.2.2.choose_spec.1⟩
  | pending p => exact Option.isSome_iff_exists.mp h.2.2
  | sleeping p deadline => exact ⟨_, h.2.2.choose_spec.1⟩

/-- The ticks that wait do not matter to the last task. -/
theorem Tracks.take (h : future.Tracks t) (waiting : List Nat) :
    future.Tracks { t with waiting := waiting } := by
  cases future <;> exact h

/-- A sleep is over exactly if the deadline timer is due. -/
theorem isDue_iff (hperiod : t.period = period) (hmillis : period.asMillis ≠ 0)
    {b : Nat} (hsince : t.since = some b) (hdeadline : deadline = b + period) :
    t.isDue (timerRules time) = true ↔ time.wake deadline ≤ t.now := by
  subst hperiod hdeadline
  rw [DeadlineTimer.isDue, timerRules_counts, decide_eq_true hmillis, Bool.true_and, hsince]
  exact decide_eq_true_iff

end TimerFuture

namespace HeldTimer

variable {time : TimeDriver} {now : Instant} {t : DeadlineTimer Nat} {h h' : HeldTimer}
  {a : TimerAction} {os : List TimerObs}

/-- One step of the deadline timer, as a run. -/
theorem run_of_step {t t' : DeadlineTimer Nat}
    {l : DeadlineTimer.Label Nat (Option ResettableTimerCommand)}
    {es : List (DeadlineTimer.Event Nat (Option ResettableTimerCommand))}
    (hstep : DeadlineTimer.step (timerRules time) t l = some (t', es)) :
    (DeadlineTimer.lts (timerRules time)).Run LTS.Free t [l] es t' :=
  LTS.Run.single trivial hstep

/-- The last task is awake if its sleep is over. -/
theorem awake_iff {k : TimerChain} {deadline : Instant} (hk : k.future.deadline? = some deadline) :
    k.toState.isAwake time now k.ticks .elapse = true ↔ time.wake deadline ≤ now := by
  rw [isAwake_last, hk]
  exact decide_eq_true_iff

/-- **Every step of a held timer is a step of the deadline timer it stands for**, or none, if tasks
wait to be woken. -/
theorem Step.tracks (hstep : Step t.now h a h' os) (htracks : h.Tracks t)
    (hawake : ∀ i, a = .task i .elapse → h.toState.isAwake time t.now i .elapse = true) :
    ∃ ls t', (DeadlineTimer.lts (timerRules time)).Run LTS.Free t ls
        (os.filterMap TimerObs.event?) t' ∧ t'.now = t.now ∧ h'.Tracks t' := by
  cases hstep with
  | @sent h c hresetter haccepts =>
      exact ⟨[], t, LTS.Run.refl t, rfl, by cases h <;> exact htracks⟩
  | unsent hresetter haccepts => exact ⟨[], t, LTS.Run.refl t, rfl, htracks⟩
  | @dropResetter h hresetter =>
      exact ⟨[], t, LTS.Run.refl t, rfl, by cases h <;> exact htracks⟩
  | initialised =>
      obtain ⟨hperiod, hsince, hwaiting⟩ := htracks
      refine ⟨[.poll], { t with since := some t.now }, run_of_step ?_, rfl, ?_⟩
      · simp [DeadlineTimer.step, hsince, TimerObs.event?]
      · exact ⟨by simp [hwaiting], hperiod, rfl⟩
  | waits hpolled =>
      obtain ⟨hcount, hfuture⟩ := htracks
      obtain ⟨b, hsince⟩ := hfuture.started
      have hwaiting : t.waiting = [] := List.length_eq_zero_iff.mp (by omega)
      refine ⟨[.poll], t, run_of_step ?_, rfl, hcount, hfuture⟩
      simp [DeadlineTimer.step, hsince, hwaiting, TimerObs.event?]
  | @emits k hpolled =>
      obtain ⟨hcount, hfuture⟩ := htracks
      obtain ⟨b, hsince⟩ := hfuture.started
      obtain ⟨u, waiting, hwaiting⟩ := List.exists_cons_of_length_pos
        (show 0 < t.waiting.length by omega)
      refine ⟨[.poll], { t with waiting := waiting }, run_of_step ?_, rfl, ?_, hfuture.take waiting⟩
      · simp [DeadlineTimer.step, hsince, hwaiting, TimerObs.event?]
      · rw [hwaiting, List.length_cons] at hcount
        show k.polled + 1 + waiting.length = k.ticks
        omega
  | starts hfuture =>
      obtain ⟨hcount, hcreated⟩ := htracks
      rw [hfuture] at hcreated
      exact ⟨[], t, LTS.Run.refl t, rfl, hcount,
        TimerFuture.tracks_create hcreated.1 hcreated.2⟩
  | @consumes k period c commands hfuture hcommands =>
      obtain ⟨hcount, hawaiting⟩ := htracks
      obtain ⟨hperiod, hsince⟩ := hawaiting.awaiting hfuture
      refine ⟨[.command (some c)], { t with period := c.toNewPeriod period, since := some t.now },
        run_of_step ?_, rfl, hcount, TimerFuture.tracks_create rfl rfl⟩
      simp [DeadlineTimer.step, hsince, hperiod, timerRules_apply, TimerObs.event?]
  | stops hfuture hcommands hresetter =>
      obtain ⟨hcount, hreceiving⟩ := htracks
      rw [hfuture] at hreceiving
      obtain ⟨hperiod, hmillis, hsince⟩ := hreceiving
      refine ⟨[.command none], { t with since := some t.now }, run_of_step ?_, rfl, hcount,
        hperiod, hmillis, rfl⟩
      simp [DeadlineTimer.step, hsince, timerRules, TimerObs.event?]
  | closes hfuture hcommands hresetter =>
      obtain ⟨hcount, hselecting⟩ := htracks
      rw [hfuture] at hselecting
      obtain ⟨hperiod, hmillis, b, hsince, -⟩ := hselecting
      refine ⟨[.command none], { t with since := some t.now }, run_of_step ?_, rfl, hcount,
        hperiod, hmillis, t.now, rfl, rfl⟩
      simp [DeadlineTimer.step, hsince, timerRules, TimerObs.event?]
  | @ticks k period deadline hfuture hdue =>
      obtain ⟨hcount, hselecting⟩ := htracks
      rw [hfuture] at hselecting
      obtain ⟨hperiod, hmillis, b, hsince, hdeadline⟩ := hselecting
      have hwoken : time.wake deadline ≤ t.now :=
        (awake_iff (by rw [hfuture]; rfl)).mp (hawake _ rfl)
      have hisDue := (TimerFuture.isDue_iff hperiod hmillis hsince hdeadline).mpr hwoken
      refine ⟨[.tick], { t with since := some t.now, waiting := t.waiting ++ [t.now] },
        run_of_step ?_, rfl, ?_, hperiod, rfl⟩
      · simp [DeadlineTimer.step, hisDue, TimerObs.event?]
      · simp [← hcount, Nat.add_assoc]
  | @ticksAlone k period deadline hfuture hdue =>
      obtain ⟨hcount, hsleeping⟩ := htracks
      rw [hfuture] at hsleeping
      obtain ⟨hperiod, hmillis, b, hsince, hdeadline⟩ := hsleeping
      have hwoken : time.wake deadline ≤ t.now :=
        (awake_iff (by rw [hfuture]; rfl)).mp (hawake _ rfl)
      have hisDue := (TimerFuture.isDue_iff hperiod hmillis hsince hdeadline).mpr hwoken
      refine ⟨[.tick], { t with since := some t.now, waiting := t.waiting ++ [t.now] },
        run_of_step ?_, rfl, ?_, hperiod, hmillis, t.now, rfl, rfl⟩
      · simp [DeadlineTimer.step, hisDue, TimerObs.event?]
      · simp [← hcount, Nat.add_assoc]

/-- Where no task can move, what waits does not depend on the instant. -/
theorem Tracks.wait (htracks : h.Tracks t) (hsettled : h.toState.isSettled time now = true)
    (now' : Nat) : h.Tracks { t with now := now' } := by
  cases h with
  | fresh period commands resetter => exact htracks
  | started k =>
      refine ⟨htracks.1, ?_⟩
      have hfuture := htracks.2
      cases hk : k.future with
      | created period =>
          have hstep := (@Step.starts now k period hk).enabled
          rw [stuck_of_settled hsettled rfl] at hstep
          cases hstep
      | _ =>
          rw [hk] at hfuture
          exact hfuture

/-- The deadline timer of a timer that has not been started is not due, and neither is that of one
whose last task does not sleep. -/
theorem Tracks.sleeps (htracks : h.Tracks t) (hdue : t.isDue (timerRules time) = true) :
    ∃ k deadline, h = started k ∧ k.future.deadline? = some deadline ∧
      time.wake deadline ≤ t.now := by
  cases h with
  | fresh period commands resetter => simp [DeadlineTimer.isDue, htracks.2.1] at hdue
  | started k =>
      have hfuture := htracks.2
      cases hk : k.future with
      | created period =>
          -- the period has just begun
          rw [hk] at hfuture
          obtain ⟨hperiod, hsince⟩ := hfuture
          rw [DeadlineTimer.isDue, hsince, Bool.and_eq_true, Option.any_some] at hdue
          have hcounts : Duration.fromMillis 1 ≤ t.period := of_decide_eq_true hdue.1
          have hwoken : time.wake (t.now + t.period) ≤ t.now := of_decide_eq_true hdue.2
          have hle := time.notBefore (t.now + t.period)
          simp only [Duration.fromMillis] at hcounts
          lia
      | receiving period =>
          rw [hk] at hfuture
          obtain ⟨hperiod, hmillis, -⟩ := hfuture
          simp [DeadlineTimer.isDue, timerRules_counts, hperiod, hmillis] at hdue
      | selecting period deadline =>
          rw [hk] at hfuture
          obtain ⟨hperiod, hmillis, b, hsince, hdeadline⟩ := hfuture
          exact ⟨k, deadline, rfl, by rw [hk]; rfl,
            (TimerFuture.isDue_iff hperiod hmillis hsince hdeadline).mp hdue⟩
      | pending period =>
          rw [hk] at hfuture
          obtain ⟨hperiod, hmillis, -⟩ := hfuture
          simp [DeadlineTimer.isDue, timerRules_counts, hperiod, hmillis] at hdue
      | sleeping period deadline =>
          rw [hk] at hfuture
          obtain ⟨hperiod, hmillis, b, hsince, hdeadline⟩ := hfuture
          exact ⟨k, deadline, rfl, by rw [hk]; rfl,
            (TimerFuture.isDue_iff hperiod hmillis hsince hdeadline).mp hdue⟩

/-- A task whose sleep is over ticks. -/
theorem elapses {k : TimerChain} {deadline : Instant} (hk : k.future.deadline? = some deadline)
    (hdue : deadline ≤ now) :
    ∃ h', Step now (started k) (.task k.ticks .elapse) h' [.ticked now] := by
  cases hfuture : k.future with
  | selecting period deadline' =>
      rw [hfuture] at hk
      obtain rfl : deadline' = deadline := Option.some.inj hk
      exact ⟨_, Step.ticks hfuture hdue⟩
  | sleeping period deadline' =>
      rw [hfuture] at hk
      obtain rfl : deadline' = deadline := Option.some.inj hk
      exact ⟨_, Step.ticksAlone hfuture hdue⟩
  | _ =>
      rw [hfuture] at hk
      cases hk

/-- **The last task can tick exactly if the deadline timer is due.** -/
theorem Tracks.ticks_iff (htracks : h.Tracks t) :
    (∃ i s', h.toState.isAwake time t.now i .elapse = true ∧
      h.toState.step t.now (.task i .elapse) = some (s', [.ticked t.now])) ↔
      t.isDue (timerRules time) = true := by
  constructor
  · rintro ⟨i, s', hawake, hstep⟩
    rcases step_cases hstep with ⟨hdrop, -, -⟩ | ⟨h', -, hstep'⟩
    · cases hdrop
    · cases hstep' with
      | ticks hfuture hdue =>
          have hselecting := htracks.2
          rw [hfuture] at hselecting
          obtain ⟨hperiod, hmillis, b, hsince, hdeadline⟩ := hselecting
          exact (TimerFuture.isDue_iff hperiod hmillis hsince hdeadline).mpr
            ((awake_iff (by rw [hfuture]; rfl)).mp hawake)
      | ticksAlone hfuture hdue =>
          have hsleeping := htracks.2
          rw [hfuture] at hsleeping
          obtain ⟨hperiod, hmillis, b, hsince, hdeadline⟩ := hsleeping
          exact (TimerFuture.isDue_iff hperiod hmillis hsince hdeadline).mpr
            ((awake_iff (by rw [hfuture]; rfl)).mp hawake)
  · intro hdue
    obtain ⟨k, deadline, rfl, hk, hwoken⟩ := htracks.sleeps hdue
    obtain ⟨h', hstep⟩ := elapses hk ((time.notBefore deadline).trans hwoken)
    exact ⟨k.ticks, _, (awake_iff hk).mpr hwoken, hstep.enabled⟩

/-- **The clock moves only when the deadline timer lets it**: where no task can move, the
deadline timer is not due. -/
theorem Tracks.not_due (htracks : h.Tracks t) (hsettled : h.toState.isSettled time t.now = true) :
    t.isDue (timerRules time) = false := by
  rw [Bool.eq_false_iff, Ne, ← htracks.ticks_iff]
  rintro ⟨i, s', hawake, hstep⟩
  cases h with
  | fresh period commands resetter => cases hstep
  | started k =>
      obtain ⟨rfl, -⟩ := runTask_cases hstep
      rw [stuck_of_settled hsettled hawake] at hstep
      cases hstep

/-- The stream neither ends nor panics. -/
theorem Step.no_failure (hstep : Step now h a h' os) : ∀ o ∈ os, o.isFailure = false := by
  cases hstep <;> simp [TimerObs.isFailure]

end HeldTimer

/-! ## Runs -/

namespace ClockedTimer

variable {time : TimeDriver}

/-- **Every prompt step of the timer is a step of the deadline timer it stands for**, or none. -/
theorem step_tracks {x x' : ClockedTimer} {l : TimerLabel} {os : List TimerObs}
    {t : DeadlineTimer Nat} (htracks : x.Tracks t) (hprompt : Prompt time x l = true)
    (hstep : lts.step x l = some (x', os)) :
    ∃ ls t', (DeadlineTimer.lts (timerRules time)).Run LTS.Free t ls
        (os.filterMap TimerObs.event?) t' ∧ x'.Tracks t' := by
  obtain ⟨hnow, h, hh, hheld⟩ := htracks
  rcases step_cases hstep with ⟨d, rfl, rfl, rfl⟩ | ⟨a, rfl, hnow', hact⟩
  · have hsettled : h.toState.isSettled time t.now = true := by
      rw [hnow, ← hh]
      exact hprompt
    refine ⟨[.wait d], { t with now := t.now + d }, HeldTimer.run_of_step ?_, ?_, h, hh,
      hheld.wait hsettled _⟩
    · simp [DeadlineTimer.step, hheld.not_due hsettled]
    · show t.now + d = x.now + d
      rw [hnow]
  · rw [hh] at hact
    rcases HeldTimer.step_cases hact with ⟨rfl, -, -⟩ | ⟨h', hh', hstep'⟩
    · cases hprompt
    · rw [← hnow] at hstep'
      have hawake : ∀ i, a = .task i .elapse → h.toState.isAwake time t.now i .elapse = true := by
        rintro i rfl
        rw [hnow, ← hh]
        exact hprompt
      obtain ⟨ls, t', hrun, hnow'', hheld'⟩ := hstep'.tracks hheld hawake
      exact ⟨ls, t', hrun, by rw [hnow'', hnow, hnow'], h', hh', hheld'⟩

/-- Some task can tick now. -/
def CanTick (time : TimeDriver) (x : ClockedTimer) : Prop :=
  ∃ i x', Prompt time x (.act (.task i .elapse)) = true ∧
    lts.step x (.act (.task i .elapse)) = some (x', [.ticked x.now])

/-- The timer can tick exactly if the deadline timer is due. -/
theorem Tracks.canTick_iff {x : ClockedTimer} {t : DeadlineTimer Nat} (htracks : x.Tracks t) :
    x.CanTick time ↔ t.isDue (timerRules time) = true := by
  obtain ⟨hnow, h, hh, hheld⟩ := htracks
  rw [← hheld.ticks_iff, hnow, ← hh]
  constructor
  · rintro ⟨i, x', hprompt, hstep⟩
    obtain ⟨⟨s', os⟩, hact, heq⟩ := Option.map_eq_some_iff.mp hstep
    obtain ⟨rfl, rfl⟩ := Prod.mk.inj heq
    exact ⟨i, s', hprompt, hact⟩
  · rintro ⟨i, s', hprompt, hact⟩
    exact ⟨i, ⟨x.now, s'⟩, hprompt, step_act hact⟩

/-- **The ticks are in time.**  The timer can tick exactly if the deadline timer is due: never
before its period, of a millisecond at least, has fully elapsed; but when less than another
millisecond has elapsed, too, and at the deadline itself if this is at a whole millisecond. -/
structure TicksInTime (time : TimeDriver) (x : ClockedTimer) (t : DeadlineTimer Nat) : Prop where
  due : x.CanTick time ↔ t.isDue (timerRules time) = true
  notBefore : x.CanTick time → Duration.fromMillis 1 ≤ t.period ∧
    ∃ b, t.since = some b ∧ b + t.period ≤ x.now
  soon : ∀ b, t.since = some b → Duration.fromMillis 1 ≤ t.period →
    b + t.period + Duration.fromMillis 1 ≤ x.now → x.CanTick time
  onTime : ∀ b millis, t.since = some b → Duration.fromMillis 1 ≤ t.period →
    b + t.period = Duration.fromMillis millis → b + t.period ≤ x.now → x.CanTick time

/-- A timer that stands for a deadline timer ticks in time. -/
theorem Tracks.ticksInTime {x : ClockedTimer} {t : DeadlineTimer Nat} (htracks : x.Tracks t) :
    x.TicksInTime time t := by
  have hiff : ∀ b, t.since = some b → Duration.fromMillis 1 ≤ t.period →
      (x.CanTick time ↔ time.wake (b + t.period) ≤ x.now) := by
    intro b hsince hperiod
    rw [htracks.canTick_iff, DeadlineTimer.isDue, hsince, Option.any_some, Bool.and_eq_true,
      ← htracks.1]
    exact ⟨fun h => of_decide_eq_true h.2,
      fun h => ⟨decide_eq_true hperiod, decide_eq_true h⟩⟩
  refine ⟨htracks.canTick_iff, fun hcan => ?_, fun b hsince hperiod hle => ?_,
    fun b millis hsince hperiod hdeadline hle => ?_⟩
  · have hdue := htracks.canTick_iff.mp hcan
    rw [DeadlineTimer.isDue, Bool.and_eq_true] at hdue
    have hperiod : Duration.fromMillis 1 ≤ t.period := of_decide_eq_true hdue.1
    obtain ⟨b, hsince, -⟩ := (Option.any_eq_true _ _).mp hdue.2
    exact ⟨hperiod, b, hsince, (time.notBefore _).trans ((hiff b hsince hperiod).mp hcan)⟩
  · exact (hiff b hsince hperiod).mpr ((time.wake_lt _).le.trans hle)
  · rw [hiff b hsince hperiod, hdeadline, time.onTime, ← hdeadline]
    exact hle

/-- No prompt step ends the stream or makes it panic. -/
theorem step_no_failure {x x' : ClockedTimer} {l : TimerLabel} {os : List TimerObs}
    {t : DeadlineTimer Nat} (htracks : x.Tracks t) (hstep : lts.step x l = some (x', os)) :
    ∀ o ∈ os, o.isFailure = false := by
  obtain ⟨-, h, hh, -⟩ := htracks
  rcases step_cases hstep with ⟨d, rfl, rfl, rfl⟩ | ⟨a, rfl, -, hact⟩
  · simp
  · rw [hh] at hact
    rcases HeldTimer.step_cases hact with ⟨-, rfl, -⟩ | ⟨h', -, hstep'⟩
    · simp
    · exact hstep'.no_failure

/-- Every prompt run of the timer is one of a deadline timer that it stands for. -/
theorem run_tracks {now : Instant} {period : Duration} {ls : List TimerLabel}
    {tr : List TimerObs} {x : ClockedTimer}
    (hrun : lts.Run (fun x l => Prompt time x l = true) (start now period) ls tr x) :
    ∃ ls' t, (DeadlineTimer.lts (timerRules time)).Run LTS.Free (DeadlineTimer.start now period)
      ls' (tr.filterMap TimerObs.event?) t ∧ x.Tracks t := by
  have hstart : (start now period).Tracks (DeadlineTimer.start now period) :=
    ⟨rfl, .fresh period [] true, rfl, rfl, rfl, rfl⟩
  exact hrun.simulate step_tracks hstart

/-- **`ResettableTimer` refines a deadline timer.**  In every run in which tasks run as soon as
they can and the timer is held:

* the ticks, the commands that are received and the polls are those of a run of a deadline timer,
  at the same instants, and the timer can tick exactly when the deadline timer is due: less than a
  millisecond after its period has fully elapsed;
* the `n`-th emission is the `n`-th tick and does not come before it, and the ticks that were
  not emitted are still there to be polled;
* the stream neither ends nor panics. -/
theorem refines_deadline_timer {now : Instant} {period : Duration} {ls : List TimerLabel}
    {tr : List TimerObs} {x : ClockedTimer}
    (hrun : lts.Run (fun x l => Prompt time x l = true) (start now period) ls tr x) :
    (∃ ls' t, (DeadlineTimer.lts (timerRules time)).Run LTS.Free (DeadlineTimer.start now period)
        ls' (tr.filterMap TimerObs.event?) t ∧ x.Tracks t ∧ x.TicksInTime time t ∧
        DeadlineTimer.Ledger t (tr.filterMap TimerObs.event?)) ∧
      ∀ o ∈ tr, o.isFailure = false := by
  constructor
  · obtain ⟨ls', t, hrun', htracks⟩ := run_tracks hrun
    exact ⟨ls', t, hrun', htracks, htracks.ticksInTime, DeadlineTimer.handed_out hrun'⟩
  · refine hrun.invariant (P := fun _ tr => ∀ o ∈ tr, o.isFailure = false) (by simp) ?_
    intro ls tr os x x' l hrun htr _ hstep
    obtain ⟨-, t, -, htracks⟩ := run_tracks hrun
    exact fun o ho => (List.mem_append.mp ho).elim (htr o) (step_no_failure htracks hstep o)

/-- The theorem applied to a timer that ticks twice before it is polled, is then reset, and
emits both ticks. -/
theorem refines_deadline_timer_backlog :
    let time := TimeDriver.millis
    let second := Duration.fromMillis 1000
    let ls : List TimerLabel := [.act .poll, .act (.task 0 .start), .advance second,
      .act (.task 0 .elapse), .act (.task 1 .start), .advance second, .act (.task 1 .elapse),
      .act (.task 2 .start), .act (.command .reset), .act (.task 2 .receive), .act .poll,
      .act .poll]
    ∃ tr x, lts.Run (fun x l => Prompt time x l = true) (start 0 second) ls tr x ∧
      (∃ ls' t, (DeadlineTimer.lts (timerRules time)).Run LTS.Free (DeadlineTimer.start 0 second)
        ls' (tr.filterMap TimerObs.event?) t ∧ x.Tracks t ∧ x.TicksInTime time t ∧
        DeadlineTimer.Ledger t (tr.filterMap TimerObs.event?)) ∧
      ∀ o ∈ tr, o.isFailure = false := by
  intro time second ls
  have hrun := LTS.Run.exec_get lts (fun x l => Prompt time x l = true) (start 0 second) ls
    (by decide)
  exact ⟨_, _, hrun, refines_deadline_timer hrun⟩

/-- A timer with a period of one and a half milliseconds, when this has elapsed. -/
def betweenMillis : List TimerLabel :=
  [.act .poll, .act (.task 0 .start), .advance 1500000]

/-- **A tick may be late**: a driver that rounds up to milliseconds lets the task sleep on after
its period has fully elapsed. -/
theorem tick_late :
    ¬ ∀ {time : TimeDriver} {now : Instant} {period : Duration} {ls : List TimerLabel}
        {tr : List TimerObs} {x : ClockedTimer},
        lts.Run (fun x l => Prompt time x l = true) (start now period) ls tr x →
        ∃ ls' t, (DeadlineTimer.lts (timerRules .exact)).Run LTS.Free
          (DeadlineTimer.start now period) ls' (tr.filterMap TimerObs.event?) t ∧ x.Tracks t ∧
          (x.CanTick time ↔ t.isDue (timerRules .exact) = true) := by
  intro hall
  have hrun := LTS.Run.exec_get lts (fun x l => Prompt .millis x l = true) (start 0 1500000)
    betweenMillis (by decide)
  obtain ⟨ls', t, -, htracks, hcan⟩ := hall hrun
  rw [htracks.canTick_iff] at hcan
  obtain ⟨hnow, h, hh, hheld⟩ := htracks
  have htasks : h.toState.tasks = [.running [] (.selecting 1500000 1500000)] := by
    rw [← hh]
    decide
  -- both timers sleep to the same deadline, but the driver does not wake the task yet
  cases h with
  | fresh period commands resetter => cases htasks
  | started k =>
      have hticks : k.ticks = 0 := by
        simpa [HeldTimer.toState, TimerChain.toState] using congrArg List.length htasks
      have hfuture : k.future = .selecting 1500000 1500000 := by
        simp [HeldTimer.toState, TimerChain.toState, hticks, links] at htasks
        exact htasks.2
      have hselecting := hheld.2
      rw [hfuture] at hselecting
      obtain ⟨hperiod, hmillis, b, hsince, hdeadline⟩ := hselecting
      rw [TimerFuture.isDue_iff hperiod hmillis hsince hdeadline,
        TimerFuture.isDue_iff hperiod hmillis hsince hdeadline, hnow] at hcan
      exact absurd (hcan.mpr (Nat.le_refl 1500000)) (by decide)

end ClockedTimer
