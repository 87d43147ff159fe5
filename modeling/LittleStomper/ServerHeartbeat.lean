/-
# The server keeps its heart-beat promise

Between two outputs of a connected session lies at most the interval that its client asked
for, as far as the time driver keeps its deadlines.  The timer of the server heartbeat begins with
the session, and begins anew with every tick and with every message, so its deadline is never
later than the last output and one interval; and where a tick waits to be handled, the clock does.

The driver rounds a deadline up to a whole millisecond, so the interval is exceeded by less than
that (`TimedSession.promise_kept`), but it may be exceeded (`TimedSession.beat_late`).
-/
import LittleStomper.HeartbeatsStep
import LittleStomper.Backlog
import LittleStomper.Wire

/-! ## Schedules -/

namespace TimerState

/-- No task can move at any instant from `t` on and before `t'`. -/
def SettledUntil (time : TimeDriver) (s : TimerState) (t t' : Instant) : Prop :=
  ∀ u, t ≤ u → u < t' → s.isSettled time u = true

/-- What can move can move later. -/
theorem runTask_mono {s : TimerState} {i : TaskId} {move : TaskMove} {t t' : Instant}
    (hle : t ≤ t') (h : s.runTask t' i move = none) : s.runTask t i move = none := by
  have hreceive : ∀ {suspended period closed closed'},
      s.receive t' i suspended period closed = none →
        s.receive t i suspended period closed' = none := by
    intro suspended period closed closed' hr
    rw [receive] at hr ⊢
    split at hr
    · cases hr
    · split at hr
      · rename_i hresetter
        simp [hresetter]
      · cases hr
  rw [runTask] at h ⊢
  split
  · rename_i suspended future htask
    rw [htask] at h
    simp only at h
    split at h
    · cases h
    · exact hreceive h
    · exact hreceive h
    · split at h
      · cases h
      · rename_i hdue
        exact if_neg fun hdue' => hdue (hdue'.trans hle)
    · split at h
      · cases h
      · rename_i hdue
        exact if_neg fun hdue' => hdue (hdue'.trans hle)
    · rfl
  · rfl

/-- Who is awake stays so. -/
theorem isAwake_mono {time : TimeDriver} {s : TimerState} {i : TaskId} {move : TaskMove}
    {t t' : Instant} (hle : t ≤ t') (h : s.isAwake time t i move = true) :
    s.isAwake time t' i move = true := by
  cases move with
  | elapse =>
      rw [isAwake] at h ⊢
      cases hdeadline : s.tasks[i]?.bind TimerTask.deadline? with
      | none => rfl
      | some deadline =>
          rw [hdeadline, Option.all_some, decide_eq_true_eq] at h
          exact decide_eq_true (h.trans hle)
  | _ => rfl

/-- What the runtime does can be done later. -/
theorem canMove_mono {time : TimeDriver} {s : TimerState} {i : TaskId} {move : TaskMove}
    {t t' : Instant} (hle : t ≤ t') (h : s.canMove time t i move = true) :
    s.canMove time t' i move = true := by
  rw [canMove, Bool.and_eq_true] at h ⊢
  refine ⟨isAwake_mono hle h.1, ?_⟩
  by_contra hnone
  rw [Bool.not_eq_true, Option.isSome_eq_false_iff, Option.isNone_iff_eq_none] at hnone
  rw [runTask_mono hle hnone] at h
  cases h.2

/-- A timer is settled until an instant if it is settled just before. -/
theorem settledUntil_iff {time : TimeDriver} {s : TimerState} {t t' : Instant} :
    s.SettledUntil time t t' ↔ t' ≤ t ∨ s.isSettled time (t' - 1) = true := by
  constructor
  · intro h
    rcases Nat.lt_or_ge t t' with hlt | hge
    · exact Or.inr (h _ (Nat.le_sub_one_of_lt hlt) (Nat.sub_lt (Nat.zero_lt_of_lt hlt) Nat.one_pos))
    · exact Or.inl hge
  · intro h u htu hut'
    rcases h with hle | hsettled
    · exact absurd (htu.trans_lt (hut'.trans_le hle)) (Nat.lt_irrefl _)
    · rw [isSettled, List.all_eq_true] at hsettled ⊢
      intro i hi
      have hlast := hsettled i hi
      rw [List.all_eq_true] at hlast ⊢
      intro move hmove
      have hstuck := hlast move hmove
      rw [Bool.not_eq_true'] at hstuck ⊢
      by_contra hcan
      rw [Bool.not_eq_false] at hcan
      rw [canMove_mono (Nat.le_sub_one_of_lt hut') hcan] at hstuck
      cases hstuck

instance (time : TimeDriver) (s : TimerState) (t t' : Instant) :
    Decidable (s.SettledUntil time t t') :=
  decidable_of_iff _ settledUntil_iff.symm

end TimerState

/-- The schedules of a session in which the clock moves only as far as nothing is ready to be
handled, and the sink accepts all output: the session's channel is empty, a poll of its heartbeat
stream finds nothing, and the tasks of the stream cannot move at any earlier instant. -/
def Attentive (time : TimeDriver) (x : TimedSession) : TimedLabel → Bool
  | .advance d => match x.session with
    | .running r => r.events.isEmpty && x.heartbeats.all fun h =>
        h.server.isIdle && h.server.SettledUntil time x.now (x.now + d)
    | _ => true
  | .session .sinkFails _ => false
  | _ => true

/-- The instants of the outputs. -/
def TimedObs.output? : TimedObs → Option Instant
  | session now (.output _) => some now
  | _ => none

/-- The instant of the last output. -/
def lastOutput (tr : List TimedObs) : Option Instant := (tr.filterMap TimedObs.output?).getLast?

/-! ## Deadlines -/

/-- The call is up by the interval `e` after the instant `o`. -/
def TimerFuture.UpBy (now o e : Nat) : TimerFuture → Prop
  | created _ => o = now
  | selecting _ deadline => deadline ≤ o + e
  | _ => True

/-- **The promise**: the last output was at `o`, and whoever sleeps to the end of the interval `e`
after it is woken now at the earliest.  A timer that has not begun begins now; if a tick waits, it
is from now; and otherwise the next tick comes in time. -/
structure HeldTimer.Promise (time : TimeDriver) (now o e : Nat) (h : HeldTimer) : Prop where
  past : o ≤ now
  kept : now ≤ time.wake (o + e)
  commands : h.commands ≠ [] → o = now
  deadline : match h with
    | fresh _ _ _ => o = now
    | started k => k.future.UpBy now now e ∧ (k.polled = k.ticks → k.future.UpBy now o e)

namespace HeldTimer

variable {time : TimeDriver} {now o e : Nat} {h h' : HeldTimer} {a : TimerAction}
  {os : List TimerObs}

/-- Nobody is woken before an interval begins. -/
theorem le_wake_add (time : TimeDriver) (now e : Nat) : now ≤ time.wake (now + e) :=
  (Nat.le_add_right now e).trans (time.notBefore _)

/-- An output keeps the promise. -/
theorem Promise.output (hp : h.Promise time now o e) : h.Promise time now now e := by
  refine ⟨le_rfl, le_wake_add time now e, fun _ => rfl, ?_⟩
  have hdeadline := hp.deadline
  cases h with
  | fresh period commands resetter => rfl
  | started k => exact ⟨hdeadline.1, fun _ => hdeadline.1⟩

/-- So does an output with a reset. -/
theorem Promise.reacts (hp : h.Promise time now o e) (asked : Bool) :
    (h.reacts asked).Promise time now now e := by
  have hout := hp.output
  cases asked with
  | false => exact hout
  | true =>
      refine ⟨le_rfl, le_wake_add time now e, fun _ => rfl, ?_⟩
      have hdeadline := hout.deadline
      cases h with
      | fresh period commands resetter => rfl
      | started k => exact hdeadline

/-- A call that begins now is up in time. -/
theorem upBy_create {p : Duration} (hle : p ≤ e) :
    (createTaskWithReceiver now p).UpBy now now e := by
  rw [createTaskWithReceiver]
  split
  · trivial
  · exact Nat.add_le_add_left hle now

/-- **Every step of the timer keeps the promise**, if a tick that is picked up is followed by an
output. -/
theorem Promise.step (hp : h.Promise time now o e) (hstep : Step now h a h' os)
    (hserves : h.Serves e) (hcommand : ∀ c, a ≠ .command c) (hresetter : a ≠ .dropResetter) :
    h'.Promise time now (if os.any (·.isEmission) then now else o) e := by
  have hdeadline := hp.deadline
  cases hstep with
  | sent hresetter' haccepts => exact absurd rfl (hcommand _)
  | unsent hresetter' haccepts => exact absurd rfl (hcommand _)
  | dropResetter hresetter' => exact absurd rfl hresetter
  | initialised => exact ⟨hp.past, hp.kept, hp.commands, rfl, fun _ => hdeadline⟩
  | waits hpolled => exact hp
  | emits hpolled =>
      exact ⟨le_rfl, le_wake_add time now e, fun _ => rfl, hdeadline.1, fun _ => hdeadline.1⟩
  | @starts k p hfuture =>
      have hpe : p = e := by
        have hshape := hserves.2.2.2
        rw [hfuture] at hshape
        simpa using hshape
      have hup := @upBy_create now e p hpe.le
      refine ⟨hp.past, hp.kept, hp.commands, hup, fun hpolled => ?_⟩
      have ho : o = now := by
        have hcreated := hdeadline.2 hpolled
        rwa [hfuture] at hcreated
      simp only [List.any_nil, Bool.false_eq_true, if_false]
      rw [ho]
      exact hup
  | @consumes k p c commands hfuture hcommands =>
      have hpe := hserves.awaiting hfuture
      have ho : o = now := hp.commands (by
        show k.commands ≠ []
        rw [hcommands]
        simp)
      have hc : c = .reset := hserves.2.1 c (by
        show c ∈ k.commands
        rw [hcommands]
        exact List.mem_cons_self)
      subst hc ho
      have hup := @upBy_create o e p hpe.le
      exact ⟨le_rfl, hp.kept, fun _ => rfl, hup, fun _ => hup⟩
  | stops hfuture hcommands hresetter' => cases hserves.1.symm.trans hresetter'
  | closes hfuture hcommands hresetter' => cases hserves.1.symm.trans hresetter'
  | @ticks k p deadline hfuture hdue =>
      refine ⟨hp.past, hp.kept, hp.commands, rfl, fun hpolled => ?_⟩
      have hle := k.polled_le
      have hpolled : k.polled = k.ticks + 1 := hpolled
      omega
  | ticksAlone hfuture hdue =>
      have hshape := hserves.2.2.2
      rw [hfuture] at hshape
      simp at hshape

/-- Where the last task cannot move, no command waits for it and the driver does not wake it. -/
theorem Serves.stuck {k : TimerChain} (hserves : (started k).Serves e)
    (hsettled : k.toState.isSettled time now = true) :
    (∀ p, k.future ≠ .created p) ∧ k.commands = [] ∧
      ∀ p deadline, k.future = .selecting p deadline → now < time.wake deadline := by
  have hcreated : ∀ p, k.future ≠ .created p := by
    intro p hfuture
    have hstep := (@Step.starts now k p hfuture).enabled
    rw [stuck_of_settled hsettled rfl] at hstep
    cases hstep
  refine ⟨hcreated, ?_, ?_⟩
  · cases hcommands : k.commands with
    | nil => rfl
    | cons c commands =>
        have hawait : ∃ p, k.future.awaiting? = some p := by
          obtain ⟨-, -, -, hk | ⟨hk, -⟩ | ⟨deadline, hk, -⟩⟩ := hserves
          · exact absurd hk (hcreated _)
          · exact ⟨_, by rw [hk]; rfl⟩
          · exact ⟨_, by rw [hk]; rfl⟩
        obtain ⟨p, hp⟩ := hawait
        have hstep := (@Step.consumes now k p c commands hp hcommands).enabled
        rw [stuck_of_settled hsettled rfl] at hstep
        cases hstep
  · intro p deadline hfuture
    by_contra hdue
    have hwoken : time.wake deadline ≤ now := Nat.le_of_not_lt hdue
    have hstep := (Step.ticks hfuture ((time.notBefore deadline).trans hwoken)).enabled
    have hawake : k.toState.isAwake time now k.ticks .elapse = true := by
      rw [isAwake_last, hfuture]
      exact decide_eq_true hwoken
    rw [stuck_of_settled hsettled hawake] at hstep
    cases hstep

/-- **Time that passes keeps the promise**, as long as nothing is ready to be handled. -/
theorem Promise.advance {d : Duration} (hp : h.Promise time now o e) (hserves : h.Serves e)
    (hmillis : Duration.asMillis e ≠ 0) (hidle : h.toState.isIdle = true)
    (hsettled : h.toState.SettledUntil time now (now + d)) : h.Promise time (now + d) o e := by
  rcases Nat.eq_zero_or_pos d with rfl | hd
  · exact hp
  cases h with
  | fresh period commands resetter => simp at hidle
  | started k =>
      have hpolled : k.polled = k.ticks := by simpa using hidle
      have hdeadline := hp.deadline
      have hlast : k.toState.isSettled time (now + d - 1) = true :=
        hsettled (now + d - 1) (by lia) (by lia)
      obtain ⟨hcreated, hcommands, hselecting⟩ := hserves.stuck hlast
      obtain ⟨-, -, -, hk | ⟨-, hzero⟩ | ⟨deadline, hk, -⟩⟩ := hserves
      · exact absurd hk (hcreated _)
      · exact absurd hzero hmillis
      · have hasleep := hselecting _ _ hk
        have hup := hdeadline.2 hpolled
        rw [hk] at hup
        have hup : deadline ≤ o + e := hup
        have hwake := time.mono hup
        have hpast := hp.past
        refine ⟨by lia, by lia, fun hne => absurd hcommands hne, ?_, fun _ => ?_⟩
        · rw [hk]
          show deadline ≤ now + d + e
          lia
        · rw [hk]
          exact hup

/-- A timer that serves can be polled, and emits only if its period elapses. -/
theorem Serves.poll (hserves : h.Serves e) (now : Instant) :
    ∃ h' os, h.toState.step now .poll = some (HeldTimer.toState h', os) ∧ Step now h .poll h' os ∧
      (os.any (·.isEmission) = true → Duration.asMillis e ≠ 0) := by
  cases h with
  | fresh period commands resetter =>
      have hstep := @Step.initialised now period commands resetter
      exact ⟨_, _, hstep.enabled, hstep, by simp [TimerObs.isEmission]⟩
  | started k =>
      rcases Nat.lt_or_eq_of_le k.polled_le with hpolled | hpolled
      · have hstep := @Step.emits now k hpolled
        refine ⟨_, _, hstep.enabled, hstep, fun _ => hserves.2.2.1 ?_⟩
        omega
      · have hstep := @Step.waits now k hpolled
        exact ⟨_, _, hstep.enabled, hstep, by simp [TimerObs.isEmission]⟩

end HeldTimer

/-! ## Runs -/

theorem Duration.asMillis_fromMillis (n : Nat) : (Duration.fromMillis n).asMillis = n := by
  simp [Duration.asMillis, Duration.fromMillis]

/-- The last output of a run that goes on without one. -/
theorem lastOutput_append_of_silent {tr : List TimedObs} {t : Instant} {sos : List SessionObs}
    (h : ∀ m, .output m ∉ sos) : lastOutput (tr ++ sos.map (.session t)) = lastOutput tr := by
  have hnone : (sos.map (TimedObs.session t)).filterMap TimedObs.output? = [] := by
    rw [List.filterMap_eq_nil_iff]
    intro o ho
    obtain ⟨so, hso, rfl⟩ := List.mem_map.mp ho
    cases so with
    | output m => exact absurd hso (h m)
    | _ => rfl
  rw [lastOutput, lastOutput, List.filterMap_append, hnone, List.append_nil]

/-- The last output of a run that goes on with one. -/
theorem lastOutput_append_of_output {tr : List TimedObs} {t : Instant} {sos : List SessionObs}
    {m : ServerMessage} (h : .output m ∈ sos) :
    lastOutput (tr ++ sos.map (.session t)) = some t := by
  have hall : ∀ u ∈ (sos.map (TimedObs.session t)).filterMap TimedObs.output?, u = t := by
    intro u hu
    obtain ⟨o, ho, hout⟩ := List.mem_filterMap.mp hu
    obtain ⟨so, -, rfl⟩ := List.mem_map.mp ho
    cases so with
    | output m => exact (Option.some.inj hout).symm
    | _ => cases hout
  have hmem : t ∈ (sos.map (TimedObs.session t)).filterMap TimedObs.output? :=
    List.mem_filterMap.mpr ⟨_, List.mem_map.mpr ⟨_, h, rfl⟩, rfl⟩
  rw [lastOutput, List.filterMap_append, List.getLast?_append]
  cases hlast : ((sos.map (TimedObs.session t)).filterMap TimedObs.output?).getLast? with
  | none =>
      rw [List.getLast?_eq_none_iff] at hlast
      rw [hlast] at hmem
      cases hmem
  | some u => simp [hall u (List.mem_of_getLast? hlast)]

namespace Session

variable {p : Params} {r r' : ClientSession} {os : List SessionObs}

/-- A tick that is handled becomes a heartbeat for the client. -/
theorem Turn.output_of_heartbeat (h : Turn p (running r) .heartbeat (running r') os) :
    ∃ m, .output m ∈ os := by
  cases h with
  | heartbeat hheartbeat hhandles =>
      cases hhandles with
      | goesOn hpanic hends =>
          exact ⟨.inr eol, by
            simp [ClientSession.message?, ClientEvent.fault?, ClientEvent.plain?]⟩

end Session

namespace TimedSession

variable {p : Params} {time : TimeDriver} {x : TimedSession} {now : Instant}
  {ls : List TimedLabel} {tr : List TimedObs}

/-- The session was connected by a client that wants to hear from it in a certain interval, and
unless this is `0`, the promise is kept. -/
def KeepsPromise (time : TimeDriver) (t : Instant) (r : ClientSession) (h : HeldTimer)
    (tr : List TimedObs) : Prop :=
  (∃ t₀ intervals, tr.head? = some (.session t₀ (.handled (.connected intervals))) ∧
    intervals.supplied.toNat = r.serverHeartbeat) ∧
  (0 < r.serverHeartbeat → ∃ o, lastOutput tr = some o ∧
    h.Promise time t o (Duration.fromMillis r.serverHeartbeat))

/-- A session that goes on was connected before, so only its last output is of interest. -/
theorem KeepsPromise.append {t : Instant} {r r' : ClientSession} {h h' : HeldTimer}
    {os : List TimedObs} (hkeeps : KeepsPromise time t r h tr)
    (hinterval : r'.serverHeartbeat = r.serverHeartbeat)
    (hpromise : ∀ o, lastOutput tr = some o →
      h.Promise time t o (Duration.fromMillis r.serverHeartbeat) →
      ∃ o', lastOutput (tr ++ os) = some o' ∧
        h'.Promise time t o' (Duration.fromMillis r.serverHeartbeat)) :
    KeepsPromise time t r' h' (tr ++ os) := by
  obtain ⟨⟨t₀, intervals, hhead, hsupplied⟩, hkept⟩ := hkeeps
  constructor
  · exact ⟨t₀, intervals, by rw [List.head?_append, hhead]; rfl, hsupplied.trans hinterval.symm⟩
  · rw [hinterval]
    intro hpos
    obtain ⟨o, ho, hp⟩ := hkept hpos
    exact hpromise o ho hp

/-- **All that happens keeps the promise.** -/
theorem keepsPromise :
    Kept p (fun x l => Attentive time x l = true) (KeepsPromise time) where
  connect := by
    intro t item factory r sos hturn
    cases hturn with
    | @connected _ _ requested client _ hfirst hnew =>
        obtain ⟨period, -, rfl⟩ := Option.map_eq_some_iff.mp hnew
        refine ⟨⟨t, _, rfl, rfl⟩, fun hpos => ?_⟩
        refine ⟨t, rfl, le_rfl, HeldTimer.le_wake_add _ _ _, ?_, rfl⟩
        intro hcommands
        rfl
  advance := by
    intro t r h client tr d hkeeps hserves hC
    refine ⟨hkeeps.1, fun hpos => ?_⟩
    obtain ⟨o, ho, hp⟩ := hkeeps.2 hpos
    simp only [Attentive, Option.all_some, Bool.and_eq_true, decide_eq_true_eq] at hC
    obtain ⟨-, hidle, hsettled⟩ := hC
    refine ⟨o, ho, hp.advance hserves ?_ hidle hsettled⟩
    rw [Duration.asMillis_fromMillis]
    omega
  moves := by
    intro t r h tr input r' sos hkeeps hserves hturn
    refine hkeeps.append hturn.intervals.1 fun o ho hp => ?_
    by_cases hout : ∃ m, .output m ∈ sos
    · obtain ⟨m, hm⟩ := hout
      exact ⟨t, lastOutput_append_of_output hm, hp.reacts _⟩
    · -- then nothing was reset
      have hreset : .reset .server ∉ sos := fun hreset => hout (hturn.output_of_reset hreset)
      rw [lastOutput_append_of_silent fun m hm => hout ⟨m, hm⟩]
      simp only [hreset, decide_false]
      exact ⟨o, ho, hp⟩
  beats := by
    intro t r h tr h' tos r' sos hkeeps hserves hstep hemission hturn
    refine hkeeps.append hturn.intervals.1 fun o ho hp => ?_
    obtain ⟨m, hm⟩ := hturn.output_of_heartbeat
    have hp' := hp.step hstep hserves (by simp) (by simp)
    rw [if_pos hemission] at hp'
    exact ⟨t, lastOutput_append_of_output hm, hp'.reacts _⟩
  timer := by
    intro t r h tr a h' tos hkeeps hserves hstep hcommand hresetter hemission
    refine ⟨hkeeps.1, fun hpos => ?_⟩
    obtain ⟨o, ho, hp⟩ := hkeeps.2 hpos
    have hp' := hp.step hstep hserves hcommand hresetter
    rw [hemission] at hp'
    exact ⟨o, ho, hp'⟩
  missed := by
    intro t r h tr r' hkeeps hturn
    refine hkeeps.append hturn.intervals.1 fun o ho hp => ⟨o, ?_, hp⟩
    rw [← ho]
    simp [lastOutput, TimedObs.output?]

/-- Who has not been woken after an interval has waited for less than a millisecond more. -/
theorem within_of_le_wake {t o : Instant} {e : Nat}
    (h : t ≤ time.wake (o + Duration.fromMillis e)) :
    t < o + Duration.fromMillis (e + 1) ∧
      ∀ millis, o = Duration.fromMillis millis → t ≤ o + Duration.fromMillis e := by
  have hadd : ∀ a b, Duration.fromMillis (a + b) = Duration.fromMillis a + Duration.fromMillis b :=
    fun a b => Nat.add_mul a b _
  constructor
  · rw [hadd, ← Nat.add_assoc]
    exact h.trans_lt (time.wake_lt _)
  · rintro millis rfl
    rwa [← hadd, time.onTime, hadd] at h

/-- **The server keeps its heart-beat promise.**  Whenever a session is connected whose client
wants to hear from it in an interval, the last output is no longer ago than a sleep of the interval
takes: less than the interval and a millisecond ago, and at most the interval if it came at a whole
millisecond. -/
theorem promise_kept
    (hrun : (lts p).Run (fun x l => Attentive time x l = true) (start now) ls tr x)
    {r : ClientSession} (hr : x.session = .running r) :
    ∃ t₀ intervals, tr.head? = some (.session t₀ (.handled (.connected intervals))) ∧
      (0 < intervals.supplied.toNat → ∃ o, lastOutput tr = some o ∧
        x.now ≤ time.wake (o + Duration.fromMillis intervals.supplied.toNat) ∧
        x.now < o + Duration.fromMillis (intervals.supplied.toNat + 1) ∧
        ∀ millis, o = Duration.fromMillis millis →
          x.now ≤ o + Duration.fromMillis intervals.supplied.toNat) := by
  obtain ⟨h, client, -, -, ⟨t₀, intervals, hhead, hsupplied⟩, hkept⟩ :=
    (holds keepsPromise hrun).2 r hr
  refine ⟨t₀, intervals, hhead, ?_⟩
  rw [hsupplied]
  intro hpos
  obtain ⟨o, ho, hp⟩ := hkept hpos
  exact ⟨o, ho, hp.kept, within_of_le_wake hp.kept⟩

/-- A CONNECT frame whose client wants to hear from the server every 5000 milliseconds. -/
def expectantConnect : ClientFrame := .connect ⟨[.v1_2], ⟨0, 5000⟩, none, none⟩

/-- The client connects, hears from the server after 5000 milliseconds, and waits on. -/
def firstBeat : List TimedLabel :=
  [.session (.first expectantConnect.item defaultClientFactory) (fun _ => false),
    .pollServer (fun _ => false), .serverTask 0 .start, .advance (Duration.fromMillis 5000),
    .serverTask 0 .elapse, .pollServer (fun _ => false), .serverTask 1 .start,
    .advance (Duration.fromMillis 3000)]

/-- The theorem applied to this client. -/
theorem promise_kept_firstBeat :
    ∃ tr x r, (lts (Params.knowing [expectantConnect] true)).Run
        (fun x l => Attentive .millis x l = true) (start 0) firstBeat tr x ∧
      x.session = .running r ∧ x.now = Duration.fromMillis 8000 ∧
      .session (Duration.fromMillis 5000) (.output (.inr eol)) ∈ tr ∧
      ∃ t₀ intervals, tr.head? = some (.session t₀ (.handled (.connected intervals))) ∧
        (0 < intervals.supplied.toNat → ∃ o, lastOutput tr = some o ∧
          x.now ≤ TimeDriver.millis.wake (o + Duration.fromMillis intervals.supplied.toNat) ∧
          x.now < o + Duration.fromMillis (intervals.supplied.toNat + 1) ∧
          ∀ millis, o = Duration.fromMillis millis →
            x.now ≤ o + Duration.fromMillis intervals.supplied.toNat) := by
  let p := Params.knowing [expectantConnect] true
  let x := ((lts p).exec (fun x l => Attentive .millis x l = true) (start 0) firstBeat).get
    (by decide)
  have hrun : (lts p).Run (fun x l => Attentive .millis x l = true) (start 0) firstBeat x.2 x.1 :=
    LTS.Run.exec_get _ _ _ _ (by decide)
  obtain ⟨r, hr⟩ := Session.eq_running_of_isRunning (s := x.1.session) (by decide)
  exact ⟨_, _, r, hrun, hr, by decide, by decide, promise_kept hrun hr⟩

/-- A message comes half a millisecond after its client has connected, and the session puts it out
at once.  The next heartbeat is to come 5000 milliseconds later, but the driver rounds up. -/
def beatAfterMessage : List TimedLabel :=
  [.session (.first expectantConnect.item defaultClientFactory) (fun _ => false),
    .pollServer (fun _ => false), .serverTask 0 .start, .advance 500000,
    .session (.deliver (.serverMessage ⟨"sub-0"⟩ ⟨sampleDestination, ⟨"uuid-1"⟩, []⟩))
      (fun _ => false),
    .session (.own false) (fun _ => false), .serverTask 0 .receive,
    .advance (Duration.fromMillis 5001 - 500000)]

/-- **A heartbeat may be late**: a session need not put anything out for longer than its client
asked for. -/
theorem beat_late :
    ¬ ∀ {p : Params} {time : TimeDriver} {now : Instant} {ls : List TimedLabel}
        {tr : List TimedObs} {x : TimedSession} {r : ClientSession},
        (lts p).Run (fun x l => Attentive time x l = true) (start now) ls tr x →
        x.session = .running r →
        ∃ t₀ intervals, tr.head? = some (.session t₀ (.handled (.connected intervals))) ∧
          (0 < intervals.supplied.toNat → ∃ o, lastOutput tr = some o ∧
            x.now ≤ o + Duration.fromMillis intervals.supplied.toNat) := by
  intro hall
  let p := Params.knowing [expectantConnect] true
  let x := ((lts p).exec (fun x l => Attentive .millis x l = true) (start 0)
    beatAfterMessage).get (by decide)
  have hrun : (lts p).Run (fun x l => Attentive .millis x l = true) (start 0) beatAfterMessage
      x.2 x.1 := LTS.Run.exec_get _ _ _ _ (by decide)
  obtain ⟨r, hr⟩ := Session.eq_running_of_isRunning (s := x.1.session) (by decide)
  obtain ⟨t₀, intervals, hhead, hkept⟩ := hall hrun hr
  have hconnected : x.2.head? = some (.session 0 (.handled (.connected ⟨5000, 0⟩))) := by decide
  obtain ⟨-, hhandled⟩ := TimedObs.session.inj (Option.some.inj (hconnected.symm.trans hhead))
  obtain rfl := ClientEvent.connected.inj (SessionObs.handled.inj hhandled)
  obtain ⟨o, ho, hle⟩ := hkept (by decide)
  have hlast : lastOutput x.2 = some 500000 := by decide
  obtain rfl := Option.some.inj (hlast.symm.trans ho)
  exact absurd hle (by decide)

end TimedSession
