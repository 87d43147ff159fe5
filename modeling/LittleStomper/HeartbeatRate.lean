/-
# The server does not flood its clients

The promise of the server heartbeat bounds the silence from above; here is the bound from the
other side.  A session puts out a heartbeat for each tick that it picks up, and every tick took
a whole interval of sleep.  So there are never more heartbeats than intervals have gone by since
the session was connected, however late the stream is polled, however many ticks wait to be
picked up, and whatever is reset; and a client that asks for none gets none.
-/
import LittleStomper.ServerHeartbeat

open ClientEvent

/-! ## What counts as a heartbeat -/

/-- The session has put out a heartbeat. -/
def SessionObs.isBeat : SessionObs → Bool
  | output (.inr _) => true
  | _ => false

/-- A session has put out a heartbeat. -/
def TimedObs.isBeat : TimedObs → Bool
  | session _ o => o.isBeat
  | _ => false

/-- The number of heartbeats that were put out. -/
def beats (tr : List TimedObs) : Nat := tr.countP (·.isBeat)

@[simp] theorem beats_append (tr os : List TimedObs) : beats (tr ++ os) = beats tr + beats os :=
  List.countP_append

@[simp] theorem beats_map_session (t : Instant) (sos : List SessionObs) :
    beats (sos.map (.session t)) = sos.countP (·.isBeat) := by
  rw [beats, List.countP_map]
  rfl

/-! ## The heartbeats of a session -/

namespace Session

variable {p : Params} {r r' : ClientSession} {input : SessionInput} {s' : Session}
  {os : List SessionObs}

/-- Nobody but the heartbeat stream makes the session put out a heartbeat. -/
def Unticked (r : ClientSession) : Prop := .heartbeat ∉ r.events

/-- Only a tick becomes a heartbeat. -/
theorem isBeat_message? {e : ClientEvent} (he : e ≠ .heartbeat) :
    ((r.message? p e).toList.map SessionObs.output).countP (·.isBeat) = 0 := by
  rw [List.countP_eq_zero]
  intro o ho
  obtain ⟨m, hm, rfl⟩ := List.mem_map.mp ho
  rw [Option.mem_toList] at hm
  unfold ClientSession.message? at hm
  split at hm
  · obtain rfl := Option.some.inj hm
    simp [SessionObs.isBeat]
  · cases e with
    | connected intervals => obtain rfl := Option.some.inj hm; simp [SessionObs.isBeat]
    | serverMessage i message => obtain rfl := Option.some.inj hm; simp [SessionObs.isBeat]
    | heartbeat => exact absurd rfl he
    | _ => cases hm

/-- No heartbeat is put out before the outcome is clear. -/
theorem countP_isBeat_begun (r : ClientSession) (e : ClientEvent) :
    (begun r e).countP (·.isBeat) = 0 := by
  rw [List.countP_eq_zero]
  intro o ho
  simp only [begun, List.cons_append, List.mem_cons, List.mem_append, List.mem_map] at ho
  rcases ho with rfl | ⟨timer, -, rfl⟩ | ⟨call, -, rfl⟩ <;> simp [SessionObs.isBeat]

/-- An event that is no tick puts out no heartbeat, and no event puts out two. -/
theorem Handles.beats {resetFails : Bool} {e : ClientEvent}
    (h : Handles p r resetFails e s' os) :
    os.countP (·.isBeat) ≤ 1 ∧ (e ≠ .heartbeat → os.countP (·.isBeat) = 0) := by
  have hpanicked : [SessionObs.panicked].countP (·.isBeat) = 0 := rfl
  cases h with
  | stuck hpanic =>
      have hnone : (.handled e :: clientMessageReceived e ++ [SessionObs.panicked]).countP
          (·.isBeat) = 0 := by cases e <;> rfl
      exact ⟨by rw [hnone]; exact Nat.zero_le 1, fun _ => hnone⟩
  | callPanics hpanic hcall => simp [countP_isBeat_begun, hpanicked]
  | ends hpanic hends => simp [countP_isBeat_begun]
  | goesOn hpanic hends =>
      rw [List.countP_append, countP_isBeat_begun, Nat.zero_add]
      refine ⟨?_, fun he => isBeat_message? he⟩
      refine Nat.le_trans List.countP_le_length ?_
      cases r.message? p e <;> simp

/-- The handler of an event leaves no tick in the channel. -/
theorem Handles.unticked {resetFails : Bool} {e : ClientEvent}
    (h : Handles p r resetFails e (running r') os) (hr : Unticked r) : Unticked r' := by
  cases h with
  | goesOn hpanic hends =>
      intro hin
      rcases List.mem_append.mp hin with hin | hin
      · exact hr hin
      · split at hin <;> simp at hin

/-- An item of the client's stream is no tick. -/
theorem clientEvent_ne_heartbeat (item : Option (StomperResult Bytes)) :
    clientEvent p item ≠ .heartbeat := by
  unfold clientEvent
  split
  · simp
  · simp
  · split <;> simp

/-- No step of a session leaves a tick in its channel. -/
theorem Turn.unticked (h : Turn p (running r) input (running r') os) (hr : Unticked r) :
    Unticked r' := by
  cases h with
  | client hhandles => exact hhandles.unticked hr
  | own hevents hhandles =>
      refine hhandles.unticked fun hin => hr ?_
      rw [hevents]
      exact List.mem_cons_of_mem _ hin
  | heartbeat hheartbeat hhandles => exact hhandles.unticked hr
  | missed hlistening hheartbeat =>
      intro hin
      rcases List.mem_append.mp hin with hin | hin
      · exact hr hin
      · simp at hin
  | @delivered _ e hfrom =>
      intro hin
      rcases List.mem_append.mp hin with hin | hin
      · exact hr hin
      · obtain rfl := List.mem_singleton.mp hin
        cases hfrom

/-- **Only the heartbeat stream makes a session put out a heartbeat**, one for each tick. -/
theorem Turn.beats (h : Turn p (running r) input s' os) (hr : Unticked r) :
    os.countP (·.isBeat) ≤ 1 ∧ (input ≠ .heartbeat → os.countP (·.isBeat) = 0) := by
  cases h with
  | client hhandles =>
      exact ⟨hhandles.beats.1, fun _ => hhandles.beats.2 (clientEvent_ne_heartbeat _)⟩
  | own hevents hhandles =>
      refine ⟨hhandles.beats.1, fun _ => hhandles.beats.2 ?_⟩
      rintro rfl
      exact hr (by rw [hevents]; exact List.mem_cons_self)
  | heartbeat hheartbeat hhandles => exact ⟨hhandles.beats.1, fun hne => absurd rfl hne⟩
  | missed hlistening hheartbeat => exact ⟨Nat.zero_le _, fun _ => rfl⟩
  | delivered hfrom => exact ⟨Nat.zero_le _, fun _ => rfl⟩
  | sinkFails => exact ⟨Nat.zero_le _, fun _ => rfl⟩

end Session

/-! ## The ticks of a timer -/

namespace HeldTimer

variable {t₀ now e : Nat} {h h' : HeldTimer} {a : TimerAction} {os : List TimerObs}

/-- The ticks that were picked up. -/
def picked : HeldTimer → Nat
  | fresh _ _ _ => 0
  | started k => k.polled

/-- **Every tick took the interval `e`**, from the instant `t₀` on; and so will the next one. -/
def Spaced (t₀ now e : Nat) : HeldTimer → Prop
  | fresh _ _ _ => t₀ ≤ now
  | started k => t₀ + k.ticks * e ≤ now ∧
      ∀ period deadline, k.future = .selecting period deadline → t₀ + (k.ticks + 1) * e ≤ deadline

/-- There is time for so many heartbeats, an interval each; below a millisecond there are none. -/
def Fits (t₀ now e n : Nat) : Prop := t₀ + n * e ≤ now ∧ (Duration.asMillis e = 0 → n = 0)

/-- Only so many ticks were picked up. -/
theorem Spaced.fits (hs : h.Spaced t₀ now e) (hserves : h.Serves e) {n : Nat}
    (hn : n ≤ h.picked) : Fits t₀ now e n := by
  cases h with
  | fresh period commands resetter =>
      obtain rfl := Nat.le_zero.mp hn
      refine ⟨?_, fun _ => rfl⟩
      rw [Nat.zero_mul]
      exact hs
  | started k =>
      have hticks : n ≤ k.ticks := Nat.le_trans hn k.polled_le
      refine ⟨Nat.le_trans (Nat.add_le_add_left (Nat.mul_le_mul_right e hticks) t₀) hs.1, ?_⟩
      intro hzero
      by_contra hne
      exact hserves.2.2.1 (fun h0 => hne (Nat.le_zero.mp (h0 ▸ hticks))) hzero

/-- Time passes. -/
theorem Spaced.advance (hs : h.Spaced t₀ now e) (d : Duration) : h.Spaced t₀ (now + d) e := by
  cases h with
  | fresh period commands resetter => exact Nat.le_trans hs (Nat.le_add_right _ _)
  | started k => exact ⟨Nat.le_trans hs.1 (Nat.le_add_right _ _), hs.2⟩

/-- A reset that was asked for waits in the channel. -/
theorem Spaced.reacts (hs : h.Spaced t₀ now e) (asked : Bool) :
    (h.reacts asked).Spaced t₀ now e ∧ (h.reacts asked).picked = h.picked := by
  cases asked with
  | false => exact ⟨hs, rfl⟩
  | true => cases h <;> exact ⟨hs, rfl⟩

/-- A call that begins now sleeps for the whole interval. -/
theorem le_deadline {n : Nat} {p period : Duration} {deadline : Instant}
    (hpast : t₀ + n * p ≤ now)
    (hcreate : createTaskWithReceiver now p = .selecting period deadline) :
    t₀ + (n + 1) * p ≤ deadline := by
  rw [createTaskWithReceiver] at hcreate
  split at hcreate
  · cases hcreate
  · obtain ⟨rfl, rfl⟩ := TimerFuture.selecting.inj hcreate
    rw [Nat.add_mul, Nat.one_mul, ← Nat.add_assoc]
    exact Nat.add_le_add_right hpast _

/-- **Every step of the timer keeps the ticks apart**, and picks up one tick at most. -/
theorem Spaced.step (hs : h.Spaced t₀ now e) (hstep : Step now h a h' os) (hserves : h.Serves e)
    (hcommand : ∀ c, a ≠ .command c) (hresetter : a ≠ .dropResetter) :
    h'.Spaced t₀ now e ∧ h'.picked = h.picked + os.countP (·.isEmission) := by
  cases hstep with
  | sent hresetter' haccepts => exact absurd rfl (hcommand _)
  | unsent hresetter' haccepts => exact absurd rfl (hcommand _)
  | dropResetter hresetter' => exact absurd rfl hresetter
  | initialised =>
      refine ⟨⟨?_, fun _ _ hfuture => by cases hfuture⟩, rfl⟩
      rw [Nat.zero_mul]
      exact hs
  | waits hpolled => exact ⟨hs, rfl⟩
  | emits hpolled => exact ⟨hs, rfl⟩
  | @starts k p hfuture =>
      have hpe : p = e := by
        have hshape := hserves.2.2.2
        rw [hfuture] at hshape
        simpa using hshape
      subst hpe
      exact ⟨⟨hs.1, fun _ _ hcreate => le_deadline hs.1 hcreate⟩, rfl⟩
  | @consumes k p c commands hfuture hcommands =>
      obtain rfl := hserves.awaiting hfuture
      have hc : c = .reset := hserves.2.1 c (by
        show c ∈ k.commands
        rw [hcommands]
        exact List.mem_cons_self)
      subst hc
      exact ⟨⟨hs.1, fun _ _ hcreate => le_deadline hs.1 hcreate⟩, rfl⟩
  | stops hfuture hcommands hresetter' => cases hserves.1.symm.trans hresetter'
  | closes hfuture hcommands hresetter' => cases hserves.1.symm.trans hresetter'
  | @ticks k p deadline hfuture hdue =>
      have hpast := Nat.le_trans (hs.2 p deadline hfuture) hdue
      exact ⟨⟨hpast, fun _ _ hcreate => by cases hcreate⟩, rfl⟩
  | ticksAlone hfuture hdue =>
      have hshape := hserves.2.2.2
      rw [hfuture] at hshape
      simp at hshape

end HeldTimer

/-! ## Runs -/

namespace TimedSession

variable {p : Params} {x x' : TimedSession} {now t₀ : Instant} {e : Nat} {l : TimedLabel}
  {ls : List TimedLabel} {tr os : List TimedObs}

/-- The session was connected at `t₀`: since then the interval `e` has gone by at least once for
every heartbeat, and while the session runs, for every tick that its timer has picked up. -/
structure Paces (t₀ e : Nat) (x : TimedSession) (tr : List TimedObs) : Prop where
  begun : x.session ≠ .awaiting
  kept : HeldTimer.Fits t₀ x.now e (beats tr)
  timer : ∀ r, x.session = .running r →
    Duration.fromMillis r.serverHeartbeat = e ∧ Session.Unticked r ∧
      ∃ h client, x.heartbeats = some ⟨HeldTimer.toState h, client⟩ ∧ h.Serves e ∧
        h.Spaced t₀ x.now e ∧ beats tr ≤ h.picked

/-- A session that runs, with what its timer has picked up. -/
theorem Paces.of_running {t : Instant} {r : ClientSession} {h : HeldTimer} {client : TimerState}
    (hinterval : Duration.fromMillis r.serverHeartbeat = e) (hr : Session.Unticked r)
    (hserves : h.Serves e) (hspaced : h.Spaced t₀ t e) (hpicked : beats tr ≤ h.picked) :
    Paces t₀ e ⟨t, .running r, some ⟨h.toState, client⟩⟩ tr := by
  refine ⟨by simp, hspaced.fits hserves hpicked, fun r' hr' => ?_⟩
  obtain rfl := Session.running.inj hr'
  exact ⟨hinterval, hr, h, client, rfl, hserves, hspaced, hpicked⟩

/-- A session that moves, after its timer. -/
theorem Paces.of_turn {t : Instant} {r : ClientSession} {h : HeldTimer} {client : TimerState}
    {input : SessionInput} {s' : Session} {sos : List SessionObs}
    (hinterval : Duration.fromMillis r.serverHeartbeat = e) (hr : Session.Unticked r)
    (hserves : h.Serves e) (hspaced : h.Spaced t₀ t e)
    (hturn : Session.Turn p (.running r) input s' sos)
    (hpicked : beats tr + sos.countP (·.isBeat) ≤ h.picked) :
    Paces t₀ e ⟨t, s', Heartbeats.after t (some ⟨h.toState, client⟩) s' sos⟩
      (tr ++ sos.map (.session t)) := by
  have hbeats : beats (tr ++ sos.map (.session t)) ≤ h.picked := by simpa using hpicked
  cases s' with
  | awaiting => exact absurd rfl hturn.ne_awaiting
  | ended => exact ⟨by simp, hspaced.fits hserves hbeats, by simp⟩
  | running r' =>
      obtain ⟨hreacts, hsame⟩ := hspaced.reacts (decide (.reset .server ∈ sos))
      rw [hserves.after_server]
      refine Paces.of_running (by rw [hturn.intervals.1, hinterval]) (hturn.unticked hr)
        (hserves.reacts _) hreacts ?_
      rwa [hsame]

/-- **Every step keeps the pace.** -/
theorem Paces.step (hx : Paces t₀ e x tr) (hstep : (lts p).step x l = some (x', os)) :
    Paces t₀ e x' (tr ++ os) := by
  obtain ⟨t, s, hb⟩ := x
  cases s with
  | awaiting => exact absurd rfl hx.begun
  | ended =>
      obtain ⟨hended, rfl, hnow⟩ := ended_cases hstep
      rw [List.append_nil]
      exact ⟨by simp [hended], ⟨Nat.le_trans hx.kept.1 hnow, hx.kept.2⟩, by simp [hended]⟩
  | running r =>
      obtain ⟨hinterval, hr, h, client, rfl, hserves, hspaced, hpicked⟩ := hx.timer r rfl
      have htimer : ∀ {a : TimerAction} {server : TimerState} {tos : List TimerObs},
          (∀ c, a ≠ .command c) → a ≠ .dropResetter → a ≠ .drop →
          h.toState.step t a = some (server, tos) →
          ∃ h', server = HeldTimer.toState h' ∧ h'.Serves e ∧ h'.Spaced t₀ t e ∧
            h'.picked = h.picked + tos.countP (·.isEmission) := by
        intro a server tos hcommand hresetter hdrop hact
        obtain ⟨h', hserver, hheld, hserves'⟩ := hserves.step hcommand hresetter hdrop hact
        obtain ⟨hspaced', hpicked'⟩ := hspaced.step hheld hserves hcommand hresetter
        exact ⟨h', hserver, hserves', hspaced', hpicked'⟩
      cases turn_of_step hstep with
      | advance =>
          rw [List.append_nil]
          exact Paces.of_running hinterval hr hserves (hspaced.advance _) hpicked
      | @session input panics s' sos hallows hturn =>
          refine Paces.of_turn hinterval hr hserves hspaced hturn ?_
          have hinput : input ≠ .heartbeat := by
            rintro rfl
            cases hallows
          rw [(hturn.beats hr).2 hinput]
          exact hpicked
      | serverWaits hpoll hemission hpanic =>
          obtain ⟨h', rfl, hserves', hspaced', hpicked'⟩ :=
            htimer (by simp) (by simp) (by simp) hpoll
          rw [List.append_nil]
          exact Paces.of_running hinterval hr hserves' hspaced' (by omega)
      | serverPanics hpoll hpanic =>
          refine ⟨by simp, ?_, by simp⟩
          rw [beats_append]
          exact hx.kept
      | @serverBeats panics server tos s' sos hpoll hemission hturn =>
          obtain ⟨h', rfl, hserves', hspaced', hpicked'⟩ :=
            htimer (by simp) (by simp) (by simp) hpoll
          refine Paces.of_turn hinterval hr hserves' hspaced' hturn ?_
          have hone := (hturn.beats hr).1
          have hpos : 0 < tos.countP (·.isEmission) := by
            rw [List.countP_pos_iff]
            simpa using hemission
          omega
      | clientWaits hpoll hready =>
          rw [List.append_nil]
          exact Paces.of_running hinterval hr hserves hspaced hpicked
      | @missed client' tos s' hpoll hready hturn =>
          cases s' with
          | awaiting => exact absurd rfl hturn.ne_awaiting
          | ended => cases hturn
          | running r' =>
              refine Paces.of_running (by rw [hturn.intervals.1, hinterval]) (hturn.unticked hr)
                hserves hspaced ?_
              rw [beats_append]
              exact hpicked
      | unreported hpoll hready =>
          rw [List.append_nil]
          exact Paces.of_running hinterval hr hserves hspaced hpicked
      | serverTask htask =>
          obtain ⟨h', rfl, hserves', hspaced', hpicked'⟩ :=
            htimer (by simp) (by simp) (by simp) htask
          rw [List.append_nil]
          exact Paces.of_running hinterval hr hserves' hspaced' (by omega)
      | clientTask htask =>
          rw [List.append_nil]
          exact Paces.of_running hinterval hr hserves hspaced hpicked

/-- **In every run**, a session keeps the pace once it is connected. -/
theorem paces {C : TimedSession → TimedLabel → Prop} (hrun : (lts p).Run C (start now) ls tr x) :
    (x.session ≠ .awaiting → tr ≠ []) ∧
      ∀ t₀ intervals, tr.head? = some (.session t₀ (.handled (.connected intervals))) →
        Paces t₀ (Duration.fromMillis intervals.supplied.toNat) x tr := by
  refine hrun.invariant (P := fun x tr => (x.session ≠ .awaiting → tr ≠ []) ∧
      ∀ t₀ intervals, tr.head? = some (.session t₀ (.handled (.connected intervals))) →
        Paces t₀ (Duration.fromMillis intervals.supplied.toNat) x tr)
    ⟨fun hne => absurd rfl hne, by simp⟩ ?_
  rintro _ tr os ⟨t, s, hb⟩ x' l hrun' ⟨hbegun, hpaces⟩ - hstep
  by_cases hs : s = .awaiting
  · subst hs
    obtain ⟨rfl, rfl⟩ := (holds kept_true hrun').1 rfl
    rcases awaiting_cases hstep with ⟨d, rfl, rfl, rfl⟩ |
      ⟨item, factory, panics, s', sos, rfl, hturn, rfl, rfl⟩
    · exact ⟨fun hne => absurd rfl hne, by simp⟩
    · cases hturn with
      | rejected hfirst => simp
      | overflows hfirst hnew => simp
      | connected hfirst hnew =>
          obtain ⟨period, -, rfl⟩ := Option.map_eq_some_iff.mp hnew
          refine ⟨by simp, fun t₀ intervals hhead => ?_⟩
          obtain ⟨rfl, rfl⟩ : t = t₀ ∧ _ = intervals := by simpa using hhead
          refine ⟨by simp, ⟨Nat.le_of_eq ?_, fun _ => rfl⟩, fun r hr => ?_⟩
          · simp [beats, TimedObs.isBeat, SessionObs.isBeat]
          · obtain rfl := Session.running.inj hr
            exact ⟨rfl, List.not_mem_nil, .fresh _ [] true, _,
              Heartbeats.after_connected (by simp), ⟨rfl, by simp [HeldTimer.commands], rfl⟩,
              Nat.le_refl t, Nat.le_refl 0⟩
  · have hne : tr ≠ [] := hbegun hs
    refine ⟨fun _ => by simp [hne], fun t₀ intervals hhead => ?_⟩
    rw [List.head?_append_of_ne_nil _ hne] at hhead
    exact (hpaces t₀ intervals hhead).step hstep

/-- **The server does not flood its clients.**  In every run, whatever the schedule, a session
that was connected at `t₀` has put out at most as many heartbeats as intervals, of the length that
its client asked for, have gone by since then; and none at all if this asked for none. -/
theorem heartbeats_spaced (hrun : (lts p).Run LTS.Free (start now) ls tr x)
    {intervals : HeartBeatIntervalls}
    (hconnected : tr.head? = some (.session t₀ (.handled (.connected intervals)))) :
    t₀ + beats tr * Duration.fromMillis intervals.supplied.toNat ≤ x.now ∧
      (intervals.supplied = 0 → beats tr = 0) := by
  obtain ⟨hle, hzero⟩ := ((paces hrun).2 t₀ intervals hconnected).kept
  refine ⟨hle, fun hnone => hzero ?_⟩
  rw [hnone]
  rfl

/-- The stream is polled only after its second tick, and the ticks are picked up at once. -/
def lateBeats : List TimedLabel :=
  [.session (.first expectantConnect.item defaultClientFactory) (fun _ => false),
    .pollServer (fun _ => false), .serverTask 0 .start, .advance (Duration.fromMillis 5000),
    .serverTask 0 .elapse, .serverTask 1 .start, .advance (Duration.fromMillis 5000),
    .serverTask 1 .elapse, .pollServer (fun _ => false), .pollServer (fun _ => false)]

/-- The theorem applied to this session, which puts out two heartbeats at the end of the second
interval. -/
theorem heartbeats_spaced_late :
    let p := Params.knowing [expectantConnect] true
    ∃ tr x intervals, (lts p).Run LTS.Free (start 0) lateBeats tr x ∧
      tr.head? = some (.session 0 (.handled (.connected intervals))) ∧ beats tr = 2 ∧
      0 + beats tr * Duration.fromMillis intervals.supplied.toNat ≤ x.now ∧
      (intervals.supplied = 0 → beats tr = 0) := by
  intro p
  let r := ((lts p).exec LTS.Free (start 0) lateBeats).get (by decide)
  have hrun : (lts p).Run LTS.Free (start 0) lateBeats r.2 r.1 :=
    LTS.Run.exec_get _ _ _ _ (by decide)
  have hconnected : r.2.head? = some (.session 0 (.handled (.connected ⟨5000, 0⟩))) := by decide
  exact ⟨_, _, _, hrun, hconnected, by decide, heartbeats_spaced hrun hconnected⟩

end TimedSession
