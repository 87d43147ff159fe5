/-
# A client that keeps its promise is not timed out

The timer that watches the client has the client's interval and a fifth more, computed on
`u32`.  Where this does not overflow, the timer outlasts every gap that the client may leave,
as long as a reset that waits is not outrun by the sleep that it is to end (`unraced`).  From
`35791395` milliseconds on it overflows (`never_timed_out_iff`), and the timer may be up at
once (`timed_out_early`).
-/
import LittleStomper.HeartbeatsStep
import LittleStomper.OutputProtocol
import Mathlib.Data.List.Chain

/-! ## The interval -/

/-- The computation of the client's interval neither overflows nor wraps, and yields at least
what the client has promised. -/
def PeriodSound (p : Params) (s : UInt32) : Prop :=
  ∃ period, clientHeartbeatPeriod p s = some period ∧ period = s.toNat * 120 / 100 ∧
    s.toNat ≤ period

/-- **The interval is right exactly if the product fits into 32 bits.** -/
theorem periodSound_iff {p : Params} {s : UInt32} (hs : 0 < s) :
    PeriodSound p s ↔ s.toNat * 120 < 2 ^ 32 := by
  have hfactor : (heartbeatBufferPercent + 100).toNat = 120 := rfl
  have hproduct : (s * (heartbeatBufferPercent + 100) / 100).toNat
      = s.toNat * 120 % 2 ^ 32 / 100 := by
    rw [UInt32.toNat_div, UInt32.toNat_mul, hfactor]
    rfl
  constructor
  · rintro ⟨period, hperiod, hexact, -⟩
    rw [clientHeartbeatPeriod, if_pos hs, Option.map_eq_some_iff] at hperiod
    obtain ⟨product, hmul, rfl⟩ := hperiod
    rw [mulU32] at hmul
    split at hmul
    · cases hmul
    · obtain rfl := Option.some.inj hmul
      rw [hproduct] at hexact
      omega
  · intro hfits
    have hmul : mulU32 p s (heartbeatBufferPercent + 100)
        = some (s * (heartbeatBufferPercent + 100)) := by
      rw [mulU32, hfactor, if_neg]
      simp only [Bool.and_eq_true, decide_eq_true_eq, not_and, not_le]
      exact fun _ => hfits
    refine ⟨s.toNat * 120 / 100, ?_, rfl, by omega⟩
    rw [clientHeartbeatPeriod, if_pos hs, hmul, Option.map_some, hproduct, Nat.mod_eq_of_lt hfits]

/-! ## The timer -/

/-- The call is not up before the instant `t`. -/
def TimerFuture.UpFrom (t : Nat) : TimerFuture → Prop
  | selecting _ deadline => t ≤ deadline
  | _ => True

namespace HeldTimer

/-- How often the timer has ticked. -/
def ticks : HeldTimer → Nat
  | fresh _ _ _ => 0
  | started k => k.ticks

/-- The call of the last task, or the call that the first poll will make. -/
def future : HeldTimer → TimerFuture
  | fresh period _ _ => .created period
  | started k => k.future

/-- **The timer watches the client**: it has not ticked, and unless a reset waits, it is not up
before its period has passed since the instant `last`. -/
structure Watches (period last : Nat) (h : HeldTimer) : Prop where
  serves : h.Serves period
  unticked : h.ticks = 0
  deadline : h.commands = [] → h.future.UpFrom (last + period)

variable {now last : Instant} {period : Duration} {h h' : HeldTimer} {a : TimerAction}
  {os : List TimerObs}

/-- A reset keeps it watching, from any later instant. -/
theorem Watches.queue (hw : h.Watches period last) (last' : Instant) :
    (h.queue .reset).Watches period last' := by
  refine ⟨hw.serves.queue, ?_, fun hcommands => ?_⟩
  · cases h with
    | fresh p commands resetter => rfl
    | started k => exact hw.unticked
  · cases h with
    | fresh p commands resetter => trivial
    | started k => simp [HeldTimer.queue, HeldTimer.commands] at hcommands

/-- A call that begins now is up a period later. -/
theorem upFrom_create (hlast : last ≤ now) :
    (createTaskWithReceiver now period).UpFrom (last + period) := by
  rw [createTaskWithReceiver]
  split
  · trivial
  · exact Nat.add_le_add_right hlast period

/-- **Every step keeps the timer watching**, and no tick is to be picked up, while the period has
not passed and a reset that waits is not outrun. -/
theorem Watches.step (hw : h.Watches period last) (hstep : Step now h a h' os)
    (hcommand : ∀ c, a ≠ .command c) (hresetter : a ≠ .dropResetter)
    (hlast : last ≤ now) (hpunctual : now < last + period)
    (hunraced : ∀ i, a = .task i .elapse → h.commands = []) :
    h'.Watches period last ∧ os.any (·.isReady) = false := by
  have hserves := hstep.serves hw.serves hcommand hresetter
  cases hstep with
  | sent hresetter' haccepts => exact absurd rfl (hcommand _)
  | unsent hresetter' haccepts => exact absurd rfl (hcommand _)
  | dropResetter hresetter' => exact absurd rfl hresetter
  | initialised => exact ⟨⟨hserves, rfl, fun _ => trivial⟩, rfl⟩
  | waits hpolled => exact ⟨hw, rfl⟩
  | @emits k hpolled =>
      -- it has not ticked
      have hticks : k.ticks = 0 := hw.unticked
      omega
  | @starts k p hfuture =>
      obtain rfl : p = period := by
        have hshape := hw.serves.2.2.2
        rw [hfuture] at hshape
        simpa using hshape
      exact ⟨⟨hserves, hw.unticked, fun _ => upFrom_create hlast⟩, rfl⟩
  | @consumes k p c commands hfuture hcommands =>
      refine ⟨⟨hserves, hw.unticked, fun _ => ?_⟩, rfl⟩
      obtain rfl := hw.serves.awaiting hfuture
      have hc : c = .reset := hw.serves.2.1 c (by
        show c ∈ k.commands
        rw [hcommands]
        exact List.mem_cons_self)
      subst hc
      exact upFrom_create hlast
  | stops hfuture hcommands hresetter' => cases hw.serves.1.symm.trans hresetter'
  | closes hfuture hcommands hresetter' => cases hw.serves.1.symm.trans hresetter'
  | @ticks k p deadline hfuture hdue =>
      -- it is not up yet
      have hdeadline : k.future.UpFrom (last + period) := hw.deadline (hunraced _ rfl)
      rw [hfuture] at hdeadline
      have hdeadline : last + period ≤ deadline := hdeadline
      exact absurd (hdeadline.trans hdue) (Nat.not_le_of_lt hpunctual)
  | ticksAlone hfuture hdue =>
      have hshape := hw.serves.2.2.2
      rw [hfuture] at hshape
      simp at hshape

end HeldTimer

/-! ## Items of the client -/

/-- A frame, a parse error or a heartbeat of the client was handled, and when. -/
def TimedObs.item? : TimedObs → Option Instant
  | session now (.handled (.clientFrame _)) => some now
  | session now (.handled .clientHeartbeat) => some now
  | _ => none

/-- The instants at which items of the client were handled. -/
def itemTimes (tr : List TimedObs) : List Instant := tr.filterMap TimedObs.item?

@[simp] theorem itemTimes_append (tr tr' : List TimedObs) :
    itemTimes (tr ++ tr') = itemTimes tr ++ itemTimes tr' := List.filterMap_append

/-- **The client keeps its promise** until `now`: from one item to the next, the first counted
from connecting at `t₀`, and from the last one to `now`, it is less than the interval. -/
def Punctual (interval t₀ : Nat) (tr : List TimedObs) (now : Nat) : Prop :=
  (t₀ :: itemTimes tr ++ [now]).IsChain fun a b => b < a + interval

instance (interval t₀ : Nat) (tr : List TimedObs) (now : Nat) :
    Decidable (Punctual interval t₀ tr now) :=
  inferInstanceAs (Decidable (List.IsChain _ _))

/-- The instant of the last item, or that of connecting. -/
def lastItem (t₀ : Instant) (tr : List TimedObs) : Instant := (itemTimes tr).getLast?.getD t₀

section

variable {interval t₀ now now' : Nat} {tr os : List TimedObs}

/-- The last item was less than the interval ago. -/
theorem Punctual.lt (h : Punctual interval t₀ tr now) : now < lastItem t₀ tr + interval := by
  refine (List.isChain_append.mp h).2.2 (lastItem t₀ tr) ?_ now rfl
  rw [List.getLast?_cons]
  rfl

/-- A client that keeps its promise has kept it before. -/
theorem Punctual.before (h : Punctual interval t₀ (tr ++ os) now')
    (hitems : ∀ t ∈ itemTimes os, now ≤ t) (hle : now ≤ now') : Punctual interval t₀ tr now := by
  rw [Punctual, itemTimes_append, ← List.cons_append, List.append_assoc] at h
  obtain ⟨hbefore, -, hnext⟩ := List.isChain_append.mp h
  refine List.isChain_append.mpr ⟨hbefore, List.isChain_singleton now, ?_⟩
  rintro last hlast _ ⟨rfl⟩
  -- whatever came next, it was not earlier than now
  cases hos : itemTimes os with
  | nil =>
      rw [hos] at hnext
      exact hle.trans_lt (hnext last hlast now' rfl)
  | cons t ts =>
      rw [hos] at hnext hitems
      exact (hitems t List.mem_cons_self).trans_lt (hnext last hlast t rfl)

end

/-- What is observed of a session now are no earlier items. -/
theorem itemTimes_map_session {t : Instant} {sos : List SessionObs} :
    ∀ u ∈ itemTimes (sos.map (.session t)), u = t := by
  intro u hu
  obtain ⟨o, ho, hitem⟩ := List.mem_filterMap.mp hu
  obtain ⟨so, -, rfl⟩ := List.mem_map.mp ho
  unfold TimedObs.item? at hitem
  split at hitem
  · rename_i heq
    cases heq
    exact (Option.some.inj hitem).symm
  · rename_i heq
    cases heq
    exact (Option.some.inj hitem).symm
  · cases hitem

namespace Session

variable {p : Params} {r r' : ClientSession} {input : SessionInput} {os : List SessionObs}

/-- The session resets the timer that watches the client whenever it handles an item of it. -/
theorem Handles.itemTimes_eq {resetFails : Bool} {e : ClientEvent} (t : Instant)
    (h : Handles p r resetFails e (running r') os) :
    itemTimes (os.map (.session t)) = if .reset .client ∈ os then [t] else [] := by
  -- only the event itself can be an item
  have hitem : itemTimes (os.map (.session t)) = itemTimes [.session t (.handled e)] := by
    cases h with
    | goesOn hpanic hends =>
        rw [begun, List.cons_append, List.cons_append]
        cases e.timer? <;> cases e.call? r.activeSubscriptionsByClientId <;>
          cases r.message? p e <;> rfl
  have hreset : .reset .client ∈ os ↔ e.timer? = some .client := by
    cases h with
    | goesOn hpanic hends => exact (goesOn hpanic hends).reset_iff hpanic
  rw [hitem, if_congr hreset rfl rfl]
  cases e <;> rfl

/-- The session resets the timer that watches the client whenever it handles an item of it. -/
theorem Turn.itemTimes_eq (t : Instant) (h : Turn p (running r) input (running r') os) :
    itemTimes (os.map (.session t)) = if .reset .client ∈ os then [t] else [] := by
  cases h with
  | client hhandles => exact hhandles.itemTimes_eq t
  | own hevents hhandles => exact hhandles.itemTimes_eq t
  | heartbeat hheartbeat hhandles => exact hhandles.itemTimes_eq t
  | missed hlistening hheartbeat => rfl
  | delivered hfrom => rfl

end Session

/-! ## Steps -/

namespace TimedSession

/-- **All that can happen to the timer that watches the client** of a connected session. -/
inductive ClientTurn (t : Instant) (r : ClientSession) (h : HeldTimer) :
    TimedLabel → TimedSession → List TimedObs → Prop
  /-- The session is over. -/
  | ended {l : TimedLabel} {x' : TimedSession} {os : List TimedObs} (hended : x'.session = .ended)
      (hunreported : ∀ u, .missed u ∉ os) : ClientTurn t r h l x' os
  /-- The timer is left alone. -/
  | kept {l : TimedLabel} {t' : Instant} {r' : ClientSession} {server : TimerState}
      {os : List TimedObs} (hle : t ≤ t') (hinterval : r'.clientHeartbeat = r.clientHeartbeat)
      (hitems : itemTimes os = []) (hunreported : ∀ u, .missed u ∉ os) :
      ClientTurn t r h l ⟨t', .running r', some ⟨server, h.toState⟩⟩ os
  /-- An item is handled, and the timer is reset. -/
  | item {l : TimedLabel} {r' : ClientSession} {server : TimerState} {os : List TimedObs}
      (hinterval : r'.clientHeartbeat = r.clientHeartbeat) (hitems : itemTimes os = [t])
      (hunreported : ∀ u, .missed u ∉ os) :
      ClientTurn t r h l ⟨t, .running r', some ⟨server, (h.queue .reset).toState⟩⟩ os
  /-- The listener polls the timer in vain, or a task of it runs. -/
  | moved {l : TimedLabel} {server : TimerState} {a : TimerAction} {h' : HeldTimer}
      {tos : List TimerObs} (hstep : HeldTimer.Step t h a h' tos) (hcommand : ∀ c, a ≠ .command c)
      (hresetter : a ≠ .dropResetter)
      (helapse : ∀ i, a = .task i .elapse → l = .clientTask i .elapse)
      (hready : a = .poll → tos.any (·.isReady) = false) :
      ClientTurn t r h l ⟨t, .running r, some ⟨server, h'.toState⟩⟩ []
  /-- The timer has something to offer. -/
  | ready {l : TimedLabel} {x' : TimedSession} {os : List TimedObs} {h' : HeldTimer}
      {tos : List TimerObs} (hstep : HeldTimer.Step t h .poll h' tos)
      (hready : tos.any (·.isReady) = true) : ClientTurn t r h l x' os

variable {p : Params} {t : Instant} {r : ClientSession} {server : TimerState} {h : HeldTimer}
  {period : Duration} {l : TimedLabel} {x' : TimedSession} {os : List TimedObs}

/-- The interval of a session never changes. -/
theorem clientHeartbeat_of_step {r' : ClientSession} {hb : Heartbeats}
    (hstep : (lts p).step ⟨t, .running r, some hb⟩ l = some (x', os))
    (hr' : x'.session = .running r') : r'.clientHeartbeat = r.clientHeartbeat := by
  have hsame : Session.running r = .running r' → r'.clientHeartbeat = r.clientHeartbeat := by
    intro heq
    obtain rfl := Session.running.inj heq
    rfl
  cases turn_of_step hstep with
  | session hallows hturn =>
      obtain rfl := hr'
      exact hturn.intervals.2
  | serverBeats hpoll hemission hturn =>
      obtain rfl := hr'
      exact hturn.intervals.2
  | missed hpoll hready hturn =>
      obtain rfl := hr'
      exact hturn.intervals.2
  | serverPanics hpoll hpanic => cases hr'
  | _ => exact hsame hr'

/-- What is observed of a session is no report. -/
theorem missed_notMem_map {sos : List SessionObs} (u : Instant) :
    .missed u ∉ sos.map (TimedObs.session t) := by
  intro hu
  obtain ⟨so, -, heq⟩ := List.mem_map.mp hu
  cases heq

/-- A session that moves resets the timer if it has handled an item. -/
theorem clientTurn_of_turn {input : SessionInput} {s' : Session} {sos : List SessionObs}
    (hserves : h.Serves period) (hturn : Session.Turn p (.running r) input s' sos) :
    ClientTurn t r h l ⟨t, s', Heartbeats.after t (some ⟨server, h.toState⟩) s' sos⟩
      (sos.map (.session t)) := by
  cases s' with
  | awaiting => exact absurd rfl hturn.ne_awaiting
  | ended => exact ClientTurn.ended rfl missed_notMem_map
  | running r' =>
      have hitems := hturn.itemTimes_eq t
      by_cases hreset : .reset .client ∈ sos
      · -- the reset waits in the timer's channel
        rw [if_pos hreset] at hitems
        have hafter : Heartbeats.after t (some ⟨server, h.toState⟩) (.running r') sos
            = some ⟨if .reset .server ∈ sos then (server.send t .reset).1 else server,
                (h.queue .reset).toState⟩ := by
          simp [Heartbeats.after, Heartbeats.react, hreset, hserves.send]
        rw [hafter]
        exact ClientTurn.item hturn.intervals.2 hitems missed_notMem_map
      · rw [if_neg hreset] at hitems
        have hafter : Heartbeats.after t (some ⟨server, h.toState⟩) (.running r') sos
            = some ⟨if .reset .server ∈ sos then (server.send t .reset).1 else server,
                h.toState⟩ := by
          simp [Heartbeats.after, Heartbeats.react, hreset]
        rw [hafter]
        exact ClientTurn.kept le_rfl hturn.intervals.2 hitems missed_notMem_map

/-- Every step of a connected session is one of these cases. -/
theorem clientTurn_of_step (hserves : h.Serves period)
    (hstep : (lts p).step ⟨t, .running r, some ⟨server, h.toState⟩⟩ l = some (x', os)) :
    ClientTurn t r h l x' os := by
  cases turn_of_step hstep with
  | advance => exact ClientTurn.kept (Nat.le_add_right _ _) rfl rfl (by simp)
  | session hallows hturn => exact clientTurn_of_turn hserves hturn
  | serverWaits hpoll hemission hpanic => exact ClientTurn.kept le_rfl rfl rfl (by simp)
  | serverPanics hpoll hpanic => exact ClientTurn.ended rfl (by simp)
  | serverBeats hpoll hemission hturn => exact clientTurn_of_turn hserves hturn
  | clientWaits hpoll hready =>
      obtain ⟨h', rfl, hheld, -⟩ := hserves.step (by simp) (by simp) (by simp) hpoll
      exact ClientTurn.moved hheld (by simp) (by simp) (by simp) fun _ => hready
  | missed hpoll hready hturn =>
      obtain ⟨h', rfl, hheld, -⟩ := hserves.step (by simp) (by simp) (by simp) hpoll
      exact ClientTurn.ready hheld hready
  | unreported hpoll hready =>
      obtain ⟨h', rfl, hheld, -⟩ := hserves.step (by simp) (by simp) (by simp) hpoll
      exact ClientTurn.ready hheld hready
  | serverTask htask => exact ClientTurn.kept le_rfl rfl rfl (by simp)
  | @clientTask i move client tos htask =>
      obtain ⟨h', rfl, hheld, -⟩ := hserves.step (by simp) (by simp) (by simp) htask
      refine ClientTurn.moved hheld (by simp) (by simp) ?_ (by simp)
      rintro j heq
      cases heq
      rfl

end TimedSession

/-! ## Runs -/

/-- No reset is outrun: the timer that watches the client does not tick while a reset of it
waits, although its task could receive it. -/
def Unraced (x : TimedSession) : TimedLabel → Bool
  | .clientTask _ .elapse => x.heartbeats.all (·.client.commands.isEmpty)
  | _ => true

namespace TimedSession

variable {p : Params} {s : UInt32} {t₀ : Instant} {x x' : TimedSession} {l : TimedLabel}
  {tr os : List TimedObs}

/-- The period of the timer that watches a client with the interval `s`. -/
def watchPeriod (s : UInt32) : Duration := Duration.fromMillis (s.toNat * 120 / 100)

/-- The period outlasts the interval. -/
theorem le_watchPeriod (s : UInt32) : Duration.fromMillis s.toNat ≤ watchPeriod s :=
  Nat.mul_le_mul_right _ (by omega)

/-- **A session that watches its client**: it has not reported a missed heartbeat, and while it is
connected, the timer watches from the last item on. -/
structure Watched (s : UInt32) (t₀ : Instant) (x : TimedSession) (tr : List TimedObs) : Prop where
  unreported : ∀ t, .missed t ∉ tr
  timer : ∀ r, x.session = .running r → lastItem t₀ tr ≤ x.now ∧
    ∃ server h, x.heartbeats = some ⟨server, HeldTimer.toState h⟩ ∧
      h.Watches (watchPeriod s) (lastItem t₀ tr)

/-- A session whose timers have moved. -/
theorem Watched.of_session {t : Instant} {r : ClientSession} {server : TimerState} {h : HeldTimer}
    (hunreported : ∀ t, .missed t ∉ tr) (hlast : lastItem t₀ tr ≤ t)
    (hw : h.Watches (watchPeriod s) (lastItem t₀ tr)) :
    Watched s t₀ ⟨t, .running r, some ⟨server, h.toState⟩⟩ tr :=
  ⟨hunreported, fun _ _ => ⟨hlast, server, h, rfl, hw⟩⟩

/-- A session that is over. -/
theorem Watched.of_ended (hunreported : ∀ t, .missed t ∉ tr) (h : x.session = .ended) :
    Watched s t₀ x tr :=
  ⟨hunreported, by simp [h]⟩

/-- **A session watches its client from connecting on.** -/
theorem Watched.connected (hs : 0 < s) (hfits : s.toNat * 120 < 2 ^ 32) {t : Instant}
    {requested intervals : HeartBeatIntervalls} {client : Client} {r : ClientSession}
    {frame : ConnectedFrame} (hnew : ClientSession.new p requested client = some r)
    (hhead : some (TimedObs.session t (.handled
        (.connected ⟨requested.expected, requested.supplied⟩)))
      = some (.session t₀ (.handled (.connected intervals)))) (hexpected : intervals.expected = s) :
    let sos := [.handled (.connected ⟨requested.expected, requested.supplied⟩),
      .output (.inl (.connected frame))]
    Watched s t₀ ⟨t, .running r, Heartbeats.after t none (.running r) sos⟩
      (sos.map (.session t)) := by
  simp only [Option.some.injEq, TimedObs.session.injEq, SessionObs.handled.injEq,
    ClientEvent.connected.injEq] at hhead
  obtain ⟨rfl, rfl⟩ := hhead
  obtain rfl : requested.supplied = s := hexpected
  obtain ⟨period, hperiod, rfl⟩ := Option.map_eq_some_iff.mp hnew
  obtain ⟨_, hsound, rfl, -⟩ := (periodSound_iff (p := p) hs).mpr hfits
  obtain rfl := Option.some.inj (hperiod.symm.trans hsound)
  have hfresh : (HeldTimer.fresh (watchPeriod requested.supplied) [] true).Watches
      (watchPeriod requested.supplied) t :=
    ⟨⟨rfl, by simp [HeldTimer.commands], rfl⟩, rfl, fun _ => trivial⟩
  refine ⟨fun u hu => ?_, fun _ _ => ⟨le_rfl, _, _, Heartbeats.after_connected (by simp), hfresh⟩⟩
  obtain ⟨so, -, heq⟩ := List.mem_map.mp hu
  cases heq

/-- **Every step goes on watching**, from now if an item is handled, as long as the last item is
less than the interval ago and no reset is outrun. -/
theorem Watched.step (hw : Watched s t₀ x tr) (hx : x.session ≠ .awaiting)
    (hpunctual : Punctual (Duration.fromMillis s.toNat) t₀ tr x.now) (hC : Unraced x l = true)
    (hstep : (lts p).step x l = some (x', os)) : Watched s t₀ x' (tr ++ os) := by
  obtain ⟨t, sess, hb⟩ := x
  have hunreported : (∀ u, .missed u ∉ os) → ∀ u, .missed u ∉ tr ++ os :=
    fun hos u hu => (List.mem_append.mp hu).elim (hw.unreported u) (hos u)
  cases sess with
  | awaiting => exact absurd rfl hx
  | ended =>
      obtain ⟨hended, rfl, -⟩ := ended_cases hstep
      rw [List.append_nil]
      exact Watched.of_ended hw.unreported hended
  | running r =>
      obtain ⟨hlast, server, h, rfl, hwatches⟩ := hw.timer r rfl
      have hlt : t < lastItem t₀ tr + watchPeriod s :=
        hpunctual.lt.trans_le (Nat.add_le_add_left (le_watchPeriod s) _)
      cases clientTurn_of_step hwatches.serves hstep with
      | ended hended hos => exact Watched.of_ended (hunreported hos) hended
      | kept hle hinterval hitems hos =>
          have hlast' : lastItem t₀ (tr ++ os) = lastItem t₀ tr := by simp [lastItem, hitems]
          rw [← hlast'] at hlast hwatches
          exact Watched.of_session (hunreported hos) (hlast.trans hle) hwatches
      | item hinterval hitems hos =>
          have hlast' : lastItem t₀ (tr ++ os) = t := by simp [lastItem, hitems]
          exact Watched.of_session (hunreported hos) hlast'.le (hwatches.queue _)
      | @moved server' a h' tos hheld hcommand hresetter helapse hready =>
          have hunraced : ∀ i, a = .task i .elapse → h.commands = [] := by
            intro i heq
            rw [helapse i heq] at hC
            simpa [Unraced] using hC
          rw [List.append_nil]
          exact Watched.of_session hw.unreported hlast
            (hwatches.step hheld hcommand hresetter hlast hlt hunraced).1
      | ready hheld hready =>
          obtain ⟨-, hnone⟩ := hwatches.step hheld (by simp) (by simp) hlast hlt (by simp)
          rw [hready] at hnone
          cases hnone

/-- A session that has begun goes on as time does, and no item is handled in the past. -/
theorem step_begun {C : TimedSession → TimedLabel → Prop} {now : Instant} {ls : List TimedLabel}
    (hrun : (lts p).Run C (start now) ls tr x) (hx : x.session ≠ .awaiting)
    (hstep : (lts p).step x l = some (x', os)) :
    x'.session ≠ .awaiting ∧ x.now ≤ x'.now ∧ ∀ u ∈ itemTimes os, x.now ≤ u := by
  have hheartbeats := fun r hr => attended (r := r) hrun hr
  obtain ⟨t, sess, hb⟩ := x
  have hpresent : ∀ sos : List SessionObs, ∀ u ∈ itemTimes (sos.map (.session t)), t ≤ u :=
    fun sos u hu => (itemTimes_map_session u hu).ge
  cases sess with
  | awaiting => exact absurd rfl hx
  | ended =>
      obtain ⟨hended, rfl, hle⟩ := ended_cases hstep
      exact ⟨by simp [hended], hle, by simp [itemTimes]⟩
  | running r =>
      obtain ⟨h, client, rfl, -⟩ := hheartbeats r rfl
      cases turn_of_step hstep with
      | advance => exact ⟨by simp, Nat.le_add_right _ _, by simp [itemTimes]⟩
      | session hallows hturn => exact ⟨hturn.ne_awaiting, le_rfl, hpresent _⟩
      | serverPanics hpoll hpanic => exact ⟨by simp, le_rfl, hpresent [.panicked]⟩
      | serverBeats hpoll hemission hturn => exact ⟨hturn.ne_awaiting, le_rfl, hpresent _⟩
      | missed hpoll hready hturn =>
          exact ⟨hturn.ne_awaiting, le_rfl, by simp [itemTimes, TimedObs.item?]⟩
      | _ => exact ⟨by simp, le_rfl, by simp [itemTimes]⟩

/-- **The computation of the client's interval is sound, and a client that keeps its promise is
not timed out** in any run that meets the condition. -/
def NeverTimedOut (C : TimedSession → TimedLabel → Prop) (p : Params) (s : UInt32) : Prop :=
  PeriodSound p s ∧
    ∀ now ls tr x t₀ intervals, (lts p).Run C (start now) ls tr x →
      tr.head? = some (.session t₀ (.handled (.connected intervals))) → intervals.expected = s →
      Punctual (Duration.fromMillis s.toNat) t₀ tr x.now → ∀ t, .missed t ∉ tr

/-- A session that has been connected by a client that keeps its promise watches it. -/
theorem watched (hs : 0 < s) (hfits : s.toNat * 120 < 2 ^ 32) {now : Instant}
    {ls : List TimedLabel}
    (hrun : (lts p).Run (fun x l => Unraced x l = true) (start now) ls tr x) :
    (x.session = .awaiting → x.heartbeats = none ∧ tr = []) ∧ (x.session ≠ .awaiting → tr ≠ []) ∧
      ∀ intervals, tr.head? = some (.session t₀ (.handled (.connected intervals))) →
        intervals.expected = s → Punctual (Duration.fromMillis s.toNat) t₀ tr x.now →
        Watched s t₀ x tr := by
  refine hrun.invariant (P := fun x tr => (x.session = .awaiting → x.heartbeats = none ∧ tr = []) ∧
      (x.session ≠ .awaiting → tr ≠ []) ∧
      ∀ intervals, tr.head? = some (.session t₀ (.handled (.connected intervals))) →
        intervals.expected = s → Punctual (Duration.fromMillis s.toNat) t₀ tr x.now →
        Watched s t₀ x tr) ⟨fun _ => ⟨rfl, rfl⟩, fun hx => absurd rfl hx, by simp⟩ ?_
  intro ls tr os x x' l hrun ih hC hstep
  obtain ⟨hawaiting, hconnected, hwatched⟩ := ih
  by_cases hx : x.session = .awaiting
  · -- the first item comes
    obtain ⟨t, sess, hb⟩ := x
    obtain rfl : sess = .awaiting := hx
    obtain ⟨rfl, rfl⟩ := hawaiting rfl
    rcases awaiting_cases hstep with ⟨d, rfl, rfl, rfl⟩ |
      ⟨item, factory, panics, s', sos, rfl, hturn, rfl, rfl⟩
    · exact ⟨fun _ => ⟨rfl, rfl⟩, fun hx => absurd rfl hx, by simp⟩
    · refine ⟨fun hx' => absurd hx' hturn.ne_awaiting, fun _ => ?_, ?_⟩
      · cases hturn <;> simp
      · intro intervals hhead hexpected hpunctual
        cases hturn with
        | rejected hfirst => cases hhead
        | overflows hfirst hnew => cases hhead
        | connected hfirst hnew => exact Watched.connected hs hfits hnew hhead hexpected
  · -- what has begun goes on
    have hne := hconnected hx
    obtain ⟨hbegun, hle, hitems⟩ := step_begun hrun hx hstep
    refine ⟨fun hx' => absurd hx' hbegun, fun _ => by simp [hne], ?_⟩
    intro intervals hhead hexpected hpunctual
    have hbefore := hpunctual.before hitems hle
    rw [List.head?_append_of_ne_nil _ hne] at hhead
    exact (hwatched intervals hhead hexpected hbefore).step hx hbefore hC hstep

/-- **A client that keeps its promise is not timed out, exactly if its interval is small enough**,
provided that no reset is outrun. -/
theorem never_timed_out_iff (hs : 0 < s) :
    NeverTimedOut (fun x l => Unraced x l = true) p s ↔ s.toNat * 120 < 2 ^ 32 := by
  constructor
  · exact fun h => (periodSound_iff hs).mp h.1
  · intro hfits
    refine ⟨(periodSound_iff hs).mpr hfits, ?_⟩
    intro now ls tr x t₀ intervals hrun hhead hexpected hpunctual
    exact ((watched hs hfits hrun).2.2 intervals hhead hexpected hpunctual).unreported

/-- A CONNECT frame whose client promises a heartbeat every 5000 milliseconds. -/
def punctualConnect : ClientFrame := .connect ⟨[.v1_2], ⟨5000, 0⟩, none, none⟩

/-- The client connects, sends a heartbeat after 4000 milliseconds, and is silent for as long. -/
def heartbeatInTime : List TimedLabel :=
  [.session (.first punctualConnect.item defaultClientFactory) (fun _ => false), .pollClient,
    .clientTask 0 .start, .advance (Duration.fromMillis 4000),
    .session (.client (some (.ok eol))) (fun _ => false), .clientTask 0 .receive,
    .advance (Duration.fromMillis 4000), .pollClient]

/-- The theorem applied to an interval of 5000 milliseconds, and to this client. -/
theorem never_timed_out_iff_usual :
    let p := Params.knowing [punctualConnect] true
    NeverTimedOut (fun x l => Unraced x l = true) p 5000 ∧
      ∃ tr x, (lts p).Run (fun x l => Unraced x l = true) (start 0) heartbeatInTime tr x ∧
        x.session.isRunning = true ∧ Punctual (Duration.fromMillis 5000) 0 tr x.now ∧
        ∀ t, .missed t ∉ tr := by
  intro p
  have hnever : NeverTimedOut (fun x l => Unraced x l = true) p 5000 :=
    (never_timed_out_iff (by decide)).mpr (by decide)
  let r := ((lts p).exec (fun x l => Unraced x l = true) (start 0) heartbeatInTime).get (by decide)
  have hrun : (lts p).Run (fun x l => Unraced x l = true) (start 0) heartbeatInTime r.2 r.1 :=
    LTS.Run.exec_get _ _ _ _ (by decide)
  have hpunctual : Punctual (Duration.fromMillis 5000) 0 r.2 r.1.now := by decide
  exact ⟨hnever, _, _, hrun, by decide, hpunctual,
    hnever.2 0 _ _ _ 0 ⟨0, 5000⟩ hrun (by decide) rfl hpunctual⟩

/-- The client connects, the listener waits, and the client is silent for so many milliseconds
until the timer ticks. -/
def silentFor (frame : ClientFrame) (millis : Nat) : List TimedLabel :=
  [.session (.first frame.item defaultClientFactory) (fun _ => false), .pollClient,
    .clientTask 0 .start, .advance (Duration.fromMillis millis), .clientTask 0 .elapse, .pollClient]

/-- **A client may be timed out at once**: an interval of 35791395 milliseconds becomes a period
of one millisecond, in a build without overflow checks. -/
theorem timed_out_early :
    ¬ ∀ (p : Params) (s : UInt32), 0 < s → NeverTimedOut LTS.Free p s := by
  intro hall
  let p := Params.knowing [Session.slowConnect] false
  let r := ((lts p).exec LTS.Free (start 0) (silentFor Session.slowConnect 1)).get (by decide)
  have hrun : (lts p).Run LTS.Free (start 0) (silentFor Session.slowConnect 1) r.2 r.1 :=
    LTS.Run.exec_get _ _ _ _ (by decide)
  have hnever := (hall p 35791395 (by decide)).2 0 _ _ _ 0 ⟨0, 35791395⟩ hrun (by decide) rfl
    (by decide)
  exact hnever (Duration.fromMillis 1) (by decide)

/-- The client sends a heartbeat after 4000 milliseconds; its reset still waits when the sleep is
over, and the sleep wins. -/
def resetOutrun : List TimedLabel :=
  [.session (.first punctualConnect.item defaultClientFactory) (fun _ => false), .pollClient,
    .clientTask 0 .start, .advance (Duration.fromMillis 4000),
    .session (.client (some (.ok eol))) (fun _ => false), .advance (Duration.fromMillis 2000),
    .clientTask 0 .elapse, .pollClient]

/-- **A reset that waits does not stop a sleep that is over**, so where the task is late, the
condition is needed. -/
theorem timed_out_by_race :
    ¬ NeverTimedOut LTS.Free (Params.knowing [punctualConnect] true) 5000 := by
  intro hall
  let p := Params.knowing [punctualConnect] true
  let r := ((lts p).exec LTS.Free (start 0) resetOutrun).get (by decide)
  have hrun : (lts p).Run LTS.Free (start 0) resetOutrun r.2 r.1 :=
    LTS.Run.exec_get _ _ _ _ (by decide)
  have hnever := hall.2 0 _ _ _ 0 ⟨0, 5000⟩ hrun (by decide) rfl (by decide)
  exact hnever (Duration.fromMillis 6000) (by decide)

end TimedSession
