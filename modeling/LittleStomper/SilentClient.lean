/-
# A silent client is disconnected

The dual of the promise that a client is not timed out: whoever announces heartbeats and falls
silent loses the session.  The timer that watches the client begins anew with every item, so its
deadline is never later than the last item and one period; where its tick waits for the listener,
the clock does; and what the listener reports ends the session, since the ERROR frame is
followed by a `Close`.

The period is the one that the session computes, so this is true of intervals that wrap, too.
Where it is `0` nobody watches.  As with the heartbeats of the server, the time driver may add
less than a millisecond.
-/
import LittleStomper.ClientHeartbeat
import LittleStomper.ServerHeartbeat

open ClientEvent

/-! ## Schedules -/

/-- The schedules of a session in which the clock moves only as far as nothing is ready that
concerns the silence of the client: the session's channel is empty, a poll of the listener finds
nothing, and the tasks of its timer cannot move at any earlier instant. -/
def Watchful (time : TimeDriver) (x : TimedSession) : TimedLabel → Bool
  | .advance d => match x.session with
    | .running r => r.events.isEmpty && x.heartbeats.all fun h =>
        h.client.isIdle && h.client.SettledUntil time x.now (x.now + d)
    | _ => true
  | _ => true

/-! ## Sessions that are about to end -/

/-- The event ends the session when it is handled, or leaves a `Close` behind. -/
def ClientEvent.dooms : ClientEvent → Bool
  | close => true
  | error _ => true
  | _ => false

/-- The session will be over once it has handled what waits in its channel. -/
def ClientSession.Doomed (r : ClientSession) : Prop := ∃ e ∈ r.events, e.dooms = true

namespace Session

variable {p : Params} {r r' : ClientSession} {input : SessionInput} {os : List SessionObs}

/-- Handling an event takes nothing out of the channel. -/
theorem Handles.doomed {resetFails : Bool} {e : ClientEvent}
    (h : Handles p r resetFails e (running r') os) (hr : r.Doomed) : r'.Doomed := by
  obtain ⟨e', he', hdooms⟩ := hr
  cases h with
  | goesOn hpanic hends => exact ⟨e', List.mem_append_left _ he', hdooms⟩

/-- **A session that is about to end stays so** while it runs. -/
theorem Turn.doomed (h : Turn p (running r) input (running r') os) (hr : r.Doomed) :
    r'.Doomed := by
  cases h with
  | client hhandles => exact hhandles.doomed hr
  | heartbeat hheartbeat hhandles => exact hhandles.doomed hr
  | missed hlistening hheartbeat =>
      obtain ⟨e, he, hdooms⟩ := hr
      exact ⟨e, List.mem_append_left _ he, hdooms⟩
  | delivered hfrom =>
      obtain ⟨e, he, hdooms⟩ := hr
      exact ⟨e, List.mem_append_left _ he, hdooms⟩
  | @own _ resetFails e events _ _ hevents hhandles =>
      obtain ⟨e', he', hdooms⟩ := hr
      rw [hevents] at he'
      rcases List.mem_cons.mp he' with rfl | he'
      · -- the event itself is handled: a `Close` ends the session, an error leaves one
        cases hhandles with
        | goesOn hpanic hends =>
            cases e' with
            | close => cases hends
            | error message =>
                exact ⟨.close, by simp [ClientSession.after, fault?], rfl⟩
            | _ => cases hdooms
      · exact hhandles.doomed ⟨e', he', hdooms⟩

/-- The listener is listened to, or has reported. -/
theorem Turn.listening (h : Turn p (running r) input (running r') os) :
    r'.listening = r.listening ∨ r'.Doomed := by
  have hkept : ∀ {r₀ : ClientSession} {resetFails : Bool} {e : ClientEvent},
      Handles p r₀ resetFails e (running r') os → r'.listening = r₀.listening := by
    intro r₀ resetFails e hhandles
    cases hhandles
    rfl
  cases h with
  | client hhandles => exact Or.inl (hkept hhandles)
  | own hevents hhandles =>
      have hlistening := hkept hhandles
      exact Or.inl hlistening
  | heartbeat hheartbeat hhandles => exact Or.inl (hkept hhandles)
  | missed hlistening hheartbeat =>
      exact Or.inr ⟨.error "Missed heartbeat", by simp [ClientSession.sendEvent], rfl⟩
  | delivered hfrom => exact Or.inl rfl

end Session

/-! ## The timer that watches the client -/

namespace HeldTimer

variable {now : Instant} {period : Duration} {h h' : HeldTimer} {a : TimerAction}
  {os : List TimerObs}

/-- What a session that goes on does to the timer that watches its client. -/
theorem Serves.after_client (hserves : h.Serves period) (now : Instant) (server : TimerState)
    (r : ClientSession) (os : List SessionObs) :
    ∃ server', Heartbeats.after now (some ⟨server, h.toState⟩) (.running r) os =
      some ⟨server', (h.reacts (decide (.reset .client ∈ os))).toState⟩ := by
  by_cases hreset : .reset .client ∈ os
  · exact ⟨if .reset .server ∈ os then (server.send now .reset).1 else server, by
      simp [Heartbeats.after, Heartbeats.react, HeldTimer.reacts, hreset, hserves.send]⟩
  · exact ⟨if .reset .server ∈ os then (server.send now .reset).1 else server, by
      simp [Heartbeats.after, Heartbeats.react, HeldTimer.reacts, hreset]⟩

/-- A poll that returns nothing hands out no tick, nor does a task. -/
theorem Step.no_emission (hstep : Step now h a h' os)
    (hready : a = .poll → os.any (·.isReady) = false) : os.any (·.isEmission) = false := by
  cases hstep with
  | emits hpolled => cases hready rfl
  | _ => rfl

end HeldTimer

namespace TimedSession

variable {p : Params} {time : TimeDriver} {now t₀ : Instant} {x x' : TimedSession}
  {l : TimedLabel} {ls : List TimedLabel} {tr os : List TimedObs}

/-- **The session heeds the silence of its client**: whoever sleeps for a period from the last item
on is woken now at the earliest, and either the session is about to end, or its timer ticks in
time and somebody waits for this. -/
structure Heeds (time : TimeDriver) (t₀ : Instant) (r : ClientSession) (x : TimedSession)
    (tr : List TimedObs) : Prop where
  past : lastItem t₀ tr ≤ x.now
  kept : x.now ≤ time.wake (lastItem t₀ tr + Duration.fromMillis r.clientHeartbeat)
  watched : r.Doomed ∨ r.listening = true ∧ ∃ server h,
    x.heartbeats = some ⟨server, HeldTimer.toState h⟩ ∧
      h.Serves (Duration.fromMillis r.clientHeartbeat) ∧
      h.Promise time x.now (lastItem t₀ tr) (Duration.fromMillis r.clientHeartbeat)

section

variable {t : Instant} {r r' : ClientSession} {hb : Option Heartbeats}
  {server server' client client' : TimerState} {input : SessionInput} {sos : List SessionObs}

/-- The last item after a session has moved. -/
theorem lastItem_append_of_turn (hturn : Session.Turn p (.running r) input (.running r') sos) :
    lastItem t₀ (tr ++ sos.map (.session t)) =
      if .reset .client ∈ sos then t else lastItem t₀ tr := by
  rw [lastItem, itemTimes_append, hturn.itemTimes_eq t]
  by_cases hreset : .reset .client ∈ sos
  · simp [hreset]
  · simp [hreset, lastItem]

/-- The server heartbeat is of no interest. -/
theorem Heeds.with_server (hheeds : Heeds time t₀ r ⟨t, .running r, some ⟨server, client⟩⟩ tr) :
    Heeds time t₀ r ⟨t, .running r, some ⟨server', client⟩⟩ tr := by
  refine ⟨hheeds.past, hheeds.kept, hheeds.watched.imp_right ?_⟩
  rintro ⟨hlistening, _, h, hhb, hserves⟩
  obtain ⟨rfl, rfl⟩ := Heartbeats.mk.inj (Option.some.inj hhb)
  exact ⟨hlistening, _, h, rfl, hserves⟩

/-- **A session that moves heeds the silence of its client.** -/
theorem Heeds.moved (hheeds : Heeds time t₀ r ⟨t, .running r, some ⟨server, client⟩⟩ tr)
    (hturn : Session.Turn p (.running r) input (.running r') sos) :
    Heeds time t₀ r' ⟨t, .running r', Heartbeats.after t (some ⟨server, client⟩) (.running r') sos⟩
      (tr ++ sos.map (.session t)) := by
  obtain ⟨hpast, hkept, hwatched⟩ := hheeds
  have hlast : lastItem t₀ (tr ++ sos.map (.session t)) = _ := lastItem_append_of_turn hturn
  have hinterval := hturn.intervals.2
  refine ⟨?_, ?_, ?_⟩
  · rw [hlast]
    split
    · exact le_rfl
    · exact hpast
  · rw [hlast, hinterval]
    split
    · exact HeldTimer.le_wake_add _ _ _
    · exact hkept
  · rcases hwatched with hdoomed | ⟨hlistening, _, h, hhb, hserves, hpromise⟩
    · exact Or.inl (hturn.doomed hdoomed)
    · obtain ⟨rfl, rfl⟩ := Heartbeats.mk.inj (Option.some.inj hhb)
      rcases hturn.listening with heq | hdoomed
      · obtain ⟨server', hafter⟩ := hserves.after_client t server r' sos
        refine Or.inr ⟨heq.trans hlistening, server', h.reacts (decide (.reset .client ∈ sos)),
          hafter, ?_, ?_⟩
        · rw [hinterval]
          exact hserves.reacts _
        · rw [hlast, hinterval]
          by_cases hreset : .reset .client ∈ sos
          · rw [if_pos hreset]
            exact hpromise.reacts _
          · simp only [hreset, decide_false, if_false]
            exact hpromise
      · exact Or.inl hdoomed

/-- Time that passes while nothing is ready. -/
theorem Heeds.advance {d : Duration} (hheeds : Heeds time t₀ r ⟨t, .running r, hb⟩ tr)
    (hpos : 0 < r.clientHeartbeat) (hC : Watchful time ⟨t, .running r, hb⟩ (.advance d) = true) :
    Heeds time t₀ r ⟨t + d, .running r, hb⟩ tr := by
  simp only [Watchful, Bool.and_eq_true, List.isEmpty_iff] at hC
  obtain ⟨hevents, hsettled⟩ := hC
  rcases hheeds.watched with ⟨e, he, -⟩ | ⟨hlistening, server, h, hhb, hserves, hpromise⟩
  · rw [hevents] at he
    cases he
  · obtain rfl : hb = _ := hhb
    simp only [Option.all_some, Bool.and_eq_true, decide_eq_true_eq] at hsettled
    have hmillis : Duration.asMillis (Duration.fromMillis r.clientHeartbeat) ≠ 0 := by
      rw [Duration.asMillis_fromMillis]
      omega
    have hlater := hpromise.advance hserves hmillis hsettled.1 hsettled.2
    exact ⟨hlater.past, hlater.kept, Or.inr ⟨hlistening, server, h, rfl, hserves, hlater⟩⟩

/-- The listener polls its timer in vain, or a task of it runs. -/
theorem Heeds.timer {a : TimerAction} {tos : List TimerObs}
    (hheeds : Heeds time t₀ r ⟨t, .running r, some ⟨server, client⟩⟩ tr)
    (hcommand : ∀ c, a ≠ .command c) (hresetter : a ≠ .dropResetter) (hdrop : a ≠ .drop)
    (hstep : client.step t a = some (client', tos))
    (hready : a = .poll → tos.any (·.isReady) = false) :
    Heeds time t₀ r ⟨t, .running r, some ⟨server, client'⟩⟩ tr := by
  refine ⟨hheeds.past, hheeds.kept, ?_⟩
  rcases hheeds.watched with hdoomed | ⟨hlistening, server', h, hhb, hserves, hpromise⟩
  · exact Or.inl hdoomed
  · obtain ⟨rfl, rfl⟩ := Heartbeats.mk.inj (Option.some.inj hhb)
    obtain ⟨h', rfl, hheld, hserves'⟩ := hserves.step hcommand hresetter hdrop hstep
    have hpromise' := hpromise.step hheld hserves hcommand hresetter
    rw [hheld.no_emission hready] at hpromise'
    exact Or.inr ⟨hlistening, _, h', rfl, hserves', hpromise'⟩

end

/-- **Every step of a connected session heeds the silence of its client.** -/
theorem Heeds.step {t : Instant} {r : ClientSession} {hb : Heartbeats}
    (hheeds : Heeds time t₀ r ⟨t, .running r, some hb⟩ tr) (hpos : 0 < r.clientHeartbeat)
    (hC : Watchful time ⟨t, .running r, some hb⟩ l = true)
    (hstep : (lts p).step ⟨t, .running r, some hb⟩ l = some (x', os)) :
    ∀ r', x'.session = .running r' → Heeds time t₀ r' x' (tr ++ os) := by
  obtain ⟨server, client⟩ := hb
  have hsame : ∀ {x' : TimedSession} {r₁ : ClientSession}, x'.session = .running r₁ →
      Heeds time t₀ r₁ x' (tr ++ os) →
        ∀ r', x'.session = .running r' → Heeds time t₀ r' x' (tr ++ os) := by
    intro x' r₁ hr₁ hheeds' r' hr'
    obtain rfl := Session.running.inj (hr₁.symm.trans hr')
    exact hheeds'
  cases turn_of_step hstep with
  | advance =>
      refine hsame rfl ?_
      rw [List.append_nil]
      exact hheeds.advance hpos hC
  | @session input panics s' sos hallows hturn =>
      intro r' hr'
      obtain rfl : s' = .running r' := hr'
      exact hheeds.moved hturn
  | serverWaits hpoll hemission hpanic =>
      refine hsame rfl ?_
      rw [List.append_nil]
      exact hheeds.with_server
  | serverPanics hpoll hpanic => simp
  | @serverBeats panics server' tos s' sos hpoll hemission hturn =>
      intro r' hr'
      obtain rfl : s' = .running r' := hr'
      exact hheeds.with_server.moved hturn
  | clientWaits hpoll hready =>
      refine hsame rfl ?_
      rw [List.append_nil]
      exact hheeds.timer (by simp) (by simp) (by simp) hpoll fun _ => hready
  | @missed client' tos s' hpoll hready hturn =>
      intro r' hr'
      obtain rfl : s' = .running r' := hr'
      have hlast : lastItem t₀ (tr ++ [.missed t]) = lastItem t₀ tr := by
        simp [lastItem, itemTimes, TimedObs.item?]
      cases hturn with
      | missed hlistening hheartbeat =>
          exact ⟨by rw [hlast]; exact hheeds.past, by rw [hlast]; exact hheeds.kept,
            Or.inl ⟨.error "Missed heartbeat", by simp [ClientSession.sendEvent], rfl⟩⟩
  | @unreported client' tos hpoll hready =>
      refine hsame rfl ?_
      rw [List.append_nil]
      refine ⟨hheeds.past, hheeds.kept, Or.inl ?_⟩
      rcases hheeds.watched with hdoomed | ⟨hlistening, -⟩
      · exact hdoomed
      · -- a session that listens takes the report
        exfalso
        have hreports : Session.step p (fun _ => false) (.running r) .missedHeartbeat
            = some (.running ({ r with listening := false }.sendEvent
              (.error "Missed heartbeat")), []) := by
          simp [Session.step, hlistening, hpos]
        simp only [lts, TimedSession.step, pollClient, Option.bind_some, hpoll, Option.map_some,
          hready, if_true, hreports, Option.some.injEq, Prod.mk.injEq] at hstep
        exact absurd hstep.2 (by simp)
  | serverTask htask =>
      refine hsame rfl ?_
      rw [List.append_nil]
      exact hheeds.with_server
  | clientTask htask =>
      refine hsame rfl ?_
      rw [List.append_nil]
      exact hheeds.timer (by simp) (by simp) (by simp) htask (by simp)

/-! ## Runs -/

/-- A connected session has been connected with some interval, and if its timer ticks at all, it
heeds the silence of its client. -/
def Attends (p : Params) (time : TimeDriver) (x : TimedSession) (tr : List TimedObs) : Prop :=
  ∀ r, x.session = .running r →
    ∃ t₀ intervals, tr.head? = some (.session t₀ (.handled (.connected intervals))) ∧
      clientHeartbeatPeriod p intervals.expected = some r.clientHeartbeat ∧
      (0 < r.clientHeartbeat → Heeds time t₀ r x tr)

/-- The first item connects the session, or does not. -/
theorem Attends.first {t : Instant} {item : Option (StomperResult Bytes)}
    {factory : ClientFactory} {s' : Session} {sos : List SessionObs}
    (hturn : Session.Turn p .awaiting (.first item factory) s' sos) :
    Attends p time ⟨t, s', Heartbeats.after t none s' sos⟩ (sos.map (.session t)) := by
  intro r hr
  cases hturn with
  | rejected hfirst => cases hr
  | overflows hfirst hnew => cases hr
  | @connected _ _ requested client s hfirst hnew =>
      obtain rfl := Session.running.inj hr
      obtain ⟨period, hperiod, rfl⟩ := Option.map_eq_some_iff.mp hnew
      refine ⟨t, _, rfl, hperiod, fun hpos => ⟨le_rfl, HeldTimer.le_wake_add _ _ _, Or.inr ?_⟩⟩
      have hserves : (HeldTimer.fresh (Duration.fromMillis period) [] true).Serves
          (Duration.fromMillis period) := ⟨rfl, by simp [HeldTimer.commands], rfl⟩
      exact ⟨rfl, _, _, Heartbeats.after_connected (by simp), hserves, le_rfl,
        HeldTimer.le_wake_add _ _ _, fun _ => rfl, rfl⟩

/-- **Every run attends to its client.** -/
theorem attends (hrun : (lts p).Run (fun x l => Watchful time x l = true) (start now) ls tr x) :
    Attends p time x tr := by
  refine hrun.invariant (P := Attends p time) (by simp [Attends, start]) ?_
  intro ls tr os x x' l hrun ih hC hstep
  have hbegun := unobserved hrun
  have hheartbeats := fun r hr => attended (r := r) hrun hr
  obtain ⟨t, s, hb⟩ := x
  cases s with
  | awaiting =>
      obtain rfl := hbegun rfl
      obtain rfl : hb = none := ((holds kept_true hrun).1 rfl).1
      rcases awaiting_cases hstep with ⟨d, rfl, rfl, rfl⟩ |
        ⟨item, factory, panics, s', sos, rfl, hturn, rfl, rfl⟩
      · simp [Attends]
      · exact Attends.first hturn
  | running r =>
      obtain ⟨h, client, rfl, -⟩ := hheartbeats r rfl
      obtain ⟨t₀, intervals, hhead, hperiod, hheeds⟩ := ih r rfl
      intro r' hr'
      have hinterval := clientHeartbeat_of_step hstep hr'
      refine ⟨t₀, intervals, by rw [List.head?_append, hhead]; rfl, hinterval ▸ hperiod, ?_⟩
      intro hpos
      rw [hinterval] at hpos
      exact (hheeds hpos).step hpos hC hstep r' hr'
  | ended =>
      intro r' hr'
      rw [(ended_cases hstep).1] at hr'
      cases hr'

/-- **A silent client is disconnected.**  In every run in which the clock moves only as far as
nothing is ready, a session that is still connected has handled an item of its client no longer ago
than a sleep of one period takes: less than the period and a millisecond ago, and at most the period
if the item came at a whole millisecond; only if the period is `0`, nobody watches. -/
theorem silence_ends
    (hrun : (lts p).Run (fun x l => Watchful time x l = true) (start now) ls tr x)
    {r : ClientSession} (hr : x.session = .running r) :
    ∃ t₀ intervals period, tr.head? = some (.session t₀ (.handled (.connected intervals))) ∧
      clientHeartbeatPeriod p intervals.expected = some period ∧
      (0 < period → x.now ≤ time.wake (lastItem t₀ tr + Duration.fromMillis period) ∧
        x.now < lastItem t₀ tr + Duration.fromMillis (period + 1) ∧
        ∀ millis, lastItem t₀ tr = Duration.fromMillis millis →
          x.now ≤ lastItem t₀ tr + Duration.fromMillis period) := by
  obtain ⟨t₀, intervals, hhead, hperiod, hheeds⟩ := attends hrun r hr
  exact ⟨t₀, intervals, r.clientHeartbeat, hhead, hperiod,
    fun hpos => ⟨(hheeds hpos).kept, within_of_le_wake (hheeds hpos).kept⟩⟩

/-- The client sends a heartbeat after 4000 milliseconds, and is silent for the 6000 after it. -/
def lastHeartbeat : List TimedLabel :=
  [.session (.first punctualConnect.item defaultClientFactory) (fun _ => false), .pollClient,
    .clientTask 0 .start, .advance (Duration.fromMillis 4000),
    .session (.client (some (.ok eol))) (fun _ => false), .clientTask 0 .receive,
    .advance (Duration.fromMillis 6000)]

/-- The theorem applied to this client, whose session will be over at this instant. -/
theorem silence_ends_lastHeartbeat :
    ∃ tr x r, (lts (Params.knowing [punctualConnect] true)).Run
        (fun x l => Watchful .millis x l = true) (start 0) lastHeartbeat tr x ∧
      x.session = .running r ∧ x.now = Duration.fromMillis 10000 ∧
      ∃ t₀ intervals period, tr.head? = some (.session t₀ (.handled (.connected intervals))) ∧
        clientHeartbeatPeriod (Params.knowing [punctualConnect] true) intervals.expected
          = some period ∧
        (0 < period →
          x.now ≤ TimeDriver.millis.wake (lastItem t₀ tr + Duration.fromMillis period) ∧
          x.now < lastItem t₀ tr + Duration.fromMillis (period + 1) ∧
          ∀ millis, lastItem t₀ tr = Duration.fromMillis millis →
            x.now ≤ lastItem t₀ tr + Duration.fromMillis period) := by
  let p := Params.knowing [punctualConnect] true
  let x := ((lts p).exec (fun x l => Watchful .millis x l = true) (start 0) lastHeartbeat).get
    (by decide)
  have hrun : (lts p).Run (fun x l => Watchful .millis x l = true) (start 0) lastHeartbeat
      x.2 x.1 := LTS.Run.exec_get _ _ _ _ (by decide)
  obtain ⟨r, hr⟩ := Session.eq_running_of_isRunning (s := x.1.session) (by decide)
  exact ⟨_, _, r, hrun, hr, by decide, silence_ends hrun hr⟩

end TimedSession
