/-
# No instant goes on forever

While the clock stands still, the sessions, the spawned tasks, the destinations and the timers of
all sessions can do only so much: no two of them keep each other busy, and no stream is polled
again and again because it has always something to offer.  An event of a session makes two resets
at most, a tick that is picked up leaves nothing behind, and a listener reports once.

When they have done it (`TimedWorld.instant_ends`), nothing is left that the clock would have to
wait for, so the schedules in which it waits (`Attentive`, `Watchful`) never get stuck
(`TimedWorld.time_goes_on`).  This holds of every time driver: an instant is over when the tasks
that are still to be done all sleep.
-/
import LittleStomper.Settling
import LittleStomper.SilentClient
import LittleStomper.TimedSystemStep
import LittleStomper.TimerLoad

/-! ## Sessions that move at the call of their timers -/

namespace World

variable {p : Params} {w w' : World} {cs : Finset SessionId} {ds : Finset DestinationId}
  {c : SessionId} {os : List Obs}

/-- A tick of the server heartbeat puts out a heartbeat and leaves everything else as it is. -/
theorem step_heartbeat {r : ClientSession} (hr : w.sessions c = .running r)
    (hstep : w.step p (.session c .heartbeat) = some (w', os)) :
    w' = w ∧ os = [.session c (.handled .heartbeat), .session c (.output (.inr eol))] := by
  have hsession : w.stepSession p c .heartbeat = some (w', os) := hstep
  have hbeat : (w.sessions c).step p (w.callPanics c) .heartbeat =
      if 0 < r.serverHeartbeat then
        some (.running r, [.handled .heartbeat, .output (.inr eol)]) else none := by
    rw [hr]
    rfl
  rw [stepSession, hbeat] at hsession
  split at hsession
  · cases hsession
  · rename_i s sos heq
    obtain ⟨-, hs⟩ := Option.ite_none_right_eq_some.mp heq
    obtain ⟨rfl, rfl⟩ := Prod.mk.inj (Option.some.inj hs)
    obtain ⟨rfl, rfl⟩ := Prod.mk.inj (Option.some.inj hsession)
    refine ⟨?_, rfl⟩
    show w.setSession c (.running r) = w
    rw [setSession, ← hr, Function.update_eq_self]

/-- A session that puts out heartbeats can handle a tick. -/
theorem step_heartbeat_isSome {r : ClientSession} (hr : w.sessions c = .running r)
    (hpos : 0 < r.serverHeartbeat) :
    ∃ w' o os, w.step p (.session c .heartbeat) = some (w', o :: os) := by
  have hbeat : (w.sessions c).step p (w.callPanics c) .heartbeat =
      some (.running r, [.handled .heartbeat, .output (.inr eol)]) := by
    rw [hr]
    exact if_pos hpos
  have hsession : w.step p (.session c .heartbeat) = w.stepSession p c .heartbeat := rfl
  rw [hsession, stepSession, hbeat]
  exact ⟨_, _, _, rfl⟩

/-- **A session that is told of a silent client** has two more steps to take. -/
theorem Extent.missed (h : Extent cs ds w)
    (hstep : w.step p (.session c .missedHeartbeat) = some (w', os)) :
    Extent cs ds w' ∧ w'.budget cs ds ≤ w.budget cs ds + 2 := by
  have hmove : (lts p).step w (.session c .missedHeartbeat) = some (w', os) := hstep
  have hturn := turn_of_step hmove
  obtain ⟨-, hsession⟩ := stepSession_of_step hstep
  obtain ⟨s, sos, hs, -⟩ := stepSession_cases hsession
  cases hr : w.sessions c with
  | running r =>
      rw [hr] at hs
      have hmissed := Session.turn_of_step hs
      rw [stepSession, hr, hs] at hsession
      cases hmissed with
      | missed hlistening hheartbeat =>
          obtain ⟨rfl, rfl⟩ := Prod.mk.inj (Option.some.inj hsession)
          obtain ⟨hextent, hbudget⟩ := h.replaced hr hturn
          have hmore : (Session.running ({ r with listening := false }.sendEvent
              (.error "Missed heartbeat"))).load = (Session.running r).load + 2 := by
            simp [Session.load, ClientSession.sendEvent, ClientEvent.load]
          rw [hmore, Nat.add_comm (Session.running r).load, ← Nat.add_assoc] at hbudget
          exact ⟨hextent, Nat.le_of_eq (Nat.add_right_cancel hbudget)⟩
  | _ =>
      rw [hr] at hs
      cases hs

end World

/-! ## An instant of the system -/

namespace TimedWorld

variable {time : TimeDriver} {p : Params} {now : Instant} {x x' : TimedWorld}
  {l : TimedWorldLabel} {ls : List TimedWorldLabel} {tr os : List TimedWorldObs}
  {cs : Finset SessionId} {ds : Finset DestinationId}

/-- The steps that the parties and timers take on their own: all but those of the clients, their
sinks and the clock, and but for polls that find nothing.  Tasks that sleep wait to be woken. -/
def busy (time : TimeDriver) (p : Params) (x : TimedWorld) (l : TimedWorldLabel) : Bool :=
  match x.step p l with
  | none => false
  | some (x', os) =>
    match l with
    | .advance _ => false
    | .world l => l.isInternal
    | .pollServer c => !os.isEmpty || decide (x'.heartbeats c ≠ x.heartbeats c)
    | .pollClient c => !os.isEmpty || decide (x'.heartbeats c ≠ x.heartbeats c)
    | .serverTask c i move => (x.heartbeats c).all fun h => h.server.isAwake time x.now i move
    | .clientTask c i move => (x.heartbeats c).all fun h => h.client.isAwake time x.now i move

/-- A reachable state whose sessions and destinations are among the given ones. -/
structure Within (p : Params) (cs : Finset SessionId) (ds : Finset DestinationId)
    (x : TimedWorld) : Prop where
  reached : ∃ now ls tr, (lts p).Run LTS.Free (start now) ls tr x
  extent : x.world.Extent cs ds
  timers : ∀ c, x.heartbeats c ≠ none → c ∈ cs

/-- What all of them have left to do. -/
def load (cs : Finset SessionId) (ds : Finset DestinationId) (x : TimedWorld) : Nat :=
  3 * x.world.budget cs ds + ∑ c ∈ cs, (x.heartbeats c).elim 0 (Heartbeats.load x.now)

/-- The timers of a session move. -/
theorem load_lt {c : SessionId} {h : Heartbeats} {hb : Option Heartbeats} (hc : c ∈ cs)
    (hh : x.heartbeats c = some h) (hnow : x'.now = x.now)
    (hheartbeats : x'.heartbeats = Function.update x.heartbeats c hb)
    (hless : 3 * x'.world.budget cs ds + hb.elim 0 (Heartbeats.load x.now)
      < 3 * x.world.budget cs ds + h.load x.now) : x'.load cs ds < x.load cs ds := by
  have hsum := Finset.sum_comp_update hc x.heartbeats hb fun o => o.elim 0 (Heartbeats.load x.now)
  rw [hh, Option.elim_some] at hsum
  rw [load, load, hnow, hheartbeats]
  omega

/-- The timers of the sessions in every run. -/
theorem Within.lives (hx : x.Within p cs ds) {c : SessionId} {h : Heartbeats}
    (hh : x.heartbeats c = some h) : h.Lives := by
  obtain ⟨now, ls, tr, hrun⟩ := hx.reached
  obtain ⟨ls', hrun'⟩ := run_atSession hrun c
  exact TimedSession.lives hrun' h hh

/-- A connected session has its timers, and its resets do not fail. -/
theorem Within.attended (hx : x.Within p cs ds) {c : SessionId} {r : ClientSession}
    (hr : x.world.sessions c = .running r) :
    ∃ h, x.heartbeats c = some h ∧ h.resetFails = false := by
  obtain ⟨now, ls, tr, hrun⟩ := hx.reached
  obtain ⟨held, client, hh, hserves⟩ := TimedWorld.attended hrun hr
  refine ⟨_, hh, ?_⟩
  simp [Heartbeats.resetFails, hserves.accepts]

/-- Timers of others stay within. -/
theorem Within.update (hx : x.Within p cs ds) {c : SessionId} (hc : c ∈ cs) {c' : SessionId}
    {hb : Option Heartbeats} (hne : Function.update x.heartbeats c hb c' ≠ none) : c' ∈ cs := by
  by_cases hcc : c' = c
  · rwa [hcc]
  · rw [Function.update_of_ne hcc] at hne
    exact hx.timers c' hne

/-- **Only the timers of a session move**, and have less to do. -/
theorem Within.setHeartbeats (hx : x.Within p cs ds) {c : SessionId} {h h' : Heartbeats}
    (hh : x.heartbeats c = some h) (hless : h'.load x.now < h.load x.now)
    (hreached : ∃ now ls tr, (lts p).Run LTS.Free (start now) ls tr (x.setHeartbeats c h')) :
    (x.setHeartbeats c h').Within p cs ds ∧ (x.setHeartbeats c h').load cs ds < x.load cs ds := by
  have hc := hx.timers c (by simp [hh])
  refine ⟨⟨hreached, hx.extent, fun c' hne => hx.update hc hne⟩, load_lt hc hh rfl rfl ?_⟩
  exact Nat.add_lt_add_left hless _

/-- **A session, a task or a destination has moved**, and perhaps a session has reset its timers. -/
theorem Within.world (hx : x.Within p cs ds) {l : Label} (hl : l.isInternal = true)
    (hstep : x.stepWorld p l = some (x', os))
    (hreached : ∃ now ls tr, (lts p).Run LTS.Free (start now) ls tr x') :
    x'.Within p cs ds ∧ x'.load cs ds < x.load cs ds := by
  have hprogress : ∀ {w' : World} {wos : List Obs}, x.world.step p l = some (w', wos) →
      w'.Extent cs ds ∧ w'.budget cs ds < x.world.budget cs ds := by
    intro w' wos hworld
    have hmove : (World.lts p).step x.world l = some (w', wos) := hworld
    have hturn := World.turn_of_step hmove
    exact ⟨hx.extent.step hl hturn, (hx.extent.progress hl hturn).budget_lt⟩
  -- whoever is not a session leaves the timers alone
  have hother : ((x.world.step p l).map fun r =>
      (({ x with world := r.1 } : TimedWorld), r.2.map (TimedWorldObs.world x.now)))
        = some (x', os) → x'.Within p cs ds ∧ x'.load cs ds < x.load cs ds := by
    intro hmap
    obtain ⟨⟨w', wos⟩, hworld, heq⟩ := Option.map_eq_some_iff.mp hmap
    obtain ⟨rfl, rfl⟩ := Prod.mk.inj heq
    obtain ⟨hextent, hbudget⟩ := hprogress hworld
    refine ⟨⟨hreached, hextent, hx.timers⟩, ?_⟩
    show 3 * w'.budget cs ds + _ < 3 * x.world.budget cs ds + _
    exact Nat.add_lt_add_right (Nat.mul_lt_mul_of_pos_left hbudget (by decide)) _
  cases l with
  | session c input =>
      cases input with
      | own resetFails =>
          simp only [stepWorld] at hstep
          split at hstep
          · obtain ⟨⟨w', wos⟩, hworld, heq⟩ := Option.map_eq_some_iff.mp hstep
            obtain ⟨rfl, rfl⟩ := Prod.mk.inj heq
            obtain ⟨hextent, hbudget⟩ := hprogress hworld
            obtain ⟨s, sos, hs, -⟩ :=
              World.stepSession_cases (World.stepSession_of_step hworld).2
            cases hr : x.world.sessions c with
            | running r =>
                obtain ⟨h, hh, -⟩ := hx.attended hr
                have hc := hx.timers c (by simp [hh])
                obtain ⟨h', hafter⟩ : ∃ h', Heartbeats.after x.now (some h) (w'.sessions c)
                    (Obs.atSession c wos) = some h' := by
                  cases w'.sessions c <;> exact ⟨_, rfl⟩
                have hless := Heartbeats.load_after_le (hx.lives hh) hafter
                rw [← hh] at hafter
                have hupdate : (x.moved c (w', wos)).1.heartbeats
                    = Function.update x.heartbeats c (some h') := by rw [← hafter]; rfl
                refine ⟨⟨hreached, hextent, fun c' hne => hx.update hc hne⟩,
                  load_lt hc hh rfl hupdate ?_⟩
                show 3 * w'.budget cs ds + h'.load x.now < _
                omega
            | _ =>
                rw [hr] at hs
                cases hs
          · cases hstep
      | _ => cases hl
  | _ => exact hother hstep

/-- **A heartbeat stream was polled**, and has offered a tick or was polled for the first time. -/
theorem Within.pollServer (hx : x.Within p cs ds) {c : SessionId}
    (hbusy : (!os.isEmpty || decide (x'.heartbeats c ≠ x.heartbeats c)) = true)
    (hstep : x.pollServer p c = some (x', os))
    (hreached : ∃ now ls tr, (lts p).Run LTS.Free (start now) ls tr x') :
    x'.Within p cs ds ∧ x'.load cs ds < x.load cs ds := by
  rw [TimedWorld.pollServer] at hstep
  split at hstep
  · rename_i r h hr hh
    obtain ⟨⟨server, tos⟩, hpoll, hrest⟩ := Option.bind_eq_some_iff.mp hstep
    obtain ⟨hpanic, hpolled⟩ := (hx.lives hh).1.poll hpoll
    have hload : server.load x.now < h.server.load x.now →
        Heartbeats.load x.now { h with server := server } < h.load x.now := by
      intro hless
      simp only [Heartbeats.load]
      omega
    simp only at hrest
    split at hrest
    · rename_i hemission
      obtain ⟨⟨w', wos⟩, hworld, heq⟩ := Option.map_eq_some_iff.mp hrest
      obtain ⟨rfl, rfl⟩ := Prod.mk.inj heq
      obtain ⟨rfl, rfl⟩ := World.step_heartbeat (w := (x.setHeartbeats c _).world) hr hworld
      have hless : server.load x.now < h.server.load x.now := by
        rcases hpolled with hless | ⟨-, hready⟩
        · exact hless
        · -- a tick is something
          rw [List.any_eq_true] at hemission
          obtain ⟨o, ho, htick⟩ := hemission
          have hnot := List.any_eq_false.mp hready o ho
          cases o with
          | polled t result =>
              cases result with
              | pending => cases htick
              | ready value => exact absurd rfl hnot
          | _ => cases htick
      have hc := hx.timers c (by simp [hh])
      have hupdate : ((x.setHeartbeats c { h with server := server }).moved c
          (x.world, [.session c (.handled .heartbeat), .session c (.output (.inr eol))])
            ).1.heartbeats = Function.update x.heartbeats c (some { h with server := server }) := by
        simp [moved, TimedWorld.setHeartbeats, hr, Heartbeats.after, Heartbeats.react,
          Obs.atSession, Obs.ofSession?]
      refine ⟨⟨hreached, hx.extent, fun c' hne => hx.update hc (hupdate ▸ hne)⟩,
        load_lt hc hh rfl hupdate ?_⟩
      exact Nat.add_lt_add_left (hload hless) _
    · rw [hpanic, if_neg (by simp)] at hrest
      obtain ⟨rfl, rfl⟩ := Prod.mk.inj (Option.some.inj hrest)
      rcases hpolled with hless | ⟨rfl, -⟩
      · exact hx.setHeartbeats hh (hload hless) hreached
      · -- nothing has changed
        simp [TimedWorld.setHeartbeats, hh] at hbusy
  · cases hstep

/-- **A heartbeat listener has polled its timer**, and reports or does so for the first time. -/
theorem Within.pollClient (hx : x.Within p cs ds) {c : SessionId}
    (hbusy : (!os.isEmpty || decide (x'.heartbeats c ≠ x.heartbeats c)) = true)
    (hstep : x.pollClient p c = some (x', os))
    (hreached : ∃ now ls tr, (lts p).Run LTS.Free (start now) ls tr x') :
    x'.Within p cs ds ∧ x'.load cs ds < x.load cs ds := by
  rw [TimedWorld.pollClient] at hstep
  obtain ⟨h, hh, hrest⟩ := Option.bind_eq_some_iff.mp hstep
  obtain ⟨⟨client, tos⟩, hpoll, heq⟩ := Option.map_eq_some_iff.mp hrest
  obtain ⟨-, hpolled⟩ := (hx.lives hh).2.poll hpoll
  simp only at heq
  split at heq
  · -- the listener is done, and has paid for what comes of its report
    rename_i hready
    have hreleased : Heartbeats.load x.now { h with client := client.release } + 7
        < h.load x.now := by
      have hless : client.load x.now < h.client.load x.now := by
        rcases hpolled with hless | ⟨-, hnone⟩
        · exact hless
        · rw [hnone] at hready
          cases hready
      have hrelease : client.release.load x.now ≤ client.load x.now :=
        ((hx.lives hh).2.step hpoll).load_release_le
      have hreport : Heartbeats.report client.release = 0 := by
        rw [Heartbeats.report, TimerState.release_timer]
        rfl
      have hheld : Heartbeats.report h.client = 7 := by
        obtain ⟨t, ht, -⟩ := Option.map_eq_some_iff.mp hpoll
        rw [Heartbeats.report, ht]
        rfl
      simp only [Heartbeats.load, hreport, hheld]
      omega
    split at heq
    · rename_i w wos hworld
      obtain ⟨rfl, rfl⟩ := Prod.mk.inj heq
      obtain ⟨hextent, hbudget⟩ := hx.extent.missed (p := p) hworld
      have hc := hx.timers c (by simp [hh])
      refine ⟨⟨hreached, hextent, fun c' hne => hx.update hc hne⟩, load_lt hc hh rfl rfl ?_⟩
      show 3 * w.budget cs ds + Heartbeats.load x.now { h with client := client.release } < _
      omega
    · obtain ⟨rfl, rfl⟩ := Prod.mk.inj heq
      exact hx.setHeartbeats hh (by omega) hreached
  · obtain ⟨rfl, rfl⟩ := Prod.mk.inj heq
    rcases hpolled with hless | ⟨rfl, -⟩
    · have hreport := Heartbeats.report_le hpoll
      refine hx.setHeartbeats hh ?_ hreached
      simp only [Heartbeats.load]
      omega
    · -- nothing has changed
      simp [TimedWorld.setHeartbeats, hh] at hbusy

/-- **The steps of an instant use up what is left to do.** -/
theorem usesUp (time : TimeDriver) (p : Params) (cs : Finset SessionId)
    (ds : Finset DestinationId) :
    (lts p).UsesUp (fun x l => x.busy time p l = true) (Within p cs ds) (load cs ds) := by
  intro x x' l os hx hbusy hstep
  have hstep' : x.step p l = some (x', os) := hstep
  have hreached : ∃ now ls tr, (lts p).Run LTS.Free (start now) ls tr x' := by
    obtain ⟨now, ls, tr, hrun⟩ := hx.reached
    exact ⟨now, _, _, hrun.snoc trivial hstep⟩
  rw [busy, hstep'] at hbusy
  cases l with
  | advance d => cases hbusy
  | world l => exact hx.world hbusy hstep' hreached
  | pollServer c => exact hx.pollServer hbusy hstep' hreached
  | pollClient c => exact hx.pollClient hbusy hstep' hreached
  | serverTask c i move =>
      obtain ⟨h, hh, hrest⟩ := Option.bind_eq_some_iff.mp hstep'
      obtain ⟨⟨server, tos⟩, htask, heq⟩ := Option.map_eq_some_iff.mp hrest
      obtain ⟨rfl, rfl⟩ := Prod.mk.inj heq
      have hless := (hx.lives hh).1.task htask
      refine hx.setHeartbeats hh ?_ hreached
      simp only [Heartbeats.load]
      omega
  | clientTask c i move =>
      obtain ⟨h, hh, hrest⟩ := Option.bind_eq_some_iff.mp hstep'
      obtain ⟨⟨client, tos⟩, htask, heq⟩ := Option.map_eq_some_iff.mp hrest
      obtain ⟨rfl, rfl⟩ := Prod.mk.inj heq
      have hless := (hx.lives hh).2.task htask
      have hreport := Heartbeats.report_le htask
      refine hx.setHeartbeats hh ?_ hreached
      simp only [Heartbeats.load]
      omega

/-! ### When nothing is left to do -/

/-- A step of somebody who is not a client is a step of the instant. -/
theorem busy_world {l : Label} (hl : l.isInternal = true)
    (hsome : (x.stepWorld p l).isSome = true) : x.busy time p (.world l) = true := by
  obtain ⟨⟨x', os⟩, hstep⟩ := Option.isSome_iff_exists.mp hsome
  have hstep' : x.step p (.world l) = some (x', os) := hstep
  rw [busy, hstep']
  exact hl

/-- **Where there is nothing to do, nothing is in flight.** -/
theorem Within.atRest (hx : x.Within p cs ds) (hidle : ∀ l, x.busy time p l = false) :
    x.world.AtRest := by
  obtain ⟨now, ls, tr, hrun⟩ := hx.reached
  obtain ⟨ls', hworld⟩ := run_world hrun
  rcases (World.provenance hworld).toCalls.atRest_or_enabled p with hrest | ⟨l, hl, hsome⟩
  · exact hrest
  · exfalso
    have hother : ((x.world.step p l).map fun r =>
        (({ x with world := r.1 } : TimedWorld), r.2.map (TimedWorldObs.world x.now))).isSome
          = true := by
      rw [Option.isSome_map]
      exact hsome
    have hno : ∀ l', l'.isInternal = true → (x.stepWorld p l').isSome = true → False := by
      intro l' hl' hsome'
      have hbusy : x.busy time p (.world l') = true := busy_world hl' hsome'
      rw [hidle] at hbusy
      cases hbusy
    cases l with
    | session c input =>
        cases input with
        | own resetFails =>
            -- whether a reset fails is not for the session to choose
            obtain ⟨⟨w', wos⟩, hstep⟩ := Option.isSome_iff_exists.mp hsome
            have hstep : x.world.step p (.session c (.own resetFails)) = some (w', wos) := hstep
            obtain ⟨s, sos, hs, -⟩ := World.stepSession_cases (World.stepSession_of_step hstep).2
            cases hr : x.world.sessions c with
            | running r =>
                rw [hr] at hs
                cases hevents : r.events with
                | nil => simp [Session.step, hevents] at hs
                | cons e events =>
                    obtain ⟨h, hh, hfails⟩ := hx.attended hr
                    have hown := World.enabled_own (p := p) hr hevents
                    refine hno (.session c (.own false)) rfl ?_
                    have hallows : Heartbeats.allows (x.heartbeats c) (.own false) = true := by
                      simp [Heartbeats.allows, hh, hfails]
                    rw [stepWorld, if_pos hallows, Option.isSome_map]
                    exact hown
            | _ =>
                rw [hr] at hs
                cases hs
        | _ => cases hl
    | _ => exact hno _ hl hother

/-- Where no task can move, none can a moment later. -/
theorem settledUntil_of_stuck {s : TimerState}
    (h : ∀ i move, s.canMove time x.now i move = false) :
    s.SettledUntil time x.now (x.now + 1) := by
  rw [TimerState.settledUntil_iff, Nat.add_sub_cancel]
  right
  rw [TimerState.isSettled, List.all_eq_true]
  intro i _
  rw [List.all_eq_true]
  intro move _
  rw [h i move]
  rfl

/-- A heartbeat stream offers a tick only to a session that puts out heartbeats. -/
theorem Within.heartbeat_pos (hx : x.Within p cs ds) {c : SessionId} {r : ClientSession}
    (hr : x.world.sessions c = .running r) {h : Heartbeats} (hh : x.heartbeats c = some h)
    {server : TimerState} {tos : List TimerObs}
    (hpoll : h.server.step x.now .poll = some (server, tos))
    (hemission : tos.any (·.isEmission) = true) : 0 < r.serverHeartbeat := by
  obtain ⟨now, ls, tr, hrun⟩ := hx.reached
  obtain ⟨held, client, hheartbeats, hserves⟩ := TimedWorld.attended hrun hr
  obtain rfl := Option.some.inj (hh.symm.trans hheartbeats)
  obtain ⟨h', tos', hpoll', -, hmillis⟩ := hserves.poll x.now
  obtain ⟨-, rfl⟩ := Prod.mk.inj (Option.some.inj (hpoll.symm.trans hpoll'))
  have hne := hmillis hemission
  rw [Duration.asMillis_fromMillis] at hne
  exact Nat.pos_of_ne_zero hne

/-- Where there is nothing to do, a poll of the heartbeat stream finds nothing. -/
theorem Within.server_still (hx : x.Within p cs ds) (hidle : ∀ l, x.busy time p l = false)
    {c : SessionId} {r : ClientSession} (hr : x.world.sessions c = .running r) {h : Heartbeats}
    (hh : x.heartbeats c = some h) (server : TimerState) (tos : List TimerObs)
    (hpoll : h.server.step x.now .poll = some (server, tos)) :
    server = h.server ∧ tos.any (·.isReady) = false := by
  obtain ⟨hpanic, hless | hsame⟩ := (hx.lives hh).1.poll hpoll
  · exfalso
    have hbusy := hidle (.pollServer c)
    simp only [busy, step, TimedWorld.pollServer, hr, hh, hpoll, Option.bind_some] at hbusy
    cases hemission : tos.any (·.isEmission) with
    | true =>
        -- the tick would be handled
        obtain ⟨w', o, wos, hbeat⟩ := World.step_heartbeat_isSome (p := p)
          (w := (x.setHeartbeats c { h with server := server }).world) hr
          (hx.heartbeat_pos hr hh hpoll hemission)
        simp [hemission, hbeat, moved] at hbusy
    | false =>
        have hsame : ({ h with server := server } : Heartbeats) = h := by
          simpa [hemission, hpanic, TimedWorld.setHeartbeats, hh] using hbusy
        rw [show server = h.server from congrArg Heartbeats.server hsame] at hless
        exact Nat.lt_irrefl _ hless
  · exact hsame

/-- Nor does a poll of the listener. -/
theorem Within.client_still (hx : x.Within p cs ds) (hidle : ∀ l, x.busy time p l = false)
    {c : SessionId} {h : Heartbeats} (hh : x.heartbeats c = some h) (client : TimerState)
    (tos : List TimerObs) (hpoll : h.client.step x.now .poll = some (client, tos)) :
    client = h.client ∧ tos.any (·.isReady) = false := by
  obtain ⟨-, hless | hsame⟩ := (hx.lives hh).2.poll hpoll
  · exfalso
    have hbusy := hidle (.pollClient c)
    simp only [busy, step, TimedWorld.pollClient, hh, hpoll, Option.bind_some, Option.map_some]
      at hbusy
    cases hready : tos.any (·.isReady) with
    | true =>
        -- the listener would be over, and its timer dropped
        have hgone : ({ h with client := client.release } : Heartbeats) = h := by
          rw [hready, if_pos rfl] at hbusy
          split at hbusy
          · simp at hbusy
          · simpa [TimedWorld.setHeartbeats, hh] using hbusy
        obtain ⟨t, ht, -⟩ := Option.map_eq_some_iff.mp hpoll
        rw [← congrArg Heartbeats.client hgone, TimerState.release_timer] at ht
        cases ht
    | false =>
        have hsame : ({ h with client := client } : Heartbeats) = h := by
          simpa [hready, TimedWorld.setHeartbeats, hh] using hbusy
        rw [show client = h.client from congrArg Heartbeats.client hsame] at hless
        exact Nat.lt_irrefl _ hless
  · exact hsame

/-- **Where there is nothing to do, the timers wait** for the clock. -/
theorem Within.timersWait (hx : x.Within p cs ds) (hidle : ∀ l, x.busy time p l = false)
    {c : SessionId} {r : ClientSession} (hr : x.world.sessions c = .running r) {h : Heartbeats}
    (hh : x.heartbeats c = some h) :
    (h.server.isIdle = true ∧ h.server.SettledUntil time x.now (x.now + 1)) ∧
      h.client.isIdle = true ∧ h.client.SettledUntil time x.now (x.now + 1) := by
  have hlives := hx.lives hh
  refine ⟨⟨hlives.1.isIdle x.now (hx.server_still hidle hr hh),
    settledUntil_of_stuck fun i move => ?_⟩, hlives.2.isIdle x.now (hx.client_still hidle hh),
    settledUntil_of_stuck fun i move => ?_⟩
  · have hbusy := hidle (.serverTask c i move)
    cases hstep : h.server.runTask x.now i move with
    | none => rw [TimerState.canMove, hstep, Option.isSome_none, Bool.and_false]
    | some r =>
        rw [TimerState.canMove, hstep, Option.isSome_some, Bool.and_true]
        simpa [busy, step, hh, TimerState.step, hstep] using hbusy
  · have hbusy := hidle (.clientTask c i move)
    cases hstep : h.client.runTask x.now i move with
    | none => rw [TimerState.canMove, hstep, Option.isSome_none, Bool.and_false]
    | some r =>
        rw [TimerState.canMove, hstep, Option.isSome_some, Bool.and_true]
        simpa [busy, step, hh, TimerState.step, hstep] using hbusy

/-- A step concerns the timers of one session at most, and only the clock makes time pass. -/
theorem frame_of_step (hstep : (lts p).step x l = some (x', os)) :
    (∃ c, ∀ c', c' ≠ c → x'.heartbeats c' = x.heartbeats c') ∧
      ((∀ d, l ≠ .advance d) → x'.now = x.now) := by
  have hupdate : ∀ {c c' : SessionId} {hb : Option Heartbeats}, c' ≠ c →
      Function.update x.heartbeats c hb c' = x.heartbeats c' :=
    fun hne => Function.update_of_ne hne _ _
  cases l with
  | advance d =>
      obtain ⟨rfl, -⟩ := Prod.mk.inj (Option.some.inj hstep)
      exact ⟨⟨0, fun _ _ => rfl⟩, fun hne => absurd rfl (hne d)⟩
  | world l =>
      cases l with
      | session c input =>
          simp only [lts, step, stepWorld] at hstep
          split at hstep
          · obtain ⟨r, -, heq⟩ := Option.map_eq_some_iff.mp hstep
            obtain ⟨rfl, -⟩ := Prod.mk.inj heq
            exact ⟨⟨c, fun c' hne => hupdate hne⟩, fun _ => rfl⟩
          · cases hstep
      | _ =>
          obtain ⟨r, -, heq⟩ := Option.map_eq_some_iff.mp hstep
          obtain ⟨rfl, -⟩ := Prod.mk.inj heq
          exact ⟨⟨0, fun _ _ => rfl⟩, fun _ => rfl⟩
  | pollServer c =>
      simp only [lts, step, TimedWorld.pollServer] at hstep
      split at hstep
      · obtain ⟨r, -, hrest⟩ := Option.bind_eq_some_iff.mp hstep
        split at hrest
        · obtain ⟨r', -, heq⟩ := Option.map_eq_some_iff.mp hrest
          obtain ⟨rfl, -⟩ := Prod.mk.inj heq
          refine ⟨⟨c, fun c' hne => ?_⟩, fun _ => rfl⟩
          exact (Function.update_of_ne hne _ _).trans (hupdate hne)
        · split at hrest
          · obtain ⟨rfl, -⟩ := Prod.mk.inj (Option.some.inj hrest)
            refine ⟨⟨c, fun c' hne => ?_⟩, fun _ => rfl⟩
            exact (Function.update_of_ne hne _ _).trans (hupdate hne)
          · obtain ⟨rfl, -⟩ := Prod.mk.inj (Option.some.inj hrest)
            exact ⟨⟨c, fun c' hne => hupdate hne⟩, fun _ => rfl⟩
      · cases hstep
  | pollClient c =>
      obtain ⟨h, -, hrest⟩ := Option.bind_eq_some_iff.mp hstep
      obtain ⟨r, -, heq⟩ := Option.map_eq_some_iff.mp hrest
      simp only at heq
      split at heq
      · split at heq <;>
          (obtain ⟨rfl, -⟩ := Prod.mk.inj heq
           exact ⟨⟨c, fun c' hne => hupdate hne⟩, fun _ => rfl⟩)
      · obtain ⟨rfl, -⟩ := Prod.mk.inj heq
        exact ⟨⟨c, fun c' hne => hupdate hne⟩, fun _ => rfl⟩
  | serverTask c i move =>
      obtain ⟨h, -, hrest⟩ := Option.bind_eq_some_iff.mp hstep
      obtain ⟨r, -, heq⟩ := Option.map_eq_some_iff.mp hrest
      obtain ⟨rfl, -⟩ := Prod.mk.inj heq
      exact ⟨⟨c, fun c' hne => hupdate hne⟩, fun _ => rfl⟩
  | clientTask c i move =>
      obtain ⟨h, -, hrest⟩ := Option.bind_eq_some_iff.mp hstep
      obtain ⟨r, -, heq⟩ := Option.map_eq_some_iff.mp hrest
      obtain ⟨rfl, -⟩ := Prod.mk.inj heq
      exact ⟨⟨c, fun c' hne => hupdate hne⟩, fun _ => rfl⟩

/-- Every reachable state is within some sessions and destinations. -/
theorem within (hrun : (lts p).Run LTS.Free (start now) ls tr x) :
    ∃ cs ds, x.Within p cs ds := by
  obtain ⟨ls', hworld⟩ := run_world hrun
  obtain ⟨cs, ds, hextent⟩ := World.extent hworld
  obtain ⟨cs', hcs'⟩ : ∃ cs' : Finset SessionId, ∀ c, x.heartbeats c ≠ none → c ∈ cs' := by
    refine hrun.invariant
      (P := fun x _ => ∃ cs' : Finset SessionId, ∀ c, x.heartbeats c ≠ none → c ∈ cs')
      ⟨∅, fun c hne => absurd rfl hne⟩ ?_
    intro _ _ _ x x' l _ ih _ hstep
    obtain ⟨cs', hcs'⟩ := ih
    obtain ⟨⟨c, hother⟩, -⟩ := frame_of_step hstep
    refine ⟨insert c cs', fun c' hne => ?_⟩
    rw [Finset.mem_insert]
    by_cases hc : c' = c
    · exact Or.inl hc
    · exact Or.inr (hcs' c' (hother c' hc ▸ hne))
  refine ⟨cs ∪ cs', ds, ⟨_, _, _, hrun⟩, { hextent with sessions := fun c r hr => ?_ }, ?_⟩
  · exact Finset.mem_union_left _ (hextent.sessions c r hr)
  · exact fun c hne => Finset.mem_union_right _ (hcs' c hne)

/-- **Where there is nothing to do, everybody waits** for the clock. -/
theorem Within.waits (hx : x.Within p cs ds) (hidle : ∀ l, x.busy time p l = false)
    (c : SessionId) :
    Attentive time (x.atSession c) (.advance 1) = true ∧
      Watchful time (x.atSession c) (.advance 1) = true := by
  cases hr : x.world.sessions c with
  | running r =>
      obtain ⟨h, hh, -⟩ := hx.attended hr
      obtain ⟨⟨hserver, hserverSettled⟩, hclient, hclientSettled⟩ := hx.timersWait hidle hr hh
      have hevents := (hx.atRest hidle).events c r hr
      simp [Attentive, Watchful, atSession, hr, hh, hevents, hserver, hserverSettled, hclient,
        hclientSettled]
  | _ => simp [Attentive, Watchful, atSession, hr]

/-- **No instant goes on forever.**  From every reachable state the sessions, tasks, destinations
and timers can do only so much while the clock stands still, whatever the order, apart from polls
that find nothing; and when none of them can do anything any more, nothing is in flight, and no
timer of a connected session is overlooked when the clock goes on. -/
theorem instant_ends (time : TimeDriver) (hrun : (lts p).Run LTS.Free (start now) ls tr x) :
    ∃ n, ∀ {ls' : List TimedWorldLabel} {tr' : List TimedWorldObs} {x' : TimedWorld},
      (lts p).Run (fun x l => x.busy time p l = true) x ls' tr' x' → ls'.length ≤ n ∧
        ((∃ l, x'.busy time p l = true) ∨ x'.world.AtRest ∧
          ∀ c, Attentive time (x'.atSession c) (.advance 1) = true ∧
            Watchful time (x'.atSession c) (.advance 1) = true) := by
  obtain ⟨cs, ds, hwithin⟩ := within hrun
  refine ⟨x.load cs ds, fun {ls' tr' x'} hrun' => ?_⟩
  obtain ⟨hx', hlength⟩ := LTS.UsesUp.run (usesUp time p cs ds) hwithin hrun'
  refine ⟨Nat.le_trans (Nat.le_add_right _ _) hlength, ?_⟩
  by_cases hbusy : ∃ l, x'.busy time p l = true
  · exact Or.inl hbusy
  · have hidle : ∀ l, x'.busy time p l = false := fun l => by
      rw [Bool.eq_false_iff]
      exact fun hl => hbusy ⟨l, hl⟩
    exact Or.inr ⟨hx'.atRest hidle, hx'.waits hidle⟩

/-- A client that wants to hear from the server is connected, and the first tick is due. -/
def tickDue : List TimedWorldLabel :=
  [.world (.session 0 (.first TimedSession.expectantConnect.item defaultClientFactory)),
    .pollServer 0, .serverTask 0 0 .start, .advance (Duration.fromMillis 5000)]

/-- What is done at this instant. -/
def dueSteps : List TimedWorldLabel :=
  [.serverTask 0 0 .elapse, .pollClient 0, .pollServer 0, .clientTask 0 0 .start,
    .serverTask 0 1 .start]

/-- The theorem applied to this client. -/
theorem instant_ends_tickDue :
    let p := Params.knowing [TimedSession.expectantConnect] true
    ∃ tr x n tr' x', (lts p).Run LTS.Free (start 0) tickDue tr x ∧
      (lts p).Run (fun x l => x.busy .millis p l = true) x dueSteps tr' x' ∧
      dueSteps.length ≤ n := by
  intro p
  let r := ((lts p).exec LTS.Free (start 0) tickDue).get (by decide)
  have hrun : (lts p).Run LTS.Free (start 0) tickDue r.2 r.1 :=
    LTS.Run.exec_get _ _ _ _ (by decide)
  have hrun' := LTS.Run.exec_get (lts p) (fun x l => x.busy .millis p l = true) r.1 dueSteps
    (by decide)
  obtain ⟨n, hn⟩ := instant_ends .millis hrun
  exact ⟨_, _, n, _, _, hrun, hrun', (hn hrun').1⟩

/-! ### Time goes on -/

/-- The steps in which no client and no sink takes part, and in which the clock moves only when
nothing is in flight, and as far as nothing is ready to be handled. -/
def Patient (time : TimeDriver) (p : Params) (x : TimedWorld) (l : TimedWorldLabel) : Prop :=
  x.busy time p l = true ∨ ∃ d, l = .advance d ∧ x.world.AtRest ∧
    ∀ c, Attentive time (x.atSession c) (.advance d) = true ∧
      Watchful time (x.atSession c) (.advance d) = true

/-- Only the clock makes time pass. -/
theorem now_of_busy (hbusy : x.busy time p l = true) (hstep : (lts p).step x l = some (x', os)) :
    x'.now = x.now := by
  refine (frame_of_step hstep).2 ?_
  rintro d rfl
  cases hbusy

/-- The work of an instant can be done. -/
theorem Within.finishes (hx : x.Within p cs ds) :
    ∃ ls tr x', (lts p).Run (fun x l => x.busy time p l = true) x ls tr x' ∧ x'.Within p cs ds ∧
      x'.now = x.now ∧ ∀ l, x'.busy time p l = false := by
  have huses : (lts p).UsesUp (fun x l => x.busy time p l = true)
      (fun x' => x'.Within p cs ds ∧ x'.now = x.now) (load cs ds) := by
    rintro x₁ x₂ l os ⟨hwithin, hnow⟩ hbusy hstep
    obtain ⟨hwithin', hless⟩ := usesUp time p cs ds hwithin hbusy hstep
    exact ⟨⟨hwithin', (now_of_busy hbusy hstep).trans hnow⟩, hless⟩
  obtain ⟨ls, tr, x', hrun, ⟨hwithin, hnow⟩, hend⟩ := huses.exhausts ⟨hx, rfl⟩
  refine ⟨ls, tr, x', hrun, hwithin, hnow, fun l => ?_⟩
  rw [Bool.eq_false_iff]
  intro hbusy
  have hnone : x'.step p l = none := hend l hbusy
  rw [busy, hnone] at hbusy
  cases hbusy

/-- **Time goes on.**  From every reachable state the system gets to every later time without its
clients, while the clock waits for all of its parties and timers. -/
theorem time_goes_on (time : TimeDriver) (hrun : (lts p).Run LTS.Free (start now) ls tr x)
    (d : Duration) :
    ∃ ls' tr' x', (lts p).Run (Patient time p) x ls' tr' x' ∧ x'.now = x.now + d := by
  obtain ⟨cs, ds, hwithin⟩ := within hrun
  clear hrun
  induction d generalizing x with
  | zero => exact ⟨[], [], x, LTS.Run.refl x, rfl⟩
  | succ d ih =>
      obtain ⟨ls₁, tr₁, x₁, hrun₁, hwithin₁, hnow₁, hidle⟩ := hwithin.finishes
      have hadvance : (lts p).step x₁ (.advance 1) = some ({ x₁ with now := x₁.now + 1 }, []) := rfl
      have hwithin₂ : Within p cs ds { x₁ with now := x₁.now + 1 } := by
        obtain ⟨now, ls, tr, hrun⟩ := hwithin₁.reached
        exact ⟨⟨now, _, _, hrun.snoc trivial hadvance⟩, hwithin₁.extent, hwithin₁.timers⟩
      obtain ⟨ls₂, tr₂, x₂, hrun₂, hnow₂⟩ := ih hwithin₂
      refine ⟨_, _, x₂, (hrun₁.mono fun _ _ => Or.inl).trans
        (hrun₂.cons (Or.inr ⟨1, rfl, hwithin₁.atRest hidle, hwithin₁.waits hidle⟩) hadvance), ?_⟩
      calc x₂.now = x₁.now + 1 + d := hnow₂
        _ = x.now + (d + 1) := by rw [hnow₁, Nat.add_assoc, Nat.add_comm 1 d]

/-- The theorem applied to the client whose first tick is due, for a minute. -/
theorem time_goes_on_tickDue :
    let p := Params.knowing [TimedSession.expectantConnect] true
    ∃ tr x ls' tr' x', (lts p).Run LTS.Free (start 0) tickDue tr x ∧
      (lts p).Run (Patient .millis p) x ls' tr' x' ∧
      x'.now = x.now + Duration.fromMillis 60000 := by
  intro p
  let r := ((lts p).exec LTS.Free (start 0) tickDue).get (by decide)
  have hrun : (lts p).Run LTS.Free (start 0) tickDue r.2 r.1 :=
    LTS.Run.exec_get _ _ _ _ (by decide)
  obtain ⟨ls', tr', x', hrun', hnow⟩ := time_goes_on .millis hrun (Duration.fromMillis 60000)
  exact ⟨_, _, ls', tr', x', hrun, hrun', hnow⟩

end TimedWorld
