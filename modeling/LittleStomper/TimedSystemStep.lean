/-
# The parts of the system in time

* `TimedWorld.run_atSession` : every session of the system behaves like a session with
  arbitrary surroundings, its timers and a clock;
* `TimedWorld.run_world` : without the timers and the clock, the system is that of `World`.
-/
import LittleStomper.HeartbeatsStep
import LittleStomper.TimedSystem

/-! ## Steps of the sessions and destinations -/

namespace World

variable {p : Params} {w w' : World} {c : SessionId} {input : SessionInput} {os : List Obs}

/-- A call that a session makes moves no session. -/
theorem perform_sessions (w : World) (c : SessionId) (call : DestinationCall) :
    (w.perform c call).1.sessions = w.sessions ∧
      ∀ c', Obs.atSession c' (w.perform c call).2 = [] := by
  have hdestination : ∀ {d : DestinationId} {a : DestinationAction ProxyBox}
      {D : InMemDestination ProxyBox}, actionOf ⟨c, w.boxes⟩ call = some (d, a) →
      w.destinations d = some D →
      let r := ({ w with boxes := w.boxes + 1 } : World).callDestination d D a
      r.1.sessions = w.sessions ∧ ∀ c', Obs.atSession c' r.2 = [] := by
    intro d a D haction hdest
    cases hsend : D.mailbox.send a with
    | some m =>
        rw [callDestination_accepted hsend]
        exact ⟨rfl, fun c' => rfl⟩
    | none =>
        have hdest' : ({ w with boxes := w.boxes + 1 } : World).destinations d = some D := hdest
        rw [callDestination_refused hdest' (Mailbox.send_eq_none.mp hsend)]
        refine ⟨?_, fun c' => Obs.atSession_map_destination c' d _⟩
        simp [eventsFor_refusal (ne_subscribe_of_actionOf haction).1]
  cases call with
  | subscribe d sub => exact ⟨rfl, fun c' => rfl⟩
  | send d message =>
      cases hdest : w.destinations d with
      | none => simp [perform, hdest, Obs.atSession, Obs.ofSession?]
      | some D =>
          have hcall := hdestination (a := .send message ⟨c, w.boxes⟩) rfl hdest
          simpa [perform, hdest, Obs.atSession, Obs.ofSession?] using hcall
  | unsubscribe d sub =>
      cases hdest : w.destinations d with
      | none => simp [perform, hdest, Obs.atSession, Obs.ofSession?]
      | some D =>
          have hcall := hdestination (a := .unsubscribe sub ⟨c, w.boxes⟩) rfl hdest
          simpa [perform, hdest, Obs.atSession, Obs.ofSession?] using hcall

/-- **A session's step in the system is its own step**, and no other session moves. -/
theorem stepSession_cases (h : w.stepSession p c input = some (w', os)) :
    ∃ s sos, (w.sessions c).step p (w.callPanics c) input = some (s, sos) ∧
      w'.sessions = Function.update w.sessions c s ∧
      (∀ c', Obs.atSession c' os = if c = c' then sos else []) ∧ (sos = [] → os = []) := by
  rw [stepSession] at h
  split at h
  · cases h
  · rename_i s sos hstep
    refine ⟨s, sos, hstep, ?_⟩
    obtain ⟨rfl, rfl⟩ := Prod.mk.inj (Option.some.inj h)
    cases hcall : callOf sos with
    | none => exact ⟨rfl, fun c' => by simp, fun hsos => by simp [hsos]⟩
    | some call =>
        obtain ⟨hsessions, hnone⟩ := perform_sessions (w.setSession c s) c call
        refine ⟨hsessions, fun c' => by simp [hnone], ?_⟩
        rintro rfl
        cases hcall

/-- Nothing is observed of a heartbeat listener that reports. -/
theorem missed_silent (h : w.stepSession p c .missedHeartbeat = some (w', os)) : os = [] := by
  obtain ⟨s, sos, hmissed, -, -, hnone⟩ := stepSession_cases h
  generalize w.sessions c = s₀ at hmissed
  refine hnone ?_
  cases Session.turn_of_step hmissed
  rfl

/-- A session that cannot move in the system cannot move. -/
theorem step_eq_none_of_stepSession (h : w.stepSession p c input = none) :
    (w.sessions c).step p (w.callPanics c) input = none := by
  rw [stepSession] at h
  split at h
  · assumption
  · cases h

/-- The label of a session's step. -/
theorem stepSession_of_step (h : w.step p (.session c input) = some (w', os)) :
    (∀ e, input ≠ .deliver e) ∧ w.stepSession p c input = some (w', os) := by
  have hinput : ∀ e, input ≠ .deliver e := by
    rintro e rfl
    cases h
  refine ⟨hinput, ?_⟩
  cases input <;> first | exact h | exact absurd rfl (hinput _)

/-- What a session is sent comes from the callbacks of a subscriber. -/
theorem fromSubscriber_of_mem_sentTo {e : ClientEvent} (he : e ∈ Obs.sentTo c os) :
    e.fromSubscriber = true := by
  have hevent : ∀ {i : Invocation ProxyBox}, event? i = some e → e.fromSubscriber = true := by
    intro i hi
    cases i with
    | sendCallback k id result => cases hi
    | _ =>
        obtain ⟨_, -, rfl⟩ := Option.map_eq_some_iff.mp hi
        rfl
  obtain ⟨o, -, hsent⟩ := List.mem_filterMap.mp he
  unfold Obs.sent? at hsent
  split at hsent
  · exact hevent (Option.ite_none_right_eq_some.mp hsent).2
  · cases hsent

end World

namespace TimedSession

/-- A session that is sent some events, one after the other. -/
theorem run_receive {p : Params} {t : Instant} {hb : Option Heartbeats} (es : List ClientEvent) :
    ∀ {s : Session}, (∀ e ∈ es, e.fromSubscriber = true) →
      (∀ r, s = .running r → ∃ h, hb = some h) →
      ∃ ls, (lts p).Run LTS.Free ⟨t, s, hb⟩ ls [] ⟨t, s.receive es, hb⟩ := by
  induction es with
  | nil =>
      intro s _ _
      rw [Session.receive_nil]
      exact ⟨[], LTS.Run.refl _⟩
  | cons e es ih =>
      intro s hfrom hhb
      cases s with
      | running r =>
          obtain ⟨h, rfl⟩ := hhb r rfl
          obtain ⟨ls, hrun⟩ := @ih (.running (r.sendEvent e))
            (fun e' he' => hfrom e' (List.mem_cons_of_mem _ he')) fun _ _ => ⟨h, rfl⟩
          have hstep : (lts p).step ⟨t, .running r, some h⟩ (.session (.deliver e) fun _ => false)
              = some (⟨t, .running (r.sendEvent e), some h⟩, []) := by
            simp [lts, step, Heartbeats.allows, Session.step, hfrom e List.mem_cons_self, moved,
              Heartbeats.after, Heartbeats.react]
          have hreceive : (Session.running r).receive (e :: es)
              = (Session.running (r.sendEvent e)).receive es := by
            simp [Session.receive, ClientSession.sendEvent]
          rw [hreceive]
          exact ⟨_, LTS.Run.cons trivial hstep hrun⟩
      | awaiting => exact ⟨[], LTS.Run.refl _⟩
      | ended => exact ⟨[], LTS.Run.refl _⟩

end TimedSession

/-! ## One session of the system -/

namespace TimedWorld

variable {p : Params} {x x' : TimedWorld} {l : TimedWorldLabel} {os : List TimedWorldObs}

/-- A session that has moved, seen by itself and by the others. -/
theorem atSession_moved {c : SessionId} {w : World} {s : Session} {sos : List SessionObs}
    {os : List Obs} (hsessions : w.sessions = Function.update x.world.sessions c s)
    (hos : ∀ c', Obs.atSession c' os = if c = c' then sos else []) (c' : SessionId) :
    (x.moved c (w, os)).1.atSession c' =
        (if c = c' then ⟨x.now, s, Heartbeats.after x.now (x.heartbeats c) s sos⟩
          else x.atSession c') ∧
      (x.moved c (w, os)).2.filterMap (TimedWorldObs.ofSession? c')
        = if c = c' then sos.map (.session x.now) else [] := by
  constructor
  · by_cases hc : c = c'
    · subst hc
      simp [moved, atSession, hsessions, hos]
    · simp [moved, atSession, hsessions, hc, Function.update_of_ne (Ne.symm hc)]
  · rw [moved, TimedWorldObs.filterMap_ofSession?_map_world, hos]
    split_ifs <;> rfl

/-- The timers of one session, seen by itself and by the others. -/
theorem atSession_setHeartbeats (c : SessionId) (h : Heartbeats) (c' : SessionId) :
    (x.setHeartbeats c h).atSession c' =
      if c = c' then ⟨x.now, x.world.sessions c, some h⟩ else x.atSession c' := by
  by_cases hc : c = c'
  · subst hc
    simp [setHeartbeats, atSession]
  · simp [setHeartbeats, atSession, hc, Function.update_of_ne (Ne.symm hc)]

/-- What happens is, for one session, some steps of it, its timers and the clock. -/
def Follows (p : Params) (c : SessionId) (x x' : TimedWorld) (os : List TimedWorldObs) : Prop :=
  ∃ ls, (TimedSession.lts p).Run LTS.Free (x.atSession c) ls
    (os.filterMap (TimedWorldObs.ofSession? c)) (x'.atSession c)

/-- Nothing happens to the session. -/
theorem Follows.still {c : SessionId} (hx : x'.atSession c = x.atSession c)
    (hos : os.filterMap (TimedWorldObs.ofSession? c) = []) : Follows p c x x' os := by
  rw [Follows, hx, hos]
  exact ⟨[], LTS.Run.refl _⟩

/-- It is one step of the session. -/
theorem Follows.one {c : SessionId} {l : TimedLabel}
    (hstep : (TimedSession.lts p).step (x.atSession c) l
      = some (x'.atSession c, os.filterMap (TimedWorldObs.ofSession? c))) : Follows p c x x' os :=
  ⟨_, LTS.Run.single (show LTS.Free _ _ from trivial) hstep⟩

/-- A session moves, after its timers `h'` have moved. -/
theorem follows_moved {c : SessionId} {h' : Option Heartbeats} {w : World} {s : Session}
    {sos : List SessionObs} {os' : List Obs} {l : TimedLabel}
    (hsessions : w.sessions = Function.update x.world.sessions c s)
    (hos : ∀ c', Obs.atSession c' os' = if c = c' then sos else [])
    (hheartbeats : ∀ c', x'.heartbeats c' = if c = c' then h' else x.heartbeats c')
    (hnow : x'.now = x.now) (hworld : x'.world = x.world)
    (hstep : (TimedSession.lts p).step (x.atSession c) l
      = some ((x.atSession c).moved h' (s, sos))) (c' : SessionId) :
    Follows p c' x (x'.moved c (w, os')).1 (x'.moved c (w, os')).2 := by
  obtain ⟨hx', hos'⟩ := x'.atSession_moved (hworld ▸ hsessions) hos c'
  by_cases hc : c = c'
  · subst hc
    rw [if_pos rfl] at hx' hos'
    refine Follows.one (l := l) ?_
    rw [hx', hos', hstep, hnow, hheartbeats, if_pos rfl]
    rfl
  · rw [if_neg hc] at hx' hos'
    refine Follows.still (hx'.trans ?_) hos'
    simp [atSession, hnow, hworld, hheartbeats, hc]

/-- The timers of a session move. -/
theorem follows_setHeartbeats {c : SessionId} {h : Heartbeats} {l : TimedLabel}
    (hstep : (TimedSession.lts p).step (x.atSession c) l
      = some (⟨x.now, x.world.sessions c, some h⟩, [])) (c' : SessionId) :
    Follows p c' x (x.setHeartbeats c h) [] := by
  have hx' := x.atSession_setHeartbeats c h c'
  by_cases hc : c = c'
  · subst hc
    rw [if_pos rfl] at hx'
    refine Follows.one (l := l) ?_
    rw [hx', hstep]
    rfl
  · rw [if_neg hc] at hx'
    exact Follows.still hx' rfl

/-- A session moves, or others do, apart from the timers. -/
theorem follows_stepWorld {l : Label} (c : SessionId)
    (hheartbeats : ∀ r, x.world.sessions c = .running r → ∃ h, x.heartbeats c = some h)
    (h : x.stepWorld p l = some (x', os)) : Follows p c x x' os := by
  -- if others move, the session may be sent some events
  have hother : ∀ {l : Label}, (∀ input, l ≠ .session c input) →
      ((x.world.step p l).map fun r =>
        (({ x with world := r.1 } : TimedWorld), r.2.map (TimedWorldObs.world x.now)))
        = some (x', os) → Follows p c x x' os := by
    intro l hl hstep
    obtain ⟨⟨w', os'⟩, hworld, heq⟩ := Option.map_eq_some_iff.mp hstep
    obtain ⟨rfl, rfl⟩ := Prod.mk.inj heq
    rcases (World.turn_of_step hworld).atSession c with ⟨input, hl', -⟩ | ⟨hos, hreceive, -⟩
    · exact absurd hl' (hl input)
    · rw [Follows, TimedWorldObs.filterMap_ofSession?_map_world, hos]
      have hrun := @TimedSession.run_receive p x.now (x.heartbeats c) (Obs.sentTo c os')
        (x.world.sessions c) (fun e he => World.fromSubscriber_of_mem_sentTo he) hheartbeats
      rwa [← hreceive] at hrun
  cases l with
  | session c' input =>
      simp only [stepWorld] at h
      split at h
      · rename_i hallows
        obtain ⟨⟨w', os'⟩, hworld, heq⟩ := Option.map_eq_some_iff.mp h
        obtain ⟨rfl, rfl⟩ := Prod.mk.inj heq
        obtain ⟨-, hworld⟩ := World.stepSession_of_step hworld
        obtain ⟨s, sos, hstep, hsessions, hos, -⟩ := World.stepSession_cases hworld
        have hkept : ∀ c₁, x.heartbeats c₁
            = if c' = c₁ then x.heartbeats c' else x.heartbeats c₁ := by
          intro c₁
          split_ifs with hc
          · rw [hc]
          · rfl
        refine follows_moved (l := .session input (x.world.callPanics c')) hsessions hos hkept rfl
          rfl ?_ c
        simp [TimedSession.lts, TimedSession.step, atSession, hallows, hstep]
      · cases h
  | create d => exact hother (by simp) h
  | subscribe box => exact hother (by simp) h
  | backend d uuid order => exact hother (by simp) h
  | finish d => exact hother (by simp) h
  | close d => exact hother (by simp) h

/-- The merge of a session polls its heartbeat stream. -/
theorem follows_pollServer {c' : SessionId} (c : SessionId)
    (h : x.pollServer p c' = some (x', os)) : Follows p c x x' os := by
  rw [pollServer] at h
  split at h
  · rename_i r hb hr hhb
    obtain ⟨⟨server, tos⟩, hpoll, hrest⟩ := Option.bind_eq_some_iff.mp h
    simp only at hrest
    have hset : ∀ c₁, (x.setHeartbeats c' { hb with server := server }).heartbeats c₁ =
        if c' = c₁ then some { hb with server := server } else x.heartbeats c₁ := fun c₁ => by
      simp [setHeartbeats, Function.update_apply, eq_comm]
    have hat : x.atSession c' = ⟨x.now, .running r, some hb⟩ := by rw [atSession, hr, hhb]
    have hstep : (TimedSession.lts p).step (x.atSession c') (.pollServer (x.world.callPanics c'))
        = (x.atSession c').pollServer p (x.world.callPanics c') := rfl
    rw [hat] at hstep
    simp only [TimedSession.pollServer, hpoll, Option.bind_some] at hstep
    split at hrest
    · rename_i hemission
      obtain ⟨⟨w', os'⟩, hworld, heq⟩ := Option.map_eq_some_iff.mp hrest
      obtain ⟨rfl, rfl⟩ := Prod.mk.inj heq
      obtain ⟨-, hworld⟩ := World.stepSession_of_step hworld
      obtain ⟨s, sos, hbeat, hsessions, hos, -⟩ := World.stepSession_cases hworld
      have hbeat : (Session.running r).step p (x.world.callPanics c') .heartbeat = some (s, sos) :=
        hr ▸ hbeat
      rw [if_pos hemission, hbeat, Option.map_some, ← hat] at hstep
      have hsessions : w'.sessions = Function.update x.world.sessions c' s := hsessions
      exact follows_moved hsessions hos hset rfl rfl hstep c
    · rename_i hemission
      rw [if_neg hemission] at hstep
      split at hrest
      · rename_i hpanic
        rw [if_pos hpanic, ← hat] at hstep
        obtain ⟨rfl, rfl⟩ := Prod.mk.inj (Option.some.inj hrest)
        refine follows_moved rfl (fun c₁ => ?_) hset rfl rfl hstep c
        simp [Obs.atSession, Obs.ofSession?, List.filterMap_cons]
        split_ifs <;> rfl
      · rename_i hpanic
        rw [if_neg hpanic, ← hat, ← hr] at hstep
        obtain ⟨rfl, rfl⟩ := Prod.mk.inj (Option.some.inj hrest)
        exact follows_setHeartbeats hstep c
  · cases h

/-- The heartbeat listener of a session polls its timer. -/
theorem follows_pollClient {c' : SessionId} (c : SessionId)
    (h : x.pollClient p c' = some (x', os)) : Follows p c x x' os := by
  rw [pollClient] at h
  obtain ⟨hb, hhb, hrest⟩ := Option.bind_eq_some_iff.mp h
  obtain ⟨⟨client, tos⟩, hpoll, heq⟩ := Option.map_eq_some_iff.mp hrest
  simp only at heq
  have hat : x.atSession c' = ⟨x.now, x.world.sessions c', some hb⟩ := by rw [atSession, hhb]
  have hstep : (TimedSession.lts p).step (x.atSession c') .pollClient
      = (x.atSession c').pollClient p := rfl
  rw [hat] at hstep
  simp only [TimedSession.pollClient, hpoll, Option.bind_some, Option.map_some] at hstep
  split at heq
  · rename_i hready
    rw [if_pos hready] at hstep
    -- reporting is no call, so it does not matter which calls panic
    have hcalls : (x.world.sessions c').step p (x.world.callPanics c') .missedHeartbeat
        = (x.world.sessions c').step p (fun _ => false) .missedHeartbeat := by
      cases x.world.sessions c' <;> rfl
    have hset := x.atSession_setHeartbeats c' { hb with client := client.release } c
    split at heq
    · rename_i w os' hworld
      obtain ⟨rfl, rfl⟩ := Prod.mk.inj heq
      obtain ⟨-, hworld⟩ := World.stepSession_of_step hworld
      obtain ⟨s, sos, hmissed, hsessions, -⟩ := World.stepSession_cases hworld
      have hmissed := hcalls.symm.trans hmissed
      have hsessions : w.sessions = Function.update x.world.sessions c' s := hsessions
      simp only [hmissed, ← hat] at hstep
      by_cases hc : c' = c
      · subst hc
        refine Follows.one (l := .pollClient) (hstep.trans ?_)
        simp [atSession, setHeartbeats, hsessions, TimedWorldObs.ofSession?]
      · refine Follows.still ?_ (by simp [TimedWorldObs.ofSession?, hc])
        simp [atSession, setHeartbeats, hsessions, Function.update_of_ne (Ne.symm hc)]
    · rename_i hworld
      obtain ⟨rfl, rfl⟩ := Prod.mk.inj heq
      have hnone := hcalls.symm.trans (World.step_eq_none_of_stepSession hworld)
      simp only [hnone, ← hat] at hstep
      exact follows_setHeartbeats hstep c
  · rename_i hready
    rw [if_neg hready, ← hat] at hstep
    obtain ⟨rfl, rfl⟩ := Prod.mk.inj heq
    exact follows_setHeartbeats hstep c

/-- **A step of the system, seen by one session**, is some steps of it, its timers and the clock. -/
theorem follows_step (c : SessionId)
    (hheartbeats : ∀ r, x.world.sessions c = .running r → ∃ h, x.heartbeats c = some h)
    (h : (lts p).step x l = some (x', os)) : Follows p c x x' os := by
  cases l with
  | advance d =>
      obtain ⟨rfl, rfl⟩ := Prod.mk.inj (Option.some.inj h)
      exact Follows.one (l := .advance d) rfl
  | world l => exact follows_stepWorld c hheartbeats h
  | pollServer c' => exact follows_pollServer c h
  | pollClient c' => exact follows_pollClient c h
  | serverTask c' i move =>
      obtain ⟨hb, hhb, hrest⟩ := Option.bind_eq_some_iff.mp h
      obtain ⟨⟨server, tos⟩, htask, heq⟩ := Option.map_eq_some_iff.mp hrest
      obtain ⟨rfl, rfl⟩ := Prod.mk.inj heq
      refine follows_setHeartbeats (l := .serverTask i move) ?_ c
      simp [TimedSession.lts, TimedSession.step, atSession, hhb, htask]
  | clientTask c' i move =>
      obtain ⟨hb, hhb, hrest⟩ := Option.bind_eq_some_iff.mp h
      obtain ⟨⟨client, tos⟩, htask, heq⟩ := Option.map_eq_some_iff.mp hrest
      obtain ⟨rfl, rfl⟩ := Prod.mk.inj heq
      refine follows_setHeartbeats (l := .clientTask i move) ?_ c
      simp [TimedSession.lts, TimedSession.step, atSession, hhb, htask]

/-- **Every session of the system is a session** with arbitrary surroundings, its timers and the
clock. -/
theorem run_atSession {C : TimedWorld → TimedWorldLabel → Prop} {now : Instant}
    {ls : List TimedWorldLabel} {tr : List TimedWorldObs}
    (hrun : (lts p).Run C (start now) ls tr x) (c : SessionId) :
    ∃ ls', (TimedSession.lts p).Run LTS.Free (TimedSession.start now) ls'
      (tr.filterMap (TimedWorldObs.ofSession? c)) (x.atSession c) := by
  refine hrun.invariant (P := fun x tr => ∃ ls', (TimedSession.lts p).Run LTS.Free
      (TimedSession.start now) ls' (tr.filterMap (TimedWorldObs.ofSession? c)) (x.atSession c))
    ⟨[], LTS.Run.refl _⟩ ?_
  intro ls tr os x x' l _ ih _ hstep
  obtain ⟨ls₁, hrun₁⟩ := ih
  have hheartbeats : ∀ r, x.world.sessions c = .running r → ∃ h, x.heartbeats c = some h := by
    intro r hr
    obtain ⟨h, client, hhb, -⟩ := TimedSession.attended hrun₁ (r := r) hr
    exact ⟨_, hhb⟩
  obtain ⟨ls₂, hrun₂⟩ := follows_step c hheartbeats hstep
  rw [List.filterMap_append]
  exact ⟨ls₁ ++ ls₂, hrun₁.trans hrun₂⟩

/-- Resetting the server heartbeat of a connected session succeeds, and polling its stream does not
panic. -/
theorem attended {C : TimedWorld → TimedWorldLabel → Prop} {now : Instant}
    {ls : List TimedWorldLabel} {tr : List TimedWorldObs}
    (hrun : (lts p).Run C (start now) ls tr x) {c : SessionId} {r : ClientSession}
    (hr : x.world.sessions c = .running r) :
    ∃ h client, x.heartbeats c = some ⟨HeldTimer.toState h, client⟩ ∧
      h.Serves (Duration.fromMillis r.serverHeartbeat) := by
  obtain ⟨ls', hrun'⟩ := run_atSession hrun c
  exact TimedSession.attended (r := r) hrun' hr

/-- **All that a step does to the sessions and destinations.** -/
inductive WorldTurn (p : Params) (x x' : TimedWorld) :
    TimedWorldLabel → List TimedWorldObs → Prop
  /-- Only the clock or the timers move. -/
  | still {l : TimedWorldLabel} (hl : ∀ l', l ≠ .world l') (hworld : x'.world = x.world) :
      WorldTurn p x x' l []
  /-- A session moves, apart from its timers. -/
  | session {c : SessionId} {input : SessionInput} {os : List Obs}
      (hallows : Heartbeats.allows (x.heartbeats c) input = true)
      (hstep : x.world.step p (.session c input) = some (x'.world, os)) :
      WorldTurn p x x' (.world (.session c input)) (os.map (.world x.now))
  /-- A connected session handles a tick of its heartbeat stream. -/
  | beats {c : SessionId} {os : List Obs}
      (hstep : x.world.step p (.session c .heartbeat) = some (x'.world, os)) :
      WorldTurn p x x' (.pollServer c) (os.map (.world x.now))
  /-- A heartbeat listener reports. -/
  | missed {c : SessionId}
      (hstep : x.world.step p (.session c .missedHeartbeat) = some (x'.world, [])) :
      WorldTurn p x x' (.pollClient c) [.missed x.now c]
  /-- Others move. -/
  | other {l : Label} {os : List Obs} (hl : ∀ c input, l ≠ .session c input)
      (hstep : x.world.step p l = some (x'.world, os)) :
      WorldTurn p x x' (.world l) (os.map (.world x.now))

/-- **Every step of a run is one of these cases**; in particular, no heartbeat stream panics. -/
theorem worldTurn_of_step {C : TimedWorld → TimedWorldLabel → Prop} {now : Instant}
    {ls : List TimedWorldLabel} {tr : List TimedWorldObs}
    (hrun : (lts p).Run C (start now) ls tr x) (h : (lts p).step x l = some (x', os)) :
    WorldTurn p x x' l os := by
  cases l with
  | advance d =>
      obtain ⟨rfl, rfl⟩ := Prod.mk.inj (Option.some.inj h)
      exact WorldTurn.still (by simp) rfl
  | world l =>
      have hother : ((x.world.step p l).map fun r =>
          (({ x with world := r.1 } : TimedWorld), r.2.map (TimedWorldObs.world x.now)))
            = some (x', os) → (∀ c input, l ≠ .session c input) →
            WorldTurn p x x' (.world l) os := by
        intro h hl
        obtain ⟨⟨w, os'⟩, hworld, heq⟩ := Option.map_eq_some_iff.mp h
        obtain ⟨rfl, rfl⟩ := Prod.mk.inj heq
        exact WorldTurn.other hl hworld
      cases l with
      | session c input =>
          simp only [lts, step, stepWorld] at h
          split at h
          · rename_i hallows
            obtain ⟨⟨w, os'⟩, hworld, heq⟩ := Option.map_eq_some_iff.mp h
            obtain ⟨rfl, rfl⟩ := Prod.mk.inj heq
            exact WorldTurn.session hallows hworld
          · cases h
      | _ => exact hother h (by simp)
  | pollServer c =>
      simp only [lts, step, pollServer] at h
      split at h
      · rename_i r hb hr hhb
        obtain ⟨⟨server, tos⟩, hpoll, hrest⟩ := Option.bind_eq_some_iff.mp h
        simp only at hrest
        split at hrest
        · obtain ⟨⟨w, os'⟩, hworld, heq⟩ := Option.map_eq_some_iff.mp hrest
          obtain ⟨rfl, rfl⟩ := Prod.mk.inj heq
          exact WorldTurn.beats hworld
        · split at hrest
          · -- the heartbeat stream does not panic
            rename_i hpanic
            obtain ⟨held, client, hheartbeats, -⟩ := attended hrun hr
            obtain rfl := Option.some.inj (hhb.symm.trans hheartbeats)
            obtain ⟨held', -, hheld⟩ := HeldTimer.poll_cases hpoll
            cases hheld <;> cases hpanic
          · obtain ⟨rfl, rfl⟩ := Prod.mk.inj (Option.some.inj hrest)
            exact WorldTurn.still (by simp) rfl
      · cases h
  | pollClient c =>
      obtain ⟨hb, hhb, hrest⟩ := Option.bind_eq_some_iff.mp h
      obtain ⟨⟨client, tos⟩, hpoll, heq⟩ := Option.map_eq_some_iff.mp hrest
      simp only at heq
      split at heq
      · split at heq
        · rename_i w os' hworld
          obtain ⟨rfl, rfl⟩ := Prod.mk.inj heq
          obtain ⟨-, hsession⟩ := World.stepSession_of_step hworld
          obtain rfl := World.missed_silent hsession
          exact WorldTurn.missed hworld
        · obtain ⟨rfl, rfl⟩ := Prod.mk.inj heq
          exact WorldTurn.still (by simp) rfl
      · obtain ⟨rfl, rfl⟩ := Prod.mk.inj heq
        exact WorldTurn.still (by simp) rfl
  | serverTask c i move =>
      obtain ⟨hb, hhb, hrest⟩ := Option.bind_eq_some_iff.mp h
      obtain ⟨_, -, heq⟩ := Option.map_eq_some_iff.mp hrest
      obtain ⟨rfl, rfl⟩ := Prod.mk.inj heq
      exact WorldTurn.still (by simp) rfl
  | clientTask c i move =>
      obtain ⟨hb, hhb, hrest⟩ := Option.bind_eq_some_iff.mp h
      obtain ⟨_, -, heq⟩ := Option.map_eq_some_iff.mp hrest
      obtain ⟨rfl, rfl⟩ := Prod.mk.inj heq
      exact WorldTurn.still (by simp) rfl

/-- **Without the timers and the clock, the system is that of `World`.** -/
theorem run_world {C : TimedWorld → TimedWorldLabel → Prop} {now : Instant}
    {ls : List TimedWorldLabel} {tr : List TimedWorldObs}
    (hrun : (lts p).Run C (start now) ls tr x) :
    ∃ ls', (World.lts p).Run LTS.Free .initial ls' (tr.filterMap TimedWorldObs.ofWorld?)
      x.world := by
  refine hrun.invariant (P := fun x tr => ∃ ls', (World.lts p).Run LTS.Free .initial ls'
      (tr.filterMap TimedWorldObs.ofWorld?) x.world) ⟨[], LTS.Run.refl _⟩ ?_
  intro ls tr os x x' l hrun ih _ hstep
  obtain ⟨ls₁, hrun₁⟩ := ih
  -- a step of the sessions and destinations
  have hone : ∀ {l os'}, x.world.step p l = some (x'.world, os') →
      ∃ ls', (World.lts p).Run LTS.Free .initial ls'
        ((tr ++ os'.map (TimedWorldObs.world x.now)).filterMap TimedWorldObs.ofWorld?)
        x'.world := by
    intro l os' hworld
    rw [List.filterMap_append, TimedWorldObs.filterMap_ofWorld?_map_world]
    exact ⟨_, hrun₁.snoc (l := l) trivial hworld⟩
  cases worldTurn_of_step hrun hstep with
  | still hl hworld =>
      rw [List.append_nil, hworld]
      exact ⟨ls₁, hrun₁⟩
  | session hallows hworld => exact hone hworld
  | beats hworld => exact hone hworld
  | missed hworld =>
      have hrun₂ := hone hworld
      rwa [List.filterMap_append] at hrun₂ ⊢
  | other hl hworld => exact hone hworld

end TimedWorld
