/-
# Sessions without heart-beats

A client need not promise heart-beats.  The timer that watches it has the period `0` then and
never ticks, but whatever the client sends still resets it.  So every item that was handled
since connecting is a call on the stack of the timer's one task, or a reset that waits for it
(`items_nest`): the stack grows as long as the connection lasts.
-/
import LittleStomper.Nesting
import LittleStomper.ClientHeartbeat

/-! ## The timer -/

namespace HeldTimer

/-- The suspended calls of the task that is not finished. -/
def suspended : HeldTimer → List Duration
  | fresh _ _ _ => []
  | started k => k.suspended

/-- A timer that never ticks: all of its `n` resets are suspended calls, or wait. -/
structure Piles (n : Nat) (h : HeldTimer) : Prop where
  serves : h.Serves (Duration.fromMillis 0)
  count : h.suspended.length + h.commands.length = n

variable {now : Instant} {n : Nat} {h h' : HeldTimer} {a : TimerAction} {os : List TimerObs}

/-- Such a timer has not ticked. -/
theorem Piles.unticked (hpiles : h.Piles n) : h.ticks = 0 := by
  cases h with
  | fresh period commands resetter => rfl
  | started k =>
      obtain ⟨-, -, hticks, -⟩ := hpiles.serves
      by_contra hne
      exact hticks hne rfl

/-- One more reset waits. -/
theorem Piles.queue (hpiles : h.Piles n) : (h.queue .reset).Piles (n + 1) := by
  refine ⟨hpiles.serves.queue, ?_⟩
  have hcommands : (h.queue .reset).commands = h.commands ++ [.reset] := by cases h <;> rfl
  have hsuspended : (h.queue .reset).suspended = h.suspended := by cases h <;> rfl
  rw [hcommands, hsuspended, List.length_append, ← Nat.add_assoc, hpiles.count]
  rfl

/-- **Every step keeps the pile**, and no tick is to be picked up. -/
theorem Piles.step (hpiles : h.Piles n) (hstep : Step now h a h' os)
    (hcommand : ∀ c, a ≠ .command c) (hresetter : a ≠ .dropResetter) :
    h'.Piles n ∧ (a = .poll → os.any (·.isReady) = false) := by
  have hserves := hstep.serves hpiles.serves hcommand hresetter
  cases hstep with
  | sent hresetter' haccepts => exact absurd rfl (hcommand _)
  | unsent hresetter' haccepts => exact absurd rfl (hcommand _)
  | dropResetter hresetter' => exact absurd rfl hresetter
  | initialised => exact ⟨⟨hserves, hpiles.count⟩, fun _ => rfl⟩
  | waits hpolled => exact ⟨hpiles, fun _ => rfl⟩
  | @emits k hpolled =>
      have hticks : k.ticks = 0 := hpiles.unticked
      omega
  | starts hfuture => exact ⟨⟨hserves, hpiles.count⟩, by simp⟩
  | @consumes k period c commands hfuture hcommands =>
      -- the reset that has waited is a suspended call now
      refine ⟨⟨hserves, ?_⟩, by simp⟩
      have hcount : k.suspended.length + k.commands.length = n := hpiles.count
      rw [hcommands, List.length_cons] at hcount
      show (period :: k.suspended).length + commands.length = n
      rw [List.length_cons]
      omega
  | stops hfuture hcommands hresetter' => cases hpiles.serves.1.symm.trans hresetter'
  | closes hfuture hcommands hresetter' => cases hpiles.serves.1.symm.trans hresetter'
  | @ticks k period deadline hfuture hdue =>
      -- there is no sleep
      obtain ⟨-, -, -, hshape⟩ := hpiles.serves
      rw [hfuture] at hshape
      obtain hcreated | ⟨hreceiving, -⟩ | ⟨deadline', -, hmillis⟩ := hshape
      · cases hcreated
      · cases hreceiving
      · exact absurd rfl hmillis
  | ticksAlone hfuture hdue =>
      obtain ⟨-, -, -, hshape⟩ := hpiles.serves
      rw [hfuture] at hshape
      simp at hshape

/-- The pile as the timer's state shows it: its one task has a stack, or it was not polled. -/
theorem Piles.tasks (hpiles : h.Piles n) :
    h.toState.tasks = [] ∧ h.toState.commands.length = n ∨
      ∃ task, h.toState.tasks = [task] ∧ task.height + h.toState.commands.length = n + 1 := by
  cases h with
  | fresh period commands resetter =>
      have hcount : 0 + commands.length = n := hpiles.count
      exact Or.inl ⟨rfl, by rw [← hcount, Nat.zero_add]; rfl⟩
  | started k =>
      right
      have hticks : k.ticks = 0 := hpiles.unticked
      refine ⟨.running k.suspended k.future, ?_, ?_⟩
      · rw [toState, TimerChain.toState, hticks]
        rfl
      · have hheight := height_of_owns (k := k) hpiles.serves.accepts
        have hcount : k.suspended.length + k.commands.length = n := hpiles.count
        rw [height] at hheight
        rw [hheight, toState_commands, commands]
        omega

end HeldTimer

/-! ## The session -/

namespace TimedSession

variable {p : Params} {x x' : TimedSession} {l : TimedLabel} {tr os : List TimedObs}

/-- While a session without heart-beats is connected, the items that were handled pile up. -/
def Piled (x : TimedSession) (tr : List TimedObs) : Prop :=
  ∀ r, x.session = .running r → r.clientHeartbeat = 0 →
    ∃ server h, x.heartbeats = some ⟨server, HeldTimer.toState h⟩ ∧
      h.Piles (itemTimes tr).length

/-- A session begins without an item and with a timer that waits to be polled. -/
theorem piled_of_connected {t : Instant} {item : Option (StomperResult Bytes)}
    {factory : ClientFactory} {s' : Session} {sos : List SessionObs}
    (hturn : Session.Turn p .awaiting (.first item factory) s' sos) :
    Piled ⟨t, s', Heartbeats.after t none s' sos⟩ (sos.map (.session t)) := by
  intro r hr hzero
  obtain rfl := hr
  cases hturn with
  | connected hfirst hnew =>
      refine ⟨_, .fresh (Duration.fromMillis r.clientHeartbeat) [] true,
        Heartbeats.after_connected (by simp), ?_, rfl⟩
      rw [hzero]
      exact ⟨rfl, by simp [HeldTimer.commands], rfl⟩

/-- **Every item piles up**: as long as a session is connected whose client has not promised any
heart-beats. -/
theorem piled {C : TimedSession → TimedLabel → Prop} {now : Instant} {ls : List TimedLabel}
    (hrun : (lts p).Run C (start now) ls tr x) : Piled x tr := by
  refine hrun.invariant (P := Piled) (fun r hr => by cases hr) ?_
  intro ls tr os x x' l hrun ih _ hstep
  have hunobserved := (holds kept_true hrun).1
  have hattended := fun r hr => attended (r := r) hrun hr
  obtain ⟨t, sess, hb⟩ := x
  cases sess with
  | awaiting =>
      obtain ⟨rfl, rfl⟩ := hunobserved rfl
      rcases awaiting_cases hstep with ⟨d, rfl, rfl, rfl⟩ |
        ⟨item, factory, panics, s', sos, rfl, hturn, rfl, rfl⟩
      · exact fun r hr => by cases hr
      · exact piled_of_connected hturn
  | ended =>
      obtain ⟨hended, -, -⟩ := ended_cases hstep
      intro r hr
      rw [hended] at hr
      cases hr
  | running r =>
      intro r' hr' hzero
      obtain ⟨_, client, rfl, -⟩ := hattended r rfl
      have hinterval := clientHeartbeat_of_step hstep hr'
      obtain ⟨server, h, heq, hpiles⟩ := ih r rfl (hinterval ▸ hzero)
      obtain ⟨rfl, rfl⟩ := Heartbeats.mk.inj (Option.some.inj heq)
      cases clientTurn_of_step hpiles.serves hstep with
      | ended hended hos =>
          rw [hended] at hr'
          cases hr'
      | kept hle _ hitems hos =>
          rw [itemTimes_append, hitems, List.append_nil]
          exact ⟨_, h, rfl, hpiles⟩
      | item _ hitems hos =>
          rw [itemTimes_append, hitems, List.length_append]
          exact ⟨_, _, rfl, hpiles.queue⟩
      | moved hheld hcommand hresetter helapse hready =>
          rw [List.append_nil]
          exact ⟨_, _, rfl, (hpiles.step hheld hcommand hresetter).1⟩
      | ready hheld hready =>
          have hnone := (hpiles.step hheld (by simp) (by simp)).2 rfl
          rw [hready] at hnone
          cases hnone

/-- **Without heart-beats the timer's task nests as deep as the connection lasts.**  In every run
of a session whose client has not promised any heart-beats, as long as it is connected, every
item of the client that was handled is a call on the stack of the timer's one task, or a reset
that waits. -/
theorem items_nest {C : TimedSession → TimedLabel → Prop} {now : Instant} {ls : List TimedLabel}
    (hrun : (lts p).Run C (start now) ls tr x) {r : ClientSession} (hr : x.session = .running r)
    (hzero : r.clientHeartbeat = 0) :
    ∃ hb, x.heartbeats = some hb ∧
      (hb.client.tasks = [] ∧ hb.client.commands.length = (itemTimes tr).length ∨
        ∃ task, hb.client.tasks = [task] ∧
          task.height + hb.client.commands.length = (itemTimes tr).length + 1) := by
  obtain ⟨server, h, hheartbeats, hpiles⟩ := piled hrun r hr hzero
  exact ⟨_, hheartbeats, hpiles.tasks⟩

/-- Three newlines of a client that has not promised any heart-beats. -/
def threeNewlines : List TimedLabel :=
  let newline : List TimedLabel :=
    [.session (.client (some (.ok eol))) (fun _ => false), .clientTask 0 .receive]
  [.session (.first sampleConnect.item defaultClientFactory) (fun _ => false), .pollClient,
    .clientTask 0 .start] ++ newline ++ newline ++ newline

/-- The theorem applied to this client: a stack of four calls. -/
theorem items_nest_threeNewlines :
    let p := sampleParams []
    ∃ tr x r, (lts p).Run LTS.Free (start 0) threeNewlines tr x ∧ x.session = .running r ∧
      r.clientHeartbeat = 0 ∧ x.heartbeats.map (·.client.tasks.map (·.height)) = some [4] ∧
      ∃ hb, x.heartbeats = some hb ∧
        (hb.client.tasks = [] ∧ hb.client.commands.length = (itemTimes tr).length ∨
          ∃ task, hb.client.tasks = [task] ∧
            task.height + hb.client.commands.length = (itemTimes tr).length + 1) := by
  intro p
  let x := ((lts p).exec LTS.Free (start 0) threeNewlines).get (by decide)
  have hrun : (lts p).Run LTS.Free (start 0) threeNewlines x.2 x.1 :=
    LTS.Run.exec_get _ _ _ _ (by decide)
  -- the session is as it was when its client connected
  have hr : x.1.session
      = .running ((ClientSession.new p ⟨0, 0⟩ defaultClient).get (by decide)) := rfl
  exact ⟨_, _, _, hrun, hr, by decide, by decide, items_nest hrun hr (by decide)⟩

end TimedSession
