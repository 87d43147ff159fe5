/-
# The sample server comes to rest

When the clients fall silent, the sessions and destinations work off what waits, what they put
out goes through the sinks, and the response processors write it to the sockets.  A step of a
session puts one message at most into the channel of its connection, and a sink that fails ends
its session, which leaves less to do.

* `comes_to_rest` : from every reachable state such steps end, whatever their order;
* `sockets_complete` : when nothing waits for a session nor for its response processor, its socket
  carries all messages that its subscriptions were owed.
-/
import LittleStomper.Connections
import LittleStomper.HeartbeatsStep

open Obs DestinationObs SampleObs

/-- A step that the parties take on their own. -/
def SampleLabel.isInternal : SampleLabel → Bool
  | .world l => l.isInternal
  | .respond _ => true
  | _ => false

/-- The messages that a response processor will take. -/
def Mailbox.pending {α : Type*} : Mailbox α → Nat
  | .listening q => q.length
  | _ => 0

/-- Sending adds one of them at most. -/
theorem Mailbox.pending_send {α : Type*} {m m' : Mailbox α} {a : α} (h : m.send a = some m') :
    m'.pending ≤ m.pending + 1 := by
  rcases Mailbox.send_eq_some h with ⟨q, rfl, rfl⟩ | ⟨q, rfl, rfl⟩
  · exact Nat.le_of_eq List.length_append
  · exact Nat.zero_le _

/-! ## Sessions that are ended by their sinks -/

namespace World

variable {w : World} {cs : Finset SessionId} {ds : Finset DestinationId}
  {c : SessionId}

/-- **A session that is ended** has nothing more to do, and the others what they had. -/
theorem Extent.setEnded (p : Params) (h : Extent cs ds w) (hbegun : w.sessions c ≠ .awaiting) :
    Extent cs ds (w.setSession c .ended) ∧
      (w.setSession c .ended).budget cs ds ≤ w.budget cs ds := by
  cases hs : w.sessions c with
  | awaiting => exact absurd hs hbegun
  | ended =>
      have hsame : w.setSession c .ended = w := by
        unfold setSession
        rw [← hs, Function.update_eq_self]
      rw [hsame]
      exact ⟨h, Nat.le_refl _⟩
  | running r =>
      have hstep : (lts p).step w (.session c .sinkFails) = some (w.setSession c .ended, []) := by
        show w.stepSession p c .sinkFails = _
        rw [stepSession, hs]
        rfl
      obtain ⟨hextent, hbudget⟩ := h.replaced hs (turn_of_step hstep)
      have hnone : Session.ended.load = 0 := rfl
      exact ⟨hextent, by omega⟩

end World

/-! ## Steps of the server -/

namespace SampleServer

variable {p : SampleParams} {x x' : SampleServer} {l : SampleLabel} {ls : List SampleLabel}
  {tr os : List SampleObs} {cs : Finset SessionId} {ds : Finset DestinationId} {c : SessionId}

/-- Nothing is in flight, and no response processor has anything to take. -/
structure AtRest (x : SampleServer) : Prop where
  world : x.world.AtRest
  channels : ∀ c q, x.channels c = .listening q → q = []

/-- The sessions, destinations and connections that have something to do are among the given
ones. -/
structure Extent (cs : Finset SessionId) (ds : Finset DestinationId) (x : SampleServer) :
    Prop where
  world : x.world.Extent cs ds
  channels : ∀ c, (x.channels c).pending ≠ 0 → c ∈ cs

/-- How many steps there can be: a step of a session leaves a message to be written. -/
def budget (cs : Finset SessionId) (ds : Finset DestinationId) (x : SampleServer) : Nat :=
  2 * x.world.budget cs ds + ∑ c ∈ cs, (x.channels c).pending

/-- A session that handles an event of its channel is one of them. -/
theorem Extent.mem (h : Extent cs ds x) {input : SessionInput}
    (hl : (Label.session c input).isInternal = true) {r : World × List Obs}
    (hstep : x.world.step p.toParams (.session c input) = some r) : c ∈ cs := by
  have hmove : (World.lts p.toParams).step x.world (.session c input) = some (r.1, r.2) := hstep
  rcases (World.turn_of_step hmove).atSession c with ⟨input', heq, hsession, -, -⟩ | ⟨-, -, hne⟩
  · obtain ⟨-, rfl⟩ := Label.session.inj heq
    cases hr : x.world.sessions c with
    | running r₀ => exact h.world.sessions c r₀ hr
    | awaiting =>
        rw [hr] at hsession
        generalize atSession c r.2 = sos, r.1.sessions c = s' at hsession
        cases hsession <;> cases hl
    | ended =>
        rw [hr] at hsession
        generalize atSession c r.2 = sos, r.1.sessions c = s' at hsession
        cases hsession
  · exact absurd rfl (hne input)

/-- **The end of a step** of the sessions and destinations: one message at most waits for a
response processor. -/
theorem Extent.settle (h : Extent cs ds x) {w' : World} {ws : List Obs} {l₁ : Label}
    (hl : l₁.isInternal = true) (hstep : x.world.step p.toParams l₁ = some (w', ws)) :
    (x.settle p (w', ws)).1.Extent cs ds ∧
      (x.settle p (w', ws)).1.budget cs ds < x.budget cs ds := by
  have hmove : (World.lts p.toParams).step x.world l₁ = some (w', ws) := hstep
  have hturn := World.turn_of_step hmove
  have hextent := h.world.step hl hturn
  have hbudget := (h.world.progress hl hturn).budget_lt
  -- a sink that fails or panics ends its session
  have hends : ∀ {c : SessionId}, w'.sessions c ≠ .awaiting →
      Extent cs ds { x with world := w'.setSession c .ended } ∧
        budget cs ds { x with world := w'.setSession c .ended } < x.budget cs ds := by
    intro c hbegun
    obtain ⟨hended, hless⟩ := hextent.setEnded p.toParams hbegun
    refine ⟨⟨hended, h.channels⟩, Nat.add_lt_add_right ?_ _⟩
    exact Nat.mul_lt_mul_of_pos_left (Nat.lt_of_le_of_lt hless hbudget) (by decide)
  unfold SampleServer.settle
  cases hout : outputOf ws with
  | none =>
      refine ⟨⟨hextent, h.channels⟩, Nat.add_lt_add_right ?_ _⟩
      exact Nat.mul_lt_mul_of_pos_left hbudget (by decide)
  | some output =>
      obtain ⟨c, m⟩ := output
      obtain ⟨input, rfl, -, hbegun⟩ := puts_of_outputOf hstep hout
      dsimp only
      cases hsend : sendBytes p (x.channels c) (m.bytes p) with
      | accepted message channel =>
          obtain ⟨text, -, -, hsent⟩ := sendBytes_accepted hsend
          have hc := h.mem hl hstep
          constructor
          · refine ⟨hextent, fun c' hpending => ?_⟩
            by_cases hcc : c' = c
            · rwa [hcc]
            · refine h.channels c' ?_
              simpa [setChannel, Function.update_of_ne hcc] using hpending
          · have hsum := Finset.sum_comp_update hc x.channels channel Mailbox.pending
            have hone := Mailbox.pending_send hsent
            show 2 * w'.budget cs ds + ∑ c' ∈ cs, (Function.update x.channels c channel c').pending
              < 2 * x.world.budget cs ds + ∑ c' ∈ cs, (x.channels c').pending
            omega
      | failed => exact hends hbegun
      | panicked => exact hends hbegun

/-- **A response processor takes a message.** -/
theorem Extent.respond (h : Extent cs ds x) (hstep : x.stepRespond c = some (x', os)) :
    x'.Extent cs ds ∧ x'.budget cs ds < x.budget cs ds := by
  obtain ⟨⟨message, channel⟩, hrecv, heq⟩ := Option.map_eq_some_iff.mp hstep
  obtain ⟨q, hlistening, rfl⟩ := Mailbox.recv_eq_some.mp hrecv
  have hpending : (x.channels c).pending = q.length + 1 := by rw [hlistening]; rfl
  have hc : c ∈ cs := h.channels c (by omega)
  -- whatever the message is, there is one less
  have htaken : ∀ {channel' : Mailbox Message}, channel'.pending ≤ q.length →
      (x.setChannel c channel').Extent cs ds ∧
        (x.setChannel c channel').budget cs ds < x.budget cs ds := by
    intro channel' hless
    constructor
    · refine ⟨h.world, fun c' hne => ?_⟩
      by_cases hcc : c' = c
      · rwa [hcc]
      · refine h.channels c' ?_
        simpa [setChannel, Function.update_of_ne hcc] using hne
    · have hsum := Finset.sum_comp_update hc x.channels channel' Mailbox.pending
      show 2 * x.world.budget cs ds + ∑ c' ∈ cs, (Function.update x.channels c channel' c').pending
        < 2 * x.world.budget cs ds + ∑ c' ∈ cs, (x.channels c').pending
      omega
  cases message with
  | close frame =>
      obtain ⟨rfl, -⟩ := Prod.mk.inj heq
      exact htaken (Nat.zero_le _)
  | _ =>
      obtain ⟨rfl, -⟩ := Prod.mk.inj heq
      exact htaken (Nat.le_refl _)

/-- Steps of the parties themselves use up the budget. -/
theorem usesUp (p : SampleParams) (cs : Finset SessionId) (ds : Finset DestinationId) :
    (lts p).UsesUp (fun _ l => l.isInternal = true) (Extent cs ds) (budget cs ds) := by
  intro x x' l os h hl hstep
  cases l with
  | world l₁ =>
      have hworld : (if x.allows l₁ then x.move p l₁ else none) = some (x', os) := hstep
      obtain ⟨-, hmove⟩ := Option.ite_none_right_eq_some.mp hworld
      obtain ⟨⟨w', ws⟩, hstep₁, heq⟩ := Option.map_eq_some_iff.mp hmove
      obtain ⟨rfl, -⟩ := Prod.mk.inj heq
      exact h.settle hl hstep₁
  | respond c => exact h.respond hstep
  | message c item => cases hl
  | hangUp c => cases hl

/-! ## Reachable states -/

/-- A step concerns the channels of some connections only. -/
theorem channels_of_step (hstep : (lts p).step x l = some (x', os)) :
    ∃ cs : Finset SessionId, ∀ c, c ∉ cs → x'.channels c = x.channels c := by
  have hset : ∀ {x : SampleServer} {c c' : SessionId} {channel : Mailbox Message},
      c' ∉ ({c} : Finset SessionId) → (x.setChannel c channel).channels c' = x.channels c' :=
    fun hc => Function.update_of_ne (Finset.notMem_singleton.mp hc) _ _
  have hmoves : ∀ {x₁ : SampleServer} {l₁ : Label}, x₁.move p l₁ = some (x', os) →
      ∃ cs : Finset SessionId, ∀ c, c ∉ cs → x'.channels c = x₁.channels c := by
    intro x₁ l₁ hmove
    obtain ⟨r, -, heq⟩ := Option.map_eq_some_iff.mp hmove
    unfold SampleServer.settle at heq
    split at heq
    · obtain ⟨rfl, -⟩ := Prod.mk.inj heq
      exact ⟨∅, fun _ _ => rfl⟩
    · rename_i c m hout
      split at heq
      · obtain ⟨rfl, -⟩ := Prod.mk.inj heq
        exact ⟨{c}, fun _ hc => hset hc⟩
      · obtain ⟨rfl, -⟩ := Prod.mk.inj heq
        exact ⟨∅, fun _ _ => rfl⟩
      · obtain ⟨rfl, -⟩ := Prod.mk.inj heq
        exact ⟨∅, fun _ _ => rfl⟩
  cases l with
  | message c item =>
      have hmessage : x.stepMessage p c item = some (x', os) := hstep
      unfold stepMessage at hmessage
      split at hmessage
      · cases hmessage
      · cases hitem : (incoming (x.channels c) item).2 with
        | none =>
            simp only [hitem] at hmessage
            obtain ⟨rfl, -⟩ := Prod.mk.inj (Option.some.inj hmessage)
            exact ⟨{c}, fun _ hc => hset hc⟩
        | some item' =>
            simp only [hitem] at hmessage
            obtain ⟨cs, hcs⟩ := hmoves hmessage
            refine ⟨insert c cs, fun c' hc => ?_⟩
            rw [Finset.mem_insert, not_or] at hc
            exact (hcs c' hc.2).trans (Function.update_of_ne hc.1 _ _)
  | world l₁ =>
      have hworld : (if x.allows l₁ then x.move p l₁ else none) = some (x', os) := hstep
      exact hmoves (Option.ite_none_right_eq_some.mp hworld).2
  | respond c =>
      obtain ⟨⟨message, channel⟩, -, heq⟩ := Option.map_eq_some_iff.mp hstep
      cases message with
      | close frame =>
          obtain ⟨rfl, -⟩ := Prod.mk.inj heq
          exact ⟨{c}, fun _ hc => hset hc⟩
      | _ =>
          obtain ⟨rfl, -⟩ := Prod.mk.inj heq
          exact ⟨{c}, fun _ hc => hset hc⟩
  | hangUp c =>
      have hhang : (if (x.channels c).isGone then none
        else some (x.setChannel c .finished, [])) = some (x', os) := hstep
      obtain ⟨-, heq⟩ := Option.ite_none_left_eq_some.mp hhang
      obtain ⟨rfl, -⟩ := Prod.mk.inj (Option.some.inj heq)
      exact ⟨{c}, fun _ hc => hset hc⟩

/-- **Every reachable state has a finite extent.** -/
theorem extent {C : SampleServer → SampleLabel → Prop} (hrun : (lts p).Run C initial ls tr x) :
    ∃ cs ds, x.Extent cs ds := by
  obtain ⟨ls', hworld⟩ := world_run hrun
  obtain ⟨cs, ds, hextent⟩ := World.extent hworld
  obtain ⟨cs', hcs'⟩ : ∃ cs' : Finset SessionId, ∀ c, c ∉ cs' → (x.channels c).pending = 0 := by
    refine hrun.invariant
      (P := fun x _ => ∃ cs' : Finset SessionId, ∀ c, c ∉ cs' → (x.channels c).pending = 0)
      ⟨∅, fun _ _ => rfl⟩ ?_
    intro _ _ _ x x' l _ ih _ hstep
    obtain ⟨cs', hcs'⟩ := ih
    obtain ⟨cs₁, hother⟩ := channels_of_step hstep
    refine ⟨cs' ∪ cs₁, fun c hc => ?_⟩
    rw [Finset.mem_union, not_or] at hc
    rw [hother c hc.2]
    exact hcs' c hc.1
  refine ⟨cs ∪ cs', ds, { hextent with sessions := fun c r hr => ?_ }, fun c hne => ?_⟩
  · exact Finset.mem_union_left _ (hextent.sessions c r hr)
  · by_contra hc
    rw [Finset.mem_union, not_or] at hc
    exact hne (hcs' c hc.2)

/-- **Unless everything is at rest, somebody can do something.** -/
theorem atRest_or_enabled {C : SampleServer → SampleLabel → Prop}
    (hrun : (lts p).Run C initial ls tr x) :
    x.AtRest ∨ ∃ l, l.isInternal = true ∧ ((lts p).step x l).isSome = true := by
  by_cases hchannels : ∀ c q, x.channels c = .listening q → q = []
  · obtain ⟨ls', hworld⟩ := world_run hrun
    have hcalls := (World.provenance hworld).toCalls
    rcases hcalls.atRest_or_enabled p.toParams with hrest | ⟨l, hl, hsome⟩
    · exact Or.inl ⟨hrest, hchannels⟩
    · refine Or.inr ⟨.world l, hl, ?_⟩
      have hallows : x.allows l = true := by
        cases l with
        | session c input =>
            cases input with
            | own resetFails => rfl
            | _ => cases hl
        | _ => rfl
      have hmove : (x.move p l).isSome = true := by
        rw [move, Option.isSome_map]
        exact hsome
      show (if x.allows l then x.move p l else none).isSome = true
      rwa [if_pos hallows]
  · right
    simp only [not_forall] at hchannels
    obtain ⟨c, q, hlistening, hne⟩ := hchannels
    obtain ⟨message, q, rfl⟩ := List.exists_cons_of_ne_nil hne
    refine ⟨.respond c, rfl, ?_⟩
    show (x.stepRespond c).isSome = true
    rw [stepRespond, hlistening, Option.isSome_map]
    rfl

/-! ## The end of all work -/

/-- **The sample server comes to rest.**  From every reachable state the steps that sessions, tasks,
destinations and response processors take on their own can be taken only so often, whatever their
order and whatever the sinks do; and as long as not everything is at rest, one of them is
possible. -/
theorem comes_to_rest (hrun : (lts p).Run LTS.Free initial ls tr x) :
    ∃ n, ∀ {ls' : List SampleLabel} {tr' : List SampleObs} {x' : SampleServer},
      (lts p).Run (fun _ l => l.isInternal = true) x ls' tr' x' → ls'.length ≤ n ∧
        (x'.AtRest ∨ ∃ l, l.isInternal = true ∧ ((lts p).step x' l).isSome = true) := by
  obtain ⟨cs, ds, hextent⟩ := extent hrun
  refine ⟨x.budget cs ds, fun hrun' => ?_⟩
  obtain ⟨-, hlength⟩ := LTS.UsesUp.run (usesUp p cs ds) hextent hrun'
  exact ⟨Nat.le_trans (Nat.le_add_right _ _) hlength, atRest_or_enabled (hrun.trans hrun'.free)⟩

/-- The theorem applied to a client that has subscribed and another one that has sent a message, and
to a run of what is left to do. -/
theorem comes_to_rest_passedOn :
    let p := sampleServerParams
    let ls := passedOn ++ [.respond 0, .respond 1, .respond 0]
    ∃ tr x n tr' x',
      (lts p).Run LTS.Free initial (subscribedAndConnected ++ [binary 1 sampleSend]) tr x ∧
      (lts p).Run (fun _ l => l.isInternal = true) x ls tr' x' ∧ ls.length ≤ n := by
  intro p ls
  let r := ((lts p).exec LTS.Free initial (subscribedAndConnected ++ [binary 1 sampleSend])).get
    (by decide +kernel)
  have hrun : (lts p).Run LTS.Free initial (subscribedAndConnected ++ [binary 1 sampleSend]) r.2
      r.1 := LTS.Run.exec_get _ _ _ _ (by decide +kernel)
  have hrun' := LTS.Run.exec_get (lts p) (fun _ l => l.isInternal = true) r.1 ls (by decide +kernel)
  obtain ⟨n, hn⟩ := comes_to_rest hrun
  exact ⟨_, _, n, _, _, hrun, hrun', (hn hrun').1⟩

/-- **Nothing is missing on a socket.**  In every run, when nothing waits for a session that runs
nor for its response processor, the texts on the socket are all that the session has put out; its
MESSAGE frames are all deliveries to the session, in order; and for each of its subscriptions these
are every message that the destination took while the subscription was there. -/
theorem sockets_complete (hrun : (lts p).Run LTS.Free initial ls tr x) {r : ClientSession}
    (hc : x.world.sessions c = .running r) (hevents : r.events = [])
    (hchannel : x.channels c = .listening []) :
    ((writtenTo c tr).filterMap Message.text?).map Utf8.encode = (outputsOf c tr).map (·.bytes p) ∧
      (outputsOf c tr).filterMap ServerMessage.messageFrame?
        = (deliveriesTo c (tr.filterMap ofWorld?)).map SubscriptionMessage.frame ∧
      ∀ d s i, Owned (tr.filterMap ofWorld?) c d s i →
        ((deliveriesTo c (tr.filterMap ofWorld?)).filter (·.isFor d s)).map (·.message)
          = LogEntry.feed s (log d (atDestination d (tr.filterMap ofWorld?))) := by
  obtain ⟨ls', hworld⟩ := world_run hrun
  obtain ⟨posted, hsocket⟩ := socket hrun c
  refine ⟨?_, ?_, fun d s i howned => World.deliveries_eq_feed hworld howned⟩
  · rw [← hsocket.all_written hchannel]
    exact hsocket.complete (by simp [hc])
  · rw [← messageFrames_eq_outputsOf]
    exact World.messageFrames_eq_deliveries hworld hc hevents

/-- The theorem applied to the client that has subscribed, when both texts were written. -/
theorem sockets_complete_passedOn :
    let p := sampleServerParams
    let ls := subscribedAndConnected ++ [binary 1 sampleSend] ++ passedOn
      ++ [.respond 0, .respond 0]
    ∃ tr x, (lts p).Run LTS.Free initial ls tr x ∧ (outputsOf 0 tr).length = 2 ∧
      ((writtenTo 0 tr).filterMap Message.text?).map Utf8.encode
        = (outputsOf 0 tr).map (·.bytes p) := by
  intro p ls
  let r := ((lts p).exec LTS.Free initial ls).get (by decide +kernel)
  have hrun : (lts p).Run LTS.Free initial ls r.2 r.1 :=
    LTS.Run.exec_get _ _ _ _ (by decide +kernel)
  obtain ⟨s, hs⟩ := Session.eq_running_of_isRunning (s := r.1.world.sessions 0) (by decide +kernel)
  have hrests : r.1.world.restsAt (.session 0 .heartbeat) = true := by decide +kernel
  have hevents : s.events = [] := by simpa [World.restsAt, hs] using hrests
  exact ⟨_, _, hrun, by decide +kernel, (sockets_complete hrun hs hevents (by decide +kernel)).1⟩

end SampleServer
