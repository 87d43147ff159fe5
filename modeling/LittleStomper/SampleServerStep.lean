/-
# What one step of the sample server does

A step of the sample server is a step of its sessions and destinations, whose output goes
through a sink, or it touches neither.  Since a sink that panics ends the session like one that
fails, a run of the sample server is a run of its sessions and destinations
(`SampleServer.run_world`), and all that is true of their runs is true here.

The sink panics on nothing but the body of a message: all other output is text
(`ServerMessage.isText_bytes`).
-/
import LittleStomper.Messages
import LittleStomper.SampleServer

open Obs ClientEvent

/-! ## What a session puts out -/

namespace Session

variable {p : Params} {s s' : Session} {input : SessionInput} {os : List SessionObs}
  {m : ServerMessage}

/-- A handler that puts something out goes on, and the event leads to it. -/
theorem Handles.output {r : ClientSession} {resetFails : Bool} {e : ClientEvent}
    (h : Handles p r resetFails e s' os) (hin : .output m ∈ os) :
    e.panics resetFails = false ∧ r.message? p e = some m := by
  have hbegun : .output m ∉ begun r e := by
    unfold begun
    simp
  cases h with
  | stuck hpanic => cases e <;> simp [clientMessageReceived] at hin
  | callPanics hpanic hcall => simp [hbegun] at hin
  | ends hpanic hends => exact absurd hin hbegun
  | goesOn hpanic hends =>
      refine ⟨hpanic, ?_⟩
      rcases List.mem_append.mp hin with hin | hin
      · exact absurd hin hbegun
      · simpa using hin

/-- **All that a session puts out**: CONNECTED and ERROR frames, heartbeats, and a MESSAGE frame
for a message that it takes from its channel. -/
inductive Puts (s : Session) (input : SessionInput) : ServerMessage → Prop
  | connected (frame : ConnectedFrame) : Puts s input (.inl (.connected frame))
  | error (text : String) : Puts s input (.inl (.error text))
  | heartbeat : Puts s input (.inr eol)
  | message {r : ClientSession} {i : SubscriptionId} {message : OutboundMessage}
      (hs : s = running r) (hinput : input = .own false)
      (hevents : r.events.head? = some (.serverMessage i message)) :
      Puts s input (.inl (.message (ClientSession.messageFrame i message)))

/-- What an event leads to, if it is no message. -/
theorem puts_of_message? {r : ClientSession} {e : ClientEvent}
    (he : ∀ i message, e ≠ .serverMessage i message) (h : r.message? p e = some m) :
    Puts s input m := by
  unfold ClientSession.message? at h
  cases hfault : e.fault? p r.activeSubscriptionsByClientId with
  | some text =>
      rw [hfault] at h
      obtain rfl := Option.some.inj h
      exact Puts.error text
  | none =>
      rw [hfault] at h
      cases e with
      | connected intervals =>
          obtain rfl := Option.some.inj h
          exact Puts.connected _
      | heartbeat =>
          obtain rfl := Option.some.inj h
          exact Puts.heartbeat
      | serverMessage i message => exact absurd rfl (he i message)
      | _ => cases h

/-- Every step puts out one of these. -/
theorem Turn.puts (h : Turn p s input s' os) (hin : .output m ∈ os) : Puts s input m := by
  cases h with
  | rejected hfirst =>
      obtain rfl : m = _ := by simpa using hin
      exact Puts.error _
  | overflows hfirst hnew => simp at hin
  | connected hfirst hnew =>
      obtain rfl : m = _ := by simpa using hin
      exact Puts.connected _
  | client hhandles =>
      refine puts_of_message? ?_ (hhandles.output hin).2
      -- an item of the client's stream is never an event of the channel
      intro i message
      unfold clientEvent
      split
      · simp
      · simp
      · split <;> simp
  | @own r resetFails e events _ _ hevents hhandles =>
      obtain ⟨hpanic, hmessage⟩ := hhandles.output hin
      cases e with
      | serverMessage i message =>
          -- `resetFails` would have made the handler panic
          obtain rfl : resetFails = false := hpanic
          obtain rfl := Option.some.inj hmessage
          refine Puts.message rfl rfl ?_
          rw [hevents]
          rfl
      | _ => exact puts_of_message? (by simp) hmessage
  | heartbeat hheartbeat hhandles => exact puts_of_message? (by simp) (hhandles.output hin).2
  | missed hlistening hheartbeat => cases hin
  | delivered hfrom => cases hin
  | sinkFails => cases hin

end Session

/-! ## The bytes -/

namespace ServerMessage

variable {p : SampleParams}

/-- **A MESSAGE frame is a text if its body is one.** -/
theorem isText_bytes_message (frame : MessageFrame) :
    Utf8.isText (bytes p (.inl (.message frame))) = Utf8.isText frame.body := by
  show Utf8.isText (Utf8.encode (p.messageHead frame) ++ frame.body ++ [0]) = _
  rw [Utf8.isText_concat (by decide), Utf8.isText_encode_append]

/-- **All other output is text.** -/
theorem isText_bytes {s : Session} {input : SessionInput} {m : ServerMessage}
    (h : s.Puts input m) (hm : ∀ frame, m ≠ .inl (.message frame)) :
    Utf8.isText (m.bytes p) = true := by
  cases h with
  | connected frame => exact Utf8.isText_encode _
  | error text => exact Utf8.isText_encode _
  | heartbeat =>
      show Utf8.isText eol = true
      decide
  | message hs hinput hevents => exact absurd rfl (hm _)

end ServerMessage

/-- **When the conversion panics**: the bytes are no text, and the sink accepts them. -/
theorem sendBytes_eq_panicked {p : SampleParams} {channel : Mailbox Message} {bytes : Bytes} :
    sendBytes p channel bytes = .panicked ↔
      Utf8.isText bytes = false ∧ (p.readyFails && channel.isGone) = false := by
  unfold sendBytes textMessage Utf8.isText
  cases hready : (p.readyFails && channel.isGone) with
  | true => simp
  | false =>
      cases htext : Utf8.decode bytes with
      | none => simp
      | some text => cases hsend : channel.send (.text text) <;> simp [hsend]

/-- **The socket is told what the session has put out**: the message sent is the text that the
bytes are. -/
theorem sendBytes_accepted {p : SampleParams} {channel channel' : Mailbox Message}
    {bytes : Bytes} {message : Message}
    (h : sendBytes p channel bytes = .accepted message channel') :
    ∃ text, message = .text text ∧ Utf8.encode text = bytes ∧
      channel.send message = some channel' := by
  unfold sendBytes textMessage at h
  split at h
  · cases h
  · cases htext : Utf8.decode bytes with
    | none => simp [htext] at h
    | some text =>
        simp only [htext, Option.map_some] at h
        cases hsend : channel.send (.text text) with
        | none => simp [hsend] at h
        | some channel₁ =>
            simp only [hsend, SinkOutcome.accepted.injEq] at h
            obtain ⟨rfl, rfl⟩ := h
            exact ⟨text, rfl, Utf8.encode_of_decode htext, hsend⟩

/-! ## Steps of the server -/

namespace SampleServer

variable {p : SampleParams} {x x' : SampleServer} {w : World} {l : SampleLabel}
  {tr os : List SampleObs} {ws : List Obs} {c : SessionId} {m : ServerMessage}

/-- What a sink is passed was put out by its session. -/
theorem mem_of_outputOf (h : outputOf ws = some (c, m)) : session c (.output m) ∈ ws := by
  obtain ⟨o, ho, heq⟩ := List.exists_of_findSome?_eq_some h
  cases o with
  | session c' o' =>
      cases o' with
      | output m' =>
          obtain ⟨rfl, rfl⟩ := Prod.mk.inj (Option.some.inj heq)
          exact ho
      | _ => cases heq
  | _ => cases heq

/-- What a session puts out is passed to a sink. -/
theorem isSome_outputOf (h : session c (.output m) ∈ ws) : (outputOf ws).isSome = true := by
  rw [outputOf, List.findSome?_isSome_iff]
  exact ⟨_, h, rfl⟩

/-- **The step of the sessions and destinations** in a step of the server, if there is one. -/
def worldLabel (x : SampleServer) : SampleLabel → Option Label
  | .message c item =>
    (incoming (x.channels c) item).2.map fun item => .session c ((x.world.sessions c).input item)
  | .world l => some l
  | _ => none

/-- Handling a message of the WebSocket neither opens nor closes the channel. -/
theorem isGone_incoming (channel : Mailbox Message) (item : Option (Except String Message)) :
    (incoming channel item).1.isGone = channel.isGone := by
  have hsend : ∀ message, ((channel.send message).getD channel).isGone = channel.isGone := by
    intro message
    cases channel <;> rfl
  cases item with
  | none => rfl
  | some result =>
      cases result with
      | error err => rfl
      | ok msg =>
          cases msg with
          | ping bytes => cases channel <;> rfl
          | close frame => exact hsend _
          | _ => rfl

/-- **All that a step of the server can do**: nothing to the sessions and destinations, or one
step of theirs with its output through the sink. -/
inductive Turn (p : SampleParams) (x : SampleServer) (l : SampleLabel) :
    SampleServer → List SampleObs → Prop
  | beside {x' : SampleServer} {os : List SampleObs} (hlabel : x.worldLabel l = none)
      (hworld : x'.world = x.world) (hos : os.filterMap SampleObs.ofWorld? = [])
      (hpanic : ∀ o ∈ os, o.isSinkPanic = false) : Turn p x l x' os
  | moves {x₁ : SampleServer} {l₁ : Label} {r : World × List Obs}
      (hlabel : x.worldLabel l = some l₁) (hworld : x₁.world = x.world)
      (hgone : ∀ c, (x₁.channels c).isGone = (x.channels c).isGone)
      (hstep : x.world.step p.toParams l₁ = some r) :
      Turn p x l (x₁.settle p r).1 (x₁.settle p r).2

/-- Every step of the server is one of these. -/
theorem turn_of_step (h : x.step p l = some (x', os)) : Turn p x l x' os := by
  have hmoves : ∀ {x₁ : SampleServer} {l₁ : Label}, x₁.move p l₁ = some (x', os) →
      x.worldLabel l = some l₁ → x₁.world = x.world →
      (∀ c, (x₁.channels c).isGone = (x.channels c).isGone) → Turn p x l x' os := by
    intro x₁ l₁ hmove hlabel hworld hgone
    obtain ⟨r, hstep, heq⟩ := Option.map_eq_some_iff.mp hmove
    obtain ⟨rfl, rfl⟩ := Prod.mk.inj heq
    rw [hworld] at hstep
    exact Turn.moves hlabel hworld hgone hstep
  cases l with
  | message c item =>
      have hgone : ∀ c', ((x.setChannel c (incoming (x.channels c) item).1).channels c').isGone
          = (x.channels c').isGone := by
        intro c'
        by_cases hc : c' = c
        · subst hc
          simp [setChannel, isGone_incoming]
        · simp [setChannel, Function.update_of_ne hc]
      have hmessage : x.stepMessage p c item = some (x', os) := h
      unfold stepMessage at hmessage
      split at hmessage
      · cases hmessage
      · cases hitem : (incoming (x.channels c) item).2 with
        | none =>
            simp only [hitem] at hmessage
            obtain ⟨rfl, rfl⟩ := Prod.mk.inj (Option.some.inj hmessage)
            refine Turn.beside ?_ rfl rfl (by simp)
            simp [worldLabel, hitem]
        | some item' =>
            simp only [hitem] at hmessage
            refine hmoves hmessage ?_ rfl hgone
            simp [worldLabel, hitem]
  | world l₁ =>
      have hworld : (if x.allows l₁ then x.move p l₁ else none) = some (x', os) := h
      split at hworld
      · exact hmoves hworld rfl rfl fun _ => rfl
      · cases hworld
  | respond c =>
      obtain ⟨⟨message, channel⟩, -, heq⟩ := Option.map_eq_some_iff.mp h
      cases message with
      | close frame =>
          obtain ⟨rfl, rfl⟩ := Prod.mk.inj heq
          exact Turn.beside rfl rfl rfl (by simp)
      | _ =>
          obtain ⟨rfl, rfl⟩ := Prod.mk.inj heq
          exact Turn.beside rfl rfl rfl (by simp [SampleObs.isSinkPanic])
  | hangUp c =>
      have hhang : (if (x.channels c).isGone then none
        else some (x.setChannel c .finished, [])) = some (x', os) := h
      split at hhang
      · cases hhang
      · obtain ⟨rfl, rfl⟩ := Prod.mk.inj (Option.some.inj hhang)
        exact Turn.beside rfl rfl rfl (by simp)

/-! ## The sessions and destinations of a run -/

/-- What a step puts out, it puts out for the session that moves. -/
theorem puts_of_outputOf {w' : World} {l₁ : Label}
    (hstep : w.step p.toParams l₁ = some (w', ws)) (hout : outputOf ws = some (c, m)) :
    ∃ input, l₁ = .session c input ∧ (w.sessions c).Puts input m ∧
      w'.sessions c ≠ .awaiting := by
  have hin := mem_atSession.mpr (mem_of_outputOf hout)
  rcases (World.turn_of_step hstep).atSession c with ⟨input, hl, hturn, -, -⟩ | ⟨hos, -, -⟩
  · exact ⟨input, hl, hturn.puts hin, hturn.ne_awaiting⟩
  · rw [hos] at hin
    cases hin

/-- **After a step** the sessions and destinations are as the step leaves them, or a sink has
ended the session that has put something out. -/
theorem settle_world (r : World × List Obs) :
    (x.settle p r).2.filterMap SampleObs.ofWorld? = r.2 ∧
      ((x.settle p r).1.world = r.1 ∨ ∃ c m, outputOf r.2 = some (c, m) ∧
        (x.settle p r).1.world = r.1.setSession c .ended) := by
  have hmap := SampleObs.filterMap_ofWorld?_map_world r.2
  have happend : ∀ o, SampleObs.ofWorld? o = none →
      (r.2.map SampleObs.world ++ [o]).filterMap SampleObs.ofWorld? = r.2 := by
    intro o ho
    rw [List.filterMap_append, hmap, List.filterMap_cons_none ho]
    exact List.append_nil _
  unfold settle
  cases hout : outputOf r.2 with
  | none => exact ⟨hmap, Or.inl rfl⟩
  | some output =>
      obtain ⟨c, m⟩ := output
      dsimp only
      cases sendBytes p (x.channels c) (m.bytes p) with
      | accepted message channel => exact ⟨happend _ rfl, Or.inl rfl⟩
      | failed => exact ⟨hmap, Or.inr ⟨c, m, rfl, rfl⟩⟩
      | panicked => exact ⟨happend _ rfl, Or.inr ⟨c, m, rfl, rfl⟩⟩

/-- Ending a session that has begun is nothing, or what a sink that fails does. -/
theorem run_ended {E : World → Label → Prop} (hfails : ∀ w c, E w (.session c .sinkFails))
    (hbegun : w.sessions c ≠ .awaiting) :
    ∃ ls', (World.lts p.toParams).Run E w ls' [] (w.setSession c .ended) := by
  cases hs : w.sessions c with
  | awaiting => exact absurd hs hbegun
  | running r =>
      refine ⟨[.session c .sinkFails], LTS.Run.single (hfails w c) ?_⟩
      show w.stepSession p.toParams c .sinkFails = _
      rw [World.stepSession, hs]
      rfl
  | ended =>
      have hsame : w.setSession c .ended = w := by
        unfold World.setSession
        rw [← hs, Function.update_eq_self]
      rw [hsame]
      exact ⟨[], LTS.Run.refl w⟩

/-- **A step of the server** is a run of its sessions and destinations, in which a sink that
panics is one that fails. -/
theorem step_world {E : World → Label → Prop} (hfails : ∀ w c, E w (.session c .sinkFails))
    (hE : ∀ l₁, x.worldLabel l = some l₁ → E x.world l₁) (hstep : x.step p l = some (x', os)) :
    ∃ ls', (World.lts p.toParams).Run E x.world ls' (os.filterMap SampleObs.ofWorld?)
      x'.world := by
  cases turn_of_step hstep with
  | beside hlabel hworld hos hpanic =>
      rw [hos, hworld]
      exact ⟨[], LTS.Run.refl _⟩
  | @moves x₁ l₁ r hlabel hworld hgone hmove =>
      have hrun := LTS.Run.single (M := World.lts p.toParams) (hE l₁ hlabel) hmove
      obtain ⟨hos, hsettled⟩ := settle_world (p := p) (x := x₁) r
      rw [hos]
      rcases hsettled with heq | ⟨c, m, hout, heq⟩
      · rw [heq]
        exact ⟨[l₁], hrun⟩
      · obtain ⟨input, -, -, hbegun⟩ := puts_of_outputOf hmove hout
        obtain ⟨ls', hended⟩ := run_ended (p := p) hfails hbegun
        rw [heq, ← List.append_nil r.2]
        exact ⟨[l₁] ++ ls', hrun.trans hended⟩

/-- **The sessions and destinations of the sample server** make a run of their own. -/
theorem run_world {C : SampleServer → SampleLabel → Prop} {E : World → Label → Prop}
    {ls : List SampleLabel} (hfails : ∀ w c, E w (.session c .sinkFails))
    (hE : ∀ x l l₁, C x l → x.worldLabel l = some l₁ → E x.world l₁)
    (h : (lts p).Run C x ls tr x') :
    ∃ ls', (World.lts p.toParams).Run E x.world ls' (tr.filterMap SampleObs.ofWorld?)
      x'.world := by
  have hmatch : ∀ {x x' : SampleServer} {l : SampleLabel} {os : List SampleObs} {w : World},
      x.world = w → C x l → (lts p).step x l = some (x', os) →
      ∃ ls' w', (World.lts p.toParams).Run E w ls' (os.filterMap SampleObs.ofWorld?) w' ∧
        x'.world = w' := by
    rintro x x' l os _ rfl hC hstep
    obtain ⟨ls', hrun⟩ := step_world hfails (fun l₁ => hE x l l₁ hC) hstep
    exact ⟨ls', _, hrun, rfl⟩
  obtain ⟨ls', _, hrun, rfl⟩ := h.simulate (R := fun x w => x.world = w) hmatch rfl
  exact ⟨ls', hrun⟩

end SampleServer
