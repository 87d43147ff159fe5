/-
# From socket to socket

What the client of one connection sends as SEND frames in the messages of its socket, and what the
client of another one finds in the texts on its own: the way through the whole sample server.

A session handles the frames of its socket as they come in, up to its end (`Heard`).  What becomes
of them in the system (`World.blocks_of_feeds`) and on the way out (`socket`) is known, so the
MESSAGE frames on a socket bring, for each subscription, one block of the bodies that each client
has sent to the destination (`one_block_of_each_client`).
-/
import LittleStomper.EndToEnd
import LittleStomper.Settling
import LittleStomper.Sockets

open Obs DestinationObs SampleObs

/-! ## Bodies in messages -/

/-- The bytes that a message of the WebSocket brings to the session. -/
def Message.bytes? : Message → Option Bytes
  | text t => some (Utf8.encode t)
  | binary bytes => some bytes
  | _ => none

/-- The body of the SEND frame to `d` that the client of the connection `c` sends in the step. -/
def SampleLabel.send? (p : SampleParams) (c : SessionId) (d : DestinationId) :
    SampleLabel → Option Bytes
  | message c' (some (.ok m)) =>
      if c' = c then
        m.bytes?.bind fun bytes => (clientEvent p.toParams (some (.ok bytes))).sendTo? d
      else none
  | _ => none

/-- The body of a SEND frame to `d` that comes in at a connected session. -/
def SessionInput.send? (p : Params) (d : DestinationId) : SessionInput → Option Bytes
  | client item => (clientEvent p item).sendTo? d
  | _ => none

/-- The MESSAGE frame of an output. -/
def ServerMessage.messageFrame? : ServerMessage → Option MessageFrame
  | .inl (.message frame) => some frame
  | _ => none

/-- The MESSAGE frames of a session are those among its outputs. -/
theorem messageFrames_eq_outputsOf (c : SessionId) (tr : List SampleObs) :
    messageFrames c (tr.filterMap ofWorld?)
      = (outputsOf c tr).filterMap ServerMessage.messageFrame? := by
  rw [messageFrames, outputsOf, SessionObs.outputs, List.filterMap_filterMap]
  refine List.filterMap_congr fun o _ => ?_
  cases o with
  | output m =>
      cases m with
      | inl frame => cases frame <;> rfl
      | inr bytes => rfl
  | _ => rfl

/-! ## What a session hears -/

namespace Session

variable {p : Params} {s s' : Session} {input : SessionInput} {sos : List SessionObs}

/-- The SEND frames that are handled in a step come in, as none waits in the session's channel. -/
theorem Turn.heard (h : Turn p s input s' sos) (d : DestinationId)
    (hframes : ∀ r, s = running r → ∀ e ∈ r.events, e.isFrame = false) :
    (sos.filterMap SessionObs.handled?).filterMap (ClientEvent.sendTo? d)
      = (input.send? p d).toList := by
  cases h with
  | @client _ item _ _ hhandles =>
      rw [hhandles.handled]
      cases hsend : (clientEvent p item).sendTo? d <;> simp [SessionInput.send?, hsend]
  | @own r resetFails e events _ _ hevents hhandles =>
      have hframe := hframes r rfl e (by rw [hevents]; exact List.mem_cons_self)
      rw [hhandles.handled]
      cases e with
      | clientFrame result => cases hframe
      | _ => rfl
  | heartbeat hheartbeat hhandles =>
      rw [hhandles.handled]
      rfl
  | _ => rfl

/-- **A SEND frame that comes in is handled**, unless it is the first item and ends the session. -/
theorem Turn.heard_item {item : Option (StomperResult Bytes)} (h : Turn p s (s.input item) s' sos)
    (d : DestinationId) (hframes : ∀ r, s = running r → ∀ e ∈ r.events, e.isFrame = false) :
    (sos.filterMap SessionObs.handled?).filterMap (ClientEvent.sendTo? d)
        = ((clientEvent p item).sendTo? d).toList ∨
      (sos.filterMap SessionObs.handled?).filterMap (ClientEvent.sendTo? d) = [] ∧ s' = ended := by
  have hheard := h.heard d hframes
  cases s with
  | awaiting =>
      cases h with
      | rejected hfirst => exact Or.inr ⟨rfl, rfl⟩
      | overflows hfirst hnew => exact Or.inr ⟨rfl, rfl⟩
      | connected hfirst hnew =>
          -- a CONNECT frame is no SEND frame
          obtain ⟨frame, ⟨bytes, hitem, hbeat, hparse, -, -⟩, -⟩ :=
            validateAndConnect_eq_ok.mp hfirst
          rw [clientEvent_eq_clientFrame.mpr ⟨bytes, hitem, hbeat, hparse⟩]
          exact Or.inl rfl
  | running r => exact Or.inl hheard
  | ended => cases h

end Session

namespace SampleServer

variable {p : SampleParams} {x x' : SampleServer} {l : SampleLabel} {ls : List SampleLabel}
  {tr os : List SampleObs}

/-- What an item of the WebSocket brings to the session is what its message carries. -/
theorem sendTo?_incoming (channel : Mailbox Message) (item : Option (Except String Message))
    (c : SessionId) (d : DestinationId) :
    ((incoming channel item).2.bind fun item => (clientEvent p.toParams item).sendTo? d) =
      (SampleLabel.message c item).send? p c d := by
  cases item with
  | none => rfl
  | some result =>
      cases result with
      | error err => rfl
      | ok m =>
          cases m with
          | ping bytes => cases hsent : channel.send (.pong bytes) <;>
              simp [incoming, handleMessage, hsent, SampleLabel.send?, Message.bytes?, clientEvent,
                ClientEvent.sendTo?]
          | text t => simp [incoming, handleMessage, SampleLabel.send?, Message.bytes?]
          | binary bytes => simp [incoming, handleMessage, SampleLabel.send?, Message.bytes?]
          | _ => simp [incoming, handleMessage, SampleLabel.send?, Message.bytes?, clientEvent,
              ClientEvent.sendTo?]

/-- What comes in at another connection is nothing to `c`. -/
theorem send?_of_ne {c c' : SessionId} (hc : c' ≠ c) (item : Option (Except String Message))
    (d : DestinationId) : (SampleLabel.message c' item).send? p c d = none := by
  rcases item with _ | _ | m
  · rfl
  · rfl
  · exact if_neg hc

/-- A session is given the items of its WebSocket and no others. -/
theorem world_ne_client {l₁ : Label} {c : SessionId} (hstep : x.step p (.world l₁) = some (x', os))
    (item : Option (StomperResult Bytes)) : l₁ ≠ .session c (.client item) := by
  rintro rfl
  cases hstep

/-- What a step leaves of a session that is over. -/
theorem settle_ended {r : World × List Obs} {c : SessionId} (h : r.1.sessions c = .ended) :
    (x.settle p r).1.world.sessions c = .ended := by
  rcases (settle_world (p := p) (x := x) r).2 with hw | ⟨c', m, -, hw⟩
  · rw [hw]
    exact h
  · rw [hw]
    by_cases hc : c = c'
    · subst hc
      simp [World.setSession]
    · simpa [World.setSession, Function.update_of_ne hc] using h

/-- **The SEND frames that a session handles in a step** are those that its client sends in the
step, unless this is the end of the session. -/
theorem heard_step (hstep : x.step p l = some (x', os)) (hframes : x.world.NoFrames)
    (c : SessionId) (d : DestinationId) :
    sendFrames c d (os.filterMap ofWorld?) = (l.send? p c d).toList ∨
      sendFrames c d (os.filterMap ofWorld?) = [] ∧ x'.world.sessions c = .ended := by
  cases turn_of_step hstep with
  | beside hlabel hworld hos hpanic =>
      left
      have hnone : l.send? p c d = none := by
        cases l with
        | message c' item =>
            by_cases hc : c' = c
            · subst hc
              rw [← sendTo?_incoming (x.channels c') item c' d, Option.map_eq_none_iff.mp hlabel]
              rfl
            · exact send?_of_ne hc item d
        | _ => rfl
      rw [hos, hnone]
      rfl
  | @moves x₁ l₁ r hlabel hworld hgone hmove =>
      rw [(settle_world (p := p) (x := x₁) r).1]
      rcases (World.turn_of_step hmove).atSession c with
        ⟨input, rfl, hsturn, -, -⟩ | ⟨hnil, -, hne⟩
      · cases l with
        | message c' item =>
            obtain ⟨item', hitem, heq⟩ := Option.map_eq_some_iff.mp hlabel
            obtain ⟨rfl, rfl⟩ := Label.session.inj heq
            have hsend := sendTo?_incoming (p := p) (x.channels c') item c' d
            rw [hitem, Option.bind_some] at hsend
            rw [← hsend]
            exact (hsturn.heard_item d (hframes c')).imp_right fun ⟨hnil, hended⟩ =>
              ⟨hnil, settle_ended hended⟩
        | world l₂ =>
            obtain rfl := Option.some.inj hlabel
            have hheard := hsturn.heard d (hframes c)
            cases input with
            | client item => exact absurd rfl (world_ne_client hstep item)
            | _ => exact Or.inl hheard
        | _ => cases hlabel
      · have hnone : l.send? p c d = none := by
          cases l with
          | message c' item =>
              obtain ⟨item', -, heq⟩ := Option.map_eq_some_iff.mp hlabel
              exact send?_of_ne (fun hc => hne _ (hc ▸ heq.symm)) item d
          | _ => rfl
        rw [hnone, sendFrames, handledBy, hnil]
        exact Or.inl rfl

/-- A session that is over takes no item. -/
theorem send?_of_ended (hstep : x.step p l = some (x', os)) {c : SessionId}
    (hended : x.world.sessions c = .ended) (d : DestinationId) : l.send? p c d = none := by
  cases l with
  | message c' item =>
      by_cases hc : c' = c
      · subst hc
        have hmessage : x.stepMessage p c' item = some (x', os) := hstep
        rw [stepMessage, hended] at hmessage
        cases hmessage
      · exact send?_of_ne hc item d
  | _ => rfl

/-- **What the session `c` has heard** of its client: all that this has sent to `d`, or the first
of it if the session is over. -/
structure Heard (p : SampleParams) (c : SessionId) (d : DestinationId) (x : SampleServer)
    (ls : List SampleLabel) (tr : List SampleObs) : Prop where
  initial : sendFrames c d (tr.filterMap ofWorld?) <+: ls.filterMap (SampleLabel.send? p c d)
  complete : x.world.sessions c ≠ .ended →
    sendFrames c d (tr.filterMap ofWorld?) = ls.filterMap (SampleLabel.send? p c d)

/-- **Every step keeps the account.** -/
theorem Heard.step {c : SessionId} {d : DestinationId} (h : Heard p c d x ls tr)
    (hframes : x.world.NoFrames) (hstep : x.step p l = some (x', os)) :
    Heard p c d x' (ls ++ [l]) (tr ++ os) := by
  have hsends : (ls ++ [l]).filterMap (SampleLabel.send? p c d)
      = ls.filterMap (SampleLabel.send? p c d) ++ (l.send? p c d).toList := by
    cases hl : l.send? p c d <;> simp [hl]
  have hframes' : sendFrames c d ((tr ++ os).filterMap ofWorld?)
      = sendFrames c d (tr.filterMap ofWorld?) ++ sendFrames c d (os.filterMap ofWorld?) := by
    rw [List.filterMap_append, sendFrames_append]
  have hheard := heard_step hstep hframes c d
  by_cases hended : x.world.sessions c = .ended
  · -- nothing comes in any more
    obtain ⟨sent, hex⟩ := exchange_of_step hstep c
    have hnone := send?_of_ended hstep hended d
    have hnil : sendFrames c d (os.filterMap ofWorld?) = [] := by
      rcases hheard with heq | ⟨hnil, -⟩
      · rw [heq, hnone]
        rfl
      · exact hnil
    refine ⟨?_, fun hgoing => absurd (hex.ended hended).2 hgoing⟩
    rw [hframes', hsends, hnil, hnone, Option.toList_none, List.append_nil, List.append_nil]
    exact h.initial
  · have hall := h.complete hended
    rcases hheard with heq | ⟨hnil, hover⟩
    · have hsame : sendFrames c d ((tr ++ os).filterMap ofWorld?)
          = (ls ++ [l]).filterMap (SampleLabel.send? p c d) := by
        rw [hframes', hsends, hall, heq]
      exact ⟨by rw [hsame], fun _ => hsame⟩
    · refine ⟨?_, fun hgoing => absurd hover hgoing⟩
      rw [hframes', hsends, hall, hnil, List.append_nil]
      exact List.prefix_append _ _

/-- The sessions and destinations of a run of the server make a run of their own. -/
theorem world_run {C : SampleServer → SampleLabel → Prop} (hrun : (lts p).Run C initial ls tr x) :
    ∃ ls', (World.lts p.toParams).Run LTS.Free .initial ls' (tr.filterMap ofWorld?) x.world :=
  run_world (fun _ _ => trivial) (fun _ _ _ _ _ => trivial) hrun

/-- Every run has such an account of every connection. -/
theorem heard {C : SampleServer → SampleLabel → Prop} (hrun : (lts p).Run C initial ls tr x)
    (c : SessionId) (d : DestinationId) : Heard p c d x ls tr := by
  induction hrun with
  | refl => exact ⟨List.prefix_rfl, fun _ => rfl⟩
  | snoc hrun _ hstep ih =>
      obtain ⟨ls', hworld⟩ := world_run hrun
      exact ih.step (World.noFrames hworld) hstep

/-! ## From one client to another -/

/-- **A socket brings one block of each client.**  In every run of the server the texts on a
socket are the first outputs of its session; the MESSAGE frames among these bring the first of the
deliveries to its subscriptions, in order, and each brings a body that some client has sent to the
destination; and the bodies that one subscription gets of one client are one block of those that
this client has sent there in the messages of its own socket. -/
theorem one_block_of_each_client (hrun : (lts p).Run LTS.Free initial ls tr x)
    (receiver : SessionId) :
    ∃ outputs taken, outputs <+: outputsOf receiver tr ∧
      taken <+: deliveriesTo receiver (tr.filterMap ofWorld?) ∧
        ((writtenTo receiver tr).filterMap Message.text?).map Utf8.encode
          = outputs.map (·.bytes p) ∧
        outputs.filterMap ServerMessage.messageFrame? = taken.map SubscriptionMessage.frame ∧
        (∀ δ ∈ taken, ∃ sender,
          δ.message.body ∈ ls.filterMap (SampleLabel.send? p sender δ.destination)) ∧
        ∀ sender d s, (((taken.filter (·.isFor d s)).map (·.message)).filter
            (· ∈ messagesFrom sender d (tr.filterMap ofWorld?))).map (·.body)
          <:+: ls.filterMap (SampleLabel.send? p sender d) := by
  obtain ⟨ls', hworld⟩ := world_run hrun
  obtain ⟨posted, hsocket⟩ := socket hrun receiver
  obtain ⟨outputs, houtputs, htexts⟩ := List.prefix_map_iff.mp
    (((hsocket.drains.passed_first.filterMap Message.text?).map Utf8.encode).trans hsocket.texts)
  obtain ⟨taken', htaken', hframes, hfeeds⟩ := World.frames_honoured hworld receiver
  rw [messageFrames_eq_outputsOf] at hframes
  have hfirst := houtputs.filterMap ServerMessage.messageFrame?
  rw [hframes] at hfirst
  obtain ⟨taken, htaken, htakenFrames⟩ := List.prefix_map_iff.mp hfirst
  have hfed : ∀ d s, (taken.filter (·.isFor d s)).map (·.message) <+: _ := fun d s =>
    ((htaken.filter _).map _).trans (hfeeds d s)
  obtain ⟨hsenders, hblocks⟩ := World.blocks_of_feeds hworld hfed
  refine ⟨outputs, taken, houtputs, htaken.trans htaken', htexts, htakenFrames, ?_, ?_⟩
  · intro δ hδ
    obtain ⟨sender, hmessage⟩ := hsenders δ hδ
    refine ⟨sender, (heard hrun sender δ.destination).initial.subset ?_⟩
    refine (World.publishedBy_block hworld sender δ.destination).subset ?_
    rw [← body_messagesFrom]
    exact List.mem_map_of_mem hmessage
  · intro sender d s
    exact (hblocks sender d s).trans (heard hrun sender d).initial.isInfix

/-- The theorem applied to a client that subscribes and another one that sends it a message: the
text on the socket of the first brings the body. -/
theorem one_block_of_each_client_passedOn :
    let p := sampleServerParams
    let ls := subscribedAndConnected ++ [binary 1 sampleSend] ++ passedOn
      ++ [.respond 0, .respond 0]
    ∃ tr x outputs taken, (lts p).Run LTS.Free initial ls tr x ∧
      outputs <+: outputsOf 0 tr ∧ taken <+: deliveriesTo 0 (tr.filterMap ofWorld?) ∧
      ((writtenTo 0 tr).filterMap Message.text?).map Utf8.encode
          = outputs.map (·.bytes p) ∧
      outputs.filterMap ServerMessage.messageFrame? = taken.map SubscriptionMessage.frame ∧
      let block := (((taken.filter (·.isFor sampleDestination ⟨"uuid-0"⟩)).map (·.message)).filter
        (· ∈ messagesFrom 1 sampleDestination (tr.filterMap ofWorld?))).map (·.body)
      block <:+: ls.filterMap (SampleLabel.send? p 1 sampleDestination) ∧
        block = [ascii "hello"] := by
  intro p ls
  let r := ((lts p).exec LTS.Free initial ls).get (by decide +kernel)
  have hrun : (lts p).Run LTS.Free initial ls r.2 r.1 :=
    LTS.Run.exec_get _ _ _ _ (by decide +kernel)
  obtain ⟨outputs, taken, houtputs, htaken, htexts, hframes, -, hblocks⟩ :=
    one_block_of_each_client hrun 0
  have hlength := congrArg List.length htexts
  rw [List.length_map, List.length_map] at hlength
  -- all outputs were written, and all deliveries are among them
  have hwritten : outputs = outputsOf 0 r.2 :=
    houtputs.eq_of_length (hlength.symm.trans (by decide +kernel))
  have hcount := congrArg List.length hframes
  rw [hwritten, List.length_map] at hcount
  have hall : taken = deliveriesTo 0 (r.2.filterMap ofWorld?) :=
    htaken.eq_of_length (hcount.symm.trans (by decide +kernel))
  refine ⟨_, _, outputs, taken, hrun, houtputs, htaken, htexts, hframes,
    hblocks 1 sampleDestination ⟨"uuid-0"⟩, ?_⟩
  rw [hall]
  decide +kernel

end SampleServer
