/-
# When a sink of the sample server panics

The body of a SEND frame is arbitrary bytes, and no step on the way to a subscriber looks at it;
but the sink of the sample server turns the whole MESSAGE frame into a text.  It panics if the
body is not valid UTF-8, and with it the session of the subscriber: a client that may send to a
destination can end the sessions of all clients that have subscribed to it
(`binary_send_ends_subscriber`).

A sink panics exactly when its session takes such a message from its channel, and none does as
long as the SEND frames carry texts (`no_sinkPanic_iff`).
-/
import LittleStomper.Bodies
import LittleStomper.SampleServerStep
import LittleStomper.Wire

open Obs ClientEvent Trace

/-! ## The conditions -/

namespace ClientEvent

/-- The event is no message, or its body is a text. -/
def isText : ClientEvent → Bool
  | serverMessage _ message => Utf8.isText message.body
  | _ => true

/-- The event is no SEND frame, or its body is a text. -/
def sendsText : ClientEvent → Bool
  | clientFrame (.ok (.send _ (some body))) => Utf8.isText body
  | _ => true

end ClientEvent

/-- A SEND frame that a session handles in the step carries a text. -/
def World.sendsText (p : Params) (w : World) : Label → Bool
  | .session c input => ((w.sessions c).next? p input).all ClientEvent.sendsText
  | _ => true

namespace SampleServer

/-- A SEND frame that a session handles in the step carries a text. -/
def sendsText (p : SampleParams) (x : SampleServer) (l : SampleLabel) : Bool :=
  (x.worldLabel l).all (x.world.sendsText p.toParams)

/-- A message that a session takes from its channel in the step carries a text, or its sink
fails. -/
def takesText (p : SampleParams) (x : SampleServer) (l : SampleLabel) : Bool :=
  match x.worldLabel l with
  | some (.session c (.own false)) =>
    p.readyFails && (x.channels c).isGone ||
      ((x.world.sessions c).next? p.toParams (.own false)).all ClientEvent.isText
  | _ => true

end SampleServer

/-! ## SEND frames with texts -/

/-- The event observed is the one that the input has brought. -/
theorem Session.Turn.next?_of_handled {p : Params} {s s' : Session} {input : SessionInput}
    {os : List SessionObs} (h : Turn p s input s' os) {e : ClientEvent} (hin : .handled e ∈ os)
    (hconnected : ∀ i, e ≠ .connected i) : s.next? p input = some e := by
  cases s with
  | awaiting =>
      obtain ⟨r, -, -, hs, -⟩ := h.handles_of_handled hin hconnected
      cases hs
  | running r =>
      rcases h.running_cases with ⟨e', r₀, resetFails, hnext, -, -, hhandles, -⟩ | ⟨-, rfl, -⟩
      · have hmem : e ∈ os.filterMap SessionObs.handled? := List.mem_filterMap.mpr ⟨_, hin, rfl⟩
        rw [hhandles.handled, List.mem_singleton] at hmem
        rw [hnext, hmem]
      · cases hin
  | ended => cases h

namespace World

variable {p : Params} {w w' : World} {ls : List Label} {tr : List Obs}

/-- **If SEND frames carry texts** then so do all that were handled. -/
theorem text_of_sent (h : (lts p).Run (fun w l => w.sendsText p l = true) initial ls tr w) :
    ∀ body, SentBody tr body → Utf8.isText body = true := by
  refine h.invariant (P := fun _ tr => ∀ body, SentBody tr body → Utf8.isText body = true)
    (by simp [SentBody]) ?_
  rintro ls tr os w w' l hrun ih hsends hstep body ⟨c, d, hin⟩
  rcases List.mem_append.mp hin with hold | hnew
  · exact ih body ⟨c, d, hold⟩
  · have hhandled := mem_atSession.mpr hnew
    rcases (turn_of_step hstep).atSession c with ⟨input, rfl, hturn, -, -⟩ | ⟨hos, -, -⟩
    · have hnext := hturn.next?_of_handled hhandled (by simp)
      have hall : ((w.sessions c).next? p input).all ClientEvent.sendsText = true := hsends
      rw [hnext] at hall
      exact hall
    · rw [hos] at hhandled
      cases hhandled

/-- What was put out was put out in some step. -/
theorem puts_of_output {C : World → Label → Prop} (h : (lts p).Run C w ls tr w')
    (c : SessionId) (m : ServerMessage) :
    session c (.output m) ∈ tr → ∃ s input, Session.Puts s input m := by
  refine h.invariant (P := fun _ tr => session c (.output m) ∈ tr →
    ∃ s input, Session.Puts s input m)
    (by simp) ?_
  intro ls tr os w w' l _ ih _ hstep hin
  rcases List.mem_append.mp hin with hold | hnew
  · exact ih hold
  · have houtput := mem_atSession.mpr hnew
    rcases (turn_of_step hstep).atSession c with ⟨input, -, hturn, -, -⟩ | ⟨hos, -, -⟩
    · exact ⟨_, _, hturn.puts houtput⟩
    · rw [hos] at houtput
      cases houtput

end World

namespace SampleServer

variable {p : SampleParams} {x x' : SampleServer} {l : SampleLabel} {ls : List SampleLabel}
  {tr os : List SampleObs}

/-- **If SEND frames carry texts** then all output is text. -/
theorem isText_of_output
    (h : (lts p).Run (fun x l => x.sendsText p l = true) initial ls tr x) {c : SessionId}
    {m : ServerMessage} (hin : .world (.session c (.output m)) ∈ tr) :
    Utf8.isText (m.bytes p) = true := by
  let E : World → Label → Prop := fun w l => w.sendsText p.toParams l = true
  have hfails : ∀ w c, E w (.session c .sinkFails) := by
    intro w c
    show ((w.sessions c).next? p.toParams .sinkFails).all ClientEvent.sendsText = true
    cases w.sessions c <;> rfl
  have hE : ∀ (x : SampleServer) l l₁, x.sendsText p l = true → x.worldLabel l = some l₁ →
      E x.world l₁ := by
    intro x l l₁ hsends hlabel
    rw [sendsText, hlabel] at hsends
    exact hsends
  obtain ⟨ls', hrun⟩ := run_world hfails hE h
  have hout : session c (.output m) ∈ tr.filterMap SampleObs.ofWorld? :=
    List.mem_filterMap.mpr ⟨_, hin, rfl⟩
  obtain ⟨s, input, hputs⟩ := World.puts_of_output hrun c m hout
  by_cases hm : ∃ frame, m = .inl (.message frame)
  · obtain ⟨frame, rfl⟩ := hm
    rw [ServerMessage.isText_bytes_message]
    exact World.text_of_sent hrun _ (World.sent_of_output hrun hout)
  · exact ServerMessage.isText_bytes hputs (not_exists.mp hm)

/-! ## What makes a sink panic -/

/-- **A sink panics** on what a session has put out, if this is no text and the sink accepts
bytes. -/
theorem sinkPanic_settle (r : World × List Obs) :
    Seen SampleObs.isSinkPanic (x.settle p r).2 ↔ ∃ c m, outputOf r.2 = some (c, m) ∧
      Utf8.isText (m.bytes p) = false ∧ (p.readyFails && (x.channels c).isGone) = false := by
  have hmap : ∀ o ∈ r.2.map SampleObs.world, o.isSinkPanic = false := by
    intro o ho
    obtain ⟨o', -, rfl⟩ := List.mem_map.mp ho
    rfl
  have hnone : ¬ Seen SampleObs.isSinkPanic (r.2.map .world) := not_seen_iff.mpr hmap
  have hany : ∀ o, Seen SampleObs.isSinkPanic (r.2.map .world ++ [o]) ↔ o.isSinkPanic = true := by
    intro o
    rw [seen_append]
    constructor
    · rintro (hold | ⟨o', ho', hpanic⟩)
      · exact absurd hold hnone
      · rw [← List.mem_singleton.mp ho']
        exact hpanic
    · exact fun hpanic => Or.inr ⟨o, List.mem_singleton_self o, hpanic⟩
  unfold settle
  cases hout : outputOf r.2 with
  | none => exact iff_of_false hnone (by simp)
  | some output =>
      obtain ⟨c, m⟩ := output
      have hpanicked : (∃ c' m', some (c, m) = some (c', m') ∧ Utf8.isText (m'.bytes p) = false ∧
          (p.readyFails && (x.channels c').isGone) = false) ↔
          sendBytes p (x.channels c) (m.bytes p) = .panicked := by
        rw [sendBytes_eq_panicked]
        constructor
        · rintro ⟨c', m', heq, hbytes⟩
          obtain ⟨rfl, rfl⟩ := Prod.mk.inj (Option.some.inj heq)
          exact hbytes
        · exact fun hbytes => ⟨c, m, rfl, hbytes⟩
      rw [hpanicked]
      dsimp only
      cases sendBytes p (x.channels c) (m.bytes p) with
      | accepted message channel => exact (hany _).trans (by simp [SampleObs.isSinkPanic])
      | failed => exact iff_of_false hnone (by simp)
      | panicked => exact (hany _).trans (by simp [SampleObs.isSinkPanic])

/-- **A message that a session takes** from its channel is what it puts out. -/
theorem outputOf_taken {w w' : World} {ws : List Obs} {c : SessionId} {r : ClientSession}
    {i : SubscriptionId} {message : OutboundMessage}
    (hstep : w.step p.toParams (.session c (.own false)) = some (w', ws))
    (hr : w.sessions c = .running r) (hhead : r.events.head? = some (.serverMessage i message)) :
    outputOf ws = some (c, .inl (.message (ClientSession.messageFrame i message))) := by
  have hturn : Session.Turn p.toParams (w.sessions c) (.own false) (w'.sessions c)
      (atSession c ws) := by
    have hworld : (World.lts p.toParams).step w (.session c (.own false)) = some (w', ws) := hstep
    rcases (World.turn_of_step hworld).atSession c with ⟨input, hl, hturn, -, -⟩ | ⟨-, -, hne⟩
    · obtain rfl := (Label.session.inj hl).2
      exact hturn
    · exact absurd rfl (hne _)
  rw [hr] at hturn
  generalize hos : atSession c ws = sos at hturn
  generalize w'.sessions c = s' at hturn
  cases hturn with
  | @own _ _ e events _ _ hevents hhandles =>
      rw [hevents] at hhead
      obtain rfl := Option.some.inj hhead
      have hout : session c
          (.output (.inl (.message (ClientSession.messageFrame i message)))) ∈ ws := by
        rw [← mem_atSession, hos]
        cases hhandles with
        | stuck hpanic => cases hpanic
        | callPanics hpanic hcall => cases hcall
        | ends hpanic hends => cases hends
        | goesOn hpanic hends => exact List.mem_append_right _ (List.mem_singleton_self _)
      obtain ⟨⟨c', m⟩, hsome⟩ := Option.isSome_iff_exists.mp (isSome_outputOf hout)
      -- it is the only output of the step
      obtain ⟨input', hl', -⟩ := puts_of_outputOf hstep hsome
      obtain rfl := (Label.session.inj hl').1
      have hin := mem_atSession.mpr (mem_of_outputOf hsome)
      rw [hos] at hin
      obtain rfl := Option.some.inj (hhandles.output hin).2
      exact hsome

/-- **A sink panics in a step** exactly if a message that is no text is taken in it. -/
theorem sinkPanic_step (hstep : x.step p l = some (x', os)) :
    Seen SampleObs.isSinkPanic os ↔ x.takesText p l = false := by
  cases turn_of_step hstep with
  | beside hlabel hworld hos hpanic =>
      refine iff_of_false ?_ ?_
      · rintro ⟨o, ho, hsink⟩
        rw [hpanic o ho] at hsink
        cases hsink
      · simp [takesText, hlabel]
  | @moves x₁ l₁ r hlabel hworld hgone hmove =>
      rw [sinkPanic_settle]
      constructor
      · rintro ⟨c, m, hout, htext, hready⟩
        obtain ⟨input, rfl, hputs, -⟩ := puts_of_outputOf hmove hout
        by_cases hm : ∃ frame, m = .inl (.message frame)
        · obtain ⟨frame, rfl⟩ := hm
          rw [ServerMessage.isText_bytes_message] at htext
          cases hputs with
          | @message r' i message hs hinput hevents =>
              subst hinput
              rw [hgone] at hready
              have hnext : (x.world.sessions c).next? p.toParams (.own false)
                  = some (.serverMessage i message) := by
                rw [hs]
                exact hevents
              have hbody : Utf8.isText message.body = false := htext
              simp [takesText, hlabel, hready, hnext, ClientEvent.isText, hbody]
        · have htrue := ServerMessage.isText_bytes (p := p) hputs (not_exists.mp hm)
          rw [htrue] at htext
          cases htext
      · intro htakes
        unfold takesText at htakes
        rw [hlabel] at htakes
        split at htakes
        · rename_i c heq
          obtain rfl := Option.some.inj heq
          rw [Bool.or_eq_false_iff] at htakes
          obtain ⟨hready, hall⟩ := htakes
          cases hs : x.world.sessions c with
          | running s =>
              rw [hs] at hall
              cases hhead : s.events.head? with
              | none => simp [Session.next?, hhead] at hall
              | some e =>
                  have htext : e.isText = false := by simpa [Session.next?, hhead] using hall
                  cases e with
                  | serverMessage i message =>
                      refine ⟨c, _, outputOf_taken hmove hs hhead, ?_, ?_⟩
                      · rw [ServerMessage.isText_bytes_message]
                        exact htext
                      · rw [hgone]
                        exact hready
                  | _ => cases htext
          | _ => simp [hs, Session.next?] at hall
        · cases htakes

/-- A sink that panics was passed something that is no text. -/
theorem output_of_sinkPanic {C : SampleServer → SampleLabel → Prop}
    (h : (lts p).Run C x ls tr x') : Seen SampleObs.isSinkPanic tr →
      ∃ c m, .world (.session c (.output m)) ∈ tr ∧ Utf8.isText (m.bytes p) = false := by
  refine h.invariant (P := fun _ tr => Seen SampleObs.isSinkPanic tr →
    ∃ c m, .world (.session c (.output m)) ∈ tr ∧ Utf8.isText (m.bytes p) = false) (by simp) ?_
  intro ls tr os x x' l _ ih _ hstep hseen
  rcases seen_append.mp hseen with hold | hnew
  · obtain ⟨c, m, hin, htext⟩ := ih hold
    exact ⟨c, m, List.mem_append_left os hin, htext⟩
  · cases turn_of_step hstep with
    | beside hlabel hworld hos hpanic => exact absurd hnew (not_seen_iff.mpr hpanic)
    | @moves x₁ l₁ r hlabel hworld hgone hmove =>
        obtain ⟨c, m, hout, htext, -⟩ := (sinkPanic_settle r).mp hnew
        have hin : session c (.output m) ∈ ((x₁.settle p r).2).filterMap SampleObs.ofWorld? := by
          rw [(settle_world r).1]
          exact mem_of_outputOf hout
        exact ⟨c, m, List.mem_append_right tr (SampleObs.mem_ofWorld.mp hin), htext⟩

/-- **When no sink panics**: exactly if no session whose sink accepts bytes takes a message from
its channel that is no text.  This is so as long as all SEND frames that are handled carry
texts, and then everything that is put out is a text. -/
theorem no_sinkPanic_iff (h : (lts p).Run LTS.Free initial ls tr x) :
    (Never SampleObs.isSinkPanic tr ↔
        (lts p).Run (fun x l => x.takesText p l = true) initial ls tr x) ∧
      ((lts p).Run (fun x l => x.sendsText p l = true) initial ls tr x →
        Never SampleObs.isSinkPanic tr ∧
          ∀ c m, .world (.session c (.output m)) ∈ tr → Utf8.isText (m.bytes p) = true) := by
  constructor
  · refine h.characterize never_nil (fun hnever => (never_append.mp hnever).1) ?_
    intro ls tr os x x' l _ hnever hstep
    have hstill : Never SampleObs.isSinkPanic os ↔ x.takesText p l = true := by
      rw [← not_seen_iff, sinkPanic_step hstep, Bool.not_eq_false]
    rw [never_append, hstill]
    exact and_iff_right hnever
  · intro hsends
    have htext : ∀ c m, .world (.session c (.output m)) ∈ tr → Utf8.isText (m.bytes p) = true :=
      fun c m hin => isText_of_output hsends hin
    refine ⟨not_seen_iff.mp fun hseen => ?_, htext⟩
    obtain ⟨c, m, hin, hfalse⟩ := output_of_sinkPanic hsends hseen
    rw [htext c m hin] at hfalse
    cases hfalse

/-! ## Runs of the sample server -/

/-- A SEND frame whose body is no text. -/
def rawSend : ClientFrame := .send "/queue/a" (some [0xff])

/-- The head of a frame of the server: the command, the headers that have a value, and an empty
line. -/
def frameHead (command : String) (headers : List (String × Option String)) : String :=
  command ++ "\n"
    ++ String.join (headers.map fun h => h.2.elim "" fun value => h.1 ++ ":" ++ value ++ "\n")
    ++ "\n"

/-- A build whose parser knows the frames of these runs, and which writes every header that a
frame has.  None of the values in these runs needs to be escaped. -/
def sampleServerParams : SampleParams where
  toParams := sampleParams [rawSend]
  connectedText frame :=
    frameHead "CONNECTED" [("version", some frame.version.text),
      ("heart-beat", some (ClientFrame.heartbeatText frame.heartbeat)),
      ("session", frame.session), ("server", frame.server)] ++ "\x00"
  errorText text := frameHead "ERROR" [("message", some text)] ++ "\x00"
  messageHead frame :=
    frameHead "MESSAGE" [("message-id", some frame.messageId),
      ("destination", some frame.destination), ("subscription", some frame.subscription),
      ("content-type", some frame.contentType),
      ("content-length", some (toString frame.contentLength.toNat))]
  readyFails := true

/-- A client sends a frame in a binary message. -/
def binary (c : SessionId) (frame : ClientFrame) : SampleLabel :=
  .message c (some (.ok (.binary frame.encode)))

/-- The client of session 0 subscribes, and the client of session 1 connects. -/
def subscribedAndConnected : List SampleLabel :=
  [binary 0 sampleConnect, binary 0 sampleSubscribe, .world (.create sampleDestination),
    .world (.subscribe 0), .world (.backend sampleDestination "uuid-0" []), .world (.own 0),
    binary 1 sampleConnect]

/-- The message that the client of session 1 has sent is taken by session 0. -/
def passedOn : List SampleLabel :=
  [.world (.backend sampleDestination "uuid-1" [⟨"uuid-0"⟩]), .world (.own 0)]

/-- The theorem applied to a client that sends a text. -/
theorem no_sinkPanic_iff_text :
    let p := sampleServerParams
    let send := SampleLabel.message 1 (some (.ok (.text "SEND\ndestination:/queue/a\n\nhello\x00")))
    let ls := subscribedAndConnected ++ send :: passedOn
    ∃ tr x, (lts p).Run LTS.Free initial ls tr x ∧ Never SampleObs.isSinkPanic tr ∧
      ∀ c m, .world (.session c (.output m)) ∈ tr → Utf8.isText (m.bytes p) = true := by
  intro p send ls
  let r := ((lts p).exec (fun x l => x.sendsText p l = true) initial ls).get (by decide)
  have hrun : (lts p).Run (fun x l => x.sendsText p l = true) initial ls r.2 r.1 :=
    LTS.Run.exec_get _ _ _ _ (by decide)
  exact ⟨_, _, hrun.free, (no_sinkPanic_iff hrun.free).2 hrun⟩

/-- **A client can end the session of another**: it sends a message that is no text to a
destination that the other has subscribed to. -/
theorem binary_send_ends_subscriber :
    let p := sampleServerParams
    ∃ tr x, (lts p).Run LTS.Free initial
        (subscribedAndConnected ++ binary 1 rawSend :: passedOn) tr x ∧
      .sinkPanicked 0 ∈ tr ∧ (x.world.sessions 0).isOpen = false ∧
      (x.world.sessions 1).isOpen = true ∧
      ∃ c m, .world (.session c (.output m)) ∈ tr ∧ Utf8.isText (m.bytes p) = false := by
  intro p
  let ls := subscribedAndConnected ++ binary 1 rawSend :: passedOn
  let r := ((lts p).exec LTS.Free initial ls).get (by decide)
  have hrun : (lts p).Run LTS.Free initial ls r.2 r.1 := LTS.Run.exec_get _ _ _ _ (by decide)
  have hpanic : .sinkPanicked 0 ∈ r.2 := by decide +kernel
  exact ⟨_, _, hrun, hpanic, by decide +kernel, by decide +kernel,
    output_of_sinkPanic hrun ⟨_, hpanic, rfl⟩⟩

end SampleServer
