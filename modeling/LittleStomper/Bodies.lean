/-
# Where the body of a MESSAGE frame comes from

No step on the way changes the body of a message: a session passes it to a destination, the
backend passes it to its subscribers, and their sessions put it into MESSAGE frames.  So in
every run the body of a MESSAGE frame is the body of a SEND frame that some session has
handled before (`sent_of_output`).
-/
import LittleStomper.Unsubscribing

open Obs ClientEvent

namespace Obs

/-- Some session has handled a SEND frame with this body. -/
def SentBody (tr : List Obs) (body : Bytes) : Prop :=
  ∃ c d, session c (.handled (.clientFrame (.ok (.send d (some body))))) ∈ tr

theorem SentBody.append {tr : List Obs} {body : Bytes} (h : SentBody tr body) (os : List Obs) :
    SentBody (tr ++ os) body := by
  obtain ⟨c, d, hin⟩ := h
  exact ⟨c, d, List.mem_append_left os hin⟩

end Obs

namespace World

variable {p : Params} {w w' : World} {l : Label} {tr os : List Obs}

/-- A `send` is called for a SEND frame with its body. -/
theorem eq_send_of_call? {T : ActiveSubscriptions} {frame : ClientFrame} {d : DestinationId}
    {message : InboundMessage}
    (h : (ClientEvent.clientFrame (.ok frame)).call? T = some (.send d message)) :
    frame = .send d.str (some message.body) := by
  cases frame with
  | send d' body =>
      cases body with
      | none => cases h
      | some body =>
          obtain ⟨rfl, rfl⟩ := DestinationCall.send.inj (Option.some.inj h)
          rfl
  | unsubscribe i =>
      obtain ⟨entry, -, heq⟩ := Option.map_eq_some_iff.mp h
      cases heq
  | _ => cases h

/-- **A session that calls `send`** handles a SEND frame with the body it passes on. -/
theorem Turn.sent_of_dispatched (h : Turn p w l w' os) {k : ProxyBox} {d : DestinationId}
    {message : InboundMessage} (hin : dispatched k (.send d message) ∈ os) :
    SentBody os message.body := by
  cases h.dispatch with
  | nothing hboxes hos htasks => exact absurd hin (hos k _)
  | @call c input s sos call hl hsturn hcall hsession hsos hboxes hos htasks =>
      obtain ⟨-, rfl⟩ := (hos k _).mp hin
      obtain ⟨r, r₀, resetFails, frame, -, -, -, hhandles, hev⟩ := handles_of_callOf hsturn hcall
      obtain rfl := eq_send_of_call? hev
      refine ⟨c, d.str, ?_⟩
      rw [← mem_handledBy, handledBy, hsos, hhandles.handled]
      exact List.mem_singleton_self _

/-- Hence every `send` that was called goes back to a SEND frame. -/
theorem sent_of_dispatched {C : World → Label → Prop} {ls : List Label}
    (h : (lts p).Run C initial ls tr w) :
    ∀ k d message, dispatched k (.send d message) ∈ tr → SentBody tr message.body := by
  refine h.invariant (P := fun _ tr => ∀ k d message,
    dispatched k (.send d message) ∈ tr → SentBody tr message.body) (by simp) ?_
  intro ls tr os w w' l _ ih _ hstep k d message hin
  rcases List.mem_append.mp hin with hold | hnew
  · exact (ih k d message hold).append os
  · obtain ⟨c, d', hsent⟩ := (turn_of_step hstep).sent_of_dispatched hnew
    exact ⟨c, d', List.mem_append_right tr hsent⟩

/-- **A message sent to a session** has the body of a SEND frame: the backend takes an action
that a call has issued. -/
theorem sent_of_sentTo {C : World → Label → Prop} {ls : List Label}
    (h : (lts p).Run C initial ls tr w) (c : SessionId) :
    ∀ i m, .serverMessage i m ∈ sentTo c tr → SentBody tr m.body := by
  refine h.invariant (P := fun _ tr => ∀ i m,
    .serverMessage i m ∈ sentTo c tr → SentBody tr m.body) (by simp [sentTo]) ?_
  intro ls tr os w w' l hrun ih _ hstep i m hin
  rw [sentTo_append] at hin
  rcases List.mem_append.mp hin with hold | hnew
  · exact (ih i m hold).append os
  · have hprov := provenance hrun
    obtain ⟨d, uuid, order, D, message, k, q, s, sub, -, hdest, -, hmail, rfl, -⟩ :=
      ((turn_of_step hstep).sends hprov c).of_serverMessage hnew
    have hissued : dispatched k (.send d message) ∈ tr := hprov.head hdest hmail
    exact (sent_of_dispatched hrun k d message hissued).append os

/-- A message that was handled was sent to the session. -/
theorem sentTo_of_handled {C : World → Label → Prop} {ls : List Label}
    (h : (lts p).Run C initial ls tr w) {c : SessionId} {e : ClientEvent}
    (hin : e ∈ handledBy c tr) (hfrom : e.fromSubscriber = true) : e ∈ sentTo c tr := by
  have hreceived : e ∈ received c tr := List.mem_filter.mpr ⟨hin, hfrom⟩
  exact (channel h c).tracks.initial.subset hreceived

/-- **Every MESSAGE frame carries the body of a SEND frame**, in every run. -/
theorem sent_of_output {C : World → Label → Prop} {ls : List Label}
    (h : (lts p).Run C initial ls tr w) {c : SessionId} {frame : MessageFrame}
    (hin : session c (.output (.inl (.message frame))) ∈ tr) : SentBody tr frame.body := by
  have hframe : frame ∈ messageFrames c tr :=
    List.mem_filterMap.mpr ⟨_, mem_atSession.mpr hin, rfl⟩
  obtain ⟨i, m, hhandled, rfl⟩ := handled_of_messageFrame h c frame hframe
  exact sent_of_sentTo h c i m (sentTo_of_handled h hhandled rfl)

end World
