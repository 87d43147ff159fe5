/-
# What becomes of a request

A session passes its SEND frames on to the destinations as calls, and its SUBSCRIBE frames as
calls of spawned tasks.  A destination that does not exist yet, or whose receiver is gone,
refuses them; between the two they are enqueued and taken in order.

* `published_in_order` : what a destination publishes for a session is one block of the SEND
  frames that the session has handled, with nothing left out, repeated or put elsewhere;
* `length_subscribedBy_le` : no SUBSCRIBE makes two subscriptions.
-/
import LittleStomper.Ordering
import LittleStomper.Subscribing
import LittleStomper.Messages

open Obs DestinationObs

/-! ## SEND frames, calls and actions -/

/-- The body of a SEND frame to the destination `d`. -/
def ClientEvent.sendTo? (d : DestinationId) : ClientEvent → Option Bytes
  | .clientFrame (.ok (.send d' (some body))) => if ⟨d'⟩ = d then some body else none
  | _ => none

/-- The body of a send call on the destination `d`. -/
def DestinationCall.sendTo? (d : DestinationId) : DestinationCall → Option Bytes
  | .send d' message => if d' = d then some message.body else none
  | _ => none

/-- The body of a `Send` of the session `c`. -/
def DestinationAction.sentBy? (c : SessionId) : DestinationAction ProxyBox → Option Bytes
  | .send message k => if k.session = c then some message.body else none
  | _ => none

/-- The box of a `Subscribe`. -/
def DestinationAction.subscriber? : DestinationAction ProxyBox → Option ProxyBox
  | .subscribe _ k => some k
  | _ => none

namespace Obs

/-- The bodies of the SEND frames to `d` that the session `c` has handled. -/
def sendFrames (c : SessionId) (d : DestinationId) (tr : List Obs) : List Bytes :=
  (handledBy c tr).filterMap (ClientEvent.sendTo? d)

/-- The actions enqueued at the destination `d`. -/
def acceptedAt (d : DestinationId) (tr : List Obs) : List (DestinationAction ProxyBox) :=
  (atDestination d tr).filterMap accepted?

/-- The actions that the backend of `d` has taken. -/
def takenAt (d : DestinationId) (tr : List Obs) : List (DestinationAction ProxyBox) :=
  (atDestination d tr).filterMap taken?

/-- The bodies of the messages enqueued at `d` by the session `c`. -/
def acceptedSends (c : SessionId) (d : DestinationId) (tr : List Obs) : List Bytes :=
  (acceptedAt d tr).filterMap (DestinationAction.sentBy? c)

/-- The bodies of the messages that the backend of `d` has published for the session `c`. -/
def publishedBy (c : SessionId) (d : DestinationId) (tr : List Obs) : List Bytes :=
  (takenAt d tr).filterMap (DestinationAction.sentBy? c)

@[simp] theorem sendFrames_append (c : SessionId) (d : DestinationId) (tr os : List Obs) :
    sendFrames c d (tr ++ os) = sendFrames c d tr ++ sendFrames c d os := by
  simp [sendFrames]

@[simp] theorem acceptedAt_append (d : DestinationId) (tr os : List Obs) :
    acceptedAt d (tr ++ os) = acceptedAt d tr ++ acceptedAt d os := by
  simp [acceptedAt]

@[simp] theorem acceptedSends_append (c : SessionId) (d : DestinationId) (tr os : List Obs) :
    acceptedSends c d (tr ++ os) = acceptedSends c d tr ++ acceptedSends c d os := by
  simp [acceptedSends]

@[simp] theorem takenAt_append (d : DestinationId) (tr os : List Obs) :
    takenAt d (tr ++ os) = takenAt d tr ++ takenAt d os := by
  simp [takenAt]

end Obs

/-- Only SEND frames lead to send calls. -/
theorem ClientEvent.sendTo?_call? (d : DestinationId) (T : ActiveSubscriptions)
    (e : ClientEvent) : (e.call? T).bind (DestinationCall.sendTo? d) = e.sendTo? d := by
  cases e with
  | clientFrame result =>
      cases result with
      | error err => rfl
      | ok frame =>
          cases frame with
          | send d' body => cases body <;> rfl
          | unsubscribe i => cases hentry : T ⟨i⟩ <;> simp [call?, hentry] <;> rfl
          | _ => rfl
  | _ => rfl

/-- **A SEND frame is a send call**, in every step of a session. -/
theorem Session.Turn.sendFrames {p : Params} {s s' : Session} {input : SessionInput}
    {sos : List SessionObs} (h : Session.Turn p s input s' sos) (d : DestinationId) :
    (sos.filterMap SessionObs.handled?).filterMap (ClientEvent.sendTo? d)
      = ((World.callOf sos).bind (DestinationCall.sendTo? d)).toList := by
  have hhandles : ∀ {r : ClientSession} {resetFails : Bool} {e : ClientEvent},
      Session.Handles p r resetFails e s' sos →
      (sos.filterMap SessionObs.handled?).filterMap (ClientEvent.sendTo? d)
        = ((World.callOf sos).bind (DestinationCall.sendTo? d)).toList := by
    intro r resetFails e hr
    rw [hr.handled, World.callOf_handles hr, ClientEvent.sendTo?_call?]
    cases hframe : e.sendTo? d <;> simp [hframe]
  cases h with
  | client h => exact hhandles h
  | own hevents h => exact hhandles h
  | heartbeat hheartbeat h => exact hhandles h
  | _ => rfl

namespace World

variable {p : Params} {w w' : World} {l : Label} {tr os : List Obs} {c : SessionId}
  {d : DestinationId}

/-- The SEND frames handled in a step are its send calls. -/
theorem Turn.sendFrames (h : Turn p w l w' os) (c : SessionId) (d : DestinationId) :
    Obs.sendFrames c d os
      = ((callOf (Obs.atSession c os)).bind (DestinationCall.sendTo? d)).toList := by
  rcases h.atSession c with ⟨input, -, hturn, -, -⟩ | ⟨hos, -, -⟩
  · exact hturn.sendFrames d
  · rw [Obs.sendFrames, handledBy, hos]
    rfl

/-- Whoever is dispatched in a step is the session that makes the call. -/
theorem Turn.callOf_dispatched (h : Turn p w l w' os) {k : ProxyBox} {call : DestinationCall}
    (hk : dispatched k call ∈ os) : callOf (Obs.atSession k.session os) = some call := by
  cases h.dispatch with
  | nothing hboxes hos htasks => exact absurd hk (hos _ _)
  | call hl hturn hcall hsession hsos hboxes hos htasks =>
      obtain ⟨rfl, rfl⟩ := (hos _ _).mp hk
      rw [hsos]
      exact hcall

/-- **What is enqueued in a step**: nothing, or one action of somebody who calls. -/
theorem Turn.acceptedAt_cases (h : Turn p w l w' os) (d : DestinationId) :
    acceptedAt d os = [] ∨ ∃ D a m, w.destinations d = some D ∧ D.mailbox.send a = some m ∧
      acceptedAt d os = [a] ∧ destination d (.called a true) ∈ os ∧ Caller p w d l w' os a := by
  cases h.atDestination d with
  | @accepted D a m hdest hsend hdest' hos hcaller =>
      refine Or.inr ⟨D, a, m, hdest, hsend, ?_, ?_, hcaller⟩
      · rw [acceptedAt, hos]
        rfl
      · rw [← mem_atDestination, hos]
        exact List.mem_cons_self
  | created hl hdest hdest' hos => exact Or.inl (by rw [hos]; rfl)
  | @refused D a w₁ hdest hgone hdest' hos hcaller =>
      left
      rw [acceptedAt, hos, refusal, List.filterMap_cons,
        (InMemDestination.observe_queue _ _).1]
      rfl
  | performed hl hdest fresh huuids horder hmail hclose hdest' hos =>
      left
      rw [acceptedAt, hos, List.filterMap_cons, (InMemDestination.observe_queue _ _).1]
      rfl
  | still hdest hos => exact Or.inl (by rw [acceptedAt, hos]; rfl)
  | closed hl hdest fresh huuids hmail hdest' hos => exact Or.inl (by rw [acceptedAt, hos]; rfl)
  | finished hdest hmail hdest' hos => exact Or.inl (by rw [acceptedAt, hos]; rfl)

/-- **What becomes of a SEND frame** in the step that handles it: there is no destination yet,
or its receiver is gone, or the message is enqueued. -/
theorem Turn.send_cases (h : Turn p w l w' os) (c : SessionId) (d : DestinationId) :
    acceptedSends c d os = Obs.sendFrames c d os ∨ acceptedSends c d os = [] ∧
      (w.destinations d = none ∨ ∃ D, w.destinations d = some D ∧ D.mailbox.isGone = true) := by
  have hframes := h.sendFrames c d
  cases hcall : (callOf (Obs.atSession c os)).bind (DestinationCall.sendTo? d) with
  | none =>
      left
      rw [hcall] at hframes
      rw [hframes]
      rcases h.acceptedAt_cases d with hnone | ⟨D, a, m, -, -, hone, -, hcaller⟩
      · rw [acceptedSends, hnone]
        rfl
      · -- a `Send` of the session would be its call
        rw [acceptedSends, hone]
        cases hcaller with
        | @session c' input s sos call _ hl hturn hcall' haction hdispatched htasks =>
            cases call with
            | subscribe d' sub => cases haction
            | unsubscribe d' s' =>
                obtain ⟨rfl, rfl⟩ := Prod.mk.inj (Option.some.inj haction)
                rfl
            | send d' message =>
                obtain ⟨rfl, rfl⟩ := Prod.mk.inj (Option.some.inj haction)
                by_cases hc : c' = c
                · subst hc
                  rw [h.callOf_dispatched hdispatched] at hcall
                  simp [DestinationCall.sendTo?] at hcall
                · simp [DestinationAction.sentBy?, hc]
        | task htask hdest htasks => rfl
        | close hl htasks => rfl
  | some body =>
      obtain ⟨call, hcallOf, hto⟩ := Option.bind_eq_some_iff.mp hcall
      cases call with
      | subscribe d' sub => cases hto
      | unsubscribe d' s => cases hto
      | send d' message =>
          obtain ⟨rfl, hbody⟩ := Option.ite_none_right_eq_some.mp hto
          obtain rfl := Option.some.inj hbody
          obtain ⟨-, hfate⟩ := h.call_cases hcallOf
          have hno : ∀ D, w.destinations d' = some D → D.mailbox.isGone = true →
              acceptedSends c d' os = [] := by
            intro D hD hgone
            rcases h.acceptedAt_cases d' with hnone | ⟨D', a, m, hD', hsend, -⟩
            · rw [acceptedSends, hnone]
              rfl
            · obtain rfl := Option.some.inj (hD.symm.trans hD')
              rw [Mailbox.send_eq_none.mpr hgone] at hsend
              cases hsend
          rcases hfate d' _ rfl with ⟨hnone, -⟩ | ⟨D, hD, ⟨m, hsend, -, hcalled⟩ | ⟨hgone, -⟩⟩
          · right
            refine ⟨?_, Or.inl hnone⟩
            rcases h.acceptedAt_cases d' with hempty | ⟨D', a, m, hD', -⟩
            · rw [acceptedSends, hempty]
              rfl
            · rw [hnone] at hD'
              cases hD'
          · left
            rw [hframes, hcall]
            have hmem : DestinationAction.send message ⟨c, w.boxes⟩ ∈ acceptedAt d' os :=
              List.mem_filterMap.mpr ⟨_, mem_atDestination.mpr hcalled, rfl⟩
            rcases h.acceptedAt_cases d' with hempty | ⟨D', a, m', -, -, hone, -⟩
            · rw [hempty] at hmem
              cases hmem
            · rw [hone, List.mem_singleton] at hmem
              rw [acceptedSends, hone, ← hmem]
              simp [DestinationAction.sentBy?]
          · exact Or.inr ⟨hno D hD hgone, Or.inr ⟨D, hD, hgone⟩⟩

/-! ## Queues of the system -/

/-- **Every destination takes its actions in order.** -/
theorem tracksAt {C : World → Label → Prop} {ls : List Label}
    (h : (lts p).Run C initial ls tr w) (d : DestinationId) :
    (∀ D, w.destinations d = some D →
        Mailbox.Tracks (acceptedAt d tr) (takenAt d tr) D.mailbox) ∧
      (w.destinations d = none → atDestination d tr = []) := by
  refine ⟨?_, (delivers h).2⟩
  refine h.invariant (P := fun w tr => ∀ D, w.destinations d = some D →
    Mailbox.Tracks (acceptedAt d tr) (takenAt d tr) D.mailbox) (by simp [initial]) ?_
  intro ls tr os w w' l hrun ih _ hstep D' hD'
  rw [acceptedAt_append, takenAt_append]
  cases (turn_of_step hstep).atDestination d with
  | still hdest hos =>
      rw [acceptedAt, takenAt, acceptedAt, takenAt, hos]
      simpa [acceptedAt, takenAt] using ih D' (hdest ▸ hD')
  | created hl hdest hdest' hos =>
      obtain rfl := Option.some.inj (hD'.symm.trans hdest')
      have hnone := (delivers hrun).2 hdest
      rw [acceptedAt, takenAt, hnone, hos]
      rfl
  | accepted hdest hsend hdest' hos hcaller =>
      obtain rfl := Option.some.inj (hD'.symm.trans hdest')
      have hih := (ih _ hdest).send hsend
      rw [acceptedAt, takenAt, acceptedAt, takenAt, hos]
      simpa [List.filterMap_cons, accepted?, taken?, acceptedAt, takenAt] using hih
  | @refused D a w₁ hdest hgone hdest' hos hcaller =>
      obtain rfl := Option.some.inj (hD'.symm.trans hdest')
      have hobserve := InMemDestination.observe_queue w₁.reply
        (InMemDestination.failure D'.backend.id a)
      rw [acceptedAt, takenAt, acceptedAt, takenAt, hos]
      simpa [refusal, List.filterMap_cons, accepted?, taken?, hobserve, acceptedAt, takenAt]
        using ih D' hdest
  | @closed D uuid order q hl hdest fresh huuids hmail hdest' hos =>
      obtain rfl := Option.some.inj (hD'.symm.trans hdest')
      have hih := (ih D hdest).recv (Mailbox.recv_eq_some.mpr ⟨_, hmail, rfl⟩)
      rw [acceptedAt, takenAt, acceptedAt, takenAt, hos]
      simpa [List.filterMap_cons, accepted?, taken?, Mailbox.Tracks, acceptedAt, takenAt] using hih
  | @performed D uuid order a q hl hdest fresh huuids horder hmail hclose hdest' hos =>
      obtain rfl := Option.some.inj (hD'.symm.trans hdest')
      have hih := (ih D hdest).recv (Mailbox.recv_eq_some.mpr ⟨_, hmail, rfl⟩)
      have hobserve := InMemDestination.observe_queue w.reply
        (D.backend.perform w.reply uuid order a).2
      rw [acceptedAt, takenAt, acceptedAt, takenAt, hos]
      simp only [List.filterMap_cons, accepted?, taken?, hobserve, List.append_nil]
      rcases InMemDestination.settle_mailbox (.listening q) w.reply
        (D.backend.perform w.reply uuid order a) with ⟨-, hm⟩ | ⟨-, hm⟩
      · rw [hm]
        exact hih
      · rw [hm]
        exact hih.initial
  | finished hdest hmail hdest' hos =>
      obtain rfl := Option.some.inj (hD'.symm.trans hdest')
      rw [acceptedAt, takenAt, acceptedAt, takenAt, hos]
      simpa [List.filterMap_cons, accepted?, taken?, Mailbox.Tracks, acceptedAt, takenAt]
        using (ih _ hdest).initial

/-- What was taken is a prefix of what was enqueued. -/
theorem takenAt_first {C : World → Label → Prop} {ls : List Label}
    (h : (lts p).Run C initial ls tr w) (d : DestinationId) :
    takenAt d tr <+: acceptedAt d tr := by
  obtain ⟨htracks, hnone⟩ := tracksAt h d
  cases hD : w.destinations d with
  | some D => exact (htracks D hD).initial
  | none =>
      rw [takenAt, hnone hD]
      exact List.nil_prefix

/-- A receiver that is gone stays so. -/
theorem Turn.gone (h : Turn p w l w' os) {D : InMemDestination ProxyBox}
    (hD : w.destinations d = some D) (hgone : D.mailbox.isGone = true) :
    ∃ D', w'.destinations d = some D' ∧ D'.mailbox.isGone = true := by
  cases h.atDestination d with
  | still hdest hos => exact ⟨D, hdest.trans hD, hgone⟩
  | created hl hdest hdest' hos => simp [hdest] at hD
  | accepted hdest hsend hdest' hos hcaller =>
      obtain rfl := Option.some.inj (hD.symm.trans hdest)
      rw [Mailbox.send_eq_none.mpr hgone] at hsend
      cases hsend
  | refused w₁ hdest hgone' hdest' hos hcaller =>
      obtain rfl := Option.some.inj (hD.symm.trans hdest)
      exact ⟨_, hdest', hgone⟩
  | closed hl hdest fresh huuids hmail hdest' hos =>
      obtain rfl := Option.some.inj (hD.symm.trans hdest)
      rw [hmail] at hgone
      cases hgone
  | performed hl hdest fresh huuids horder hmail hclose hdest' hos =>
      obtain rfl := Option.some.inj (hD.symm.trans hdest)
      rw [hmail] at hgone
      cases hgone
  | finished hdest hmail hdest' hos => exact ⟨_, hdest', rfl⟩

/-! ## Messages -/

/-- The messages that a session has enqueued at a destination are a block of its SEND frames:
those before it found no destination, and those behind it no receiver. -/
structure Enqueues (c : SessionId) (d : DestinationId) (w : World) (tr : List Obs) : Prop where
  block : ∃ early late, Obs.sendFrames c d tr = early ++ acceptedSends c d tr ++ late ∧
    (late ≠ [] → ∃ D, w.destinations d = some D ∧ D.mailbox.isGone = true)
  absent : w.destinations d = none → acceptedSends c d tr = []

/-- **Every step keeps the block.** -/
theorem Enqueues.step (h : Enqueues c d w tr) (hturn : Turn p w l w' os) :
    Enqueues c d w' (tr ++ os) := by
  obtain ⟨early, late, heq, hlate⟩ := h.block
  have hstays : late ≠ [] → ∃ D, w'.destinations d = some D ∧ D.mailbox.isGone = true := by
    intro hne
    obtain ⟨D, hD, hgone⟩ := hlate hne
    exact hturn.gone hD hgone
  constructor
  · rw [sendFrames_append, acceptedSends_append, heq]
    rcases hturn.acceptedAt_cases d with hnone | ⟨D, a, m, hD, hsend, -⟩
    · have hsends : acceptedSends c d os = [] := by rw [acceptedSends, hnone]; rfl
      rw [hsends, List.append_nil]
      rcases hturn.send_cases c d with hsame | ⟨-, hunknown | ⟨D, hD, hgone⟩⟩
      · rw [← hsame, hsends, List.append_nil]
        exact ⟨early, late, rfl, hstays⟩
      · -- there is no destination yet, so nothing was enqueued before
        obtain rfl : late = [] := by
          by_contra hne
          obtain ⟨D, hD, -⟩ := hlate hne
          rw [hunknown] at hD
          cases hD
        refine ⟨early ++ Obs.sendFrames c d os, [], ?_, fun hne => absurd rfl hne⟩
        rw [h.absent hunknown]
        simp
      · obtain hgone' := hturn.gone hD hgone
        exact ⟨early, late ++ Obs.sendFrames c d os, by simp, fun _ => hgone'⟩
    · -- the receiver is there, so nothing was refused before
      obtain rfl : late = [] := by
        by_contra hne
        obtain ⟨D', hD', hgone⟩ := hlate hne
        obtain rfl := Option.some.inj (hD.symm.trans hD')
        rw [Mailbox.send_eq_none.mpr hgone] at hsend
        cases hsend
      rcases hturn.send_cases c d with hsame | ⟨-, hunknown | ⟨D', hD', hgone⟩⟩
      · rw [hsame]
        exact ⟨early, [], by simp, hstays⟩
      · rw [hunknown] at hD
        cases hD
      · obtain rfl := Option.some.inj (hD.symm.trans hD')
        rw [Mailbox.send_eq_none.mpr hgone] at hsend
        cases hsend
  · intro hnone
    have hbefore : w.destinations d = none := by
      rcases hdest : w.destinations d with _ | D
      · rfl
      · cases hturn.atDestination d with
        | still hdest' hos => rw [← hdest, ← hdest', hnone]
        | created hl hdest' => simp [hdest'] at hdest
        | accepted hdest₁ hsend hdest' => simp [hdest'] at hnone
        | refused w₁ hdest₁ hgone hdest' => simp [hdest'] at hnone
        | closed hl hdest₁ fresh huuids hmail hdest' => simp [hdest'] at hnone
        | performed hl hdest₁ fresh huuids horder hmail hclose hdest' => simp [hdest'] at hnone
        | finished hdest₁ hmail hdest' => simp [hdest'] at hnone
    rcases hturn.acceptedAt_cases d with hos | ⟨D, a, m, hD, -⟩
    · rw [acceptedSends_append, h.absent hbefore, acceptedSends, hos]
      rfl
    · rw [hbefore] at hD
      cases hD

/-- In every run it is one block. -/
theorem enqueues {C : World → Label → Prop} {ls : List Label}
    (h : (lts p).Run C initial ls tr w) (c : SessionId) (d : DestinationId) :
    Enqueues c d w tr := by
  refine h.invariant ⟨⟨[], [], rfl, fun hne => absurd rfl hne⟩, fun _ => rfl⟩ ?_
  exact fun _ ih _ hstep => ih.step (turn_of_step hstep)

/-- What was published for a session is one block of its SEND frames. -/
theorem publishedBy_block {C : World → Label → Prop} {ls : List Label}
    (h : (lts p).Run C initial ls tr w) (c : SessionId) (d : DestinationId) :
    publishedBy c d tr <:+: Obs.sendFrames c d tr := by
  obtain ⟨early, late, heq, -⟩ := (enqueues h c d).block
  obtain ⟨queued, hqueued⟩ := (takenAt_first h d).filterMap (DestinationAction.sentBy? c)
  refine ⟨early, queued ++ late, ?_⟩
  rw [heq, acceptedSends, ← hqueued, publishedBy]
  simp

/-- **A session's messages are published in the order in which it sent them.**  In every run
the messages that the backend of `d` has published for the session `c` are one block of the
SEND frames to `d` that the session has handled; and while the backend listens, they are all of
them from the first one on, once its queue is empty. -/
theorem published_in_order {ls : List Label} (hrun : (lts p).Run LTS.Free initial ls tr w)
    (c : SessionId) (d : DestinationId) :
    publishedBy c d tr <:+: Obs.sendFrames c d tr ∧
      ∀ D, w.destinations d = some D → D.mailbox = .listening [] →
        publishedBy c d tr <:+ Obs.sendFrames c d tr := by
  refine ⟨publishedBy_block hrun c d, ?_⟩
  obtain ⟨early, late, heq, hlate⟩ := (enqueues hrun c d).block
  intro D hD hmail
  have hall : acceptedAt d tr = takenAt d tr ++ [] := by
    have htrack := (tracksAt hrun d).1 D hD
    rw [hmail] at htrack
    exact htrack
  obtain rfl : late = [] := by
    by_contra hne
    obtain ⟨D', hD', hgone⟩ := hlate hne
    obtain rfl := Option.some.inj (hD.symm.trans hD')
    rw [hmail] at hgone
    cases hgone
  refine ⟨early, ?_⟩
  rw [heq, acceptedSends, hall, List.append_nil, List.append_nil, publishedBy]

/-- The theorem applied to a client that sends a message before the destination exists, and two
messages when it has subscribed. -/
theorem published_in_order_early :
    let p := sampleParams []
    let ls : List Label := [.connects 0, .frame 0 sampleSend, .frame 0 sampleSubscribe,
      .create sampleDestination, .subscribe 1, .backend sampleDestination "uuid-0" [],
      .frame 0 sampleSend, .frame 0 sampleSend, .backend sampleDestination "uuid-1" [⟨"uuid-0"⟩],
      .backend sampleDestination "uuid-2" [⟨"uuid-0"⟩]]
    ∃ tr w, (lts p).Run LTS.Free initial ls tr w ∧
      (Obs.sendFrames 0 sampleDestination tr).length = 3 ∧
      (publishedBy 0 sampleDestination tr).length = 2 ∧
      publishedBy 0 sampleDestination tr <:+: Obs.sendFrames 0 sampleDestination tr := by
  intro p ls
  have hrun := LTS.Run.exec_get (lts p) LTS.Free initial ls (by decide)
  exact ⟨_, _, hrun, by decide, by decide, (published_in_order hrun 0 sampleDestination).1⟩

/-! ## Subscriptions -/

/-- No box is enqueued twice. -/
theorem nodup_subscribers {C : World → Label → Prop} {ls : List Label}
    (h : (lts p).Run C initial ls tr w) (d : DestinationId) :
    ((acceptedAt d tr).filterMap DestinationAction.subscriber?).Nodup := by
  refine h.invariant (P := fun _ tr =>
    ((acceptedAt d tr).filterMap DestinationAction.subscriber?).Nodup) List.nodup_nil ?_
  intro ls tr os w w' l hrun ih _ hstep
  rw [acceptedAt_append, List.filterMap_append]
  rcases (turn_of_step hstep).acceptedAt_cases d with hnone | ⟨D, a, m, -, -, hone, -, hcaller⟩
  · rw [hnone]
    simpa using ih
  · rw [hone]
    cases hcaller with
    | session hl hturn hcall haction hdispatched htasks =>
        have hno := (ne_subscribe_of_actionOf haction).1
        cases a with
        | subscribe sub k => exact absurd rfl (hno sub k)
        | _ => simpa [List.filterMap_cons, DestinationAction.subscriber?] using ih
    | close hl htasks => simpa [List.filterMap_cons, DestinationAction.subscriber?] using ih
    | @task t htask hdest htasks =>
        -- a task that waits has not called before
        rw [List.nodup_append]
        refine ⟨ih, List.nodup_singleton _, ?_⟩
        rintro k hk k' hk' rfl
        obtain rfl := List.mem_singleton.mp hk'
        obtain ⟨a, ha, hbox⟩ := List.mem_filterMap.mp hk
        obtain ⟨o, ho, hacc⟩ := List.mem_filterMap.mp ha
        cases a with
        | subscribe sub k =>
            obtain rfl := Option.some.inj hbox
            unfold accepted? at hacc
            split at hacc
            · obtain rfl := Option.some.inj hacc
              exact (waiting hrun).uncalled t htask d sub true (mem_atDestination.mp ho)
            · cases hacc
        | _ => cases hbox

/-- The boxes for which the backend of `d` has created subscriptions of the session `c`. -/
def subscribedBy (c : SessionId) (d : DestinationId) (tr : List Obs) : List ProxyBox :=
  ((takenAt d tr).filterMap DestinationAction.subscriber?).filter fun k => k.session = c

/-- **No SUBSCRIBE makes two subscriptions**: a destination has created at most one for each
SUBSCRIBE frame to it that the session has handled. -/
theorem length_subscribedBy_le {C : World → Label → Prop} {ls : List Label}
    (h : (lts p).Run C initial ls tr w) (c : SessionId) (d : DestinationId) :
    (subscribedBy c d tr).length ≤ (subscribeFrames c tr).countP fun frame => frame.1 = d := by
  have hprov := provenance h
  have hnodup : (subscribedBy c d tr).Nodup :=
    ((nodup_subscribers h d).sublist ((takenAt_first h d).filterMap _).sublist).filter _
  have hcalls : subscribedBy c d tr ⊆
      ((subscribeCalls c tr).filter fun call => call.2.1 = d).map Prod.fst := by
    intro k hk
    obtain ⟨hk, hc⟩ := List.mem_filter.mp hk
    obtain ⟨a, ha, hbox⟩ := List.mem_filterMap.mp hk
    obtain ⟨o, ho, htaken⟩ := List.mem_filterMap.mp ha
    cases a with
    | subscribe sub k' =>
        obtain rfl := Option.some.inj hbox
        unfold taken? at htaken
        split at htaken
        · obtain rfl := Option.some.inj htaken
          have hissued : dispatched k' (.subscribe d sub) ∈ tr :=
            hprov.taken d _ _ (mem_atDestination.mp ho)
          obtain ⟨i, rfl⟩ := hprov.named _ _ _ hissued
          refine List.mem_map.mpr ⟨(k', d, i), ?_, rfl⟩
          rw [List.mem_filter]
          exact ⟨mem_subscribeCalls.mpr ⟨hissued, by simpa using hc⟩, by simp⟩
        · cases htaken
    | _ => cases hbox
  calc (subscribedBy c d tr).length
      ≤ (((subscribeCalls c tr).filter fun call => call.2.1 = d).map Prod.fst).length :=
        (List.subperm_of_subset hnodup hcalls).length_le
    _ = (subscribeCalls c tr).countP fun call => call.2.1 = d := by
        rw [List.length_map, List.countP_eq_length_filter]
    _ = ((subscribeCalls c tr).map Prod.snd).countP fun frame => frame.1 = d := by
        rw [List.countP_map]
        rfl
    _ = (subscribeFrames c tr).countP fun frame => frame.1 = d := by
        rw [(subscribes c h).frames]

end World
