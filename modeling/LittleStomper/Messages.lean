/-
# MESSAGE frames

From the backend to the client a message takes two queues.  The backend passes it to the
`send` of a subscription (`Delivery.lean`), which puts it into the session's channel, and
the session outputs a MESSAGE frame when it takes it from there.

* `messageFrames_initial` : the frames a session outputs are its deliveries, in order, as
  far as they were handled;
* `honours_subscribers` : those on behalf of one subscription are a prefix of its feed.
-/
import LittleStomper.Delivery
import LittleStomper.Ownership
import LittleStomper.Wire

open Obs ClientEvent DestinationObs

/-! ## Deliveries -/

/-- A message passed to a subscription of a session. -/
structure SubscriptionMessage where
  destination : DestinationId
  subscription : SubscriptionId
  clientId : SubscriptionId
  message : OutboundMessage
  deriving DecidableEq

namespace SubscriptionMessage

/-- The frame in which the client is to be told of it: the message id, the destination and the
body of the message, under the id that the client has chosen for the subscription. -/
def frame (δ : SubscriptionMessage) : MessageFrame where
  messageId := δ.message.messageId.str
  destination := δ.message.destination.str
  subscription := δ.clientId.str
  contentType := "text/plain"
  contentLength := UInt32.ofNat δ.message.body.length
  body := δ.message.body

/-- It is the frame that the session builds for the event `ServerMessage`. -/
theorem messageFrame_eq_frame (δ : SubscriptionMessage) :
    ClientSession.messageFrame δ.clientId δ.message = δ.frame := rfl

/-- It is for the subscription `s` at the destination `d`. -/
def isFor (d : DestinationId) (s : SubscriptionId) (δ : SubscriptionMessage) : Bool :=
  δ.destination = d && δ.subscription = s

end SubscriptionMessage

/-- The MESSAGE frame output in an observation. -/
def SessionObs.messageFrame? : SessionObs → Option MessageFrame
  | .output (.inl (.message frame)) => some frame
  | _ => none

/-- The MESSAGE frame an event leads to. -/
def ClientEvent.messageFrame? : ClientEvent → Option MessageFrame
  | .serverMessage i m => some (ClientSession.messageFrame i m)
  | _ => none

namespace Obs

/-- The message passed to a subscription of the session `c`. -/
def delivery? (c : SessionId) : Obs → Option SubscriptionMessage
  | destination d (.invoked (.send k s sub m) _) =>
      if k.session = c then sub.map fun i => ⟨d, s, i, m⟩ else none
  | _ => none

/-- All messages passed to subscriptions of the session `c`. -/
def deliveriesTo (c : SessionId) (tr : List Obs) : List SubscriptionMessage :=
  tr.filterMap (delivery? c)

/-- The MESSAGE frames that the session `c` has output. -/
def messageFrames (c : SessionId) (tr : List Obs) : List MessageFrame :=
  (atSession c tr).filterMap SessionObs.messageFrame?

@[simp] theorem deliveriesTo_append (c : SessionId) (tr os : List Obs) :
    deliveriesTo c (tr ++ os) = deliveriesTo c tr ++ deliveriesTo c os := List.filterMap_append

@[simp] theorem messageFrames_append (c : SessionId) (tr os : List Obs) :
    messageFrames c (tr ++ os) = messageFrames c tr ++ messageFrames c os := by
  simp [messageFrames]

/-- What is sent to a session leads to the frames of its deliveries. -/
theorem messageFrames_sentTo (c : SessionId) (tr : List Obs) :
    (sentTo c tr).filterMap ClientEvent.messageFrame?
      = (deliveriesTo c tr).map SubscriptionMessage.frame := by
  rw [sentTo, deliveriesTo, List.filterMap_filterMap, List.map_filterMap]
  congr 1
  funext o
  cases o with
  | destination d o =>
      cases o with
      | invoked i reply =>
          by_cases hc : i.target.session = c
          · have hsent : sent? c (destination d (.invoked i reply)) = World.event? i := if_pos hc
            rw [hsent]
            cases i with
            | send k s sub m =>
                have hdelivery : delivery? c (destination d (.invoked (.send k s sub m) reply))
                    = sub.map fun i => ⟨d, s, i, m⟩ := if_pos hc
                rw [hdelivery]
                cases sub with
                | none => rfl
                | some i =>
                    exact congrArg some (SubscriptionMessage.messageFrame_eq_frame ⟨d, s, i, m⟩)
            -- the other calls lead to no MESSAGE frame
            | subscribeCallback k d' sub r => cases sub <;> rfl
            | unsubscribeCallback k sub r => cases sub <;> rfl
            | sendCallback k i r => rfl
          · have hsent : sent? c (destination d (.invoked i reply)) = none := if_neg hc
            rw [hsent]
            cases i with
            | send k s sub m =>
                have hdelivery : delivery? c (destination d (.invoked (.send k s sub m) reply))
                    = none := if_neg hc
                rw [hdelivery]
                rfl
            | _ => rfl
      | _ => rfl
  | _ => rfl

end Obs

/-! ## What a session outputs -/

namespace Session

/-- An event leads to a MESSAGE frame, if to any, that is made from it. -/
theorem message?_filterMap (p : Params) (s : ClientSession) (e : ClientEvent) :
    ((s.message? p e).toList.map SessionObs.output).filterMap SessionObs.messageFrame?
      = e.messageFrame?.toList := by
  cases e with
  | clientFrame result =>
      cases result with
      | error err => rfl
      | ok frame =>
          cases frame with
          | unsubscribe i =>
              cases hentry : s.activeSubscriptionsByClientId ⟨i⟩ <;>
                simp [ClientSession.message?, fault?, plain?, hentry, SessionObs.messageFrame?,
                  ClientEvent.messageFrame?]
          | _ => rfl
  | _ => rfl

/-- Before the outcome of an event is clear nothing is output. -/
theorem messageFrames_begun (s : ClientSession) (e : ClientEvent) :
    (begun s e).filterMap SessionObs.messageFrame? = [] := by
  rw [begun]
  cases e.timer? <;> cases e.call? s.activeSubscriptionsByClientId <;> rfl

/-- **The MESSAGE frames of an event**: the one it leads to, unless the session ends. -/
theorem Handles.messageFrames {p : Params} {s : ClientSession} {resetFails : Bool}
    {e : ClientEvent} {s' : Session} {os : List SessionObs} (h : Handles p s resetFails e s' os) :
    os.filterMap SessionObs.messageFrame? = e.messageFrame?.toList ∨
      s' = ended ∧ os.filterMap SessionObs.messageFrame? = [] := by
  cases h with
  | stuck hpanic => exact Or.inr ⟨rfl, by cases e <;> rfl⟩
  | callPanics hpanic hcall =>
      refine Or.inr ⟨rfl, ?_⟩
      rw [List.filterMap_append, messageFrames_begun]
      rfl
  | ends hpanic hends => exact Or.inr ⟨rfl, messageFrames_begun s e⟩
  | goesOn hpanic hends =>
      left
      rw [List.filterMap_append, messageFrames_begun, message?_filterMap]
      rfl

/-- **The MESSAGE frames of a step** are those of the events handled, unless the session
ends. -/
theorem Turn.messageFrames {p : Params} {s s' : Session} {input : SessionInput}
    {os : List SessionObs} (h : Turn p s input s' os) :
    os.filterMap SessionObs.messageFrame?
        = (os.filterMap SessionObs.handled?).filterMap ClientEvent.messageFrame? ∨
      s' = ended ∧ os.filterMap SessionObs.messageFrame? = [] := by
  have hhandles : ∀ {r : ClientSession} {resetFails : Bool} {e : ClientEvent},
      Handles p r resetFails e s' os → os.filterMap SessionObs.messageFrame?
          = (os.filterMap SessionObs.handled?).filterMap ClientEvent.messageFrame? ∨
        s' = ended ∧ os.filterMap SessionObs.messageFrame? = [] := by
    intro r resetFails e hr
    refine hr.messageFrames.imp_left fun heq => ?_
    rw [heq, hr.handled]
    cases hframe : e.messageFrame? <;> simp [hframe]
  cases h with
  | client h => exact hhandles h
  | own hevents h => exact hhandles h
  | heartbeat hheartbeat h => exact hhandles h
  | _ => exact Or.inl rfl

end Session

namespace World

variable {p : Params} {w w' : World} {l : Label} {tr os : List Obs} {c : SessionId}

/-- The frames output are those of the events handled; the last event may have ended the
session instead. -/
structure Outputs (c : SessionId) (w : World) (tr : List Obs) : Prop where
  frames : messageFrames c tr <+: (handledBy c tr).filterMap ClientEvent.messageFrame?
  all : w.sessions c ≠ .ended →
    messageFrames c tr = (handledBy c tr).filterMap ClientEvent.messageFrame?

/-- **A session outputs the frames of the events it has handled.** -/
theorem outputs {C : World → Label → Prop} {ls : List Label}
    (h : (lts p).Run C initial ls tr w) (c : SessionId) : Outputs c w tr := by
  refine h.invariant (P := fun w tr => Outputs c w tr) ⟨List.prefix_refl _, fun _ => rfl⟩ ?_
  intro ls tr os w w' l hrun ih _ hstep
  rcases (turn_of_step hstep).atSession c with ⟨input, -, hsturn, hinput, -⟩ | ⟨hos, hreceive, -⟩
  · have hstays : w.sessions c ≠ .ended := by
      intro hs
      rw [hs] at hsturn
      cases hsturn
    have hall := ih.all hstays
    have hhandled : handledBy c os = (atSession c os).filterMap SessionObs.handled? := rfl
    have hframes : messageFrames c os = (atSession c os).filterMap SessionObs.messageFrame? := rfl
    rcases hsturn.messageFrames with heq | ⟨hended, hnone⟩
    · have hsame : messageFrames c (tr ++ os)
          = (handledBy c (tr ++ os)).filterMap ClientEvent.messageFrame? := by
        rw [messageFrames_append, handledBy_append, List.filterMap_append, hall, hframes, heq,
          hhandled]
      exact ⟨hsame ▸ List.prefix_refl _, fun _ => hsame⟩
    · refine ⟨?_, fun hs => absurd hended hs⟩
      rw [messageFrames_append, handledBy_append, List.filterMap_append, hall, hframes, hnone,
        List.append_nil]
      exact List.prefix_append _ _
  · have hhandled : handledBy c os = [] := by
      rw [handledBy, hos]
      rfl
    have hframes : messageFrames c os = [] := by
      rw [messageFrames, hos]
      rfl
    constructor
    · rw [messageFrames_append, handledBy_append, hhandled, hframes, List.append_nil,
        List.append_nil]
      exact ih.frames
    · intro hs
      rw [messageFrames_append, handledBy_append, hhandled, hframes, List.append_nil,
        List.append_nil]
      refine ih.all fun hended => hs ?_
      rw [hreceive, hended]
      rfl

/-- A MESSAGE frame is made of an event that a destination has sent. -/
theorem messageFrames_received (c : SessionId) (tr : List Obs) :
    (handledBy c tr).filterMap ClientEvent.messageFrame?
      = (received c tr).filterMap ClientEvent.messageFrame? := by
  rw [received, List.filterMap_filter]
  congr 1
  funext e
  cases e <;> rfl

/-- **The MESSAGE frames of a session** are its deliveries, in order, as far as they were
handled. -/
theorem messageFrames_initial {C : World → Label → Prop} {ls : List Label}
    (h : (lts p).Run C initial ls tr w) (c : SessionId) :
    messageFrames c tr <+: (deliveriesTo c tr).map SubscriptionMessage.frame := by
  have hframes := (outputs h c).frames
  rw [messageFrames_received] at hframes
  rw [← messageFrames_sentTo]
  exact hframes.trans ((channel h c).tracks.initial.filterMap _)

/-! ## On behalf of one subscription -/

/-- **The destinations of the system honour their subscribers**: each is in a state that
its observations lead to. -/
theorem delivers {C : World → Label → Prop} {ls : List Label} {d : DestinationId}
    (h : (lts p).Run C initial ls tr w) :
    (∀ D, w.destinations d = some D →
        InMemDestination.Delivers d ⟨D, w.uuids, []⟩ (atDestination d tr)) ∧
      (w.destinations d = none → atDestination d tr = []) := by
  refine h.invariant (P := fun w tr => (∀ D, w.destinations d = some D →
      InMemDestination.Delivers d ⟨D, w.uuids, []⟩ (atDestination d tr)) ∧
    (w.destinations d = none → atDestination d tr = [])) ⟨by simp [initial], fun _ => rfl⟩ ?_
  intro ls tr os w w' l hrun hboth _ hstep
  obtain ⟨ih, ihnone⟩ := hboth
  have hturn := turn_of_step hstep
  have hprov := provenance hrun
  have huuids := hturn.uuids_subset
  -- a destination that exists stays so
  have hsome : ∀ {D'}, w'.destinations d = some D' →
      InMemDestination.Delivers d ⟨D', w'.uuids, []⟩ (atDestination d (tr ++ os)) →
      (∀ D, w'.destinations d = some D →
        InMemDestination.Delivers d ⟨D, w'.uuids, []⟩ (atDestination d (tr ++ os))) ∧
      (w'.destinations d = none → atDestination d (tr ++ os) = []) := by
    intro D' hD' hdel
    refine ⟨fun D hD => ?_, fun hnone => by simp [hnone] at hD'⟩
    obtain rfl := Option.some.inj (hD'.symm.trans hD)
    exact hdel
  cases hturn.atDestination d with
  | still hdest hos =>
      refine ⟨fun D hD => ?_, fun hnone => ?_⟩
      · rw [atDestination_append, hos]
        exact (ih D (hdest ▸ hD)).silent rfl huuids rfl fun _ => rfl
      · rw [atDestination_append, hos, ihnone (hdest ▸ hnone)]
        rfl
  | created hl hdest hdest' hos =>
      refine hsome hdest' ?_
      rw [atDestination_append, ihnone hdest, hos]
      exact ⟨rfl, fun s sub hs => by simp [InMemDestination.create] at hs,
        by simp [InMemDestination.create, log, atDestination],
        fun k hk => absurd (fun e he => by simp [log, atDestination] at he) hk, fun k => rfl⟩
  | accepted hdest hsend hdest' hos hcaller =>
      refine hsome hdest' ?_
      rw [atDestination_append, hos]
      exact (ih _ hdest).silent rfl huuids rfl fun _ => rfl
  | @refused D a w₁ hdest hgone hdest' hos hcaller =>
      refine hsome hdest' ?_
      obtain ⟨hlog, hpassed⟩ := InMemDestination.observe_failure d D.backend.id w₁.reply a
      rw [atDestination_append, hos]
      exact (ih D hdest).silent rfl huuids hlog hpassed
  | closed hl hdest fresh huuids' hmail hdest' hos =>
      refine hsome hdest' ?_
      rw [atDestination_append, hos]
      exact (ih _ hdest).silent rfl huuids rfl fun _ => rfl
  | @performed D uuid order a q hl hdest fresh huuids' horder hmail hclose hdest' hos =>
      refine hsome hdest' ?_
      rw [atDestination_append, hos, huuids']
      cases a with
      | subscribe sub k => exact (ih D hdest).subscribe fresh
      | unsubscribe s k => exact (ih D hdest).unsubscribe
      | send message k =>
          exact (ih D hdest).send horder fun s sub m hs => hprov.send_ne_panic hdest hs m
      | close => exact absurd rfl hclose
  | finished hdest hmail hdest' hos =>
      refine hsome hdest' ?_
      rw [atDestination_append, hos]
      exact (ih _ hdest).silent rfl huuids rfl fun _ => rfl

/-- What is passed to a subscription in the system is its feed. -/
theorem passed_eq_feed {C : World → Label → Prop} {ls : List Label}
    (h : (lts p).Run C initial ls tr w) (d : DestinationId) (s : SubscriptionId) :
    passed s (atDestination d tr) = LogEntry.feed s (log d (atDestination d tr)) := by
  obtain ⟨hsome, hnone⟩ := delivers (d := d) h
  cases hD : w.destinations d with
  | some D => exact (hsome D hD).fed s
  | none =>
      rw [hnone hD]
      rfl

/-- **A message is passed only to a subscription that was created**, with the client's id. -/
theorem created_of_send {C : World → Label → Prop} {ls : List Label}
    (h : (lts p).Run C initial ls tr w) :
    ∀ {d k s sub m reply}, destination d (.invoked (.send k s sub m) reply) ∈ tr →
      ∃ i, sub = some i ∧ Created tr d s i k := by
  refine h.invariant (P := fun _ tr => ∀ {d k s sub m reply},
    destination d (.invoked (.send k s sub m) reply) ∈ tr →
      ∃ i, sub = some i ∧ Created tr d s i k) (by simp) ?_
  intro ls tr os w w' l hrun ih _ hstep d k s sub m reply hin
  have hprov := provenance hrun
  rcases List.mem_append.mp hin with hin | hin
  · obtain ⟨i, rfl, hcreated⟩ := ih hin
    exact ⟨i, rfl, hcreated.append os⟩
  · rw [← mem_atDestination] at hin
    cases (turn_of_step hstep).atDestination d with
    | still hdest hos => simp [hos] at hin
    | created hl hdest hdest' hos => simp [hos, atDestination] at hin
    | accepted hdest hsend hdest' hos hcaller => simp [hos] at hin
    | @refused D a w₁ hdest hgone hdest' hos hcaller =>
        rw [hos] at hin
        cases a <;> simp [refusal, InMemDestination.observe, InMemDestination.failure] at hin
    | closed hl hdest fresh huuids hmail hdest' hos => simp [hos] at hin
    | @performed D uuid order a q hl hdest fresh huuids horder hmail hclose hdest' hos =>
        rw [hos] at hin
        simp only [List.mem_cons, InMemDestination.observe, List.mem_map, reduceCtorEq, false_or,
          DestinationObs.invoked.injEq] at hin
        obtain ⟨i', hi', rfl, -⟩ := hin
        rcases InMemDestinationBackend.mem_perform _ _ _ _ hi' with hsend | hanswer
        · obtain ⟨message, k', s', sub', rfl, hs', heq⟩ :=
            (InMemDestinationBackend.mem_sends _ _ _ horder).mp hsend
          obtain ⟨i, hid, hi, hcreated⟩ := hprov.held d D s' sub' hdest hs'
          obtain ⟨rfl, rfl, rfl, rfl⟩ := Invocation.send.inj heq
          rw [hid]
          exact ⟨i, hi, hcreated.append os⟩
        · cases a <;> cases hanswer
    | finished hdest hmail hdest' hos => simp [hos] at hin

/-- The deliveries for one subscription of a session are what was passed to it. -/
theorem deliveries_initial {C : World → Label → Prop} {ls : List Label}
    (h : (lts p).Run C initial ls tr w) (c : SessionId) (d : DestinationId)
    (s : SubscriptionId) :
    ((deliveriesTo c tr).filter (·.isFor d s)).map (·.message)
      <+: passed s (atDestination d tr) := by
  by_cases hnil : (deliveriesTo c tr).filter (·.isFor d s) = []
  · rw [hnil]
    exact List.nil_prefix
  · -- the subscription belongs to the session
    obtain ⟨δ, hin⟩ := List.exists_mem_of_ne_nil _ hnil
    obtain ⟨k, hk, i, hcreated⟩ : ∃ k : ProxyBox, k.session = c ∧ ∃ i, Created tr d s i k := by
      obtain ⟨hin, hfor⟩ := List.mem_filter.mp hin
      obtain ⟨o, ho, heq⟩ := List.mem_filterMap.mp hin
      unfold delivery? at heq
      split at heq
      · rename_i d' k s' sub m reply
        rw [Option.ite_none_right_eq_some, Option.map_eq_some_iff] at heq
        obtain ⟨hk, i, rfl, rfl⟩ := heq
        simp only [SubscriptionMessage.isFor, Bool.and_eq_true, decide_eq_true_eq] at hfor
        obtain ⟨rfl, rfl⟩ := hfor
        obtain ⟨i', -, hcreated⟩ := created_of_send h ho
        exact ⟨k, hk, i', hcreated⟩
      · cases heq
    have hsame : ∀ o ∈ tr, ((delivery? c o).filter (·.isFor d s)).map (·.message)
        = (ofDestination? d o).bind (passed? s) := by
      intro o ho
      unfold delivery?
      split
      · rename_i d' k' s' sub m reply
        by_cases hd : d' = d
        · subst hd
          by_cases hs : s' = s
          · subst hs
            obtain ⟨i', rfl, hcreated'⟩ := created_of_send h ho
            obtain ⟨-, -, rfl⟩ := (provenance h).created_unique hcreated hcreated'
            simp [hk, SubscriptionMessage.isFor, ofDestination?, passed?]
          · cases sub <;> by_cases hk' : k'.session = c <;>
              simp [SubscriptionMessage.isFor, ofDestination?, passed?, hs, hk', Option.filter]
        · cases sub <;> by_cases hk' : k'.session = c <;>
            simp [SubscriptionMessage.isFor, ofDestination?, hd, hk', Option.filter]
      · rename_i hother
        unfold ofDestination?
        split
        · rename_i d' o'
          split_ifs with hd
          · cases o' with
            | invoked i' reply =>
                cases i' with
                | send k' s' sub m => exact absurd rfl (hother d' k' s' sub m reply)
                | _ => rfl
            | _ => rfl
          · rfl
        · rfl
    have hpassed : ((deliveriesTo c tr).filter (·.isFor d s)).map (·.message)
        = passed s (atDestination d tr) := by
      simp only [deliveriesTo, List.filter_filterMap, List.map_filterMap, passed, atDestination,
        List.filterMap_filterMap]
      exact List.filterMap_congr hsame
    exact hpassed ▸ List.prefix_refl _

/-- The MESSAGE frames of the session `c` come from deliveries to it, in order, and those on
behalf of one subscription are a prefix of its feed. -/
def FramesHonoured (c : SessionId) (tr : List Obs) : Prop :=
  ∃ taken, taken <+: deliveriesTo c tr ∧
    messageFrames c tr = taken.map SubscriptionMessage.frame ∧
    ∀ d s, (taken.filter (·.isFor d s)).map (·.message)
      <+: LogEntry.feed s (log d (atDestination d tr))

/-- The frames of a session are honoured in every run. -/
theorem frames_honoured {C : World → Label → Prop} {ls : List Label}
    (h : (lts p).Run C initial ls tr w) (c : SessionId) : FramesHonoured c tr := by
  obtain ⟨taken, htaken, hframes⟩ := List.prefix_map_iff.mp (messageFrames_initial h c)
  refine ⟨taken, htaken, hframes, fun d s => ?_⟩
  rw [← passed_eq_feed h d s]
  exact ((htaken.filter _).map _).trans (deliveries_initial h c d s)

/-- **Subscribers are honoured.**  In every run of a destination in which no subscriber panics
in `send`, each subscription is passed exactly its feed; and in every run of the system
the MESSAGE frames of a session on behalf of one of its subscriptions are a prefix of
that feed. -/
theorem honours_subscribers :
    (∀ {κ : Type} [DecidableEq κ] {d : DestinationId} {ls : List (DestinationLabel κ)}
        {tr : List (DestinationObs κ)} {s : DestinationRun κ},
      InMemDestination.lts.Run InMemDestination.SendsReturn (InMemDestination.initial d) ls tr s →
        InMemDestination.Honours d s tr) ∧
      ∀ {p : Params} {ls : List Label} {tr : List Obs} {w : World} (c : SessionId),
        (lts p).Run LTS.Free initial ls tr w → FramesHonoured c tr :=
  ⟨fun h => InMemDestination.honours h, fun c h => frames_honoured h c⟩

/-- The theorem applied to a destination with two subscribers, one of which fails, and to a
client that sends itself a message. -/
theorem honours_subscribers_send :
    let failing : Answers Nat := fun i => if i.target = 0 then .err else .ok
    let dls : List (DestinationLabel Nat) :=
      [.call (.subscribe (some ⟨"sub-0"⟩) 0) failing, .process "uuid-0" [] failing,
        .call (.subscribe none 1) failing, .process "uuid-1" [⟨"uuid-0"⟩] failing,
        .call (.send ⟨none, []⟩ 2) failing,
        .process "uuid-2" [⟨"uuid-0"⟩, ⟨"uuid-1"⟩] failing]
    let p := sampleParams []
    let ls := Label.subscribed ++
      [.frame 0 sampleSend, .backend sampleDestination "uuid-1" [⟨"uuid-0"⟩], .own 0]
    (∃ tr s, InMemDestination.lts.Run InMemDestination.SendsReturn
        (InMemDestination.initial sampleDestination) dls tr s ∧
        (passed ⟨"uuid-1"⟩ tr).length = 1 ∧ InMemDestination.Honours sampleDestination s tr) ∧
      ∃ tr w, (lts p).Run LTS.Free initial ls tr w ∧ (messageFrames 0 tr).length = 1 ∧
        FramesHonoured 0 tr := by
  intro failing dls p ls
  have hfailing : ∀ i, failing i ≠ .panic := by
    intro i
    show (if i.target = 0 then Reply.err else .ok) ≠ .panic
    split_ifs <;> simp
  have hfree := LTS.Run.exec_get InMemDestination.lts LTS.Free
    (InMemDestination.initial sampleDestination) dls (by decide)
  have hsends := hfree.of_labels (D := InMemDestination.SendsReturn) (by
    simp only [dls, List.forall_mem_cons, List.not_mem_nil, false_implies, implies_true, and_true,
      InMemDestination.SendsReturn, true_and]
    exact ⟨fun _ _ _ _ _ => hfailing _, fun _ _ _ _ _ => hfailing _, fun _ _ _ _ _ => hfailing _⟩)
  have hrun := LTS.Run.exec_get (lts p) LTS.Free initial ls (by decide)
  exact ⟨⟨_, _, hsends, by decide, honours_subscribers.1 hsends⟩, _, _, hrun, by decide,
    honours_subscribers.2 0 hrun⟩

end World
