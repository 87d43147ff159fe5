/-
# The system as a broker

Sessions, destinations and spawned tasks together do what a broker does
(`Library/Broker.lean`): the destinations are its topics, the sessions its clients, and a
MESSAGE frame is a message handed over.  Tasks, callbacks, tables, receivers that are closed,
loops that panic and ERROR frames are not to be seen there.

* `refines_broker` : what can be observed of a run are the observations of a run of a broker;
* `same_order` : no two MESSAGE frames of one destination reach two clients in different orders;
* `at_most_once` : a client gets a message once for each of its SUBSCRIBE frames, or less.
-/
import LittleStomper.Messages
import LittleStomper.Requests
import LittleStomper.Library.Broker

open Obs

/-! ## What stands for what -/

/-- The broker of STOMP messages. -/
abbrev StompBroker :=
  Broker DestinationId SessionId SubscriptionId SubscriptionId OutboundMessage

/-- What can be observed of it. -/
abbrev StompBrokerObs :=
  BrokerObs DestinationId SessionId SubscriptionId SubscriptionId OutboundMessage

/-- What a MESSAGE frame hands over. -/
def MessageFrame.delivery (frame : MessageFrame) :
    Delivery DestinationId SubscriptionId OutboundMessage :=
  ⟨⟨frame.destination⟩, ⟨frame.subscription⟩,
    ⟨⟨frame.destination⟩, ⟨frame.messageId⟩, frame.body⟩⟩

@[simp] theorem ClientSession.delivery_messageFrame (i : SubscriptionId) (m : OutboundMessage) :
    (messageFrame i m).delivery = ⟨m.destination, i, m⟩ := rfl

/-- The message that an event brings from the destination `d`, and the client's subscription
id. -/
def ClientEvent.messageOf? (d : DestinationId) :
    ClientEvent → Option (SubscriptionId × OutboundMessage)
  | .serverMessage i m => if m.destination = d then some (i, m) else none
  | _ => none

/-- The messages of the destination `d` that wait in the session's channel. -/
def Session.waiting (d : DestinationId) : Session → List (SubscriptionId × OutboundMessage)
  | running s => s.events.filterMap (ClientEvent.messageOf? d)
  | _ => []

/-- What an observation is to the broker. -/
def Obs.broker? : Obs → Option StompBrokerObs
  | session c o => o.messageFrame?.map fun frame => .handed c frame.delivery
  | destination d (.took (.subscribe (some i) k) uuid) => some (.subscribed d ⟨uuid⟩ k.session i)
  | destination d (.took (.unsubscribe s _) _) => some (.unsubscribed d s)
  | destination d (.took (.send message _) uuid) => some (.published d ⟨d, ⟨uuid⟩, message.body⟩)
  | _ => none

namespace World

/-- Whose the subscription `s` at the destination `d` is, and under which id. -/
def holder (w : World) (d : DestinationId) (s : SubscriptionId) :
    Option (SessionId × SubscriptionId) :=
  (w.destinations d).bind fun D => (D.backend.subscriptions.lookup s).bind fun sub =>
    sub.subscriberSubId.map fun i => (sub.sendFn.session, i)

/-- The system is in a state of the broker. -/
structure Represents (w : World) (b : StompBroker) : Prop where
  origin : ∃ tr, Provenance w tr
  subscriptions : ∀ d s, b.subscriptions d s = w.holder d s
  present : ∀ c, b.present c ↔ w.sessions c ≠ .ended
  outbox : ∀ c d, b.outbox c d = (w.sessions c).waiting d
  published : ∀ m ∈ b.published, m.messageId.str ∈ w.uuids

end World

/-! ## A session that moves -/

namespace Session

/-- **What a step of a session is to the broker**: the client leaves, nothing, or it is handed
the next message of some destination. -/
inductive Hands (s s' : Session) (os : List SessionObs) : Prop
  | leaves (hended : s' = ended) (hos : os.filterMap SessionObs.messageFrame? = [])
  | keeps (hgoes : s ≠ ended ∧ s' ≠ ended) (hwaits : ∀ d, s'.waiting d = s.waiting d)
      (hos : os.filterMap SessionObs.messageFrame? = [])
  | hands {i : SubscriptionId} {m : OutboundMessage} (hgoes : s ≠ ended ∧ s' ≠ ended)
      (hthis : s.waiting m.destination = (i, m) :: s'.waiting m.destination)
      (hother : ∀ d, d ≠ m.destination → s'.waiting d = s.waiting d)
      (hos : os.filterMap SessionObs.messageFrame? = [ClientSession.messageFrame i m])

/-- What a session adds to its own channel are no messages. -/
theorem messageOf?_of_own {own : List ClientEvent} (d : DestinationId)
    (h : ∀ e ∈ own, e.fromSubscriber = false) :
    own.filterMap (ClientEvent.messageOf? d) = [] := by
  rw [List.filterMap_eq_nil_iff]
  intro e he
  cases e with
  | serverMessage i m => exact absurd (h _ he) (by simp [ClientEvent.fromSubscriber])
  | _ => rfl

/-- A session that ends in handling an event outputs no message. -/
theorem Handles.messageFrames_of_ended {p : Params} {s : ClientSession} {resetFails : Bool}
    {e : ClientEvent} {os : List SessionObs} (h : Handles p s resetFails e ended os) :
    os.filterMap SessionObs.messageFrame? = [] := by
  cases h with
  | stuck hpanic => cases e <;> rfl
  | callPanics hpanic hcall =>
      rw [List.filterMap_append, messageFrames_begun]
      rfl
  | ends hpanic hends => exact messageFrames_begun s e

/-- A session that goes on outputs the message of the event. -/
theorem Handles.messageFrames_of_running {p : Params} {s r : ClientSession} {resetFails : Bool}
    {e : ClientEvent} {os : List SessionObs} (h : Handles p s resetFails e (running r) os) :
    os.filterMap SessionObs.messageFrame? = e.messageFrame?.toList := by
  rcases h.messageFrames with heq | ⟨hended, -⟩
  · exact heq
  · cases hended

/-- **Every step of a session is one of these.** -/
theorem Turn.hands {p : Params} {s s' : Session} {input : SessionInput} {os : List SessionObs}
    (h : Turn p s input s' os) (hinput : ∀ e, input ≠ .deliver e) : Hands s s' os := by
  cases s with
  | awaiting =>
      cases h with
      | rejected hfirst => exact Hands.leaves rfl rfl
      | overflows hfirst hnew => exact Hands.leaves rfl rfl
      | connected hfirst hnew =>
          obtain ⟨hevents, -, -⟩ := new_eq_some hnew
          exact Hands.keeps (by simp) (fun d => by simp [waiting, hevents]) rfl
  | ended => cases h
  | running r =>
      rcases h.running_cases with ⟨e, r₀, resetFails, -, -, -, hhandles, hevents⟩ |
        ⟨-, rfl, rfl | ⟨r', rfl, -, hdeliver | hmissed⟩⟩
      · cases s' with
        | awaiting => exact absurd rfl h.ne_awaiting
        | ended => exact Hands.leaves rfl hhandles.messageFrames_of_ended
        | running r' =>
            obtain ⟨-, own, hown, hplain⟩ := hhandles.table
            have hframes := hhandles.messageFrames_of_running
            -- what waits afterwards is what waited behind the event
            have hafter : ∀ d, (running r').waiting d
                = r₀.events.filterMap (ClientEvent.messageOf? d) := by
              intro d
              rw [waiting, hown, List.filterMap_append, messageOf?_of_own d hplain,
                List.append_nil]
            rcases hevents with ⟨hevents, hnot⟩ | hevents
            · refine Hands.keeps (by simp) (fun d => ?_) ?_
              · rw [hafter, waiting, hevents]
              · rw [hframes]
                cases e <;> first | rfl | cases hnot
            · have hbefore : ∀ d, (running r).waiting d
                  = (ClientEvent.messageOf? d e).toList ++ (running r').waiting d := by
                intro d
                rw [hafter, waiting, hevents, List.filterMap_cons]
                cases ClientEvent.messageOf? d e <;> rfl
              cases e with
              | serverMessage i m =>
                  refine Hands.hands (i := i) (m := m) (by simp) ?_ ?_ hframes
                  · rw [hbefore]
                    simp [ClientEvent.messageOf?]
                  · intro d hd
                    rw [hbefore]
                    simp [ClientEvent.messageOf?, Ne.symm hd]
              | _ => exact Hands.keeps (by simp) (fun d => (hbefore d).symm) hframes
      · exact Hands.leaves rfl rfl
      · obtain ⟨e, hdeliver, -⟩ := hdeliver
        exact absurd hdeliver (hinput e)
      · refine Hands.keeps (by simp) (fun d => ?_) rfl
        rw [waiting, waiting, hmissed, List.filterMap_append]
        simp [ClientEvent.messageOf?]

end Session

namespace World

variable {p : Params} {w w' : World} {l : Label} {tr tr' os : List Obs} {b : StompBroker}

/-! ## Subscriptions and messages -/

/-- Whose subscription it is can be read off the backend. -/
theorem holder_of {d : DestinationId} {D : InMemDestination ProxyBox}
    (hD : w.destinations d = some D) (s : SubscriptionId) :
    w.holder d s = (D.backend.subscriptions.lookup s).bind fun sub =>
      sub.subscriberSubId.map fun i => (sub.sendFn.session, i) := by
  rw [holder, hD]
  rfl

/-- Every subscription held has a holder. -/
theorem Provenance.isSome_holder (hprov : Provenance w tr) {d : DestinationId}
    {D : InMemDestination ProxyBox} (hD : w.destinations d = some D) (s : SubscriptionId) :
    (w.holder d s).isSome = (D.backend.subscriptions.lookup s).isSome := by
  rw [holder_of hD]
  cases hs : D.backend.subscriptions.lookup s with
  | none => rfl
  | some sub =>
      obtain ⟨i, hi⟩ := Option.isSome_iff_exists.mp (hprov.subId hD hs)
      simp [hi]

/-- A holder is a session that has begun. -/
theorem Provenance.begun_of_holder (hprov : Provenance w tr) {d : DestinationId}
    {s : SubscriptionId} {c : SessionId} {i : SubscriptionId} (h : w.holder d s = some (c, i)) :
    ∃ D sub, w.destinations d = some D ∧ D.backend.subscriptions.lookup s = some sub ∧
      sub.subscriberSubId = some i ∧ sub.sendFn.session = c ∧ w.sessions c ≠ .awaiting := by
  obtain ⟨D, hD, h⟩ := Option.bind_eq_some_iff.mp h
  obtain ⟨sub, hs, h⟩ := Option.bind_eq_some_iff.mp h
  obtain ⟨i', hi, heq⟩ := Option.map_eq_some_iff.mp h
  obtain ⟨rfl, rfl⟩ := Prod.mk.inj heq
  obtain ⟨i₁, -, -, hcreated⟩ := hprov.held d D s sub hD hs
  have hissued : dispatched sub.sendFn (.subscribe d (some i₁)) ∈ tr := hprov.taken _ _ _ hcreated
  exact ⟨D, sub, hD, hs, hi, rfl, hprov.begun _ _ hissued⟩

/-- The copies that a session is sent of a message are its share. -/
theorem messagesFor_eq_share {d : DestinationId} {D : InMemDestination ProxyBox}
    (hD : w.destinations d = some D) (c : SessionId) (m : OutboundMessage)
    (order : List SubscriptionId) (d' : DestinationId) :
    (messagesFor c m (D.backend.values order)).filterMap (ClientEvent.messageOf? d')
      = if m.destination = d' then Broker.share (w.holder d) m order c else [] := by
  rw [messagesFor, InMemDestinationBackend.values, List.filterMap_filterMap,
    List.filterMap_filterMap]
  split_ifs with hd
  · rw [Broker.share]
    congr 1
    funext s
    rw [holder_of hD]
    cases D.backend.subscriptions.lookup s with
    | none => rfl
    | some sub =>
        obtain ⟨id, i, k⟩ := sub
        by_cases hc : k.session = c <;> cases i <;> simp [hc, ClientEvent.messageOf?, hd]
  · rw [List.filterMap_eq_nil_iff]
    intro s hs
    cases D.backend.subscriptions.lookup s with
    | none => rfl
    | some sub =>
        obtain ⟨id, i, k⟩ := sub
        by_cases hc : k.session = c <;> cases i <;> simp [hc, ClientEvent.messageOf?, hd]

/-- Only a backend that takes a `Send` sends messages. -/
theorem Sends.no_message {c : SessionId} {es : List ClientEvent} (h : Sends w c l es)
    (hno : ∀ d uuid order D message k q, l = .backend d uuid order → w.destinations d = some D →
      D.mailbox ≠ .listening (.send message k :: q)) (d : DestinationId) :
    es.filterMap (ClientEvent.messageOf? d) = [] := by
  cases h with
  | messages hl hdest horder hmail => exact absurd hmail (hno _ _ _ _ _ _ _ hl hdest)
  | _ => rfl

/-- No sender of a subscription panics. -/
theorem Provenance.values_ne_panic (hprov : Provenance w tr) {d : DestinationId}
    {D : InMemDestination ProxyBox} {order : List SubscriptionId} (hD : w.destinations d = some D)
    (horder : order.Perm D.backend.subscriptions.keys) (m : OutboundMessage) :
    ∀ sub ∈ D.backend.values order, w.reply (sub.send m) ≠ .panic := by
  intro sub hsub
  obtain ⟨s, hs⟩ := (InMemDestinationBackend.mem_values _ horder).mp hsub
  exact hprov.send_ne_panic hD hs _

/-- **What a `Send` that is performed sends.** -/
theorem Provenance.eventsFor_send (hprov : Provenance w tr) {d : DestinationId} {uuid : String}
    {order : List SubscriptionId} {D : InMemDestination ProxyBox} {message : InboundMessage}
    {k : ProxyBox} (hD : w.destinations d = some D)
    (horder : order.Perm D.backend.subscriptions.keys) (c : SessionId) :
    eventsFor c d (.took (.send message k) uuid :: InMemDestination.observe w.reply
        (D.backend.perform w.reply uuid order (.send message k)).2)
      = messagesFor c (D.backend.outMessage uuid message) (D.backend.values order) := by
  have hvalues := hprov.values_ne_panic hD horder (D.backend.outMessage uuid message)
  have hsends := eventsFor_sends c d w.reply (D.backend.outMessage uuid message)
    (D.backend.values order)
  show eventsFor c d (InMemDestination.observe _ _) = _
  rw [InMemDestinationBackend.perform_send_snd _ _ _ _ _ _ hvalues]
  rw [InMemDestination.observe] at hsends ⊢
  rw [List.map_append, eventsFor_append, hsends]
  -- the callback of the sender sends nothing
  have hnone : eventsFor c d [.invoked (.sendCallback k message.senderMessageId (.ok ⟨uuid⟩))
      (w.reply (.sendCallback k message.senderMessageId (.ok ⟨uuid⟩)))] = [] := by
    show (if k.session = c then none else none : Option ClientEvent).toList = []
    split_ifs <;> rfl
  rw [List.map_singleton, hnone, List.append_nil]

end World

namespace Session

/-- What waits in a channel that receives some events. -/
theorem waiting_receive (s : Session) (es : List ClientEvent) (d : DestinationId) :
    (s.receive es).waiting d
      = s.waiting d ++ if s.isOpen then es.filterMap (ClientEvent.messageOf? d) else [] := by
  cases s with
  | running r => simp [receive, waiting, isOpen]
  | _ => rfl

/-- Receiving events ends no session. -/
theorem receive_eq_ended {s : Session} {es : List ClientEvent} :
    s.receive es = ended ↔ s = ended := by
  cases s <;> simp [receive]

end Session

namespace World

variable {p : Params} {w w' : World} {l : Label} {tr os : List Obs} {b : StompBroker}

/-! ## Every step is one of the broker's -/

/-- The broker can follow a step. -/
def Matched (w' : World) (b : StompBroker) (os : List Obs) : Prop :=
  ∃ ls b', Broker.lts.Run LTS.Free b ls (os.filterMap broker?) b' ∧ w'.Represents b'

/-- A step that is one step of the broker. -/
theorem Matched.one {bl : BrokerLabel DestinationId SessionId SubscriptionId SubscriptionId
      OutboundMessage} {b' : StompBroker} {bos : List StompBrokerObs}
    (hstep : Broker.lts.step b bl = some (b', bos)) (hos : os.filterMap broker? = bos)
    (h : w'.Represents b') : w'.Matched b os := by
  refine ⟨[bl], b', ?_, h⟩
  rw [hos]
  exact LTS.Run.single trivial hstep

/-- A step in which the broker does nothing. -/
theorem Represents.still (h : w.Represents b) (horigin : ∃ tr, Provenance w' tr)
    (hholder : ∀ d s, w'.holder d s = w.holder d s)
    (hended : ∀ c, w'.sessions c = .ended ↔ w.sessions c = .ended)
    (hwaits : ∀ c d, (w'.sessions c).waiting d = (w.sessions c).waiting d)
    (huuids : w.uuids ⊆ w'.uuids) (hos : os.filterMap broker? = []) : w'.Matched b os := by
  refine ⟨[], b, ?_, horigin, ?_, ?_, ?_, ?_⟩
  · rw [hos]
    exact LTS.Run.refl b
  · intro d s
    rw [h.subscriptions, hholder]
  · intro c
    rw [h.present, ne_eq, ne_eq, hended]
  · intro c d
    rw [h.outbox, hwaits]
  · exact fun m hm => huuids (h.published m hm)

/-- What is observed of a session is what it hands over. -/
theorem broker?_map_session (c : SessionId) (sos : List SessionObs) :
    (sos.map (session c)).filterMap broker?
      = (sos.filterMap SessionObs.messageFrame?).map fun frame => .handed c frame.delivery := by
  rw [List.filterMap_map, List.map_filterMap]
  rfl

/-- **A session moves**, and its destinations keep their subscriptions. -/
theorem Represents.move (h : w.Represents b) (horigin : ∃ tr, Provenance w' tr) {c : SessionId}
    {input : SessionInput} {s : Session} {sos : List SessionObs}
    (hturn : Session.Turn p (w.sessions c) input s sos) (hinput : ∀ e, input ≠ .deliver e)
    (hsessions : w'.sessions = Function.update w.sessions c s)
    (hholder : ∀ d s, w'.holder d s = w.holder d s) (huuids : w'.uuids = w.uuids)
    (hos : os.filterMap broker? = (sos.map (session c)).filterMap broker?) : w'.Matched b os := by
  rw [broker?_map_session] at hos
  cases hturn.hands hinput with
  | keeps hgoes hwaits hnone =>
      rw [hnone] at hos
      refine h.still horigin hholder (fun c' => ?_) (fun c' d => ?_)
        (huuids ▸ List.Subset.refl _) hos
      · rw [hsessions]
        by_cases hc : c' = c
        · subst hc
          simp [hgoes]
        · rw [Function.update_of_ne hc]
      · rw [hsessions]
        by_cases hc : c' = c
        · subst hc
          rw [Function.update_self, hwaits]
        · rw [Function.update_of_ne hc]
  | leaves hended hnone =>
      rw [hnone] at hos
      refine Matched.one (show Broker.lts.step b (.leave c) = _ from rfl) hos
        ⟨horigin, ?_, ?_, ?_, ?_⟩
      · intro d s
        rw [hholder]
        exact h.subscriptions d s
      · intro c'
        rw [hsessions]
        by_cases hc : c' = c
        · subst hc
          simp [hended]
        · simp [h.present, hc]
      · intro c' d
        rw [hsessions]
        by_cases hc : c' = c
        · subst hc
          simp [hended, Session.waiting]
        · simp only [Function.update_of_ne hc]
          exact h.outbox c' d
      · rw [huuids]
        exact h.published
  | @hands i m hgoes hthis hother hframes =>
      rw [hframes, List.map_singleton, ClientSession.delivery_messageFrame] at hos
      have hbox : b.outbox c m.destination = (i, m) :: s.waiting m.destination :=
        (h.outbox c m.destination).trans hthis
      have hstep : Broker.lts.step b (.handOver c m.destination)
          = some ({ b with
              outbox := Function.update b.outbox c
                (Function.update (b.outbox c) m.destination (s.waiting m.destination)) },
            [.handed c ⟨m.destination, i, m⟩]) := by
        simp only [Broker.lts, Broker.step, hbox]
      refine Matched.one hstep hos ⟨horigin, ?_, ?_, ?_, ?_⟩
      · intro d s
        rw [hholder]
        exact h.subscriptions d s
      · intro c'
        rw [hsessions]
        by_cases hc : c' = c
        · subst hc
          simp [h.present, hgoes]
        · simp [Function.update_of_ne hc, h.present]
      · intro c' d
        rw [hsessions]
        by_cases hc : c' = c
        · subst hc
          by_cases hd : d = m.destination
          · subst hd
            simp
          · simp [Function.update_of_ne hd, h.outbox, hother d hd]
        · simp [Function.update_of_ne hc, h.outbox]
      · rw [huuids]
        exact h.published

/-- What a backend that performs an action is to the broker. -/
theorem broker?_performed {d : DestinationId} {uuid : String} {a : DestinationAction ProxyBox}
    (answers : Answers ProxyBox) (is : List (Invocation ProxyBox)) :
    ((DestinationObs.took a uuid :: InMemDestination.observe answers is).map
        (destination d)).filterMap broker?
      = (broker? (destination d (.took a uuid))).toList := by
  have hnone : ((InMemDestination.observe answers is).map (destination d)).filterMap broker?
      = [] := by
    rw [List.filterMap_eq_nil_iff]
    intro o ho
    obtain ⟨o', ho', rfl⟩ := List.mem_map.mp ho
    obtain ⟨i, -, rfl⟩ := List.mem_map.mp ho'
    rfl
  rw [List.map_cons, List.filterMap_cons, hnone]
  cases broker? (destination d (.took a uuid)) <;> rfl

/-- A handle that answers for a destination without a receiver does nothing of the broker's. -/
theorem broker?_refusal (D : InMemDestination ProxyBox) (a : DestinationAction ProxyBox)
    (d : DestinationId) : ((w.refusal D a).map (destination d)).filterMap broker? = [] := by
  cases a <;> rfl

/-- A uuid that was not drawn before names no subscription. -/
theorem Provenance.holder_fresh (hprov : Provenance w tr) {uuid : String} (hfresh : uuid ∉ w.uuids)
    (d : DestinationId) : w.holder d ⟨uuid⟩ = none := by
  rw [Option.eq_none_iff_forall_not_mem]
  rintro ⟨c, i⟩ hholder
  obtain ⟨D, sub, hD, hs, -⟩ := hprov.begun_of_holder hholder
  obtain ⟨i', -, -, hcreated⟩ := hprov.held d D _ sub hD hs
  exact hfresh (hprov.drawn _ _ _ hcreated)

/-- The holders after an action was performed at one destination: those of its backend there,
and nothing new elsewhere. -/
theorem holder_performed {d d' : DestinationId} {D : InMemDestination ProxyBox}
    (hdest : w'.destinations = Function.update w.destinations d (some D)) (s : SubscriptionId) :
    w'.holder d' s = if d' = d then (D.backend.subscriptions.lookup s).bind fun sub =>
      sub.subscriberSubId.map fun i => (sub.sendFn.session, i) else w.holder d' s := by
  by_cases hd : d' = d
  · subst hd
    rw [if_pos rfl]
    exact holder_of (by rw [hdest, Function.update_self]) s
  · rw [if_neg hd, holder, hdest, Function.update_of_ne hd]
    rfl

/-- A destination that gets another mailbox keeps its holders. -/
theorem holder_mailbox {d : DestinationId} {D : InMemDestination ProxyBox}
    {m : Mailbox (DestinationAction ProxyBox)} (hD : w.destinations d = some D)
    (hdest : w'.destinations = Function.update w.destinations d (some { D with mailbox := m }))
    (d' : DestinationId) (s : SubscriptionId) : w'.holder d' s = w.holder d' s := by
  rw [holder_performed hdest, ← holder_of hD]
  split_ifs with hd
  · rw [hd]
  · rfl

/-- **A backend performs an action other than a `Send`**: no messages are sent. -/
theorem Represents.table (h : w.Represents b) (hprov : Provenance w tr)
    (horigin : ∃ tr, Provenance w' tr) {d : DestinationId} {uuid : String}
    {order : List SubscriptionId} {s : SubscriptionId}
    {holder : Option (SessionId × SubscriptionId)}
    {D : InMemDestination ProxyBox} {a : DestinationAction ProxyBox}
    {q : List (DestinationAction ProxyBox)} {bl : BrokerLabel DestinationId SessionId SubscriptionId
      SubscriptionId OutboundMessage} {bos : List StompBrokerObs}
    (hD : w.destinations d = some D) (horder : order.Perm D.backend.subscriptions.keys)
    (hmail : D.mailbox = .listening (a :: q)) (hsend : ∀ message k, a ≠ .send message k)
    (hsessions : w'.sessions = fun c => (w.sessions c).receive (eventsFor c d
      (.took a uuid ::
        InMemDestination.observe w.reply (D.backend.perform w.reply uuid order a).2)))
    (hholder : ∀ d' s', w'.holder d' s' = (b.setSubscription d s holder).subscriptions d' s')
    (huuids : w.uuids ⊆ w'.uuids)
    (hstep : Broker.lts.step b bl = some (b.setSubscription d s holder, bos))
    (hos : os.filterMap broker? = bos) : w'.Matched b os := by
  refine Matched.one hstep hos ⟨horigin, fun d' s' => (hholder d' s').symm, ?_, ?_,
    fun m hm => huuids (h.published m hm)⟩
  · intro c
    rw [hsessions]
    exact (h.present c).trans (not_congr Session.receive_eq_ended.symm)
  · intro c d'
    have hsends : Sends w c (.backend d uuid order) _ := hprov.sends_performed hD horder hmail
    have hnone := hsends.no_message (fun d₁ u o D₁ message k q₁ hl hD₁ hmail₁ => by
      obtain ⟨rfl, -, -⟩ := Label.backend.inj hl
      obtain rfl := Option.some.inj (hD.symm.trans hD₁)
      rw [hmail] at hmail₁
      simp only [Mailbox.listening.injEq, List.cons.injEq] at hmail₁
      exact hsend message k hmail₁.1) d'
    simp only [hsessions, Session.waiting_receive, hnone, ite_self, List.append_nil]
    exact h.outbox c d'

/-- Every subscription is listed once in the order in which the map yields them. -/
theorem Represents.lists (h : w.Represents b) (hprov : Provenance w tr) {d : DestinationId}
    {order : List SubscriptionId} {D : InMemDestination ProxyBox}
    (hD : w.destinations d = some D) (horder : order.Perm D.backend.subscriptions.keys) :
    Broker.Lists order (b.subscriptions d) := by
  refine ⟨horder.nodup_iff.mpr D.backend.subscriptions.nodupKeys, fun s => ?_⟩
  rw [h.subscriptions, hprov.isSome_holder hD, horder.mem_iff, AList.lookup_isSome, AList.mem_keys]

/-- The subscriptions of a session that is over are those that a `Send` removes. -/
theorem Provenance.holder_send (hprov : Provenance w tr) {d : DestinationId} {uuid : String}
    {order : List SubscriptionId} {D : InMemDestination ProxyBox} {message : InboundMessage}
    {k : ProxyBox} (hD : w.destinations d = some D)
    (horder : order.Perm D.backend.subscriptions.keys) {present : SessionId → Prop}
    [DecidablePred present] (hpresent : ∀ c, present c ↔ w.sessions c ≠ .ended)
    (s : SubscriptionId) :
    (((D.backend.perform w.reply uuid order (.send message k)).1.subscriptions.lookup s).bind
        fun sub => sub.subscriberSubId.map fun i => (sub.sendFn.session, i))
      = (w.holder d s).filter fun holder => present holder.1 := by
  have hvalues := hprov.values_ne_panic hD horder (D.backend.outMessage uuid message)
  rw [InMemDestinationBackend.lookup_perform_send _ _ _ _ _ _ _ hvalues, holder_of hD]
  cases hs : D.backend.subscriptions.lookup s with
  | none => simp
  | some sub =>
      obtain ⟨i, hid, hi, hcreated⟩ := hprov.held d D s sub hD hs
      have hissued : dispatched sub.sendFn (.subscribe d (some i)) ∈ tr :=
        hprov.taken _ _ _ hcreated
      simp only [(hprov.keyed hD).mem_deadOf horder hs]
      cases hopen : (w.sessions sub.sendFn.session).isOpen with
      | true =>
          have hstays : present sub.sendFn.session := by
            rw [hpresent]
            intro hended
            rw [hended] at hopen
            cases hopen
          simp [Subscription.send, reply, hi, hopen, hstays, Option.filter]
      | false =>
          have hgone : ¬ present sub.sendFn.session := by
            rw [hpresent, not_not]
            exact hprov.toCalls.ended hissued hopen
          simp [Subscription.send, reply, hi, hopen, hgone, Option.filter]

/-- **A backend performs a `Send`**: the message is published. -/
theorem Represents.send (h : w.Represents b) (hprov : Provenance w tr)
    (horigin : ∃ tr, Provenance w' tr) {d : DestinationId} {uuid : String}
    {order : List SubscriptionId} {D D' : InMemDestination ProxyBox} {message : InboundMessage}
    {k : ProxyBox} (hD : w.destinations d = some D)
    (horder : order.Perm D.backend.subscriptions.keys) (hfresh : uuid ∉ w.uuids)
    (hdest : w'.destinations = Function.update w.destinations d (some D'))
    (hbackend : D'.backend = (D.backend.perform w.reply uuid order (.send message k)).1)
    (hsessions : w'.sessions = fun c => (w.sessions c).receive (eventsFor c d
      (.took (.send message k) uuid :: InMemDestination.observe w.reply
        (D.backend.perform w.reply uuid order (.send message k)).2)))
    (huuids : w'.uuids = uuid :: w.uuids)
    (hos : os.filterMap broker? = [.published d ⟨d, ⟨uuid⟩, message.body⟩]) :
    w'.Matched b os := by
  classical
  have hout : D.backend.outMessage uuid message = ⟨d, ⟨uuid⟩, message.body⟩ := by
    rw [InMemDestinationBackend.outMessage, hprov.ident d D hD]
  have hstep : Broker.lts.step b (.publish d ⟨d, ⟨uuid⟩, message.body⟩ order)
      = some (b.publish d ⟨d, ⟨uuid⟩, message.body⟩ order,
        [.published d ⟨d, ⟨uuid⟩, message.body⟩]) :=
    if_pos ⟨h.lists hprov hD horder, fun hin => hfresh (h.published _ hin)⟩
  refine Matched.one hstep hos ⟨horigin, fun d' s => ?_, fun c => ?_, fun c d' => ?_, ?_⟩
  · rw [holder_performed hdest s]
    simp only [Broker.publish]
    split_ifs with hd
    · subst hd
      rw [Function.update_self, h.subscriptions, hbackend]
      exact (hprov.holder_send hD horder h.present s).symm
    · rw [Function.update_of_ne hd, h.subscriptions]
  · rw [hsessions]
    exact (h.present c).trans (not_congr Session.receive_eq_ended.symm)
  · have hshare := messagesFor_eq_share hD c ⟨d, ⟨uuid⟩, message.body⟩ order d'
    simp only [hsessions, Session.waiting_receive, hprov.eventsFor_send hD horder c, hout, hshare,
      Broker.publish]
    have hbox := h.outbox c
    cases hs : w.sessions c with
    | ended =>
        have hgone : ¬ b.present c := by simp [h.present, hs]
        rw [if_neg hgone, hbox, hs]
        rfl
    | running r =>
        have hstays : b.present c := by simp [h.present, hs]
        rw [if_pos hstays, hbox, hs]
        by_cases hd : d' = d
        · subst hd
          rw [Function.update_self]
          simp [Session.isOpen, funext (h.subscriptions d')]
        · simp [Function.update_of_ne hd, Ne.symm hd, hbox, hs]
    | awaiting =>
        -- a session that has not begun has no subscriptions
        have hstays : b.present c := by simp [h.present, hs]
        have hnone : Broker.share (b.subscriptions d)
            (⟨d, ⟨uuid⟩, message.body⟩ : OutboundMessage) order c = [] := by
          rw [List.eq_nil_iff_forall_not_mem]
          intro x hx
          obtain ⟨s, -, hholder, -⟩ := Broker.mem_share.mp hx
          rw [h.subscriptions] at hholder
          obtain ⟨D₁, sub, -, -, -, -, hbegun⟩ := hprov.begun_of_holder hholder
          exact hbegun hs
        rw [if_pos hstays, hnone, List.append_nil, Function.update_eq_self, hbox, hs]
        rfl
  · intro m hm
    rw [huuids]
    rcases List.mem_append.mp hm with hm | hm
    · exact List.mem_cons_of_mem _ (h.published m hm)
    · rw [List.mem_singleton.mp hm]
      exact List.mem_cons_self

/-- **A backend performs a `Subscribe`**: there is a new subscription. -/
theorem Represents.subscribe (h : w.Represents b) (hprov : Provenance w tr)
    (horigin : ∃ tr, Provenance w' tr) {d : DestinationId} {uuid : String}
    {order : List SubscriptionId} {D : InMemDestination ProxyBox} {sub : Option SubscriptionId}
    {k : ProxyBox} {q : List (DestinationAction ProxyBox)} {dos : List (DestinationObs ProxyBox)}
    (hD : w.destinations d = some D) (horder : order.Perm D.backend.subscriptions.keys)
    (hmail : D.mailbox = .listening (.subscribe sub k :: q)) (hfresh : uuid ∉ w.uuids)
    (hdest : w'.destinations = Function.update w.destinations d
      (some (InMemDestination.settle (.listening q) w.reply
        (D.backend.perform w.reply uuid order (.subscribe sub k)))))
    (hsessions : w'.sessions = fun c => (w.sessions c).receive (eventsFor c d
      (.took (.subscribe sub k) uuid :: InMemDestination.observe w.reply
        (D.backend.perform w.reply uuid order (.subscribe sub k)).2)))
    (huuids : w'.uuids = uuid :: w.uuids)
    (hos : dos = .took (.subscribe sub k) uuid :: InMemDestination.observe w.reply
      (D.backend.perform w.reply uuid order (.subscribe sub k)).2) :
    w'.Matched b (dos.map (destination d)) := by
  obtain ⟨i, rfl, -⟩ := hprov.queued_subscribe hD (Mailbox.head_mem_queue hmail)
  have hnew : b.subscriptions d ⟨uuid⟩ = none := by
    rw [h.subscriptions]
    exact hprov.holder_fresh hfresh d
  have hstep : Broker.lts.step b (.subscribe d ⟨uuid⟩ k.session i) =
      some (b.setSubscription d ⟨uuid⟩ (some (k.session, i)), _) := if_pos hnew
  refine h.table hprov horigin hD horder hmail (fun _ _ => by simp) hsessions
    (s := ⟨uuid⟩) (fun d' s' => ?_) ?_ hstep (by rw [hos]; exact broker?_performed _ _)
  · rw [holder_performed hdest s']
    simp only [InMemDestination.settle_backend,
      InMemDestinationBackend.lookup_perform_subscribe, Broker.setSubscription]
    by_cases hd : d' = d
    · subst hd
      by_cases hs : s' = ⟨uuid⟩
      · subst hs
        simp
      · simp [hs, h.subscriptions, holder_of hD]
    · simp [hd, h.subscriptions]
  · rw [huuids]
    exact List.subset_cons_self _ _

/-- **A backend performs an `Unsubscribe`**: a subscription is gone. -/
theorem Represents.unsubscribe (h : w.Represents b) (hprov : Provenance w tr)
    (horigin : ∃ tr, Provenance w' tr) {d : DestinationId} {uuid : String}
    {order : List SubscriptionId} {D : InMemDestination ProxyBox} {s : SubscriptionId}
    {k : ProxyBox} {q : List (DestinationAction ProxyBox)} {dos : List (DestinationObs ProxyBox)}
    (hD : w.destinations d = some D) (horder : order.Perm D.backend.subscriptions.keys)
    (hmail : D.mailbox = .listening (.unsubscribe s k :: q))
    (hdest : w'.destinations = Function.update w.destinations d
      (some (InMemDestination.settle (.listening q) w.reply
        (D.backend.perform w.reply uuid order (.unsubscribe s k)))))
    (hsessions : w'.sessions = fun c => (w.sessions c).receive (eventsFor c d
      (.took (.unsubscribe s k) uuid :: InMemDestination.observe w.reply
        (D.backend.perform w.reply uuid order (.unsubscribe s k)).2)))
    (huuids : w'.uuids = uuid :: w.uuids)
    (hos : dos = .took (.unsubscribe s k) uuid :: InMemDestination.observe w.reply
      (D.backend.perform w.reply uuid order (.unsubscribe s k)).2) :
    w'.Matched b (dos.map (destination d)) := by
  have hstep : Broker.lts.step b (.unsubscribe d s) =
      some (b.setSubscription d s none, _) := rfl
  refine h.table hprov horigin hD horder hmail (fun _ _ => by simp) hsessions
    (s := s) (fun d' s' => ?_) ?_ hstep (by rw [hos]; exact broker?_performed _ _)
  · rw [holder_performed hdest s']
    simp only [InMemDestination.settle_backend,
      InMemDestinationBackend.lookup_perform_unsubscribe, Broker.setSubscription]
    by_cases hd : d' = d
    · subst hd
      by_cases hs : s' = s
      · subst hs
        simp
      · simp [hs, h.subscriptions, holder_of hD]
    · simp [hd, h.subscriptions]
  · rw [huuids]
    exact List.subset_cons_self _ _

/-- **The broker can follow every step.** -/
theorem Represents.step (h : w.Represents b) (hturn : Turn p w l w' os) : w'.Matched b os := by
  obtain ⟨tr, hprov⟩ := h.origin
  have horigin : ∃ tr, Provenance w' tr := ⟨tr ++ os, hprov.step hturn⟩
  cases hturn with
  | session hsturn hinput hcall =>
      exact h.move horigin hsturn hinput rfl (fun _ _ => rfl) rfl rfl
  | spawned hsturn hinput hcall =>
      refine h.move horigin hsturn hinput rfl (fun _ _ => rfl) rfl ?_
      rw [List.filterMap_append]
      exact List.append_nil _
  | @unknown _ _ _ _ call _ _ hsturn hinput hcall haction hdest =>
      refine h.move horigin hsturn hinput rfl (fun _ _ => rfl) rfl ?_
      rw [List.filterMap_append]
      cases call <;> exact List.append_nil _
  | @enqueued _ _ _ _ _ d a D m hsturn hinput hcall haction hdest hsend =>
      refine h.move horigin hsturn hinput rfl (fun d' s => ?_) rfl ?_
      · exact holder_mailbox hdest rfl d' s
      · rw [List.filterMap_append]
        exact List.append_nil _
  | @refused _ _ _ _ _ d a D os' hsturn hinput hcall haction hdest hgone hos =>
      refine h.move horigin hsturn hinput rfl (fun _ _ => rfl) rfl ?_
      rw [List.filterMap_append, List.filterMap_cons, hos, broker?_refusal]
      exact List.append_nil _
  | @created d htask hdest =>
      refine h.still horigin (fun d' s => ?_) (fun _ => Iff.rfl) (fun _ _ => rfl)
        (List.Subset.refl _) rfl
      by_cases hd : d' = d
      · subst hd
        simp [holder, setDestination, hdest, InMemDestination.create]
      · simp [holder, setDestination, Function.update_of_ne hd]
  | @subscribed t D m htask hfind hdest hsend =>
      refine h.still horigin (fun d' s => ?_) (fun _ => Iff.rfl) (fun _ _ => rfl)
        (List.Subset.refl _) rfl
      exact holder_mailbox hdest rfl d' s
  | @subscribeRefused t D os htask hfind hdest hgone hos =>
      have hsends := (Turn.subscribeRefused (p := p) os htask hfind hdest hgone hos).sends hprov
      refine h.still horigin (fun _ _ => rfl) (fun c => Session.receive_eq_ended) (fun c d => ?_)
        (List.Subset.refl _) ?_
      · have hnone := (hsends c).no_message (fun _ _ _ _ _ _ _ hl => by cases hl) d
        rw [Session.waiting_receive]
        simp only [eventsFor, hnone, ite_self, List.append_nil]
      · rw [hos]
        exact broker?_refusal D _ _
  | @closed d uuid order D q hdest hfresh hmail =>
      refine h.still horigin (fun d' s => ?_) (fun _ => Iff.rfl) (fun _ _ => rfl)
        (List.subset_cons_self _ _) rfl
      exact holder_mailbox hdest rfl d' s
  | @performed d uuid order D a q os hdest hfresh horder hmail hclose hos =>
      cases a with
      | subscribe sub k =>
          exact h.subscribe hprov horigin hdest horder hmail hfresh rfl (by rw [hos]) rfl hos
      | unsubscribe s k =>
          exact h.unsubscribe hprov horigin hdest horder hmail rfl (by rw [hos]) rfl hos
      | send message k =>
          refine h.send hprov horigin hdest horder hfresh rfl
            (InMemDestination.settle_backend _ _ _) (by rw [hos]) rfl ?_
          rw [hos]
          exact broker?_performed _ _
      | close => exact absurd rfl hclose
  | @finished d D q hdest hmail =>
      refine h.still horigin (fun d' s => ?_) (fun _ => Iff.rfl) (fun _ _ => rfl)
        (List.Subset.refl _) rfl
      exact holder_mailbox hdest rfl d' s
  | @close d D m hdest hsend =>
      refine h.still horigin (fun d' s => ?_) (fun _ => Iff.rfl) (fun _ _ => rfl)
        (List.Subset.refl _) rfl
      exact holder_mailbox hdest rfl d' s
  | closeRefused hdest hgone =>
      exact h.still horigin (fun _ _ => rfl) (fun _ => Iff.rfl) (fun _ _ => rfl)
        (List.Subset.refl _) rfl

/-- At the start there is an idle broker. -/
theorem represents_initial : initial.Represents Broker.initial where
  origin := ⟨[], provenance (p := sampleParams []) (C := LTS.Free) (LTS.Run.refl initial)⟩
  subscriptions _ _ := rfl
  present c := by simp [initial, Broker.initial]
  outbox _ _ := rfl
  published m hm := by simp [Broker.initial] at hm

/-- The broker can follow every run. -/
theorem represents_run {C : World → Label → Prop} {ls : List Label}
    (h : (lts p).Run C initial ls tr w) : ∃ bls b,
      Broker.lts.Run LTS.Free Broker.initial bls (tr.filterMap broker?) b ∧ w.Represents b :=
  LTS.Run.simulate (N := Broker.lts) (E := LTS.Free) (R := Represents) (f := broker?)
    (fun hR _ hstep => hR.step (turn_of_step hstep)) represents_initial h

/-- **The system is a broker.**  For every run there is a run of a broker in which the same
subscriptions are made and ended, the same messages are published in the same order, and every
client is handed the same messages; and where it ends, the broker has the subscriptions that the
backends have, and the messages that wait are in its outboxes. -/
theorem refines_broker {ls : List Label} (hrun : (lts p).Run LTS.Free initial ls tr w) :
    ∃ bls b, Broker.lts.Run LTS.Free Broker.initial bls (tr.filterMap broker?) b ∧
      w.Represents b :=
  represents_run hrun

/-- The theorem applied to a client that subscribes and is handed its own message. -/
theorem refines_broker_subscribed :
    let p := sampleParams []
    let ls := Label.subscribed ++ [.frame 0 sampleSend,
      .backend sampleDestination "uuid-1" [⟨"uuid-0"⟩], .own 0]
    ∃ tr w bls b, (lts p).Run LTS.Free initial ls tr w ∧ tr.filterMap broker? =
        [.subscribed sampleDestination ⟨"uuid-0"⟩ 0 ⟨"sub-0"⟩,
          .published sampleDestination ⟨sampleDestination, ⟨"uuid-1"⟩, ascii "hello"⟩,
          .handed 0 ⟨sampleDestination, ⟨"sub-0"⟩,
            ⟨sampleDestination, ⟨"uuid-1"⟩, ascii "hello"⟩⟩] ∧
      Broker.lts.Run LTS.Free Broker.initial bls (tr.filterMap broker?) b := by
  intro p ls
  have hrun := LTS.Run.exec_get (lts p) LTS.Free initial ls (by decide)
  obtain ⟨bls, b, hbroker, -⟩ := refines_broker hrun
  exact ⟨_, _, bls, b, hrun, by decide, hbroker⟩

/-! ## What clients see -/

/-- The ids of the messages of `d` in the MESSAGE frames that the session `c` has output. -/
def deliveredAt (c : SessionId) (d : DestinationId) (tr : List Obs) : List String :=
  ((messageFrames c tr).filter fun frame => frame.destination = d.str).map (·.messageId)

/-- They are what the client was handed. -/
theorem deliveredAt_eq (c : SessionId) (d : DestinationId) (tr : List Obs) :
    deliveredAt c d tr = ((Broker.handedAt c d (tr.filterMap broker?)).map Prod.snd).map
      (·.messageId.str) := by
  induction tr with
  | nil => rfl
  | cons o tr ih =>
      have hcons : deliveredAt c d (o :: tr) = deliveredAt c d [o] ++ deliveredAt c d tr := by
        rw [deliveredAt, ← List.singleton_append, messageFrames_append, List.filter_append,
          List.map_append]
        rfl
      have hone : deliveredAt c d [o] = ((Broker.handedAt c d ([o].filterMap broker?)).map
          Prod.snd).map (·.messageId.str) := by
        cases o with
        | session c' o' =>
            have hbroker := broker?_map_session c' [o']
            rw [List.map_singleton] at hbroker
            rw [hbroker]
            by_cases hc : c' = c
            · subst hc
              cases hframe : o'.messageFrame? with
              | none => simp [deliveredAt, messageFrames, atSession, ofSession?, hframe,
                  Broker.handedAt]
              | some frame =>
                  by_cases hd : frame.destination = d.str
                  · simp [deliveredAt, messageFrames, atSession, ofSession?, hframe,
                      Broker.handedAt, BrokerObs.handedAt?, MessageFrame.delivery, hd]
                  · have hd' : (⟨frame.destination⟩ : DestinationId) ≠ d := by
                      rintro rfl
                      exact hd rfl
                    simp [deliveredAt, messageFrames, atSession, ofSession?, hframe,
                      Broker.handedAt, BrokerObs.handedAt?, MessageFrame.delivery, hd, hd']
            · cases hframe : o'.messageFrame? <;> simp [deliveredAt, messageFrames, atSession,
                ofSession?, hframe, Broker.handedAt, BrokerObs.handedAt?, hc]
        | destination d' o' =>
            have hnone : Broker.handedAt c d ([destination d' o'].filterMap broker?) = [] := by
              rw [List.filterMap_cons]
              cases o' with
              | took a uuid =>
                  cases a with
                  | subscribe sub k => cases sub <;> rfl
                  | _ => rfl
              | _ => rfl
            rw [hnone]
            rfl
        | _ => rfl
      have hbroker : (o :: tr).filterMap broker?
          = [o].filterMap broker? ++ tr.filterMap broker? := by
        rw [← List.filterMap_append]
        rfl
      rw [hcons, hone, ih, hbroker, Broker.handedAt_append, List.map_append, List.map_append]

/-- Messages that were published under one id are the same. -/
theorem Provenance.published_unique (hprov : Provenance w tr) {m m' : OutboundMessage}
    {d : DestinationId} (hm : m ∈ Broker.publishedAt d (tr.filterMap broker?))
    (hm' : m' ∈ Broker.publishedAt d (tr.filterMap broker?))
    (hid : m.messageId.str = m'.messageId.str) : m = m' := by
  -- a published message was taken under its id
  have htaken : ∀ {m}, m ∈ Broker.publishedAt d (tr.filterMap broker?) → ∃ message k,
      destination d (.took (.send message k) m.messageId.str) ∈ tr ∧
        m = ⟨d, m.messageId, message.body⟩ := by
    intro m hm
    obtain ⟨bo, hbo, hpub⟩ := List.mem_filterMap.mp hm
    obtain ⟨o, ho, hbroker⟩ := List.mem_filterMap.mp hbo
    unfold broker? at hbroker
    split at hbroker
    · obtain ⟨frame, -, rfl⟩ := Option.map_eq_some_iff.mp hbroker
      cases hpub
    · obtain rfl := Option.some.inj hbroker
      cases hpub
    · obtain rfl := Option.some.inj hbroker
      cases hpub
    · obtain rfl := Option.some.inj hbroker
      obtain ⟨rfl, heq⟩ := Option.ite_none_right_eq_some.mp hpub
      obtain rfl := Option.some.inj heq
      exact ⟨_, _, ho, rfl⟩
    · cases hbroker
  obtain ⟨message, k, htook, heq⟩ := htaken hm
  obtain ⟨message', k', htook', heq'⟩ := htaken hm'
  rw [← hid] at htook'
  obtain ⟨-, hsame⟩ := hprov.once _ _ _ _ _ htook htook'
  obtain ⟨rfl, -⟩ := DestinationAction.send.inj hsame
  rw [heq, heq', show m.messageId = m'.messageId from congrArg MessageId.mk hid]

/-- The subscriptions that a client makes are those that were created for its boxes. -/
theorem length_subscribedAt_le (c : SessionId) (d : DestinationId) (tr : List Obs) :
    (Broker.subscribedAt c d (tr.filterMap broker?)).length ≤ (subscribedBy c d tr).length := by
  induction tr with
  | nil => exact Nat.le_refl 0
  | cons o tr ih =>
      have hbroker : (o :: tr).filterMap broker?
          = [o].filterMap broker? ++ tr.filterMap broker? := by
        rw [← List.filterMap_append]
        rfl
      have hcons : subscribedBy c d (o :: tr) = subscribedBy c d [o] ++ subscribedBy c d tr := by
        rw [subscribedBy, ← List.singleton_append, takenAt_append, List.filterMap_append,
          List.filter_append]
        rfl
      have hone : (Broker.subscribedAt c d ([o].filterMap broker?)).length
          ≤ (subscribedBy c d [o]).length := by
        unfold Broker.subscribedAt
        rw [List.filterMap_filterMap]
        cases o with
        | session c' o' => cases hframe : o'.messageFrame? <;> simp [broker?, hframe,
            BrokerObs.subscribedAt?]
        | destination d' o' =>
            cases o' with
            | took a uuid =>
                cases a with
                | subscribe sub k =>
                    cases sub with
                    | none => simp [broker?]
                    | some i =>
                        by_cases hd : d' = d
                        · by_cases hc : k.session = c
                          · simp [broker?, BrokerObs.subscribedAt?, subscribedBy, takenAt,
                              atDestination, ofDestination?, DestinationObs.taken?,
                              DestinationAction.subscriber?, hd, hc]
                          · simp [broker?, BrokerObs.subscribedAt?, hc]
                        · simp [broker?, BrokerObs.subscribedAt?, hd]
                | _ => exact Nat.zero_le _
            | _ => simp [broker?]
        | _ => simp [broker?]
      rw [hbroker, hcons, Broker.subscribedAt_append, List.length_append, List.length_append]
      omega

/-- **Two clients never see two messages of a destination in different orders.**  In every run,
if the MESSAGE frames of one session bring the message `m` before the message `m'` of the same
destination, then no session gets `m'` before `m`: not another one, and not this one under
another subscription. -/
theorem same_order {ls : List Label} (hrun : (lts p).Run LTS.Free initial ls tr w)
    (c c' : SessionId) (d : DestinationId) {m m' : String} (hne : m ≠ m')
    (hseen : [m, m'].Sublist (deliveredAt c d tr)) :
    ¬ [m', m].Sublist (deliveredAt c' d tr) := by
  obtain ⟨bls, b, hbroker, -⟩ := represents_run hrun
  have haccount := Broker.account hbroker
  have hprov := provenance hrun
  -- both are subsequences of what was handed over, under the ids
  have hpair : ∀ {c x y}, [x, y].Sublist (deliveredAt c d tr) → ∃ x' y' : OutboundMessage,
      [x', y'].Sublist ((Broker.handedAt c d (tr.filterMap broker?)).map Prod.snd) ∧
        x'.messageId.str = x ∧ y'.messageId.str = y := by
    intro c x y hxy
    rw [deliveredAt_eq, List.sublist_map_iff] at hxy
    obtain ⟨l, hl, heq⟩ := hxy
    rcases l with _ | ⟨x', _ | ⟨y', _ | ⟨z, l⟩⟩⟩ <;> simp at heq
    exact ⟨x', y', hl, heq.1.symm, heq.2.symm⟩
  obtain ⟨x, y, hxy, rfl, rfl⟩ := hpair hseen
  intro hseen'
  obtain ⟨y', x', hyx, hy, hx⟩ := hpair hseen'
  have hmem := hxy.subset
  have hmem' := hyx.subset
  obtain rfl := hprov.published_unique (haccount.handed_published (hmem' (by simp)))
    (haccount.handed_published (hmem (by simp))) hx
  obtain rfl := hprov.published_unique (haccount.handed_published (hmem' (by simp)))
    (haccount.handed_published (hmem (by simp))) hy
  have hne' : x' ≠ y' := by
    rintro rfl
    exact hne rfl
  exact List.Follows.agree (haccount.once d) (haccount.handed_follows c d)
    (haccount.handed_follows c' d) hne' hxy hyx

/-- **A message reaches a client at most once for each of its SUBSCRIBE frames** to the
destination, whatever ids these frames had and whatever became of the subscriptions. -/
theorem at_most_once {ls : List Label} (hrun : (lts p).Run LTS.Free initial ls tr w)
    (c : SessionId) (d : DestinationId) (m : String) :
    (deliveredAt c d tr).count m ≤ (subscribeFrames c tr).countP fun frame => frame.1 = d := by
  obtain ⟨bls, b, hbroker, -⟩ := represents_run hrun
  have haccount := Broker.account hbroker
  have hprov := provenance hrun
  refine Nat.le_trans ?_ ((length_subscribedAt_le c d tr).trans (length_subscribedBy_le hrun c d))
  by_cases hm : m ∈ deliveredAt c d tr
  · rw [deliveredAt_eq] at hm ⊢
    obtain ⟨x, hx, rfl⟩ := List.mem_map.mp hm
    refine Nat.le_trans (Nat.le_of_eq ?_) (haccount.handed_count_le c d x)
    -- messages under one id are one message
    rw [List.count_eq_countP, List.count_eq_countP, List.countP_map]
    refine List.countP_congr fun y hy => ?_
    simp only [Function.comp_apply, beq_iff_eq]
    constructor
    · exact fun hid => hprov.published_unique (haccount.handed_published hy)
        (haccount.handed_published hx) hid
    · rintro rfl
      rfl
  · rw [List.count_eq_zero_of_not_mem hm]
    exact Nat.zero_le _

/-- Two clients have subscribed, and the first has sent two messages. -/
def twoMessages : List Label :=
  Label.subscribed ++ [.connects 1, .frame 1 sampleSubscribe, .subscribe 1,
    .backend sampleDestination "uuid-1" [⟨"uuid-0"⟩], .own 1, .frame 0 sampleSend,
    .frame 0 sampleSend, .backend sampleDestination "uuid-2" [⟨"uuid-1"⟩, ⟨"uuid-0"⟩],
    .backend sampleDestination "uuid-3" [⟨"uuid-0"⟩, ⟨"uuid-1"⟩], .own 0, .own 1, .own 1, .own 0]

/-- The theorem applied to two clients that get two messages. -/
theorem same_order_two :
    let p := sampleParams []
    ∃ tr w, (lts p).Run LTS.Free initial twoMessages tr w ∧
      ["uuid-2", "uuid-3"].Sublist (deliveredAt 0 sampleDestination tr) ∧
      ¬ ["uuid-3", "uuid-2"].Sublist (deliveredAt 1 sampleDestination tr) := by
  intro p
  have hrun := LTS.Run.exec_get (lts p) LTS.Free initial twoMessages (by decide)
  have hseen : ["uuid-2", "uuid-3"].Sublist (deliveredAt 0 sampleDestination
      (((lts p).exec LTS.Free initial twoMessages).get (by decide)).2) := by decide
  exact ⟨_, _, hrun, hseen, same_order hrun 0 1 sampleDestination (by decide) hseen⟩

/-- The theorem applied to the second of two clients. -/
theorem at_most_once_two :
    let p := sampleParams []
    ∃ tr w, (lts p).Run LTS.Free initial twoMessages tr w ∧
      (deliveredAt 1 sampleDestination tr).count "uuid-3"
        ≤ (subscribeFrames 1 tr).countP fun frame => frame.1 = sampleDestination := by
  intro p
  have hrun := LTS.Run.exec_get (lts p) LTS.Free initial twoMessages (by decide)
  exact ⟨_, _, hrun, at_most_once hrun 1 sampleDestination "uuid-3"⟩

end World
