/-
# What destinations send to a session

A destination talks to a session only through the session's channel.  Three things are
shown of every run:

* what one step sends (`Turn.sends`): an answer to a subscribe call, an answer to an
  unsubscribe call, or one message for each of the session's subscriptions;
* what was sent is handled in order, and the rest waits (`Channel.tracks`);
* the session's table is what the events handled so far make of it (`Channel.table`).
-/
import LittleStomper.Provenance

open Obs ClientEvent

/-- The event handled in an observation. -/
def SessionObs.handled? : SessionObs → Option ClientEvent
  | .handled e => some e
  | _ => none

namespace Session

/-- Handling an event is observed once. -/
theorem Handles.handled {p : Params} {s : ClientSession} {resetFails : Bool} {e : ClientEvent}
    {s' : Session} {os : List SessionObs} (h : Handles p s resetFails e s' os) :
    os.filterMap SessionObs.handled? = [e] := by
  have hbegun : (begun s e).filterMap SessionObs.handled? = [e] := by
    rw [begun]
    cases e.timer? <;> cases e.call? s.activeSubscriptionsByClientId <;> rfl
  cases h with
  | stuck hpanic => cases e <;> rfl
  | callPanics hpanic hcall =>
      rw [List.filterMap_append, hbegun]
      rfl
  | ends hpanic hends => exact hbegun
  | goesOn hpanic hends =>
      rw [List.filterMap_append, hbegun]
      cases s.message? p e <;> rfl

/-- A session that goes on has updated its table. -/
theorem Handles.table {p : Params} {s : ClientSession} {resetFails : Bool} {e : ClientEvent}
    {r : ClientSession} {os : List SessionObs} (h : Handles p s resetFails e (running r) os) :
    r.activeSubscriptionsByClientId = e.tableAfter s.activeSubscriptionsByClientId ∧
      ∃ own, r.events = s.events ++ own ∧ ∀ e' ∈ own, e'.fromSubscriber = false := by
  cases h with
  | goesOn hpanic hends =>
      refine ⟨rfl, _, rfl, ?_⟩
      split_ifs <;> simp [fromSubscriber]

/-- A session that handles an event other than `Connected` runs. -/
theorem Turn.handles_of_handled {p : Params} {s s' : Session} {input : SessionInput}
    {os : List SessionObs} (h : Turn p s input s' os) {e : ClientEvent}
    (hhandled : .handled e ∈ os) (hconnected : ∀ i, e ≠ .connected i) :
    ∃ r r₀ resetFails, s = running r ∧
      r₀.activeSubscriptionsByClientId = r.activeSubscriptionsByClientId ∧
      Handles p r₀ resetFails e s' os := by
  cases s with
  | awaiting =>
      cases h with
      | connected hfirst hnew =>
          obtain rfl : e = _ := by simpa using hhandled
          exact absurd rfl (hconnected _)
      | _ => simp at hhandled
  | running r =>
      rcases h.running_cases with ⟨e', r₀, resetFails, -, htable, -, hhandles, -⟩ | ⟨-, rfl, -⟩
      · have hin : e ∈ os.filterMap SessionObs.handled? :=
          List.mem_filterMap.mpr ⟨_, hhandled, rfl⟩
        rw [hhandles.handled, List.mem_singleton] at hin
        subst hin
        exact ⟨r, r₀, resetFails, rfl, htable, hhandles⟩
      · cases hhandled
  | ended => cases h

/-- The session's channel, seen by the destinations. -/
def channel : Session → Mailbox ClientEvent
  | awaiting => .listening []
  | running s => .listening (s.events.filter fromSubscriber)
  | ended => .finished

end Session

namespace Obs

/-- The events that the session `c` has handled. -/
def handledBy (c : SessionId) (tr : List Obs) : List ClientEvent :=
  (atSession c tr).filterMap SessionObs.handled?

/-- Those among them that destinations have sent. -/
def received (c : SessionId) (tr : List Obs) : List ClientEvent :=
  (handledBy c tr).filter fromSubscriber

@[simp] theorem handledBy_append (c : SessionId) (tr os : List Obs) :
    handledBy c (tr ++ os) = handledBy c tr ++ handledBy c os := by
  simp [handledBy]

@[simp] theorem handledBy_map_destination (c : SessionId) (d : DestinationId)
    (os : List (DestinationObs ProxyBox)) : handledBy c (os.map (destination d)) = [] := by
  simp [handledBy]

@[simp] theorem received_append (c : SessionId) (tr os : List Obs) :
    received c (tr ++ os) = received c tr ++ received c os := by
  simp [received]

/-- An event is handled. -/
theorem mem_handledBy {c : SessionId} {e : ClientEvent} {tr : List Obs} :
    e ∈ handledBy c tr ↔ session c (.handled e) ∈ tr := by
  rw [handledBy, List.mem_filterMap, ← mem_atSession]
  constructor
  · rintro ⟨o, ho, heq⟩
    cases o with
    | handled e' => exact Option.some.inj heq ▸ ho
    | _ => cases heq
  · exact fun h => ⟨_, h, rfl⟩

end Obs

namespace World

variable {p : Params} {w w' : World} {l : Label} {tr os : List Obs} {c : SessionId}

/-! ## What one step handles -/

/-- **A session that handles an event** other than `Connected` runs, and handles it with the
table it has. -/
theorem Turn.handles_of_handled (h : Turn p w l w' os) {e : ClientEvent}
    (hhandled : Obs.session c (.handled e) ∈ os) (hconnected : ∀ i, e ≠ .connected i) :
    ∃ r r₀ resetFails, w.sessions c = .running r ∧
      r₀.activeSubscriptionsByClientId = r.activeSubscriptionsByClientId ∧
      Session.Handles p r₀ resetFails e (w'.sessions c) (Obs.atSession c os) := by
  rw [← mem_atSession] at hhandled
  rcases h.atSession c with ⟨input, -, hturn, -, -⟩ | ⟨hos, -, -⟩
  · exact hturn.handles_of_handled hhandled hconnected
  · rw [hos] at hhandled
    cases hhandled

/-! ## What one step sends -/

/-- The messages that the subscriptions of the session `c` are sent with a `Send`. -/
def messagesFor (c : SessionId) (m : OutboundMessage) (subs : List (Subscription ProxyBox)) :
    List ClientEvent :=
  subs.filterMap fun sub => if sub.sendFn.session = c
    then sub.subscriberSubId.map fun i => .serverMessage i m else none

/-- **What a step can send to the session `c`.** -/
inductive Sends (w : World) (c : SessionId) (l : Label) : List ClientEvent → Prop
  | nothing : Sends w c l []
  /-- A task finds a destination without a receiver. -/
  | refused {t : SubscribeTask} {i : SubscriptionId} {D : InMemDestination ProxyBox}
      (hl : l = .subscribe t.subscriber.box) (htask : t ∈ w.tasks)
      (hc : t.subscriber.session = c) (hi : t.subscriberSubId = some i)
      (hdest : w.destinations t.destination = some D) (hgone : D.mailbox.isGone = true) :
      Sends w c l [.subscribed t.destination i (.error ⟨"Subscribe failed"⟩)]
  /-- A backend creates a subscription. -/
  | subscribed {d : DestinationId} {uuid : String} {order : List SubscriptionId}
      {D : InMemDestination ProxyBox} {i : SubscriptionId} {k : ProxyBox}
      {q : List (DestinationAction ProxyBox)} (hl : l = .backend d uuid order)
      (hdest : w.destinations d = some D)
      (hmail : D.mailbox = .listening (.subscribe (some i) k :: q)) (hc : k.session = c) :
      Sends w c l [.subscribed d i (.ok ⟨uuid⟩)]
  /-- A backend removes a subscription. -/
  | unsubscribed {d : DestinationId} {uuid : String} {order : List SubscriptionId}
      {D : InMemDestination ProxyBox} {s i : SubscriptionId} {k : ProxyBox}
      {sub : Subscription ProxyBox} {q : List (DestinationAction ProxyBox)}
      (hl : l = .backend d uuid order) (hdest : w.destinations d = some D)
      (hmail : D.mailbox = .listening (.unsubscribe s k :: q)) (hc : k.session = c)
      (hs : D.backend.subscriptions.lookup s = some sub) (hi : sub.subscriberSubId = some i) :
      Sends w c l [.unsubscribed i (.ok s)]
  /-- A backend passes a message on. -/
  | messages {d : DestinationId} {uuid : String} {order : List SubscriptionId}
      {D : InMemDestination ProxyBox} {message : InboundMessage} {k : ProxyBox}
      {q : List (DestinationAction ProxyBox)} (hl : l = .backend d uuid order)
      (hdest : w.destinations d = some D) (horder : order.Perm D.backend.subscriptions.keys)
      (hmail : D.mailbox = .listening (.send message k :: q)) :
      Sends w c l (messagesFor c (D.backend.outMessage uuid message) (D.backend.values order))

/-- Calls of `send` send one message each. -/
theorem eventsFor_sends (c : SessionId) (d : DestinationId) (answers : Answers ProxyBox)
    (m : OutboundMessage) (subs : List (Subscription ProxyBox)) :
    eventsFor c d (InMemDestination.observe answers (subs.map (·.send m)))
      = messagesFor c m subs := by
  rw [eventsFor, sentTo, InMemDestination.observe, List.map_map, List.map_map,
    List.filterMap_map]
  rfl

/-- The events sent by the calls of some observations, one after the other. -/
theorem eventsFor_append (c : SessionId) (d : DestinationId)
    (os os' : List (DestinationObs ProxyBox)) :
    eventsFor c d (os ++ os') = eventsFor c d os ++ eventsFor c d os' := by
  rw [eventsFor, List.map_append, sentTo_append]
  rfl

/-- **What performing an action sends.** -/
theorem Provenance.sends_performed (hprov : Provenance w tr) {d : DestinationId} {uuid : String}
    {order : List SubscriptionId} {D : InMemDestination ProxyBox}
    {a : DestinationAction ProxyBox} {q : List (DestinationAction ProxyBox)}
    (hdest : w.destinations d = some D) (horder : order.Perm D.backend.subscriptions.keys)
    (hmail : D.mailbox = .listening (a :: q)) :
    Sends w c (.backend d uuid order) (eventsFor c d (.took a uuid
      :: InMemDestination.observe w.reply (D.backend.perform w.reply uuid order a).2)) := by
  have hhead := Mailbox.head_mem_queue hmail
  have hsends : ∀ i ∈ D.backend.sends uuid order a, w.reply i ≠ .panic := by
    intro i hi
    obtain ⟨message, k, s, sub, -, hs, rfl⟩ :=
      (InMemDestinationBackend.mem_sends _ _ _ horder).mp hi
    exact hprov.send_ne_panic hdest hs _
  have hone : ∀ i : Invocation ProxyBox, eventsFor c d [.invoked i (w.reply i)]
      = if i.target.session = c then (event? i).toList else [] := by
    intro i
    simp only [eventsFor, sentTo, List.map_cons, List.map_nil, List.filterMap_cons,
      List.filterMap_nil, sent?]
    split_ifs
    · cases event? i <;> rfl
    · rfl
  show Sends w c _ (eventsFor c d (InMemDestination.observe _ _))
  rw [InMemDestinationBackend.perform_snd _ _ _ _ _ hsends]
  cases a with
  | subscribe sub k =>
      obtain ⟨i, rfl, -⟩ := hprov.queued_subscribe hdest hhead
      show Sends w c _ (eventsFor c d [.invoked (.subscribeCallback k _ (some i) _) _])
      rw [hone, hprov.ident d D hdest]
      split_ifs with hc
      · exact Sends.subscribed rfl hdest hmail hc
      · exact Sends.nothing
  | unsubscribe s k =>
      show Sends w c _ (eventsFor c d [.invoked (.unsubscribeCallback k _ _) _])
      rw [hone]
      split_ifs with hc
      · cases hs : D.backend.subscriptions.lookup s with
        | none => exact Sends.nothing
        | some sub =>
            obtain ⟨i, hi⟩ := Option.isSome_iff_exists.mp (hprov.subId hdest hs)
            simp only [Option.bind_some, hi]
            exact Sends.unsubscribed rfl hdest hmail hc hs hi
      · exact Sends.nothing
  | send message k =>
      have hanswer : eventsFor c d (InMemDestination.observe w.reply
          (D.backend.answer uuid (.send message k)).toList) = [] := by
        show eventsFor c d [.invoked (.sendCallback k _ _) _] = []
        rw [hone]
        exact ite_self _
      rw [InMemDestination.observe, List.map_append, eventsFor_append]
      rw [InMemDestination.observe] at hanswer
      rw [hanswer, List.append_nil]
      have hmessages := eventsFor_sends c d w.reply (D.backend.outMessage uuid message)
        (D.backend.values order)
      rw [InMemDestination.observe] at hmessages
      rw [InMemDestinationBackend.sends, hmessages]
      exact Sends.messages rfl hdest horder hmail
  | close => exact Sends.nothing

/-- **What a step sends.** -/
theorem Turn.sends (h : Turn p w l w' os) (hprov : Provenance w tr) (c : SessionId) :
    Sends w c l (sentTo c os) := by
  have hsilent : ∀ {c' : SessionId} {sos : List SessionObs} {rest : List Obs},
      os = sos.map (.session c') ++ rest → sentTo c rest = [] → Sends w c l (sentTo c os) := by
    intro c' sos rest hos hrest
    rw [hos, sentTo_append, sentTo_map_session, hrest]
    exact Sends.nothing
  cases h with
  | session hturn hinput hcall => exact hsilent (List.append_nil _).symm rfl
  | spawned hturn hinput hcall => exact hsilent rfl rfl
  | @unknown _ _ _ _ call _ _ hturn hinput hcall haction hdest =>
      exact hsilent rfl (by cases call <;> rfl)
  | enqueued hturn hinput hcall haction hdest hsend => exact hsilent rfl rfl
  | @refused _ _ _ _ _ d _ _ os' hturn hinput hcall haction hdest hgone hos =>
      refine hsilent rfl ?_
      show eventsFor c d os' = []
      rw [hos]
      exact eventsFor_refusal (ne_subscribe_of_actionOf haction).1 c d
  | @subscribeRefused t D os htask hfind hdest hgone hos =>
      obtain ⟨i, hi⟩ : ∃ i, t.subscriberSubId = some i :=
        hprov.named _ _ _ (hprov.toCalls.task t htask)
      rw [hos, sentTo_map_destination, hi]
      by_cases hc : t.subscriber.session = c
      · have hevents : eventsFor c t.destination (w.refusal D (.subscribe (some i) t.subscriber))
            = [.subscribed t.destination i (.error ⟨"Subscribe failed"⟩)] := by
          rw [← hprov.ident t.destination D hdest]
          simp [eventsFor, refusal, InMemDestination.failure, InMemDestination.observe, sentTo,
            List.filterMap_cons, sent?, event?, Invocation.target, hc]
        rw [hevents]
        exact Sends.refused rfl htask hc hi hdest hgone
      · have hevents : eventsFor c t.destination (w.refusal D (.subscribe (some i) t.subscriber))
            = [] := by
          simp [eventsFor, refusal, InMemDestination.failure, InMemDestination.observe, sentTo,
            List.filterMap_cons, sent?, Invocation.target, hc]
        rw [hevents]
        exact Sends.nothing
  | @performed d uuid order D a q os hdest fresh horder hmail hclose hos =>
      rw [hos, sentTo_map_destination]
      exact hprov.sends_performed hdest horder hmail
  | _ => exact Sends.nothing

/-- Only events of a `Subscriber` are sent. -/
theorem Sends.fromSubscriber {es : List ClientEvent} (h : Sends w c l es) :
    ∀ e ∈ es, e.fromSubscriber = true := by
  cases h with
  | nothing => simp
  | messages hl hdest horder hmail =>
      intro e he
      obtain ⟨sub, -, heq⟩ := List.mem_filterMap.mp he
      rw [Option.ite_none_right_eq_some, Option.map_eq_some_iff] at heq
      obtain ⟨-, i, -, rfl⟩ := heq
      rfl
  | _ => simp [ClientEvent.fromSubscriber]

/-- Nothing is sent to a session that waits for its first item. -/
theorem Sends.eq_nil_of_awaiting {es : List ClientEvent} (h : Sends w c l es)
    (hprov : Provenance w tr) (hc : w.sessions c = .awaiting) : es = [] := by
  have hno : ∀ k call, k.session = c → dispatched k call ∉ tr := by
    rintro k call rfl hk
    exact hprov.begun k call hk hc
  cases h with
  | nothing => rfl
  | refused hl htask hsession hi hdest hgone =>
      exact absurd (hprov.task _ htask) (hno _ _ hsession)
  | subscribed hl hdest hmail hsession =>
      exact absurd (hprov.head hdest hmail) (hno _ _ hsession)
  | unsubscribed hl hdest hmail hsession hs hi =>
      exact absurd (hprov.head hdest hmail) (hno _ _ hsession)
  | @messages d uuid order D message k q hl hdest horder hmail =>
      rw [messagesFor, List.filterMap_eq_nil_iff]
      intro sub hsub
      obtain ⟨s, hs⟩ := (InMemDestinationBackend.mem_values _ horder).mp hsub
      obtain ⟨i, -, -, hcreated⟩ := hprov.held d D s sub hdest hs
      have hissued : dispatched sub.sendFn (.subscribe d (some i)) ∈ tr :=
        hprov.taken _ _ _ hcreated
      exact if_neg fun hsession => hno _ _ hsession hissued

/-- The messages of a `Send` are for subscriptions held. -/
theorem mem_messagesFor {m : OutboundMessage} {subs : List (Subscription ProxyBox)}
    {e : ClientEvent} : e ∈ messagesFor c m subs ↔ ∃ sub i, sub ∈ subs ∧
      sub.sendFn.session = c ∧ sub.subscriberSubId = some i ∧ e = .serverMessage i m := by
  rw [messagesFor, List.mem_filterMap]
  constructor
  · rintro ⟨sub, hsub, heq⟩
    rw [Option.ite_none_right_eq_some, Option.map_eq_some_iff] at heq
    obtain ⟨hc, i, hi, rfl⟩ := heq
    exact ⟨sub, i, hsub, hc, hi, rfl⟩
  · rintro ⟨sub, i, hsub, hc, hi, rfl⟩
    exact ⟨sub, hsub, by simp [hc, hi]⟩

/-- A subscription is announced when it is created. -/
theorem Sends.of_subscribed {es : List ClientEvent} (h : Sends w c l es) {d : DestinationId}
    {i s : SubscriptionId} (he : .subscribed d i (.ok s) ∈ es) :
    ∃ order D k q, l = .backend d s.str order ∧ w.destinations d = some D ∧
      D.mailbox = .listening (.subscribe (some i) k :: q) ∧ k.session = c := by
  cases h with
  | subscribed hl hdest hmail hc =>
      obtain ⟨rfl, rfl, heq⟩ := ClientEvent.subscribed.inj (List.mem_singleton.mp he)
      obtain rfl := Except.ok.inj heq
      exact ⟨_, _, _, _, hl, hdest, hmail, hc⟩
  | messages hl hdest horder hmail =>
      obtain ⟨sub, i', -, -, -, heq⟩ := mem_messagesFor.mp he
      cases heq
  | _ => simp at he

/-- A removal is announced when the subscription is removed. -/
theorem Sends.of_unsubscribed {es : List ClientEvent} (h : Sends w c l es) {i s : SubscriptionId}
    (he : .unsubscribed i (.ok s) ∈ es) :
    ∃ d uuid order D k q sub, l = .backend d uuid order ∧ w.destinations d = some D ∧
      D.mailbox = .listening (.unsubscribe s k :: q) ∧ k.session = c ∧
      D.backend.subscriptions.lookup s = some sub ∧ sub.subscriberSubId = some i := by
  cases h with
  | unsubscribed hl hdest hmail hc hs hi =>
      obtain ⟨rfl, heq⟩ := ClientEvent.unsubscribed.inj (List.mem_singleton.mp he)
      obtain rfl := Except.ok.inj heq
      exact ⟨_, _, _, _, _, _, _, hl, hdest, hmail, hc, hs, hi⟩
  | messages hl hdest horder hmail =>
      obtain ⟨sub, i', -, -, -, heq⟩ := mem_messagesFor.mp he
      cases heq
  | _ => simp at he

/-- A message is sent to a subscription held. -/
theorem Sends.of_serverMessage {es : List ClientEvent} (h : Sends w c l es) {i : SubscriptionId}
    {m : OutboundMessage} (he : .serverMessage i m ∈ es) :
    ∃ d uuid order D message k q s sub, l = .backend d uuid order ∧ w.destinations d = some D ∧
      order.Perm D.backend.subscriptions.keys ∧
      D.mailbox = .listening (.send message k :: q) ∧ m = D.backend.outMessage uuid message ∧
      D.backend.subscriptions.lookup s = some sub ∧ sub.sendFn.session = c ∧
      sub.subscriberSubId = some i := by
  cases h with
  | messages hl hdest horder hmail =>
      obtain ⟨sub, i', hsub, hc, hi, heq⟩ := mem_messagesFor.mp he
      obtain ⟨rfl, rfl⟩ := ClientEvent.serverMessage.inj heq
      obtain ⟨s, hs⟩ := (InMemDestinationBackend.mem_values _ horder).mp hsub
      exact ⟨_, _, _, _, _, _, _, s, sub, hl, hdest, horder, hmail, rfl, hs, hc, hi⟩
  | _ => simp at he

/-! ## First in, first out -/

/-- The table that some events make of the empty one. -/
def tableOf (es : List ClientEvent) : ActiveSubscriptions :=
  es.foldl (fun T e => e.tableAfter T) fun _ => none

@[simp] theorem tableOf_concat (es : List ClientEvent) (e : ClientEvent) :
    tableOf (es ++ [e]) = e.tableAfter (tableOf es) := by
  rw [tableOf, List.foldl_append]
  rfl

/-- The session `c` handles what it is sent in order, and its table is what it has handled. -/
structure Channel (c : SessionId) (w : World) (tr : List Obs) : Prop where
  tracks : Mailbox.Tracks (sentTo c tr) (received c tr) (w.sessions c).channel
  table : ∀ r, w.sessions c = .running r →
    r.activeSubscriptionsByClientId = tableOf (handledBy c tr)
  fresh : w.sessions c = .awaiting → handledBy c tr = []

/-- While the session runs, what was sent to it and not taken waits. -/
theorem Channel.sent_eq (h : Channel c w tr) {r : ClientSession} (hr : w.sessions c = .running r) :
    sentTo c tr = received c tr ++ r.events.filter fromSubscriber := by
  have htracks := h.tracks
  rw [hr] at htracks
  exact htracks

/-- Some more events are sent. -/
theorem tracks_receive {accepted taken es : List ClientEvent} {s : Session}
    (h : Mailbox.Tracks accepted taken s.channel) (hes : ∀ e ∈ es, e.fromSubscriber = true)
    (hawaiting : s = .awaiting → es = []) :
    Mailbox.Tracks (accepted ++ es) taken (s.receive es).channel := by
  cases s with
  | awaiting =>
      rw [hawaiting rfl, List.append_nil]
      exact h
  | running r =>
      have h : accepted = taken ++ r.events.filter fromSubscriber := h
      show accepted ++ es = taken ++ (r.events ++ es).filter fromSubscriber
      rw [h, List.filter_append, List.filter_eq_self.mpr hes, List.append_assoc]
  | ended =>
      have h : taken <+: accepted := h
      exact h.trans (List.prefix_append _ _)

/-- What was taken stays a prefix when the channel is dropped. -/
theorem tracks_ended {accepted taken : List ClientEvent} {m : Mailbox ClientEvent}
    (h : Mailbox.Tracks accepted taken m) : Mailbox.Tracks accepted taken Session.ended.channel :=
  h.initial

/-- **A session that moves** takes the first event of its channel, or none. -/
theorem Channel.move (h : Channel c w tr) {input : SessionInput} {s : Session}
    {sos : List SessionObs} (hturn : Session.Turn p (w.sessions c) input s sos)
    (hinput : ∀ e, input ≠ .deliver e) :
    Mailbox.Tracks (sentTo c tr)
        (received c tr ++ (sos.filterMap SessionObs.handled?).filter fromSubscriber) s.channel ∧
      ∀ r, s = .running r → r.activeSubscriptionsByClientId
        = tableOf (handledBy c tr ++ sos.filterMap SessionObs.handled?) := by
  obtain ⟨htracks, htable, hfresh⟩ := h
  cases hs : w.sessions c with
  | awaiting =>
      rw [hs] at hturn htracks
      have hfresh := hfresh hs
      cases hturn with
      | rejected hfirst =>
          refine ⟨?_, by simp⟩
          show Mailbox.Tracks _ (received c tr ++ []) _
          rw [List.append_nil]
          exact tracks_ended htracks
      | overflows hfirst hnew =>
          refine ⟨?_, by simp⟩
          show Mailbox.Tracks _ (received c tr ++ []) _
          rw [List.append_nil]
          exact tracks_ended htracks
      | connected hfirst hnew =>
          obtain ⟨hevents, hempty, -⟩ := Session.new_eq_some hnew
          constructor
          · show Mailbox.Tracks _ (received c tr ++ []) (.listening (List.filter _ _))
            rw [List.append_nil, hevents]
            exact htracks
          · rintro r hr
            obtain rfl := Session.running.inj hr
            rw [hfresh, hempty]
            rfl
  | ended =>
      rw [hs] at hturn
      cases hturn
  | running r =>
      rw [hs] at hturn htracks
      have htracks : sentTo c tr = received c tr ++ r.events.filter fromSubscriber := htracks
      rcases hturn.running_cases with ⟨e, r₀, resetFails, -, hsame, -, hhandles, hevents⟩ |
        ⟨-, rfl, hcase⟩
      · -- what waited is the event, if it came from a destination, and what waits now
        have hwaits : sentTo c tr = received c tr ++ [e].filter fromSubscriber
            ++ r₀.events.filter fromSubscriber := by
          rcases hevents with ⟨hevents, hnot⟩ | hevents
          · simp [htracks, hevents, hnot]
          · rw [htracks, hevents, List.append_assoc, ← List.filter_append]
            rfl
        rw [hhandles.handled]
        cases s with
        | awaiting => exact absurd rfl hturn.ne_awaiting
        | ended =>
            refine ⟨?_, by simp⟩
            rw [hwaits]
            exact List.prefix_append _ _
        | running r' =>
            obtain ⟨htable', own, hown, hplain⟩ := hhandles.table
            have hnone : own.filter fromSubscriber = [] :=
              List.filter_eq_nil_iff.mpr fun e' he' => by simp [hplain e' he']
            constructor
            · show sentTo c tr = _ ++ r'.events.filter fromSubscriber
              rw [hown, List.filter_append, hnone, List.append_nil, hwaits]
            · intro r'' hr
              obtain rfl := Session.running.inj hr
              rw [tableOf_concat, htable', hsame, htable r hs]
      · simp only [List.filterMap_nil, List.filter_nil, List.append_nil]
        rcases hcase with rfl | ⟨r', rfl, hsame, hdeliver | hmissed⟩
        · exact ⟨tracks_ended (m := .listening _) htracks, by simp⟩
        · obtain ⟨e, hdeliver, -⟩ := hdeliver
          exact absurd hdeliver (hinput e)
        · constructor
          · show sentTo c tr = received c tr ++ r'.events.filter fromSubscriber
            rw [hmissed, List.filter_append, htracks]
            simp [fromSubscriber]
          · intro r'' hr
            obtain rfl := Session.running.inj hr
            rw [hsame, htable r hs]

/-- **In every run the channel of every session is first in, first out.** -/
theorem channel {C : World → Label → Prop} {ls : List Label}
    (h : (lts p).Run C initial ls tr w) (c : SessionId) : Channel c w tr := by
  refine h.invariant (P := fun w tr => Channel c w tr) ⟨rfl, by simp [initial], fun _ => rfl⟩ ?_
  intro ls tr os w w' l hrun ih _ hstep
  have hturn := turn_of_step hstep
  have hprov := provenance hrun
  rcases hturn.atSession c with ⟨input, -, hsturn, hinput, hnone⟩ | ⟨hos, hreceive, -⟩
  · obtain ⟨htracks, htable⟩ := ih.move hsturn hinput
    refine ⟨?_, ?_, ?_⟩
    · rw [sentTo_append, hnone, List.append_nil, received_append]
      exact htracks
    · intro r hr
      rw [handledBy_append]
      exact htable r hr
    · exact fun hc => absurd hc hsturn.ne_awaiting
  · have hhandled : handledBy c os = [] := by
      rw [handledBy, hos]
      rfl
    have hreceived : received c os = [] := by
      rw [received, hhandled]
      rfl
    have hsends := hturn.sends hprov c
    refine ⟨?_, ?_, ?_⟩
    · rw [sentTo_append, received_append, hreceived, List.append_nil, hreceive]
      exact tracks_receive ih.tracks hsends.fromSubscriber (hsends.eq_nil_of_awaiting hprov)
    · intro r hr
      rw [handledBy_append, hhandled, List.append_nil]
      rw [hreceive] at hr
      cases hs : w.sessions c with
      | running r₀ =>
          rw [hs] at hr
          obtain rfl := Session.running.inj hr
          exact ih.table r₀ hs
      | awaiting => simp [hs, Session.receive] at hr
      | ended => simp [hs, Session.receive] at hr
    · intro hc
      rw [handledBy_append, hhandled, List.append_nil]
      refine ih.fresh ?_
      by_contra hs
      exact hturn.ne_awaiting hs hc

end World
