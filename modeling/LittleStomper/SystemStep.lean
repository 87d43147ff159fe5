/-
# What one step of the system does

The cases of a step of `World.lts`, with the state and the observations each leads to, and
what a step looks like from one session and from one destination: each takes a step of its
own, or receives what the others send it, or is left alone.
-/
import LittleStomper.System
import LittleStomper.ClientStep
import LittleStomper.InMemoryStep

/-! ## Observations by party -/

namespace Obs

/-- What is observed of the session `c`. -/
def ofSession? (c : SessionId) : Obs → Option SessionObs
  | session c' o => if c' = c then some o else none
  | _ => none

/-- What is observed at the destination `d`. -/
def ofDestination? (d : DestinationId) : Obs → Option (DestinationObs ProxyBox)
  | destination d' o => if d' = d then some o else none
  | _ => none

/-- The event sent to the session `c`. -/
def sent? (c : SessionId) : Obs → Option ClientEvent
  | destination _ (.invoked i _) => if i.target.session = c then World.event? i else none
  | _ => none

/-- The part of a trace that concerns the session `c`. -/
def atSession (c : SessionId) (tr : List Obs) : List SessionObs := tr.filterMap (ofSession? c)

/-- The part of a trace that concerns the destination `d`. -/
def atDestination (d : DestinationId) (tr : List Obs) : List (DestinationObs ProxyBox) :=
  tr.filterMap (ofDestination? d)

/-- The events that destinations sent to the session `c`. -/
def sentTo (c : SessionId) (tr : List Obs) : List ClientEvent := tr.filterMap (sent? c)

@[simp] theorem atSession_append (c : SessionId) (tr os : List Obs) :
    atSession c (tr ++ os) = atSession c tr ++ atSession c os := List.filterMap_append

@[simp] theorem atDestination_append (d : DestinationId) (tr os : List Obs) :
    atDestination d (tr ++ os) = atDestination d tr ++ atDestination d os := List.filterMap_append

@[simp] theorem sentTo_append (c : SessionId) (tr os : List Obs) :
    sentTo c (tr ++ os) = sentTo c tr ++ sentTo c os := List.filterMap_append

@[simp] theorem atSession_map_session (c c' : SessionId) (os : List SessionObs) :
    atSession c' (os.map (session c)) = if c = c' then os else [] := by
  rw [atSession, List.filterMap_map]
  split_ifs with hc
  · simp [ofSession?, hc]
  · simp [Function.comp_def, ofSession?, hc]

@[simp] theorem atSession_map_destination (c : SessionId) (d : DestinationId)
    (os : List (DestinationObs ProxyBox)) : atSession c (os.map (destination d)) = [] := by
  simp [atSession, List.filterMap_map, Function.comp_def, ofSession?]

@[simp] theorem atDestination_map_destination (d d' : DestinationId)
    (os : List (DestinationObs ProxyBox)) :
    atDestination d' (os.map (destination d)) = if d = d' then os else [] := by
  rw [atDestination, List.filterMap_map]
  split_ifs with hd
  · simp [ofDestination?, hd]
  · simp [Function.comp_def, ofDestination?, hd]

@[simp] theorem atDestination_map_session (c : SessionId) (d : DestinationId)
    (os : List SessionObs) : atDestination d (os.map (session c)) = [] := by
  simp [atDestination, List.filterMap_map, Function.comp_def, ofDestination?]

@[simp] theorem sentTo_map_session (c c' : SessionId) (os : List SessionObs) :
    sentTo c' (os.map (session c)) = [] := by
  simp [sentTo, List.filterMap_map, Function.comp_def, sent?]

/-- Something is observed at a destination. -/
theorem mem_atDestination {d : DestinationId} {o : DestinationObs ProxyBox} {tr : List Obs} :
    o ∈ atDestination d tr ↔ destination d o ∈ tr := by
  simp only [atDestination, List.mem_filterMap]
  constructor
  · rintro ⟨o', ho', heq⟩
    cases o' with
    | destination d' o'' =>
        simp only [ofDestination?, Option.ite_none_right_eq_some, Option.some.injEq] at heq
        obtain ⟨rfl, rfl⟩ := heq
        exact ho'
    | _ => simp [ofDestination?] at heq
  · intro h
    exact ⟨_, h, by simp [ofDestination?]⟩

/-- Something is observed of a session. -/
theorem mem_atSession {c : SessionId} {o : SessionObs} {tr : List Obs} :
    o ∈ atSession c tr ↔ session c o ∈ tr := by
  simp only [atSession, List.mem_filterMap]
  constructor
  · rintro ⟨o', ho', heq⟩
    cases o' with
    | session c' o'' =>
        simp only [ofSession?, Option.ite_none_right_eq_some, Option.some.injEq] at heq
        obtain ⟨rfl, rfl⟩ := heq
        exact ho'
    | _ => simp [ofSession?] at heq
  · intro h
    exact ⟨_, h, by simp [ofSession?]⟩

end Obs

open Obs

/-! ## Sending events -/

namespace Session

/-- The session's channel receives some events; those for a session that is over are lost. -/
def receive (es : List ClientEvent) : Session → Session
  | running s => running { s with events := s.events ++ es }
  | s => s

@[simp] theorem receive_nil (s : Session) : s.receive [] = s := by
  cases s <;> simp [receive]

theorem sendEvent_eq_receive (e : ClientEvent) (s : Session) :
    s.sendEvent e = s.receive [e] := by
  cases s <;> rfl

theorem receive_append (es es' : List ClientEvent) (s : Session) :
    s.receive (es ++ es') = (s.receive es).receive es' := by
  cases s <;> simp [receive]

end Session

namespace World

variable {w : World}

/-- The events among the calls at one destination, for the session `c`. -/
def eventsFor (c : SessionId) (d : DestinationId) (os : List (DestinationObs ProxyBox)) :
    List ClientEvent :=
  sentTo c (os.map (.destination d))

/-- **What calls of proxies do**: they send events, in order, and nothing else. -/
theorem invokeAll_eq (w : World) (d : DestinationId) (os : List (DestinationObs ProxyBox)) :
    w.invokeAll os
      = { w with sessions := fun c => (w.sessions c).receive (eventsFor c d os) } := by
  induction os generalizing w with
  | nil => simp [invokeAll, eventsFor, sentTo]
  | cons o os ih =>
      have hcons : ∀ c, eventsFor c d (o :: os)
          = eventsFor c d [o] ++ eventsFor c d os := fun c => by
        simp only [eventsFor, ← sentTo_append, ← List.map_append, List.singleton_append]
      have hstep : w.invokeAll (o :: os) = (w.invokeAll [o]).invokeAll os := rfl
      have hone : w.invokeAll [o]
          = { w with sessions := fun c => (w.sessions c).receive (eventsFor c d [o]) } := by
        cases o with
        | invoked i reply =>
            cases hevent : event? i with
            | none => simp [invokeAll, invoke, eventsFor, sentTo, sent?, hevent]
            | some e =>
                simp only [invokeAll, List.foldl_cons, List.foldl_nil, invoke, hevent, setSession]
                congr 1
                funext c
                by_cases hc : c = i.target.session
                · subst hc
                  simp [eventsFor, sentTo, sent?, hevent, Session.sendEvent_eq_receive]
                · simp [eventsFor, sentTo, sent?, Function.update_of_ne hc, Ne.symm hc]
        | _ => simp [invokeAll, eventsFor, sentTo, List.filterMap_cons, sent?]
      rw [hstep, hone, ih]
      congr 1
      funext c
      rw [hcons c, Session.receive_append]

/-- A call on a destination whose receiver is there. -/
theorem callDestination_accepted {d : DestinationId} {D : InMemDestination ProxyBox}
    {a : DestinationAction ProxyBox} {m : Mailbox (DestinationAction ProxyBox)}
    (hsend : D.mailbox.send a = some m) :
    w.callDestination d D a
      = (w.setDestination d ⟨D.backend, m⟩, [.destination d (.called a true)]) := by
  simp [callDestination, InMemDestination.call, hsend, invokeAll]

/-- What a call on a destination without a receiver observes. -/
def refusal (w : World) (D : InMemDestination ProxyBox) (a : DestinationAction ProxyBox) :
    List (DestinationObs ProxyBox) :=
  .called a false :: InMemDestination.observe w.reply (InMemDestination.failure D.backend.id a)

/-- A call on a destination without a receiver changes no destination. -/
theorem callDestination_refused {d : DestinationId} {D : InMemDestination ProxyBox}
    {a : DestinationAction ProxyBox} (hdest : w.destinations d = some D)
    (hgone : D.mailbox.isGone = true) :
    w.callDestination d D a
      = ({ w with sessions := fun c => (w.sessions c).receive (eventsFor c d (w.refusal D a)) },
          (w.refusal D a).map (.destination d)) := by
  have hsame : w.setDestination d D = w := by
    rw [setDestination, ← hdest, Function.update_eq_self]
  have hcall : D.call w.reply a = (D, w.refusal D a) := by
    rw [InMemDestination.call, Mailbox.send_eq_none.mpr hgone]
    rfl
  rw [callDestination, hcall]
  simp only [hsame, invokeAll_eq _ d]

/-- A handle that answers for a destination without a receiver sends an event only for a
subscribe call. -/
theorem eventsFor_refusal {D : InMemDestination ProxyBox} {a : DestinationAction ProxyBox}
    (ha : ∀ sub k, a ≠ .subscribe sub k) (c : SessionId) (d : DestinationId) :
    eventsFor c d (w.refusal D a) = [] := by
  cases a with
  | subscribe sub k => exact absurd rfl (ha sub k)
  | _ =>
      simp [eventsFor, refusal, InMemDestination.failure, InMemDestination.observe, sentTo,
        List.filterMap_cons, sent?, event?]

/-! ## The cases of a step -/

/-- The destination and the action of a call that is not a subscribe call. -/
def actionOf (k : ProxyBox) : DestinationCall → Option (DestinationId × DestinationAction ProxyBox)
  | .subscribe _ _ => none
  | .send d message => some (d, .send message k)
  | .unsubscribe d s => some (d, .unsubscribe s k)

/-- Such an action is not a `Subscribe` and not a `Close`. -/
theorem ne_subscribe_of_actionOf {k : ProxyBox} {call : DestinationCall} {d : DestinationId}
    {a : DestinationAction ProxyBox} (h : actionOf k call = some (d, a)) :
    (∀ sub k', a ≠ .subscribe sub k') ∧ a ≠ .close := by
  cases call <;> simp [actionOf] at h <;> (obtain ⟨-, rfl⟩ := h; simp)

/-- What is observed when no destination is found for a call. -/
def unknown (k : ProxyBox) : DestinationCall → List Obs
  | .send _ _ => [.unknownDestination k]
  | _ => []

/-- **All that can happen in the system.** -/
inductive Turn (p : Params) (w : World) : Label → World → List Obs → Prop
  /-- A session moves and makes no call. -/
  | session {c : SessionId} {input : SessionInput} {s : Session} {os : List SessionObs}
      (hturn : Session.Turn p (w.sessions c) input s os) (hinput : ∀ e, input ≠ .deliver e)
      (hcall : callOf os = none) :
      Turn p w (.session c input) (w.setSession c s) (os.map (.session c))
  /-- A session moves and a subscribe call spawns a task. -/
  | spawned {c : SessionId} {input : SessionInput} {s : Session} {os : List SessionObs}
      {d : DestinationId} {sub : Option SubscriptionId}
      (hturn : Session.Turn p (w.sessions c) input s os) (hinput : ∀ e, input ≠ .deliver e)
      (hcall : callOf os = some (.subscribe d sub)) :
      Turn p w (.session c input)
        { w.setSession c s with
          tasks := w.tasks ++ [⟨d, sub, ⟨c, w.boxes⟩⟩]
          boxes := w.boxes + 1 }
        (os.map (.session c) ++ [.dispatched ⟨c, w.boxes⟩ (.subscribe d sub)])
  /-- A session moves and its call finds no destination. -/
  | unknown {c : SessionId} {input : SessionInput} {s : Session} {os : List SessionObs}
      {call : DestinationCall} {d : DestinationId} {a : DestinationAction ProxyBox}
      (hturn : Session.Turn p (w.sessions c) input s os) (hinput : ∀ e, input ≠ .deliver e)
      (hcall : callOf os = some call) (haction : actionOf ⟨c, w.boxes⟩ call = some (d, a))
      (hdest : w.destinations d = none) :
      Turn p w (.session c input) { w.setSession c s with boxes := w.boxes + 1 }
        (os.map (.session c) ++ .dispatched ⟨c, w.boxes⟩ call :: World.unknown ⟨c, w.boxes⟩ call)
  /-- A session moves and its call enqueues an action. -/
  | enqueued {c : SessionId} {input : SessionInput} {s : Session} {os : List SessionObs}
      {call : DestinationCall} {d : DestinationId} {a : DestinationAction ProxyBox}
      {D : InMemDestination ProxyBox} {m : Mailbox (DestinationAction ProxyBox)}
      (hturn : Session.Turn p (w.sessions c) input s os) (hinput : ∀ e, input ≠ .deliver e)
      (hcall : callOf os = some call) (haction : actionOf ⟨c, w.boxes⟩ call = some (d, a))
      (hdest : w.destinations d = some D) (hsend : D.mailbox.send a = some m) :
      Turn p w (.session c input)
        { (w.setSession c s).setDestination d ⟨D.backend, m⟩ with boxes := w.boxes + 1 }
        (os.map (.session c)
          ++ [.dispatched ⟨c, w.boxes⟩ call, .destination d (.called a true)])
  /-- A session moves and its call finds a destination without a receiver. -/
  | refused {c : SessionId} {input : SessionInput} {s : Session} {os : List SessionObs}
      {call : DestinationCall} {d : DestinationId} {a : DestinationAction ProxyBox}
      {D : InMemDestination ProxyBox} (os' : List (DestinationObs ProxyBox))
      (hturn : Session.Turn p (w.sessions c) input s os) (hinput : ∀ e, input ≠ .deliver e)
      (hcall : callOf os = some call) (haction : actionOf ⟨c, w.boxes⟩ call = some (d, a))
      (hdest : w.destinations d = some D) (hgone : D.mailbox.isGone = true)
      (hos : os' = { w.setSession c s with boxes := w.boxes + 1 }.refusal D a) :
      Turn p w (.session c input) { w.setSession c s with boxes := w.boxes + 1 }
        (os.map (.session c) ++ .dispatched ⟨c, w.boxes⟩ call :: os'.map (.destination d))
  /-- The destination of a task is created. -/
  | created {d : DestinationId} (htask : ∃ t ∈ w.tasks, t.destination = d)
      (hdest : w.destinations d = none) :
      Turn p w (.create d) (w.setDestination d (.create d)) []
  /-- A task enqueues its `Subscribe`. -/
  | subscribed {t : SubscribeTask} {D : InMemDestination ProxyBox}
      {m : Mailbox (DestinationAction ProxyBox)} (htask : t ∈ w.tasks)
      (hfind : (w.tasks.find? fun t' => t'.subscriber.box = t.subscriber.box) = some t)
      (hdest : w.destinations t.destination = some D)
      (hsend : D.mailbox.send (.subscribe t.subscriberSubId t.subscriber) = some m) :
      Turn p w (.subscribe t.subscriber.box)
        { w.setDestination t.destination ⟨D.backend, m⟩ with tasks := w.tasks.erase t }
        [.destination t.destination (.called (.subscribe t.subscriberSubId t.subscriber) true)]
  /-- A task finds a destination without a receiver. -/
  | subscribeRefused {t : SubscribeTask} {D : InMemDestination ProxyBox}
      (os : List (DestinationObs ProxyBox)) (htask : t ∈ w.tasks)
      (hfind : (w.tasks.find? fun t' => t'.subscriber.box = t.subscriber.box) = some t)
      (hdest : w.destinations t.destination = some D) (hgone : D.mailbox.isGone = true)
      (hos : os = w.refusal D (.subscribe t.subscriberSubId t.subscriber)) :
      Turn p w (.subscribe t.subscriber.box)
        { w with
          sessions := fun c => (w.sessions c).receive (eventsFor c t.destination os)
          tasks := w.tasks.erase t }
        (os.map (.destination t.destination))
  /-- A backend takes a `Close` and leaves its loop. -/
  | closed {d : DestinationId} {uuid : String} {order : List SubscriptionId}
      {D : InMemDestination ProxyBox} {q : List (DestinationAction ProxyBox)}
      (hdest : w.destinations d = some D) (fresh : uuid ∉ w.uuids)
      (hmail : D.mailbox = .listening (.close :: q)) :
      Turn p w (.backend d uuid order)
        { w.setDestination d ⟨D.backend, .leaving q⟩ with uuids := uuid :: w.uuids }
        [.destination d (.took .close uuid)]
  /-- A backend takes and performs another action. -/
  | performed {d : DestinationId} {uuid : String} {order : List SubscriptionId}
      {D : InMemDestination ProxyBox} {a : DestinationAction ProxyBox}
      {q : List (DestinationAction ProxyBox)} (os : List (DestinationObs ProxyBox))
      (hdest : w.destinations d = some D) (fresh : uuid ∉ w.uuids)
      (horder : order.Perm D.backend.subscriptions.keys) (hmail : D.mailbox = .listening (a :: q))
      (hclose : a ≠ .close)
      (hos : os = .took a uuid
        :: InMemDestination.observe w.reply (D.backend.perform w.reply uuid order a).2) :
      Turn p w (.backend d uuid order)
        { w.setDestination d
            (InMemDestination.settle (.listening q) w.reply
              (D.backend.perform w.reply uuid order a)) with
          sessions := fun c => (w.sessions c).receive (eventsFor c d os)
          uuids := uuid :: w.uuids }
        (os.map (.destination d))
  /-- A backend closes its receiver. -/
  | finished {d : DestinationId} {D : InMemDestination ProxyBox}
      {q : List (DestinationAction ProxyBox)} (hdest : w.destinations d = some D)
      (hmail : D.mailbox = .leaving q) :
      Turn p w (.finish d) (w.setDestination d ⟨D.backend, .finished⟩)
        [.destination d .finished]
  /-- A `Close` is enqueued. -/
  | close {d : DestinationId} {D : InMemDestination ProxyBox}
      {m : Mailbox (DestinationAction ProxyBox)} (hdest : w.destinations d = some D)
      (hsend : D.mailbox.send .close = some m) :
      Turn p w (.close d) (w.setDestination d ⟨D.backend, m⟩) [.destination d (.called .close true)]
  /-- A `Close` is not needed any more. -/
  | closeRefused {d : DestinationId} {D : InMemDestination ProxyBox}
      (hdest : w.destinations d = some D) (hgone : D.mailbox.isGone = true) :
      Turn p w (.close d) w [.destination d (.called .close false)]

/-- A call on a destination that exists goes to its handle. -/
theorem perform_found {c : SessionId} {call : DestinationCall} {d : DestinationId}
    {a : DestinationAction ProxyBox} {D : InMemDestination ProxyBox}
    (haction : actionOf ⟨c, w.boxes⟩ call = some (d, a)) (hdest : w.destinations d = some D) :
    w.perform c call =
      let r := ({ w with boxes := w.boxes + 1 } : World).callDestination d D a
      (r.1, .dispatched ⟨c, w.boxes⟩ call :: r.2) := by
  cases call with
  | subscribe d' sub => cases haction
  | send d' message =>
      obtain ⟨rfl, rfl⟩ := Prod.mk.inj (Option.some.inj haction)
      simp only [perform, hdest]
  | unsubscribe d' sub =>
      obtain ⟨rfl, rfl⟩ := Prod.mk.inj (Option.some.inj haction)
      simp only [perform, hdest]

/-- A call on a destination that does not exist reaches none. -/
theorem perform_notFound {c : SessionId} {call : DestinationCall} {d : DestinationId}
    {a : DestinationAction ProxyBox} (haction : actionOf ⟨c, w.boxes⟩ call = some (d, a))
    (hdest : w.destinations d = none) :
    w.perform c call =
      ({ w with boxes := w.boxes + 1 },
        .dispatched ⟨c, w.boxes⟩ call :: World.unknown ⟨c, w.boxes⟩ call) := by
  cases call with
  | subscribe d' sub => cases haction
  | send d' message =>
      obtain ⟨rfl, rfl⟩ := Prod.mk.inj (Option.some.inj haction)
      simp only [perform, hdest, World.unknown]
  | unsubscribe d' sub =>
      obtain ⟨rfl, rfl⟩ := Prod.mk.inj (Option.some.inj haction)
      simp only [perform, hdest, World.unknown]

/-- A call made by a session that has moved. -/
theorem turn_of_call {p : Params} {c : SessionId} {input : SessionInput} {s : Session}
    {os : List SessionObs} {call : DestinationCall}
    (hturn : Session.Turn p (w.sessions c) input s os) (hinput : ∀ e, input ≠ .deliver e)
    (hcall : callOf os = some call) :
    Turn p w (.session c input) ((w.setSession c s).perform c call).1
      (os.map (.session c) ++ ((w.setSession c s).perform c call).2) := by
  cases haction : actionOf ⟨c, w.boxes⟩ call with
  | none =>
      cases call with
      | subscribe d sub => exact Turn.spawned hturn hinput hcall
      | send d message => cases haction
      | unsubscribe d sub => cases haction
  | some da =>
      obtain ⟨d, a⟩ := da
      have haction' : actionOf ⟨c, (w.setSession c s).boxes⟩ call = some (d, a) := haction
      cases hdest : w.destinations d with
      | none =>
          rw [perform_notFound haction' hdest]
          exact Turn.unknown hturn hinput hcall haction hdest
      | some D =>
          have hfound : (w.setSession c s).perform c call =
              let w₁ : World := { w.setSession c s with boxes := w.boxes + 1 }
              let r := w₁.callDestination d D a
              (r.1, .dispatched ⟨c, w.boxes⟩ call :: r.2) := perform_found haction' hdest
          rw [hfound]
          cases hsend : D.mailbox.send a with
          | some m =>
              simp only [callDestination_accepted hsend]
              exact Turn.enqueued hturn hinput hcall haction hdest hsend
          | none =>
              have hgone := Mailbox.send_eq_none.mp hsend
              have hdest' : ({ w.setSession c s with boxes := w.boxes + 1 } : World).destinations d
                  = some D := hdest
              simp only [callDestination_refused hdest' hgone]
              have hturn' := Turn.refused _ hturn hinput hcall haction hdest hgone rfl
              -- a refused action that is not a `Subscribe` calls no session back
              simp only [eventsFor_refusal (ne_subscribe_of_actionOf haction).1,
                Session.receive_nil] at hturn' ⊢
              exact hturn'

/-- **Every step is one of these cases.** -/
theorem turn_of_step {p : Params} {w' : World} {l : Label} {os : List Obs}
    (h : (lts p).step w l = some (w', os)) : Turn p w l w' os := by
  cases l with
  | session c input =>
      have hinput : ∀ e, input ≠ .deliver e := by
        rintro e rfl
        cases h
      have h : w.stepSession p c input = some (w', os) := by
        cases input <;> first | exact h | exact absurd rfl (hinput _)
      rw [stepSession] at h
      split at h
      · cases h
      · rename_i s sos hstep
        have hturn := Session.turn_of_step hstep
        obtain ⟨rfl, rfl⟩ := Prod.mk.inj (Option.some.inj h)
        cases hcall : callOf sos with
        | none => simpa using Turn.session hturn hinput hcall
        | some call => exact turn_of_call hturn hinput hcall
  | create d =>
      simp only [lts, step, stepCreate] at h
      split at h
      · rename_i hcond
        obtain ⟨rfl, rfl⟩ := Prod.mk.inj (Option.some.inj h)
        simp only [Bool.and_eq_true, List.any_eq_true, decide_eq_true_eq, Option.isNone_iff_eq_none]
          at hcond
        exact Turn.created hcond.1 hcond.2
      · cases h
  | subscribe box =>
      simp only [lts, step, stepSubscribe] at h
      split at h
      · cases h
      · rename_i t hfind
        have htask := List.mem_of_find?_eq_some hfind
        obtain rfl : t.subscriber.box = box := by simpa using List.find?_some hfind
        split at h
        · cases h
        · rename_i D hdest
          have h := Option.some.inj h
          cases hsend : D.mailbox.send (.subscribe t.subscriberSubId t.subscriber) with
          | some m =>
              rw [callDestination_accepted hsend] at h
              obtain ⟨rfl, rfl⟩ := Prod.mk.inj h
              exact Turn.subscribed htask hfind hdest hsend
          | none =>
              have hgone := Mailbox.send_eq_none.mp hsend
              rw [callDestination_refused (show ({ w with tasks := w.tasks.erase t } :
                World).destinations t.destination = some D from hdest) hgone] at h
              obtain ⟨rfl, rfl⟩ := Prod.mk.inj h
              exact Turn.subscribeRefused _ htask hfind hdest hgone rfl
  | backend d uuid order =>
      simp only [lts, step, stepBackend] at h
      split at h
      · cases h
      · rename_i D hdest
        split at h
        · cases h
        · rename_i hfresh
          obtain ⟨⟨D', dos⟩, hproc, heq⟩ := Option.map_eq_some_iff.mp h
          obtain ⟨rfl, rfl⟩ := Prod.mk.inj heq
          obtain ⟨horder, a, q, hmail, hcase⟩ := InMemDestination.process_cases hproc
          rcases hcase with ⟨rfl, rfl, rfl⟩ | ⟨hclose, rfl, rfl⟩
          · exact Turn.closed hdest hfresh hmail
          · simp only [invokeAll_eq _ d]
            exact Turn.performed _ hdest hfresh horder hmail hclose rfl
  | finish d =>
      simp only [lts, step] at h
      split at h
      · cases h
      · rename_i D hdest
        obtain ⟨⟨D', dos⟩, hfin, heq⟩ := Option.map_eq_some_iff.mp h
        obtain ⟨rfl, rfl⟩ := Prod.mk.inj heq
        obtain ⟨q, hmail, rfl, rfl⟩ := InMemDestination.finish_cases hfin
        exact Turn.finished hdest hmail
  | close d =>
      simp only [lts, step] at h
      split at h
      · cases h
      · rename_i D hdest
        have h := Option.some.inj h
        cases hsend : D.mailbox.send .close with
        | some m =>
            rw [callDestination_accepted hsend] at h
            obtain ⟨rfl, rfl⟩ := Prod.mk.inj h
            exact Turn.close hdest hsend
        | none =>
            have hgone := Mailbox.send_eq_none.mp hsend
            rw [callDestination_refused hdest hgone] at h
            obtain ⟨rfl, rfl⟩ := Prod.mk.inj h
            simp only [eventsFor_refusal (show ∀ sub k, DestinationAction.close ≠ .subscribe sub k
              by simp), Session.receive_nil]
            exact Turn.closeRefused hdest hgone

/-! ## The call of a session -/

/-- The call of an event is the only one that is observed. -/
theorem callOf_begun (s : ClientSession) (e : ClientEvent) {rest : List SessionObs}
    (hrest : callOf rest = none) :
    callOf (Session.begun s e ++ rest) = e.call? s.activeSubscriptionsByClientId := by
  rw [callOf] at hrest ⊢
  cases htimer : e.timer? <;> cases hcall : e.call? s.activeSubscriptionsByClientId <;>
    simp [Session.begun, htimer, hcall, hrest]

/-- **The call made for an event** is the one it leads to. -/
theorem callOf_handles {p : Params} {s : ClientSession} {resetFails : Bool} {e : ClientEvent}
    {s' : Session} {os : List SessionObs} (h : Session.Handles p s resetFails e s' os) :
    callOf os = e.call? s.activeSubscriptionsByClientId := by
  cases h with
  | stuck hpanic =>
      -- an event whose handler panics leads to no call
      cases e with
      | clientFrame result =>
          cases result with
          | error err => cases hpanic
          | ok frame =>
              cases frame with
              | send d body => cases body <;> first | rfl | cases hpanic
              | _ => first | rfl | cases hpanic
      | _ => rfl
  | callPanics hpanic hcall => exact callOf_begun s e rfl
  | ends hpanic hends =>
      rw [← List.append_nil (Session.begun s e)]
      exact callOf_begun s e rfl
  | goesOn hpanic hends =>
      refine callOf_begun s e ?_
      cases s.message? p e <;> rfl

/-- An event that leads to a call is a client frame. -/
theorem eq_clientFrame_of_call? {T : ActiveSubscriptions} {e : ClientEvent}
    {call : DestinationCall} (h : e.call? T = some call) :
    ∃ frame, e = .clientFrame (.ok frame) := by
  cases e with
  | clientFrame result =>
      cases result with
      | error err => simp [ClientEvent.call?] at h
      | ok frame => exact ⟨frame, rfl⟩
  | _ => simp [ClientEvent.call?] at h

/-- **A call is made for a client frame**, by a session that runs and looks into its table. -/
theorem handles_of_callOf {p : Params} {s s' : Session} {input : SessionInput}
    {os : List SessionObs} {call : DestinationCall} (h : Session.Turn p s input s' os)
    (hcall : callOf os = some call) :
    ∃ r r₀ resetFails frame, s = .running r ∧
      Session.next? p s input = some (.clientFrame (.ok frame)) ∧
      r₀.activeSubscriptionsByClientId = r.activeSubscriptionsByClientId ∧
      Session.Handles p r₀ resetFails (.clientFrame (.ok frame)) s' os ∧
      (ClientEvent.clientFrame (.ok frame)).call? r.activeSubscriptionsByClientId = some call := by
  cases s with
  | awaiting => cases h <;> cases hcall
  | ended => cases h
  | running r =>
      rcases h.running_cases with ⟨e, r₀, resetFails, hnext, htable, -, hhandles, -⟩ |
        ⟨-, rfl, -⟩
      · have hev := (callOf_handles hhandles).symm.trans hcall
        obtain ⟨frame, rfl⟩ := eq_clientFrame_of_call? hev
        exact ⟨r, r₀, resetFails, frame, rfl, hnext, htable, hhandles, htable ▸ hev⟩
      · cases hcall

/-! ## A step seen by one session -/

/-- A destination's observations send an event to the target of each call. -/
theorem sentTo_map_destination (c : SessionId) (d : DestinationId)
    (os : List (DestinationObs ProxyBox)) : sentTo c (os.map (.destination d)) = eventsFor c d os :=
  rfl

/-- **A step seen by a session**: it moves on its own, and is sent nothing, or it is sent
some events. -/
theorem Turn.atSession {p : Params} {w' : World} {l : Label} {os : List Obs}
    (h : Turn p w l w' os) (c : SessionId) :
    (∃ input, l = .session c input ∧
        Session.Turn p (w.sessions c) input (w'.sessions c) (atSession c os) ∧
        (∀ e, input ≠ .deliver e) ∧ sentTo c os = []) ∨
      (atSession c os = [] ∧ w'.sessions c = (w.sessions c).receive (sentTo c os) ∧
        ∀ input, l ≠ .session c input) := by
  -- a session that is not `c` moves and sends nothing
  have hmove : ∀ {c' : SessionId} {input : SessionInput} {s : Session} {sos : List SessionObs}
      {rest : List Obs}, l = .session c' input → Session.Turn p (w.sessions c') input s sos →
      (∀ e, input ≠ .deliver e) → w'.sessions = Function.update w.sessions c' s →
      os = sos.map (.session c') ++ rest → Obs.atSession c rest = [] → sentTo c rest = [] →
      (∃ input, l = .session c input ∧
        Session.Turn p (w.sessions c) input (w'.sessions c) (Obs.atSession c os) ∧
        (∀ e, input ≠ .deliver e) ∧ sentTo c os = []) ∨
      (Obs.atSession c os = [] ∧ w'.sessions c = (w.sessions c).receive (sentTo c os) ∧
        ∀ input, l ≠ .session c input) := by
    intro c' input s sos rest hl hturn hinput hw hos hrest hsent
    subst hos
    rw [hw]
    by_cases hc : c' = c
    · subst hc
      refine Or.inl ⟨input, hl, ?_, hinput, by simp [hsent]⟩
      simpa [hrest] using hturn
    · refine Or.inr ⟨by simp [hrest, hc], ?_, ?_⟩
      · simp [hsent, Function.update_of_ne (Ne.symm hc)]
      · rintro input' rfl
        exact hc (Label.session.inj hl).1.symm
  cases h with
  | session hturn hinput hcall => exact hmove rfl hturn hinput rfl (List.append_nil _).symm rfl rfl
  | spawned hturn hinput hcall => exact hmove rfl hturn hinput rfl rfl rfl rfl
  | @unknown _ _ _ _ call _ _ hturn hinput hcall haction hdest =>
      refine hmove rfl hturn hinput rfl rfl ?_ ?_
      · cases call <;> rfl
      · cases call <;> rfl
  | enqueued hturn hinput hcall haction hdest hsend =>
      exact hmove rfl hturn hinput rfl rfl rfl rfl
  | @refused _ _ _ _ _ d _ _ os' hturn hinput hcall haction hdest hgone hos =>
      refine hmove rfl hturn hinput rfl rfl ?_ ?_
      · exact atSession_map_destination c d os'
      · show eventsFor c d os' = []
        rw [hos]
        exact eventsFor_refusal (ne_subscribe_of_actionOf haction).1 c d
  | created htask hdest => exact Or.inr ⟨rfl, (Session.receive_nil _).symm, by simp⟩
  | subscribed htask hfind hdest hsend => exact Or.inr ⟨rfl, (Session.receive_nil _).symm, by simp⟩
  | subscribeRefused os htask hfind hdest hgone hos =>
      exact Or.inr ⟨atSession_map_destination c _ os, rfl, by simp⟩
  | closed hdest fresh hmail => exact Or.inr ⟨rfl, (Session.receive_nil _).symm, by simp⟩
  | performed os hdest fresh horder hmail hclose hos =>
      exact Or.inr ⟨atSession_map_destination c _ os, rfl, by simp⟩
  | finished hdest hmail => exact Or.inr ⟨rfl, (Session.receive_nil _).symm, by simp⟩
  | close hdest hsend => exact Or.inr ⟨rfl, (Session.receive_nil _).symm, by simp⟩
  | closeRefused hdest hgone => exact Or.inr ⟨rfl, (Session.receive_nil _).symm, by simp⟩

/-! ## A step seen by one destination -/

/-- Who calls on a destination, and what the call leaves behind. -/
inductive Caller (p : Params) (w : World) (d : DestinationId) (l : Label) (w' : World)
    (os : List Obs) : DestinationAction ProxyBox → Prop
  /-- A session. -/
  | session {c : SessionId} {input : SessionInput} {s : Session} {sos : List SessionObs}
      {call : DestinationCall} {a : DestinationAction ProxyBox}
      (hl : l = .session c input) (hturn : Session.Turn p (w.sessions c) input s sos)
      (hcall : callOf sos = some call) (haction : actionOf ⟨c, w.boxes⟩ call = some (d, a))
      (hdispatched : .dispatched ⟨c, w.boxes⟩ call ∈ os) (htasks : w'.tasks = w.tasks) :
      Caller p w d l w' os a
  /-- A spawned task. -/
  | task {t : SubscribeTask} (htask : t ∈ w.tasks) (hdest : t.destination = d)
      (htasks : w'.tasks = w.tasks.erase t) :
      Caller p w d l w' os (.subscribe t.subscriberSubId t.subscriber)
  /-- Somebody who closes it. -/
  | close (hl : l = .close d) (htasks : w'.tasks = w.tasks) : Caller p w d l w' os .close

/-- **A step seen by a destination**: nothing happens there, it is created, or it takes a
step of its own with the replies of the proxies. -/
inductive AtDestination (p : Params) (w : World) (d : DestinationId) (l : Label) (w' : World)
    (os : List Obs) : Prop
  | still (hdest : w'.destinations d = w.destinations d) (hos : atDestination d os = [])
  | created (hl : l = .create d) (hdest : w.destinations d = none)
      (hdest' : w'.destinations d = some (.create d)) (hos : os = [])
  | accepted {D : InMemDestination ProxyBox} {a : DestinationAction ProxyBox}
      {m : Mailbox (DestinationAction ProxyBox)} (hdest : w.destinations d = some D)
      (hsend : D.mailbox.send a = some m) (hdest' : w'.destinations d = some ⟨D.backend, m⟩)
      (hos : atDestination d os = [.called a true]) (hcaller : Caller p w d l w' os a)
  | refused {D : InMemDestination ProxyBox} {a : DestinationAction ProxyBox} (w₁ : World)
      (hdest : w.destinations d = some D) (hgone : D.mailbox.isGone = true)
      (hdest' : w'.destinations d = some D) (hos : atDestination d os = w₁.refusal D a)
      (hcaller : Caller p w d l w' os a)
  | closed {D : InMemDestination ProxyBox} {uuid : String} {order : List SubscriptionId}
      {q : List (DestinationAction ProxyBox)} (hl : l = .backend d uuid order)
      (hdest : w.destinations d = some D) (fresh : uuid ∉ w.uuids)
      (huuids : w'.uuids = uuid :: w.uuids) (hmail : D.mailbox = .listening (.close :: q))
      (hdest' : w'.destinations d = some ⟨D.backend, .leaving q⟩)
      (hos : atDestination d os = [.took .close uuid])
  | performed {D : InMemDestination ProxyBox} {uuid : String} {order : List SubscriptionId}
      {a : DestinationAction ProxyBox} {q : List (DestinationAction ProxyBox)}
      (hl : l = .backend d uuid order)
      (hdest : w.destinations d = some D) (fresh : uuid ∉ w.uuids)
      (huuids : w'.uuids = uuid :: w.uuids)
      (horder : order.Perm D.backend.subscriptions.keys) (hmail : D.mailbox = .listening (a :: q))
      (hclose : a ≠ .close)
      (hdest' : w'.destinations d = some (InMemDestination.settle (.listening q) w.reply
        (D.backend.perform w.reply uuid order a)))
      (hos : atDestination d os = .took a uuid
        :: InMemDestination.observe w.reply (D.backend.perform w.reply uuid order a).2)
  | finished {D : InMemDestination ProxyBox} {q : List (DestinationAction ProxyBox)}
      (hdest : w.destinations d = some D) (hmail : D.mailbox = .leaving q)
      (hdest' : w'.destinations d = some ⟨D.backend, .finished⟩)
      (hos : atDestination d os = [.finished])

/-- Every step is one of these cases for every destination. -/
theorem Turn.atDestination {p : Params} {w' : World} {l : Label} {os : List Obs}
    (h : Turn p w l w' os) (d : DestinationId) : AtDestination p w d l w' os := by
  have hother : ∀ {d' : DestinationId} {D : InMemDestination ProxyBox}
      {os' : List (DestinationObs ProxyBox)}, d' ≠ d →
      w'.destinations = Function.update w.destinations d' (some D) →
      os = os'.map (.destination d') → AtDestination p w d l w' os := by
    intro d' D os' hne hw hos
    refine AtDestination.still ?_ ?_
    · rw [hw, Function.update_of_ne (Ne.symm hne)]
    · rw [hos, atDestination_map_destination, if_neg hne]
  cases h with
  | session hturn hinput hcall => exact AtDestination.still rfl (by simp)
  | spawned hturn hinput hcall =>
      refine AtDestination.still rfl ?_
      rw [atDestination_append, atDestination_map_session]
      rfl
  | @unknown _ _ _ _ call _ _ hturn hinput hcall haction hdest =>
      refine AtDestination.still rfl ?_
      rw [atDestination_append, atDestination_map_session]
      cases call <;> rfl
  | @enqueued c _ _ sos call d' a D m hturn hinput hcall haction hdest hsend =>
      have hos : Obs.atDestination d (sos.map (.session c)
          ++ [.dispatched ⟨c, w.boxes⟩ call, .destination d' (.called a true)])
          = if d' = d then [.called a true] else [] := by
        rw [atDestination_append, atDestination_map_session, List.nil_append]
        split_ifs with hd <;> simp [Obs.atDestination, List.filterMap_cons, ofDestination?, hd]
      by_cases hd : d' = d
      · subst hd
        rw [if_pos rfl] at hos
        exact AtDestination.accepted hdest hsend (Function.update_self _ _ _) hos
          (Caller.session rfl hturn hcall haction (by simp) rfl)
      · rw [if_neg hd] at hos
        exact AtDestination.still (Function.update_of_ne (Ne.symm hd) _ _) hos
  | @refused c _ s sos call d' a D os' hturn hinput hcall haction hdest hgone hos' =>
      have hos : Obs.atDestination d (sos.map (.session c)
          ++ .dispatched ⟨c, w.boxes⟩ call :: os'.map (.destination d'))
          = if d' = d then os' else [] := by
        rw [atDestination_append, atDestination_map_session, List.nil_append]
        exact atDestination_map_destination d' d os'
      by_cases hd : d' = d
      · subst hd
        rw [if_pos rfl] at hos
        exact AtDestination.refused _ hdest hgone hdest (hos.trans hos')
          (Caller.session rfl hturn hcall haction (by simp) rfl)
      · rw [if_neg hd] at hos
        exact AtDestination.still rfl hos
  | @created d' htask hdest =>
      by_cases hd : d' = d
      · subst hd
        exact AtDestination.created rfl hdest (Function.update_self _ _ _) rfl
      · exact AtDestination.still (Function.update_of_ne (Ne.symm hd) _ _) rfl
  | @subscribed t D m htask hfind hdest hsend =>
      by_cases hd : t.destination = d
      · subst hd
        exact AtDestination.accepted hdest hsend (Function.update_self _ _ _)
          (by simp [Obs.atDestination, ofDestination?]) (Caller.task htask rfl rfl)
      · exact hother hd rfl (List.map_singleton ..).symm
  | @subscribeRefused t D os' htask hfind hdest hgone hos' =>
      by_cases hd : t.destination = d
      · subst hd
        refine AtDestination.refused w hdest hgone hdest ?_ (Caller.task htask rfl rfl)
        rw [atDestination_map_destination, if_pos rfl, hos']
      · refine AtDestination.still rfl ?_
        rw [atDestination_map_destination, if_neg hd]
  | @closed d' uuid order D q hdest fresh hmail =>
      by_cases hd : d' = d
      · subst hd
        exact AtDestination.closed rfl hdest fresh rfl hmail (Function.update_self _ _ _)
          (by simp [Obs.atDestination, ofDestination?])
      · exact hother hd rfl (List.map_singleton ..).symm
  | @performed d' uuid order D a q os' hdest fresh horder hmail hclose hos' =>
      by_cases hd : d' = d
      · subst hd
        refine AtDestination.performed rfl hdest fresh rfl horder hmail hclose
          (Function.update_self _ _ _) ?_
        rw [atDestination_map_destination, if_pos rfl, hos']
      · exact hother hd rfl rfl
  | @finished d' D q hdest hmail =>
      by_cases hd : d' = d
      · subst hd
        exact AtDestination.finished hdest hmail (Function.update_self _ _ _)
          (by simp [Obs.atDestination, ofDestination?])
      · exact hother hd rfl (List.map_singleton ..).symm
  | @close d' D m hdest hsend =>
      by_cases hd : d' = d
      · subst hd
        exact AtDestination.accepted hdest hsend (Function.update_self _ _ _)
          (by simp [Obs.atDestination, ofDestination?]) (Caller.close rfl rfl)
      · exact hother hd rfl (List.map_singleton ..).symm
  | @closeRefused d' D hdest hgone =>
      by_cases hd : d' = d
      · subst hd
        refine AtDestination.refused w hdest hgone hdest ?_ (Caller.close rfl rfl)
        simp [Obs.atDestination, ofDestination?, refusal, InMemDestination.failure,
          InMemDestination.observe]
      · refine AtDestination.still rfl ?_
        simp [Obs.atDestination, ofDestination?, hd]

/-- **Who calls on a destination** is a session, a task or somebody who closes it. -/
theorem Turn.caller {p : Params} {w' : World} {l : Label} {os : List Obs} (h : Turn p w l w' os)
    {d : DestinationId} {a : DestinationAction ProxyBox} {b : Bool}
    (hcalled : destination d (.called a b) ∈ os) : Caller p w d l w' os a := by
  rw [← mem_atDestination] at hcalled
  cases h.atDestination d with
  | accepted hdest hsend hdest' hos hcaller =>
      rw [hos, List.mem_singleton] at hcalled
      obtain rfl := (DestinationObs.called.inj hcalled).1
      exact hcaller
  | refused w₁ hdest hgone hdest' hos hcaller =>
      simp only [hos, refusal, InMemDestination.observe, List.mem_cons, DestinationObs.called.injEq,
        List.mem_map, reduceCtorEq, and_false, exists_false, or_false] at hcalled
      obtain rfl := hcalled.1
      exact hcaller
  | still hdest hos => simp [hos] at hcalled
  | created hl hdest hdest' hos => simp [hos, Obs.atDestination] at hcalled
  | closed hl hdest fresh huuids hmail hdest' hos => simp [hos] at hcalled
  | performed hl hdest fresh huuids horder hmail hclose hdest' hos =>
      simp [hos, InMemDestination.observe] at hcalled
  | finished hdest hmail hdest' hos => simp [hos] at hcalled

/-- A destination is called once in a step at most. -/
theorem Turn.called_unique {p : Params} {w' : World} {l : Label} {os : List Obs}
    (h : Turn p w l w' os) {d : DestinationId} {a a' : DestinationAction ProxyBox} {b b' : Bool}
    (hcalled : destination d (.called a b) ∈ os)
    (hcalled' : destination d (.called a' b') ∈ os) : a = a' := by
  rw [← mem_atDestination] at hcalled hcalled'
  cases h.atDestination d with
  | accepted hdest hsend hdest' hos hcaller =>
      rw [hos, List.mem_singleton] at hcalled hcalled'
      rw [(DestinationObs.called.inj hcalled).1, (DestinationObs.called.inj hcalled').1]
  | refused w₁ hdest hgone hdest' hos hcaller =>
      simp only [hos, refusal, InMemDestination.observe, List.mem_cons, DestinationObs.called.injEq,
        List.mem_map, reduceCtorEq, and_false, exists_false, or_false] at hcalled hcalled'
      rw [hcalled.1, hcalled'.1]
  | still hdest hos => simp [hos] at hcalled
  | created hl hdest hdest' hos => simp [hos, Obs.atDestination] at hcalled
  | closed hl hdest fresh huuids hmail hdest' hos => simp [hos] at hcalled
  | performed hl hdest fresh huuids horder hmail hclose hdest' hos =>
      simp [hos, InMemDestination.observe] at hcalled
  | finished hdest hmail hdest' hos => simp [hos] at hcalled

/-! ## Spawned tasks -/

/-- A subscribe call spawns its task. -/
theorem Turn.spawns {p : Params} {w' : World} {l : Label} {os : List Obs} (h : Turn p w l w' os)
    {k : ProxyBox} {d : DestinationId} {sub : Option SubscriptionId}
    (hk : dispatched k (.subscribe d sub) ∈ os) : ⟨d, sub, k⟩ ∈ w'.tasks := by
  cases h with
  | spawned hturn hinput hcall =>
      simp only [List.mem_append, List.mem_map, reduceCtorEq, and_false, exists_false,
        List.mem_singleton, dispatched.injEq, DestinationCall.subscribe.injEq, false_or] at hk
      obtain ⟨rfl, rfl, rfl⟩ := hk
      exact List.mem_append_right _ List.mem_cons_self
  | @unknown _ _ _ _ call _ _ hturn hinput hcall haction hdest =>
      cases call with
      | subscribe d' sub' => cases haction
      | send d' message => simp [World.unknown] at hk
      | unsubscribe d' s => simp [World.unknown] at hk
  | @enqueued c _ _ _ call _ _ _ _ hturn hinput hcall haction hdest hsend =>
      have heq : k = ⟨c, w.boxes⟩ ∧ DestinationCall.subscribe d sub = call := by simpa using hk
      obtain rfl := heq.2
      cases haction
  | @refused c _ _ _ call _ _ _ os' hturn hinput hcall haction hdest hgone hos =>
      have heq : k = ⟨c, w.boxes⟩ ∧ DestinationCall.subscribe d sub = call := by simpa using hk
      obtain rfl := heq.2
      cases haction
  | _ => simp at hk

/-- **What becomes of a task**: it waits, or it calls `subscribe` on its destination and is
accepted or refused there. -/
theorem Turn.task_cases {p : Params} {w' : World} {l : Label} {os : List Obs}
    (h : Turn p w l w' os) {t : SubscribeTask} (ht : t ∈ w.tasks) :
    t ∈ w'.tasks ∨ l = .subscribe t.subscriber.box ∧
      (w.tasks.find? fun t' => t'.subscriber.box = t.subscriber.box) = some t ∧
      ∃ D, w.destinations t.destination = some D ∧
        ((∃ m, D.mailbox.send (.subscribe t.subscriberSubId t.subscriber) = some m ∧
            w'.destinations t.destination = some ⟨D.backend, m⟩ ∧
            destination t.destination
              (.called (.subscribe t.subscriberSubId t.subscriber) true) ∈ os) ∨
          D.mailbox.isGone = true ∧ w'.destinations t.destination = some D ∧
            destination t.destination
              (.called (.subscribe t.subscriberSubId t.subscriber) false) ∈ os) := by
  cases h with
  | spawned hturn hinput hcall => exact Or.inl (List.mem_append_left _ ht)
  | @subscribed t' D m htask hfind hdest hsend =>
      by_cases heq : t = t'
      · subst heq
        exact Or.inr ⟨rfl, hfind, D, hdest,
          Or.inl ⟨m, hsend, Function.update_self _ _ _, List.mem_cons_self⟩⟩
      · exact Or.inl ((List.mem_erase_of_ne heq).mpr ht)
  | @subscribeRefused t' D os htask hfind hdest hgone hos =>
      by_cases heq : t = t'
      · subst heq
        refine Or.inr ⟨rfl, hfind, D, hdest, Or.inr ⟨hgone, hdest, ?_⟩⟩
        rw [hos]
        exact List.mem_cons_self
      · exact Or.inl ((List.mem_erase_of_ne heq).mpr ht)
  | _ => exact Or.inl ht

/-! ## Calls on destinations -/

/-- **What becomes of a call that a session makes**: it is dispatched with a new box, and if
it is a call on a destination, that is unknown, or enqueues the action, or is gone. -/
theorem Turn.call_cases {p : Params} {w' : World} {l : Label} {os : List Obs}
    (h : Turn p w l w' os) {c : SessionId} {call : DestinationCall}
    (hcall : callOf (Obs.atSession c os) = some call) :
    dispatched ⟨c, w.boxes⟩ call ∈ os ∧ ∀ d a, actionOf ⟨c, w.boxes⟩ call = some (d, a) →
      (w.destinations d = none ∧ World.unknown ⟨c, w.boxes⟩ call ⊆ os) ∨
      ∃ D, w.destinations d = some D ∧ ((∃ m, D.mailbox.send a = some m ∧
          w'.destinations d = some ⟨D.backend, m⟩ ∧ destination d (.called a true) ∈ os) ∨
        D.mailbox.isGone = true ∧ w'.destinations d = some D ∧
          destination d (.called a false) ∈ os) := by
  -- the session that moves is `c`, and the call is its own
  have hmine : ∀ {c' : SessionId} {sos : List SessionObs} {rest : List Obs},
      os = sos.map (.session c') ++ rest → Obs.atSession c rest = [] →
      c' = c ∧ callOf sos = some call := by
    intro c' sos rest hos hrest
    rw [hos, atSession_append, atSession_map_session, hrest, List.append_nil] at hcall
    split_ifs at hcall with hc
    · exact ⟨hc, hcall⟩
    · cases hcall
  cases h with
  | session hturn hinput hnone =>
      obtain ⟨-, hcall'⟩ := hmine (List.append_nil _).symm rfl
      simp [hnone] at hcall'
  | spawned hturn hinput hcall₀ =>
      obtain ⟨rfl, hcall'⟩ := hmine rfl rfl
      obtain rfl := Option.some.inj (hcall₀.symm.trans hcall')
      exact ⟨List.mem_append_right _ List.mem_cons_self, fun d a haction => by cases haction⟩
  | @unknown c' _ _ sos call' d a hturn hinput hcall₀ haction hdest =>
      obtain ⟨rfl, hcall'⟩ := hmine rfl (by cases call' <;> rfl)
      obtain rfl := Option.some.inj (hcall₀.symm.trans hcall')
      refine ⟨List.mem_append_right _ List.mem_cons_self, fun d' a' haction' => Or.inl ?_⟩
      obtain ⟨rfl, rfl⟩ := Prod.mk.inj (Option.some.inj (haction.symm.trans haction'))
      exact ⟨hdest, fun o ho => List.mem_append_right _ (List.mem_cons_of_mem _ ho)⟩
  | enqueued hturn hinput hcall₀ haction hdest hsend =>
      obtain ⟨rfl, hcall'⟩ := hmine rfl rfl
      obtain rfl := Option.some.inj (hcall₀.symm.trans hcall')
      refine ⟨List.mem_append_right _ List.mem_cons_self, fun d' a' haction' => Or.inr ?_⟩
      obtain ⟨rfl, rfl⟩ := Prod.mk.inj (Option.some.inj (haction.symm.trans haction'))
      exact ⟨_, hdest, Or.inl ⟨_, hsend, Function.update_self _ _ _, by simp⟩⟩
  | refused os' hturn hinput hcall₀ haction hdest hgone hos =>
      obtain ⟨rfl, hcall'⟩ := hmine rfl (atSession_map_destination _ _ _)
      obtain rfl := Option.some.inj (hcall₀.symm.trans hcall')
      refine ⟨List.mem_append_right _ List.mem_cons_self, fun d' a' haction' => Or.inr ?_⟩
      obtain ⟨rfl, rfl⟩ := Prod.mk.inj (Option.some.inj (haction.symm.trans haction'))
      refine ⟨_, hdest, Or.inr ⟨hgone, hdest, ?_⟩⟩
      simp [hos, refusal]
  | subscribeRefused os htask hfind hdest hgone hos =>
      rw [atSession_map_destination] at hcall
      cases hcall
  | performed os hdest fresh horder hmail hclose hos =>
      rw [atSession_map_destination] at hcall
      cases hcall
  | _ => cases hcall

end World
