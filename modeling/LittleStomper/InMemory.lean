/-
# The in-memory destination

`src/asynchronous/inmemory.rs`: a destination is a channel of actions, filled by any
number of handles, and a backend task that takes one action after the other and keeps
the subscriptions in a map.

The closures in an action (`SubscribeCallback`, `SendFn`, `UnsubscribeCallback`,
`SendCallback`) only forward to one subscriber or sender object.  An action carries that
object, of an arbitrary type `κ`; every call boxes closures of its own, so the objects
of two calls are taken to be different.  `Answers` is what these objects do when called.

Two things the source leaves open are chosen by the environment: the next `Uuid`, which
is fresh, and the order in which a `HashMap` yields its values.
-/
import LittleStomper.Destinations
import LittleStomper.Library.Mailbox
import LittleStomper.Library.Run
import Mathlib.Data.List.AList

variable {κ : Type}

/-- `Subscription`; `sendFn` is the subscriber the closure forwards to. -/
structure Subscription (κ : Type) where
  id : SubscriptionId
  subscriberSubId : Option SubscriptionId
  sendFn : κ
  deriving DecidableEq

/-- What `Subscription::send` calls. -/
def Subscription.send (s : Subscription κ) (message : OutboundMessage) : Invocation κ :=
  .send s.sendFn s.id s.subscriberSubId message

/-- `DestinationAction`: an action that a destination can perform. -/
inductive DestinationAction (κ : Type) where
  | subscribe (subscriberSubId : Option SubscriptionId) (subscriber : κ)
  | unsubscribe (subId : SubscriptionId) (subscriber : κ)
  | send (message : InboundMessage) (sender : κ)
  | close
  deriving DecidableEq

namespace DestinationAction

/-- The object whose callback answers the action. -/
def caller? : DestinationAction κ → Option κ
  | subscribe _ k => some k
  | unsubscribe _ k => some k
  | send _ k => some k
  | close => none

/-- A subscribe, unsubscribe or send: an action that is owed a callback. -/
def isRequest (a : DestinationAction κ) : Bool := a.caller?.isSome

end DestinationAction

/-- How the subscribers and senders behave when they are called. -/
abbrev Answers (κ : Type) := Invocation κ → Reply

/-- What can be observed at a destination. -/
inductive DestinationObs (κ : Type) where
  /-- A handle tried to enqueue an action. -/
  | called (action : DestinationAction κ) (accepted : Bool)
  /-- The backend took an action; `uuid` is the `Uuid` drawn for it. -/
  | took (action : DestinationAction κ) (uuid : String)
  /-- A subscriber or sender was called. -/
  | invoked (invocation : Invocation κ) (reply : Reply)
  /-- The receiver was closed. -/
  | finished
  deriving DecidableEq

/-! ## The backend -/

/-- The map `subscriptions` of the backend. -/
abbrev Subscriptions (κ : Type) := AList fun _ : SubscriptionId => Subscription κ

/-- `InMemDestinationBackend`. -/
structure InMemDestinationBackend (κ : Type) where
  id : DestinationId
  subscriptions : Subscriptions κ

namespace InMemDestinationBackend

/-- `add_subscription`. -/
def addSubscription (b : InMemDestinationBackend κ) (uuid : String)
    (subscriberSubId : Option SubscriptionId) (subscriber : κ) :
    InMemDestinationBackend κ × List (Invocation κ) :=
  let id : SubscriptionId := ⟨uuid⟩
  let subscriptions := b.subscriptions.insert id ⟨id, subscriberSubId, subscriber⟩
  ({ b with subscriptions := subscriptions },
    match subscriptions.lookup id with
    | some subscription =>
      [.subscribeCallback subscriber b.id subscription.subscriberSubId (.ok id)]
    | none => [])

/-- `remove_subscription`: the callback gets the client's id of the subscription removed,
and none if there was no such subscription. -/
def removeSubscription (b : InMemDestinationBackend κ) (subId : SubscriptionId)
    (unsubCallback : κ) : InMemDestinationBackend κ × List (Invocation κ) :=
  ({ b with subscriptions := b.subscriptions.erase subId },
    [.unsubscribeCallback unsubCallback
      ((b.subscriptions.lookup subId).bind fun subscription => subscription.subscriberSubId)
      (.ok subId)])

/-- The first loop of `send`: pass the message to one subscription after the other and
collect those that fail.  A subscriber that panics ends it, without a result. -/
def sendLoop (answers : Answers κ) (outMessage : OutboundMessage) :
    List (Subscription κ) → List (Invocation κ) × Option (List SubscriptionId)
  | [] => ([], some [])
  | subscription :: rest =>
    match answers (subscription.send outMessage) with
    | .panic => ([subscription.send outMessage], none)
    | .err =>
      let r := sendLoop answers outMessage rest
      (subscription.send outMessage :: r.1, r.2.map (subscription.id :: ·))
    | .ok =>
      let r := sendLoop answers outMessage rest
      (subscription.send outMessage :: r.1, r.2)

/-- The message `send` passes on. -/
def outMessage (b : InMemDestinationBackend κ) (uuid : String) (message : InboundMessage) :
    OutboundMessage :=
  ⟨b.id, ⟨uuid⟩, message.body⟩

/-- The values of the map, in the order given by its keys. -/
def values (b : InMemDestinationBackend κ) (order : List SubscriptionId) :
    List (Subscription κ) :=
  order.filterMap b.subscriptions.lookup

/-- `send`: pass the message on, then remove the dead subscriptions, then call back. -/
def send (b : InMemDestinationBackend κ) (answers : Answers κ) (uuid : String)
    (order : List SubscriptionId) (message : InboundMessage) (sendCallback : κ) :
    InMemDestinationBackend κ × List (Invocation κ) :=
  let r := sendLoop answers (b.outMessage uuid message) (b.values order)
  match r.2 with
  | none => (b, r.1)
  | some deadSubscriptions =>
    ({ b with
        subscriptions := deadSubscriptions.foldl (fun m subId => m.erase subId) b.subscriptions },
      r.1 ++ [.sendCallback sendCallback message.senderMessageId (.ok ⟨uuid⟩)])

/-- The branches of `listen_on` that go on with the loop. -/
def perform (b : InMemDestinationBackend κ) (answers : Answers κ) (uuid : String)
    (order : List SubscriptionId) :
    DestinationAction κ → InMemDestinationBackend κ × List (Invocation κ)
  | .subscribe subscriberSubId subscriber => b.addSubscription uuid subscriberSubId subscriber
  | .unsubscribe subId unsubCallback => b.removeSubscription subId unsubCallback
  | .send message sendCallback => b.send answers uuid order message sendCallback
  | .close => (b, [])

end InMemDestinationBackend

/-! ## The destination -/

/-- A destination: the channel its handles share, and the backend that drains it. -/
structure InMemDestination (κ : Type) where
  backend : InMemDestinationBackend κ
  mailbox : Mailbox (DestinationAction κ)

namespace InMemDestination

/-- `create`: an empty channel and a backend without subscriptions. -/
def create (destinationId : DestinationId) : InMemDestination κ :=
  ⟨⟨destinationId, ∅⟩, .listening []⟩

/-- The callback a handle invokes itself when `perform_action` gives the action back.
`close` only logs the error. -/
def failure (id : DestinationId) : DestinationAction κ → List (Invocation κ)
  | .subscribe sub k => [.subscribeCallback k id sub (.error ⟨"Subscribe failed"⟩)]
  | .unsubscribe _ k => [.unsubscribeCallback k none (.error ⟨"Unsubscribe failed"⟩)]
  | .send message k => [.sendCallback k message.senderMessageId (.error ⟨"Send failed"⟩)]
  | .close => []

/-- Invocations together with their replies. -/
def observe (answers : Answers κ) (is : List (Invocation κ)) : List (DestinationObs κ) :=
  is.map fun i => .invoked i (answers i)

/-- `subscribe`, `unsubscribe`, `send` and `close` of the handle: enqueue the action, or
invoke the callback with an error. -/
def call (d : InMemDestination κ) (answers : Answers κ) (action : DestinationAction κ) :
    InMemDestination κ × List (DestinationObs κ) :=
  match d.mailbox.send action with
  | some mailbox => ({ d with mailbox := mailbox }, [.called action true])
  | none => (d, .called action false :: observe answers (failure d.backend.id action))

/-- The end of one turn of the loop: the backend `r.1` goes on with `mailbox`, unless one
of the calls `r.2` panicked. -/
def settle (mailbox : Mailbox (DestinationAction κ)) (answers : Answers κ)
    (r : InMemDestinationBackend κ × List (Invocation κ)) : InMemDestination κ :=
  ⟨r.1, if r.2.any (fun i => answers i = .panic) then .panicked else mailbox⟩

/-- One turn of the loop in `listen_on`: take an action and perform it.  `order` is the
order in which the map would yield its values. -/
def process (d : InMemDestination κ) (answers : Answers κ) (uuid : String)
    (order : List SubscriptionId) : Option (InMemDestination κ × List (DestinationObs κ)) :=
  if order.isPerm d.backend.subscriptions.keys then
    match d.mailbox.recv with
    | none => none
    | some (.close, mailbox) => some (⟨d.backend, mailbox.leave⟩, [.took .close uuid])
    | some (action, mailbox) =>
      let r := d.backend.perform answers uuid order action
      some (settle mailbox answers r, .took action uuid :: observe answers r.2)
  else none

/-- `receiver.close()` behind the loop, and the end of the task. -/
def finish (d : InMemDestination κ) : Option (InMemDestination κ × List (DestinationObs κ)) :=
  match d.mailbox with
  | .leaving _ => some ({ d with mailbox := .finished }, [.finished])
  | _ => none

end InMemDestination

/-! ## Runs of one destination -/

/-- A destination with the uuids drawn and the closures boxed so far. -/
structure DestinationRun (κ : Type) where
  destination : InMemDestination κ
  uuids : List String
  closures : List κ

/-- Who moves: a holder of a handle, or the backend. -/
inductive DestinationLabel (κ : Type) where
  | call (action : DestinationAction κ) (answers : Answers κ)
  | process (uuid : String) (order : List SubscriptionId) (answers : Answers κ)
  | finish

namespace InMemDestination

/-- One step of a destination and the holders of its handles. -/
def lts [DecidableEq κ] : LTS (DestinationRun κ) (DestinationLabel κ) (DestinationObs κ) where
  step s
    | .call action answers =>
      if ∀ k ∈ action.caller?, k ∉ s.closures then
        let r := s.destination.call answers action
        some (⟨r.1, s.uuids, action.caller?.toList ++ s.closures⟩, r.2)
      else none
    | .process uuid order answers =>
      if uuid ∈ s.uuids then none
      else (s.destination.process answers uuid order).map fun r =>
        (⟨r.1, uuid :: s.uuids, s.closures⟩, r.2)
    | .finish => s.destination.finish.map fun r => (⟨r.1, s.uuids, s.closures⟩, r.2)

/-- A destination just created. -/
def initial (id : DestinationId) : DestinationRun κ := ⟨create id, [], []⟩

end InMemDestination
