/-
# Sessions and destinations together

Any number of `ClientSession`s over one `AsyncDestinations` of `InMemDestination`s
(`src/asynchronous/destinations.rs`), with the tasks spawned by `subscribe`, as one
transition system: every label names one party and what it does next, so a run is an
arbitrary interleaving.

* `AsyncStompClient` as a `Subscriber` and `Sender`: `reply` says how it answers a call,
  `invoke` what the call does to the session's channel;
* the external `VersionedMap`: `get` creates the destination of a key when its future
  runs (`create`) and yields the one destination of that key, `get_if_present` finds it
  only once created;
* the server holds the `AsyncDestinations`, so no destination loses its last handle.

Every call of a method of `Destinations` boxes a clone of the session's proxy; the boxes
are numbered.
-/
import LittleStomper.Client
import LittleStomper.InMemory

/-- The sessions. -/
abbrev SessionId := Nat

/-- `Box::new(self.client_proxy.clone())`: one of the boxes of a session's proxy. -/
structure ProxyBox where
  session : SessionId
  box : Nat
  deriving DecidableEq, Repr

/-- A task spawned by `AsyncDestinations::subscribe` that has not yet subscribed. -/
structure SubscribeTask where
  destination : DestinationId
  subscriberSubId : Option SubscriptionId
  subscriber : ProxyBox
  deriving DecidableEq, Repr

/-- What can be observed of the whole system. -/
inductive Obs where
  /-- Something observed of a session. -/
  | session (c : SessionId) (o : SessionObs)
  /-- A session called a method of `Destinations` with one of its boxes. -/
  | dispatched (k : ProxyBox) (call : DestinationCall)
  /-- `send` found no destination and called back with an error. -/
  | unknownDestination (k : ProxyBox)
  /-- Something observed at a destination. -/
  | destination (d : DestinationId) (o : DestinationObs ProxyBox)
  deriving DecidableEq

/-- The state of the system: `boxes` counts the boxes made and `uuids` are the uuids
drawn so far. -/
structure World where
  sessions : SessionId → Session
  destinations : DestinationId → Option (InMemDestination ProxyBox)
  tasks : List SubscribeTask
  boxes : Nat
  uuids : List String

/-- Who moves. -/
inductive Label where
  /-- A session handles an event, or its heartbeat listener wakes up. -/
  | session (c : SessionId) (input : SessionInput)
  /-- The future of `get` in a spawned task creates the destination. -/
  | create (d : DestinationId)
  /-- A spawned task has its destination and calls `subscribe` on it. -/
  | subscribe (box : Nat)
  /-- The backend of a destination takes an action. -/
  | backend (d : DestinationId) (uuid : String) (order : List SubscriptionId)
  /-- The backend of a destination closes its receiver. -/
  | finish (d : DestinationId)
  /-- Somebody calls `close()` on a destination. -/
  | close (d : DestinationId)

namespace Session

/-- The session's channel accepts events. -/
def isOpen : Session → Bool
  | running _ => true
  | _ => false

/-- `send_event`: an event for a session that is over is dropped. -/
def sendEvent (e : ClientEvent) : Session → Session
  | running s => running (s.sendEvent e)
  | s => s

end Session

namespace World

/-- All sessions wait for their first item and there is no destination. -/
def initial : World where
  sessions := fun _ => .awaiting
  destinations := fun _ => none
  tasks := []
  boxes := 0
  uuids := []

def setSession (w : World) (c : SessionId) (s : Session) : World :=
  { w with sessions := Function.update w.sessions c s }

def setDestination (w : World) (d : DestinationId) (D : InMemDestination ProxyBox) : World :=
  { w with destinations := Function.update w.destinations d (some D) }

/-! ## `AsyncStompClient` -/

/-- How a session's proxy answers: it panics in `unwrap_subscriber_sub_id`, and `send`
fails if the channel is closed. -/
def reply (w : World) : Answers ProxyBox
  | .subscribeCallback _ _ sub _ => if sub.isNone then .panic else .ok
  | .unsubscribeCallback _ sub _ => if sub.isNone then .panic else .ok
  | .send k _ sub _ =>
    if sub.isNone then .panic else if (w.sessions k.session).isOpen then .ok else .err
  | .sendCallback _ _ _ => .ok

/-- The event a call of a proxy puts into its session's channel. -/
def event? : Invocation ProxyBox → Option ClientEvent
  | .subscribeCallback _ d sub r => sub.map fun i => .subscribed d i r
  | .unsubscribeCallback _ sub r => sub.map fun i => .unsubscribed i r
  | .send _ _ sub m => sub.map fun i => .serverMessage i m
  | .sendCallback _ _ _ => none

/-- A call of a proxy. -/
def invoke (w : World) (i : Invocation ProxyBox) : World :=
  match event? i with
  | some e => w.setSession i.target.session ((w.sessions i.target.session).sendEvent e)
  | none => w

/-- The calls of proxies among some observations, one after the other. -/
def invokeAll (w : World) (os : List (DestinationObs ProxyBox)) : World :=
  os.foldl (fun w o => match o with
    | .invoked i _ => w.invoke i
    | _ => w) w

/-! ## `AsyncDestinations` -/

/-- A call on a destination, with the calls of proxies it makes itself. -/
def callDestination (w : World) (d : DestinationId) (D : InMemDestination ProxyBox)
    (action : DestinationAction ProxyBox) : World × List Obs :=
  let r := D.call w.reply action
  ((w.setDestination d r.1).invokeAll r.2, r.2.map (.destination d))

/-- A call of a method of `AsyncDestinations` by a session, with a fresh box. -/
def perform (w : World) (c : SessionId) (call : DestinationCall) : World × List Obs :=
  let k : ProxyBox := ⟨c, w.boxes⟩
  let w := { w with boxes := w.boxes + 1 }
  match call with
  | .subscribe d sub =>
    -- `tokio::task::spawn`
    ({ w with tasks := w.tasks ++ [⟨d, sub, k⟩] }, [.dispatched k call])
  | .send d message =>
    match w.destinations d with
    | some D =>
      let r := w.callDestination d D (.send message k)
      (r.1, .dispatched k call :: r.2)
    | none => (w, [.dispatched k call, .unknownDestination k])
  | .unsubscribe d sub =>
    match w.destinations d with
    | some D =>
      let r := w.callDestination d D (.unsubscribe sub k)
      (r.1, .dispatched k call :: r.2)
    | none => (w, [.dispatched k call])

/-- Some callback panicked. -/
def panicked (os : List Obs) : Bool :=
  os.any fun o => match o with
    | .destination _ (.invoked _ .panic) => true
    | _ => false

/-- A call of a method of `AsyncDestinations` panics if a callback invoked by it does. -/
def callPanics (w : World) (c : SessionId) (call : DestinationCall) : Bool :=
  panicked (w.perform c call).2

/-! ## Steps -/

/-- The call a session made in a step, if it made one. -/
def callOf (os : List SessionObs) : Option DestinationCall :=
  os.findSome? fun o => match o with
    | .call call => some call
    | _ => none

/-- A session moves: the step of the session, and then its call. -/
def stepSession (p : Params) (w : World) (c : SessionId) (input : SessionInput) :
    Option (World × List Obs) :=
  match (w.sessions c).step p (w.callPanics c) input with
  | none => none
  | some (s, os) =>
    let r := match callOf os with
      | some call => (w.setSession c s).perform c call
      | none => (w.setSession c s, [])
    some (r.1, os.map (.session c) ++ r.2)

/-- The backend of a destination moves. -/
def stepBackend (w : World) (d : DestinationId) (uuid : String) (order : List SubscriptionId) :
    Option (World × List Obs) :=
  match w.destinations d with
  | none => none
  | some D =>
    if uuid ∈ w.uuids then none
    else (D.process w.reply uuid order).map fun r =>
      (({ w with uuids := uuid :: w.uuids }.setDestination d r.1).invokeAll r.2,
        r.2.map (.destination d))

/-- A spawned task moves: its destination exists, and it subscribes. -/
def stepSubscribe (w : World) (box : Nat) : Option (World × List Obs) :=
  match w.tasks.find? fun t => t.subscriber.box = box with
  | none => none
  | some t =>
    match w.destinations t.destination with
    | none => none
    | some D =>
      some ({ w with tasks := w.tasks.erase t }.callDestination t.destination D
        (.subscribe t.subscriberSubId t.subscriber))

/-- The destination of some spawned task is created. -/
def stepCreate (w : World) (d : DestinationId) : Option (World × List Obs) :=
  if (w.tasks.any fun t => t.destination = d) && (w.destinations d).isNone then
    some (w.setDestination d (.create d), [])
  else none

/-- One step of the system. -/
def step (p : Params) (w : World) : Label → Option (World × List Obs)
  | .session _ (.deliver _) => none
  | .session c input => w.stepSession p c input
  | .create d => w.stepCreate d
  | .subscribe box => w.stepSubscribe box
  | .backend d uuid order => w.stepBackend d uuid order
  | .finish d =>
    match w.destinations d with
    | none => none
    | some D => D.finish.map fun r => (w.setDestination d r.1, r.2.map (.destination d))
  | .close d =>
    match w.destinations d with
    | none => none
    | some D => some (w.callDestination d D .close)

/-- The system of sessions and destinations. -/
def lts (p : Params) : LTS World Label Obs where
  step w l := w.step p l

end World
