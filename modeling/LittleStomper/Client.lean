/-
# The client session

`src/asynchronous/client.rs` and `src/client.rs`: the frames, the events, the handler of
one event, and `process_stream`, which splits off the first item of the client's stream
and then merges three sources of events: the client's stream, the session's own channel
and the server heartbeat.

A session is described from its own side only: the calls it makes on its `Destinations`
are part of what a step returns (`DestinationCall`), and whether such a call panics is
told to the step from outside.  `none` as the result of a handler is a panic.

Left to parameters (`Params`): the frame parser of `stomp_parser`, the `{:?}` rendering
of a string, and whether the build checks integer overflow (Rust panics in the builds
that do and wraps in those that do not).
-/
import LittleStomper.Destinations
import LittleStomper.Library.Run
import Mathlib.Algebra.Group.Nat.Defs
import Mathlib.Logic.Function.Basic

/-! ## Frames -/

/-- `HeartBeatIntervalls`: what a peer can supply and what it expects, in milliseconds. -/
structure HeartBeatIntervalls where
  supplied : UInt32
  expected : UInt32
  deriving DecidableEq, Repr

/-- `StompVersion`. -/
inductive StompVersion where
  | v1_0
  | v1_1
  | v1_2
  | unknown (version : String)
  deriving DecidableEq, Repr

/-- The headers of a `ConnectFrame` that are read. -/
structure ConnectFrame where
  acceptVersion : List StompVersion
  heartbeat : HeartBeatIntervalls
  login : Option String
  passcode : Option String
  deriving DecidableEq, Repr

/-- `ClientFrame`, with the headers and bodies that are read. -/
inductive ClientFrame where
  | connect (frame : ConnectFrame)
  | subscribe (destination : String) (id : String)
  | send (destination : String) (body : Option Bytes)
  | unsubscribe (id : String)
  | disconnect
  | abort
  | ack
  | begin
  | commit
  | nack
  deriving DecidableEq, Repr

/-- `ConnectedFrame`. -/
structure ConnectedFrame where
  version : StompVersion
  heartbeat : HeartBeatIntervalls
  session : Option String
  server : Option String
  deriving DecidableEq, Repr

/-- `MessageFrame`. -/
structure MessageFrame where
  messageId : String
  destination : String
  subscription : String
  contentType : String
  contentLength : UInt32
  body : Bytes
  deriving DecidableEq, Repr

/-- `ServerFrame`. -/
inductive ServerFrame where
  | connected (frame : ConnectedFrame)
  | message (frame : MessageFrame)
  | error (message : String)
  deriving DecidableEq, Repr

/-- `Either<ServerFrame, Vec<u8>>`: a frame, or raw bytes. -/
abbrev ServerMessage := ServerFrame ⊕ Bytes

/-- `EOL`. -/
def eol : Bytes := [10]

/-! ## Clients and client factories -/

/-- What a `Client` answers to `server()` and `session()`. -/
structure Client where
  server : Option String
  session : Option String
  deriving DecidableEq, Repr

/-- `DefaultClient`, with `DEFAULT_SERVER`. -/
def defaultClient : Client := ⟨some "little-stomper/0.4.0", none⟩

/-- `ClientFactory::create`: from login and passcode to a client, or an error. -/
abbrev ClientFactory := Option String → Option String → StomperResult Client

/-- `DefaultClientFactory`. -/
def defaultClientFactory : ClientFactory := fun _ _ => .ok defaultClient

/-! ## Events and calls -/

/-- `ClientEvent`. -/
inductive ClientEvent where
  | connected (heartbeat : HeartBeatIntervalls)
  | clientFrame (result : StomperResult ClientFrame)
  | clientHeartbeat
  | serverMessage (clientSubscriptionId : SubscriptionId) (message : OutboundMessage)
  | subscribed (destination : DestinationId) (clientSubscriptionId : SubscriptionId)
      (result : StomperResult SubscriptionId)
  | unsubscribed (clientSubscriptionId : SubscriptionId) (result : StomperResult SubscriptionId)
  | error (message : String)
  | heartbeat
  | close
  deriving DecidableEq

/-- The events `AsyncStompClient` sends as a `Subscriber`. -/
def ClientEvent.fromSubscriber : ClientEvent → Bool
  | serverMessage _ _ => true
  | subscribed _ _ _ => true
  | unsubscribed _ _ => true
  | _ => false

/-- A call of a method of `Destinations` by a session; the subscriber or sender is a
fresh box around the session's proxy. -/
inductive DestinationCall where
  | subscribe (destination : DestinationId) (subscriberSubId : Option SubscriptionId)
  | send (destination : DestinationId) (message : InboundMessage)
  | unsubscribe (destination : DestinationId) (subscription : SubscriptionId)
  deriving DecidableEq, Repr

/-- `ClientState`. -/
inductive ClientState where
  | alive
  | dead
  deriving DecidableEq, Repr

/-- The two timers of a session. -/
inductive HeartbeatTimer where
  | client
  | server
  deriving DecidableEq, Repr

/-- What the model leaves open. -/
structure Params where
  /-- `ClientFrame::try_from`, with its error turned into a `StomperError`. -/
  parse : Bytes → StomperResult ClientFrame
  /-- `format!("{:?}", s)` of a string `s`. -/
  debugStr : String → String
  /-- The build checks integer overflow. -/
  overflowChecks : Bool

/-! ## The handler of one event -/

/-- The state of a connected session.  `events` is what waits in its own channel;
`listening` says that the task of `start_heartbeat_listener` still waits for its timer. -/
structure ClientSession where
  events : List ClientEvent
  activeSubscriptionsByClientId : SubscriptionId → Option (DestinationId × SubscriptionId)
  client : Client
  serverHeartbeat : Nat
  clientHeartbeat : Nat
  listening : Bool

/-- What the handler of an event leaves behind: the session, the resolved future, and what
it did to the destinations and timers on the way. -/
structure Handled where
  session : ClientSession
  state : ClientState
  message : Option ServerMessage
  call : Option DestinationCall
  reset : Option HeartbeatTimer

/-- `{:?}` of a `StomperError`. -/
def Params.debugError (p : Params) (e : StomperError) : String :=
  "StomperError \x7b message: " ++ p.debugStr e.message ++ " \x7d"

namespace ClientSession

/-- `AsyncStompClient::send_event` and `sender.send`, while the receiver is there. -/
def sendEvent (s : ClientSession) (e : ClientEvent) : ClientSession :=
  { s with events := s.events ++ [e] }

/-- `insert` (`some`) and `remove` (`none`) on the table of active subscriptions. -/
def setSubscription (s : ClientSession) (clientSubscriptionId : SubscriptionId)
    (entry : Option (DestinationId × SubscriptionId)) : ClientSession :=
  { s with
    activeSubscriptionsByClientId :=
      Function.update s.activeSubscriptionsByClientId clientSubscriptionId entry }

/-- `ready(Ok((ClientState::Alive, message)))`. -/
def alive (s : ClientSession) (message : Option ServerMessage) : Handled :=
  ⟨s, .alive, message, none, none⟩

/-- `ready(Ok((ClientState::Dead, None)))`. -/
def dead (s : ClientSession) : Handled := ⟨s, .dead, none, none, none⟩

/-- `frame_result`. -/
def frameResult (s : ClientSession) (frame : ServerFrame) : Handled := s.alive (some (.inl frame))

/-- `error`: an ERROR frame, and a `Close` for the session itself. -/
def error (s : ClientSession) (message : String) : Handled :=
  (s.sendEvent .close).frameResult (.error message)

/-- `unsubscribe`. -/
def unsubscribe (s : ClientSession) (clientSubscriptionId : SubscriptionId) : Handled :=
  match s.activeSubscriptionsByClientId clientSubscriptionId with
  | none => s.error
      ("Attempt to unsubscribe from unknown subscription: " ++ clientSubscriptionId.str)
  | some (destinationId, destinationSubId) =>
    { s.alive none with call := some (.unsubscribe destinationId destinationSubId) }

/-- `handle`. -/
def handle (s : ClientSession) : ClientFrame → Option Handled
  | .connect _ => some (s.error "Already connected.")
  | .subscribe destination id =>
    some { s.alive none with call := some (.subscribe ⟨destination⟩ (some ⟨id⟩)) }
  | .send destination body =>
    -- `frame.body().unwrap()`
    body.map fun body =>
      { s.alive none with call := some (.send ⟨destination⟩ ⟨none, body⟩) }
  | .disconnect => some s.dead
  | .unsubscribe id => some (s.unsubscribe ⟨id⟩)
  -- `todo!()`
  | .abort => none
  | .ack => none
  | .begin => none
  | .commit => none
  | .nack => none

/-- `client_frame`. -/
def clientFrame (p : Params) (s : ClientSession) : StomperResult ClientFrame → Option Handled
  | .error err => some (s.error ("Error processing client message: " ++ p.debugError err))
  | .ok frame => s.handle frame

/-- `subscribed`. -/
def subscribed (s : ClientSession) (destination : DestinationId)
    (clientSubscriptionId : SubscriptionId) (result : StomperResult SubscriptionId) : Handled :=
  match result with
  | .ok destinationSubId =>
    (s.setSubscription clientSubscriptionId (some (destination, destinationSubId))).alive none
  | .error _ => s.alive none

/-- `unsubscribed`. -/
def unsubscribed (s : ClientSession) (clientSubscriptionId : SubscriptionId)
    (result : StomperResult SubscriptionId) : Handled :=
  if result.isOk then (s.setSubscription clientSubscriptionId none).alive none
  else s.alive none

/-- The frame built by `server_message`. -/
def messageFrame (clientSubscriptionId : SubscriptionId) (message : OutboundMessage) :
    MessageFrame where
  messageId := message.messageId.str
  destination := message.destination.str
  subscription := clientSubscriptionId.str
  contentType := "text/plain"
  contentLength := UInt32.ofNat message.body.length
  body := message.body

/-- `server_message`. -/
def serverMessage (s : ClientSession) (clientSubscriptionId : SubscriptionId)
    (message : OutboundMessage) : Handled :=
  s.frameResult (.message (messageFrame clientSubscriptionId message))

/-- The frame built for `ClientEvent::Connected`. -/
def connectedFrame (client : Client) (heartbeat : HeartBeatIntervalls) : ConnectedFrame :=
  ⟨.v1_2, heartbeat, client.session, client.server⟩

/-- `handle_event`.  `resetFails` tells whether resetting the server heartbeat returns an
error; an error from the client heartbeat is only logged. -/
def handleEvent (p : Params) (s : ClientSession) (resetFails : Bool) :
    ClientEvent → Option Handled
  | .connected heartbeat => some (s.frameResult (.connected (connectedFrame s.client heartbeat)))
  | .close => some s.dead
  | .clientFrame result =>
    (s.clientFrame p result).map fun h => { h with reset := some .client }
  | .clientHeartbeat => some { s.alive none with reset := some .client }
  | .serverMessage clientSubscriptionId message =>
    if resetFails then none
    else some { s.serverMessage clientSubscriptionId message with reset := some .server }
  | .subscribed destination clientSubscriptionId result =>
    some (s.subscribed destination clientSubscriptionId result)
  | .unsubscribed clientSubscriptionId result => some (s.unsubscribed clientSubscriptionId result)
  | .error message => some (s.error message)
  | .heartbeat => some (s.alive (some (.inr eol)))

end ClientSession

/-! ## Connecting -/

/-- `is_heartbeat`. -/
def isHeartbeat (bytes : Bytes) : Bool := bytes = [10] || bytes = [13, 10]

/-- `parse_client_message`. -/
def parseClientMessage (p : Params) (bytes : Bytes) : StomperResult (Option ClientFrame) :=
  if isHeartbeat bytes then .ok none else (p.parse bytes).map some

/-- The event made of an item of the client's stream; `none` is its end, where the stream
is chained with a `Close`. -/
def clientEvent (p : Params) : Option (StomperResult Bytes) → ClientEvent
  | none => .close
  | some (.error err) => .clientFrame (.error err)
  | some (.ok bytes) =>
    match parseClientMessage p bytes with
    | .ok none => .clientHeartbeat
    | .ok (some frame) => .clientFrame (.ok frame)
    | .error err => .clientFrame (.error err)

/-- `validate_and_connect`. -/
def validateAndConnect (firstMessage : ClientEvent) (factory : ClientFactory) :
    StomperResult (HeartBeatIntervalls × Client) :=
  match firstMessage with
  | .clientFrame (.ok (.connect frame)) =>
    if .v1_2 ∉ frame.acceptVersion then .error ⟨"Only STOMP 1.2 is supported"⟩
    else (factory frame.login frame.passcode).map fun client => (frame.heartbeat, client)
  | _ => .error ⟨"First message must be a CONNECT frame"⟩

/-- `a * b` on `u32`: out of range it panics if overflow is checked, else it wraps. -/
def mulU32 (p : Params) (a b : UInt32) : Option UInt32 :=
  if p.overflowChecks && decide (2 ^ 32 ≤ a.toNat * b.toNat) then none else some (a * b)

/-- `HEARTBEAT_BUFFER_PERCENT`. -/
def heartbeatBufferPercent : UInt32 := 20

/-- The period in milliseconds of the timer that watches the client; `0` never ticks. -/
def clientHeartbeatPeriod (p : Params) (supplied : UInt32) : Option Nat :=
  if supplied > 0 then
    (mulU32 p supplied (heartbeatBufferPercent + 100)).map fun product => (product / 100).toNat
  else some 0

/-- A session with an empty table, as `handle_connection_validation_result` makes it;
`none` if computing the client's heartbeat period panics. -/
def ClientSession.new (p : Params) (requested : HeartBeatIntervalls) (client : Client) :
    Option ClientSession :=
  (clientHeartbeatPeriod p requested.supplied).map fun period =>
    { events := []
      activeSubscriptionsByClientId := fun _ => none
      client := client
      serverHeartbeat := requested.expected.toNat
      clientHeartbeat := period
      listening := true }

/-! ## Sessions -/

/-- A call of `process_stream`: it waits for the first item, runs a connected session, or
is over, which drops the session together with its channel. -/
inductive Session where
  | awaiting
  | running (s : ClientSession)
  | ended

/-- What can be observed of a session. -/
inductive SessionObs where
  /-- `handle_event` was called. -/
  | handled (event : ClientEvent)
  /-- A timer was told to start anew. -/
  | reset (timer : HeartbeatTimer)
  /-- A method of `Destinations` was called. -/
  | call (call : DestinationCall)
  /-- A message was passed to the sink. -/
  | output (message : ServerMessage)
  /-- The task panicked. -/
  | panicked
  deriving DecidableEq

/-- What makes a session move. -/
inductive SessionInput where
  /-- The first item of the client's stream, and the factory the session was given. -/
  | first (item : Option (StomperResult Bytes)) (factory : ClientFactory)
  /-- The merge takes the next item of the client's stream. -/
  | client (item : Option (StomperResult Bytes))
  /-- The merge takes the next event of the session's own channel. -/
  | own (resetFails : Bool)
  /-- The merge takes a tick of the server heartbeat. -/
  | heartbeat
  /-- The timer of the heartbeat listener ticks. -/
  | missedHeartbeat
  /-- A destination calls the session's proxy. -/
  | deliver (event : ClientEvent)
  /-- The sink fails, and the response task with it. -/
  | sinkFails

namespace Session

/-- `client_message_received`: whatever the client sends starts its timer anew, before it is
looked at. -/
def clientMessageReceived : ClientEvent → List SessionObs
  | .clientFrame _ => [.reset .client]
  | .clientHeartbeat => [.reset .client]
  | _ => []

/-- `handle_event` within `all_events.then(..).take_while(not_dead)`: the session goes on
unless the handler panicked or said `Dead`.  A call of `Destinations` runs inside the
handler, so it panics there. -/
def run (p : Params) (panics : DestinationCall → Bool) (s : ClientSession) (resetFails : Bool)
    (e : ClientEvent) : Session × List SessionObs :=
  match s.handleEvent p resetFails e with
  | none => (ended, .handled e :: clientMessageReceived e ++ [.panicked])
  | some h =>
    let done := .handled e :: h.reset.toList.map .reset ++ h.call.toList.map .call
    if h.call.any panics then (ended, done ++ [.panicked])
    else match h.state with
      | .dead => (ended, done)
      | .alive => (running h.session, done ++ h.message.toList.map .output)

/-- `validate_and_connect` and `handle_connection_validation_result`: an ERROR frame and
nothing else, or a session that handles `Connected` before all other events. -/
def connect (p : Params) (firstMessage : ClientEvent) (factory : ClientFactory) :
    Session × List SessionObs :=
  match validateAndConnect firstMessage factory with
  | .error err => (ended, [.output (.inl (.error err.message))])
  | .ok (requested, client) =>
    match ClientSession.new p requested client with
    | none => (ended, [.panicked])
    | some s =>
      run p (fun _ => false) s false (.connected ⟨requested.expected, requested.supplied⟩)

/-- One step of a session. -/
def step (p : Params) (panics : DestinationCall → Bool) :
    Session → SessionInput → Option (Session × List SessionObs)
  | awaiting, .first item factory => some (connect p (clientEvent p item) factory)
  | running s, .client item => some (run p panics s false (clientEvent p item))
  | running s, .own resetFails =>
    match s.events with
    | [] => none
    | e :: events => some (run p panics { s with events := events } resetFails e)
  | running s, .heartbeat =>
    if 0 < s.serverHeartbeat then some (run p panics s false .heartbeat) else none
  | running s, .missedHeartbeat =>
    if s.listening && decide (0 < s.clientHeartbeat) then
      some (running ({ s with listening := false }.sendEvent (.error "Missed heartbeat")), [])
    else none
  | running s, .deliver e => if e.fromSubscriber then some (running (s.sendEvent e), []) else none
  | running _, .sinkFails => some (ended, [])
  | _, _ => none

/-- A session with arbitrary surroundings: a label says what makes it move and which calls
on the destinations panic. -/
def lts (p : Params) : LTS Session (SessionInput × (DestinationCall → Bool)) SessionObs where
  step s l := s.step p l.2 l.1

end Session
