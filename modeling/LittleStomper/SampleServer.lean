/-
# The sample server

`src/bin/sample_server.rs`: every WebSocket connection is a session, and all sessions share
the destinations.  A WebSocket message becomes an item of the session's stream
(`handle_message`); what the session passes to its sink becomes a text message, and waits with
the other messages of the connection for the response processor, which writes them to the
socket.

The sink turns bytes into a text with `String::from_utf8(bytes).unwrap()`, which panics if they
are not valid UTF-8.  It runs in the task of the session, so the session is over then, together
with its channel.

Left to parameters (`SampleParams`): how frames are written, and when the sink of the external
`sender_sink` notices that its channel is closed.
-/
import LittleStomper.System
import LittleStomper.Library.Utf8

/-- `tungstenite::Message`. -/
inductive Message where
  | text (text : String)
  | binary (bytes : Bytes)
  | ping (bytes : Bytes)
  | pong (bytes : Bytes)
  | close (frame : Option (UInt16 × String))
  | frame (bytes : Bytes)
  deriving DecidableEq

/-- What the model of the sample server leaves open. -/
structure SampleParams extends Params where
  /-- A CONNECTED frame, whose headers are texts. -/
  connectedText : ConnectedFrame → String
  /-- An ERROR frame with a message. -/
  errorText : String → String
  /-- A MESSAGE frame up to its body: the command and the headers. -/
  messageHead : MessageFrame → String
  /-- `poll_ready` of `UnboundedSenderSink` fails if the channel is closed, and not only
  `start_send`. -/
  readyFails : Bool

/-! ## Bytes for the sink -/

/-- `Vec<u8>` of a `ServerFrame`: the body of a MESSAGE frame stands in it as it is, with a null
byte behind it. -/
def ServerFrame.bytes (p : SampleParams) : ServerFrame → Bytes
  | .connected frame => Utf8.encode (p.connectedText frame)
  | .message frame => Utf8.encode (p.messageHead frame) ++ frame.body ++ [0]
  | .error text => Utf8.encode (p.errorText text)

/-- `into_opt_ok_of_bytes`, for a message. -/
def ServerMessage.bytes (p : SampleParams) : ServerMessage → Bytes
  | .inl frame => frame.bytes p
  | .inr bytes => bytes

/-- The closure in front of the sink, `Message::text(String::from_utf8(bytes).unwrap())`;
`none` is a panic. -/
def textMessage (bytes : Bytes) : Option Message := (Utf8.decode bytes).map .text

/-- What becomes of bytes that are passed to a sink. -/
inductive SinkOutcome where
  | accepted (message : Message) (channel : Mailbox Message)
  | failed
  | panicked

/-- The sink is polled, then the closure runs, then the message is sent. -/
def sendBytes (p : SampleParams) (channel : Mailbox Message) (bytes : Bytes) : SinkOutcome :=
  if p.readyFails && channel.isGone then .failed
  else
    match textMessage bytes with
    | none => .panicked
    | some message =>
      match channel.send message with
      | some channel => .accepted message channel
      | none => .failed

/-! ## Messages of the WebSocket -/

/-- `handle_message`, with the channel it may send messages back to. -/
def handleMessage (messageChannel : Mailbox Message) :
    Message → Mailbox Message × StomperResult (Option Bytes)
  | .ping bytes =>
    match messageChannel.send (.pong bytes) with
    | some messageChannel => (messageChannel, .ok none)
    | none => (messageChannel, .error ⟨"Unable to send return message"⟩)
  | .pong _ => (messageChannel, .ok none)
  | .close frame =>
    -- forwarded to stop the response processor; if the channel is closed that is only logged
    ((messageChannel.send (.close frame)).getD messageChannel, .error ⟨"WebSocketChannel closed"⟩)
  | .text text => (messageChannel, .ok (some (Utf8.encode text)))
  | .binary bytes => (messageChannel, .ok (some bytes))
  | .frame _ => (messageChannel, .ok none)

/-- `bytes_stream`: what an item of the WebSocket stream (`none` is its end, an error comes with
its text) adds to the session's stream, if anything. -/
def incoming (messageChannel : Mailbox Message) :
    Option (Except String Message) → Mailbox Message × Option (Option (StomperResult Bytes))
  | none => (messageChannel, some none)
  | some (.error err) => (messageChannel, some (some (.error ⟨"Websocket error: " ++ err⟩)))
  | some (.ok msg) =>
    match handleMessage messageChannel msg with
    | (messageChannel, .ok none) => (messageChannel, none)
    | (messageChannel, .ok (some bytes)) => (messageChannel, some (some (.ok bytes)))
    | (messageChannel, .error err) => (messageChannel, some (some (.error err)))

/-- How a session takes an item: the first one comes with the `DefaultClientFactory`. -/
def Session.input (item : Option (StomperResult Bytes)) : Session → SessionInput
  | .awaiting => .first item defaultClientFactory
  | _ => .client item

/-! ## The server -/

/-- The sessions and destinations, and the channel of every connection: what waits for its
response processor. -/
structure SampleServer where
  world : World
  channels : SessionId → Mailbox Message

/-- Who moves. -/
inductive SampleLabel where
  /-- A session takes an item of its WebSocket. -/
  | message (c : SessionId) (item : Option (Except String Message))
  /-- Somebody moves, but for the WebSockets. -/
  | world (l : Label)
  /-- The response processor of a connection takes a message. -/
  | respond (c : SessionId)
  /-- The response processor of a connection is over. -/
  | hangUp (c : SessionId)

/-- What can be observed of the server. -/
inductive SampleObs where
  | world (o : Obs)
  /-- The sink of a connection has sent a message. -/
  | sent (c : SessionId) (message : Message)
  /-- The sink of a connection panicked, in the task of the session. -/
  | sinkPanicked (c : SessionId)
  /-- A message was written to a socket. -/
  | written (c : SessionId) (message : Message)
  deriving DecidableEq

namespace SampleServer

/-- All connections are new. -/
def initial : SampleServer := ⟨.initial, fun _ => .listening []⟩

variable (p : SampleParams) (x : SampleServer)

def setChannel (c : SessionId) (channel : Mailbox Message) : SampleServer :=
  { x with channels := Function.update x.channels c channel }

/-- The message passed to a sink in a step, if there is one. -/
def outputOf (os : List Obs) : Option (SessionId × ServerMessage) :=
  os.findSome? fun o => match o with
    | .session c (.output message) => some (c, message)
    | _ => none

/-- The end of a step of the sessions and destinations: what was put out goes through the sink.
A sink that fails or panics ends the session. -/
def settle (r : World × List Obs) : SampleServer × List SampleObs :=
  match outputOf r.2 with
  | none => ({ x with world := r.1 }, r.2.map .world)
  | some (c, message) =>
    match sendBytes p (x.channels c) (message.bytes p) with
    | .accepted message channel =>
      ({ x with world := r.1 }.setChannel c channel, r.2.map .world ++ [.sent c message])
    | .failed => ({ x with world := r.1.setSession c .ended }, r.2.map .world)
    | .panicked =>
      ({ x with world := r.1.setSession c .ended }, r.2.map .world ++ [.sinkPanicked c])

/-- Somebody moves. -/
def move (l : Label) : Option (SampleServer × List SampleObs) :=
  (x.world.step p.toParams l).map (x.settle p)

/-- A session that is not over takes an item of its WebSocket. -/
def stepMessage (c : SessionId) (item : Option (Except String Message)) :
    Option (SampleServer × List SampleObs) :=
  match x.world.sessions c with
  | .ended => none
  | s =>
    let r := incoming (x.channels c) item
    match r.2 with
    | none => some (x.setChannel c r.1, [])
    | some item => (x.setChannel c r.1).move p (.session c (s.input item))

/-- The items of a session come from its WebSocket, and its sink fails if the channel behind it
is closed. -/
def allows : Label → Bool
  | .session _ (.first _ _) => false
  | .session _ (.client _) => false
  | .session c .sinkFails => (x.channels c).isGone
  | _ => true

/-- The response processor takes a message: it writes it to the socket, but stops at a close
message. -/
def stepRespond (c : SessionId) : Option (SampleServer × List SampleObs) :=
  (x.channels c).recv.map fun r =>
    match r.1 with
    | .close _ => (x.setChannel c r.2.leave, [])
    | message => (x.setChannel c r.2, [.written c message])

/-- One step of the server.  A response processor may be over at any time, as its socket may
fail. -/
def step : SampleLabel → Option (SampleServer × List SampleObs)
  | .message c item => x.stepMessage p c item
  | .world l => if x.allows l then x.move p l else none
  | .respond c => x.stepRespond c
  | .hangUp c => if (x.channels c).isGone then none else some (x.setChannel c .finished, [])

/-- The server and its clients, in any order of their steps. -/
def lts : LTS SampleServer SampleLabel SampleObs where
  step x l := x.step p l

end SampleServer

namespace SampleObs

/-- What is observed of the sessions and destinations. -/
def ofWorld? : SampleObs → Option Obs
  | world o => some o
  | _ => none

/-- A sink panicked. -/
def isSinkPanic : SampleObs → Bool
  | sinkPanicked _ => true
  | _ => false

@[simp] theorem filterMap_ofWorld?_map_world (os : List Obs) :
    (os.map world).filterMap ofWorld? = os := by
  rw [List.filterMap_map]
  exact List.filterMap_some

/-- Something is observed of the sessions and destinations. -/
theorem mem_ofWorld {o : Obs} {tr : List SampleObs} : o ∈ tr.filterMap ofWorld? ↔ world o ∈ tr := by
  rw [List.mem_filterMap]
  constructor
  · rintro ⟨o', ho', heq⟩
    cases o' with
    | world o'' => exact Option.some.inj heq ▸ ho'
    | _ => cases heq
  · exact fun h => ⟨_, h, rfl⟩

end SampleObs
