/-
# Client frames on the wire

The bytes a client sends for a frame, and a parser that knows a given list of frames.
The parser of the model is a parameter; concrete runs take this one.  It reads back the frames of
the run, which are written with the headers that STOMP 1.2 requires, and refuses everything else.
-/
import LittleStomper.System

/-- The bytes of a text of ASCII characters. -/
def ascii (text : String) : Bytes := text.toList.map fun c => UInt8.ofNat c.toNat

/-- A version as it is written in `accept-version`. -/
def StompVersion.text : StompVersion → String
  | v1_0 => "1.0"
  | v1_1 => "1.1"
  | v1_2 => "1.2"
  | unknown version => version

namespace ClientFrame

/-- A header line, if there is a value. -/
def header (name : String) : Option String → Bytes
  | none => []
  | some value => ascii name ++ ascii ":" ++ ascii value ++ eol

/-- A frame is a command, headers, an empty line, a body and a null byte. -/
def encodeWith (command : String) (headers : Bytes) (body : Bytes) : Bytes :=
  ascii command ++ eol ++ headers ++ eol ++ body ++ [0]

/-- The two numbers of a `heart-beat` header. -/
def heartbeatText (heartbeat : HeartBeatIntervalls) : String :=
  toString heartbeat.supplied.toNat ++ "," ++ toString heartbeat.expected.toNat

/-- The bytes of a frame.  The required headers that a session does not read (the `host` of
CONNECT, the `receipt` of DISCONNECT, and those of the frames that it does not implement) have
fixed values. -/
def encode : ClientFrame → Bytes
  | connect frame => encodeWith "CONNECT"
      (header "accept-version" (some (",".intercalate (frame.acceptVersion.map StompVersion.text)))
        ++ header "host" (some "localhost")
        ++ header "heart-beat" (some (heartbeatText frame.heartbeat))
        ++ header "login" frame.login ++ header "passcode" frame.passcode) []
  | subscribe destination id => encodeWith "SUBSCRIBE"
      (header "destination" (some destination) ++ header "id" (some id)) []
  | send destination body => encodeWith "SEND" (header "destination" (some destination))
      (body.getD [])
  | unsubscribe id => encodeWith "UNSUBSCRIBE" (header "id" (some id)) []
  | disconnect => encodeWith "DISCONNECT" (header "receipt" (some "receipt-0")) []
  | abort => encodeWith "ABORT" (header "transaction" (some "tx-0")) []
  | ack => encodeWith "ACK" (header "id" (some "ack-0")) []
  | begin => encodeWith "BEGIN" (header "transaction" (some "tx-0")) []
  | commit => encodeWith "COMMIT" (header "transaction" (some "tx-0")) []
  | nack => encodeWith "NACK" (header "id" (some "ack-0")) []

/-- A client sends the frame. -/
def item (frame : ClientFrame) : Option (StomperResult Bytes) := some (.ok frame.encode)

end ClientFrame

/-- A build with a parser that knows the given frames. -/
def Params.knowing (frames : List ClientFrame) (overflowChecks : Bool) : Params where
  parse bytes :=
    match frames.find? fun frame => frame.encode = bytes with
    | some frame => .ok frame
    | none => .error ⟨"Unable to parse frame"⟩
  debugStr s := "\"" ++ s ++ "\""
  overflowChecks := overflowChecks

/-! ## The frames of concrete runs -/

/-- A CONNECT frame without heartbeats. -/
def sampleConnect : ClientFrame := .connect ⟨[.v1_2], ⟨0, 0⟩, none, none⟩

/-- The destination of the concrete runs. -/
def sampleDestination : DestinationId := ⟨"/queue/a"⟩

/-- Another destination. -/
def otherDestination : DestinationId := ⟨"/queue/b"⟩

/-- A subscription to the first. -/
def sampleSubscribe : ClientFrame := .subscribe "/queue/a" "sub-0"

/-- The end of this subscription. -/
def sampleUnsubscribe : ClientFrame := .unsubscribe "sub-0"

/-- A second subscription under the same id, to another destination. -/
def sampleResubscribe : ClientFrame := .subscribe "/queue/b" "sub-0"

/-- A message to the first destination. -/
def sampleSend : ClientFrame := .send "/queue/a" (some (ascii "hello"))

/-- A build whose parser knows these frames and some more. -/
def sampleParams (frames : List ClientFrame) : Params :=
  Params.knowing (sampleConnect :: sampleSubscribe :: sampleResubscribe :: sampleUnsubscribe ::
    sampleSend :: frames) true

namespace Label

/-- A client connects. -/
def connects (c : SessionId) : Label :=
  .session c (.first sampleConnect.item defaultClientFactory)

/-- A session handles a frame of its client. -/
def frame (c : SessionId) (frame : ClientFrame) : Label := .session c (.client frame.item)

/-- A session handles an event of its own channel. -/
def own (c : SessionId) : Label := .session c (.own false)

/-- The client of session 0 connects and sends its SUBSCRIBE. -/
def subscribing : List Label := [connects 0, frame 0 sampleSubscribe]

/-- The client of session 0 connects and subscribes, and the session learns of it. -/
def subscribed : List Label :=
  subscribing ++
    [.create sampleDestination, .subscribe 0, .backend sampleDestination "uuid-0" [], own 0]

end Label
