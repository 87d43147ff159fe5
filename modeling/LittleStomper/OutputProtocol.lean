/-
# The output protocol of a session

What a client may see: one ERROR frame if its first item is not accepted, else a
CONNECTED frame followed by MESSAGE frames, ERROR frames and heartbeats; and nothing
after a handled DISCONNECT or `Close`.

There is one exception.  The period of the client's heartbeat is computed as
`supplied * 120 / 100` on `u32`; in a build with overflow checks the product can panic,
and then an accepted client sees nothing at all (`outputProtocol_iff`).
-/
import LittleStomper.ClientStep
import LittleStomper.Library.Trace
import LittleStomper.Wire

open ClientEvent Trace

/-! ## Accepted first items -/

/-- The first item is a CONNECT frame for STOMP 1.2, and the factory makes a client of it. -/
def Accepts (p : Params) (item : Option (StomperResult Bytes)) (factory : ClientFactory)
    (frame : ConnectFrame) (client : Client) : Prop :=
  ∃ bytes, item = some (.ok bytes) ∧ isHeartbeat bytes = false ∧
    p.parse bytes = .ok (.connect frame) ∧ .v1_2 ∈ frame.acceptVersion ∧
    factory frame.login frame.passcode = .ok client

/-- The first item is accepted, but the period of the client's heartbeat overflows in a build
that checks for it. -/
def Overflows (p : Params) (item : Option (StomperResult Bytes)) (factory : ClientFactory) : Prop :=
  p.overflowChecks = true ∧ ∃ frame client, Accepts p item factory frame client ∧
    2 ^ 32 ≤ frame.heartbeat.supplied.toNat * 120

/-- An item is a client frame exactly if its bytes parse to it. -/
theorem clientEvent_eq_clientFrame {p : Params} {item : Option (StomperResult Bytes)}
    {frame : ClientFrame} : clientEvent p item = .clientFrame (.ok frame) ↔
      ∃ bytes, item = some (.ok bytes) ∧ isHeartbeat bytes = false ∧ p.parse bytes = .ok frame := by
  rcases item with _ | err | bytes
  · simp [clientEvent]
  · simp [clientEvent]
  · by_cases hbeat : isHeartbeat bytes = true
    · simp [clientEvent, parseClientMessage, hbeat]
    · cases hparse : p.parse bytes with
      | error err => simp [clientEvent, parseClientMessage, hbeat, hparse, Except.map]
      | ok frame' => simp [clientEvent, parseClientMessage, hbeat, hparse, Except.map]

/-- **`validate_and_connect` accepts exactly such items.** -/
theorem validateAndConnect_eq_ok {p : Params} {item : Option (StomperResult Bytes)}
    {factory : ClientFactory} {requested : HeartBeatIntervalls} {client : Client} :
    validateAndConnect (clientEvent p item) factory = .ok (requested, client) ↔
      ∃ frame, Accepts p item factory frame client ∧ frame.heartbeat = requested := by
  constructor
  · intro h
    obtain ⟨frame, hevent⟩ : ∃ frame, clientEvent p item = .clientFrame (.ok (.connect frame)) := by
      unfold validateAndConnect at h
      split at h
      · exact ⟨_, by assumption⟩
      · cases h
    obtain ⟨bytes, hitem, hbeat, hparse⟩ := clientEvent_eq_clientFrame.mp hevent
    rw [hevent, validateAndConnect] at h
    split at h
    · cases h
    · rename_i hversion
      rw [not_not] at hversion
      cases hfactory : factory frame.login frame.passcode with
      | error err =>
          rw [hfactory] at h
          cases h
      | ok client' =>
          rw [hfactory] at h
          obtain ⟨hheartbeat, rfl⟩ := Prod.mk.inj (Except.ok.inj h)
          exact ⟨frame, ⟨bytes, hitem, hbeat, hparse, hversion, hfactory⟩, hheartbeat⟩
  · rintro ⟨frame, ⟨bytes, hitem, hbeat, hparse, hversion, hfactory⟩, rfl⟩
    rw [clientEvent_eq_clientFrame.mpr ⟨bytes, hitem, hbeat, hparse⟩, validateAndConnect,
      if_neg (not_not.mpr hversion), hfactory]
    rfl

/-- The frame and the client of an accepted item are determined. -/
theorem Accepts.unique {p : Params} {item : Option (StomperResult Bytes)}
    {factory : ClientFactory} {frame frame' : ConnectFrame} {client client' : Client}
    (h : Accepts p item factory frame client) (h' : Accepts p item factory frame' client') :
    frame = frame' ∧ client = client' := by
  obtain ⟨bytes, hitem, -, hparse, -, hfactory⟩ := h
  obtain ⟨bytes', hitem', -, hparse', -, hfactory'⟩ := h'
  obtain rfl := Except.ok.inj (Option.some.inj (hitem.symm.trans hitem'))
  obtain rfl := ClientFrame.connect.inj (Except.ok.inj (hparse.symm.trans hparse'))
  exact ⟨rfl, Except.ok.inj (hfactory.symm.trans hfactory')⟩

/-- When the product of the heartbeat's period panics. -/
theorem new_eq_none_iff {p : Params} {requested : HeartBeatIntervalls} {client : Client} :
    ClientSession.new p requested client = none ↔
      p.overflowChecks = true ∧ 2 ^ 32 ≤ requested.supplied.toNat * 120 := by
  rw [ClientSession.new, Option.map_eq_none_iff, clientHeartbeatPeriod]
  have hfactor : (heartbeatBufferPercent + 100).toNat = 120 := rfl
  split
  · rw [Option.map_eq_none_iff, mulU32, hfactor]
    simp
  · rename_i hzero
    have hsupplied : requested.supplied.toNat = 0 := by
      have hle : requested.supplied ≤ 0 := UInt32.not_lt.mp hzero
      simpa using UInt32.le_iff_toNat_le.mp hle
    simp [hsupplied]

/-! ## What is observed -/

namespace SessionObs

/-- The message output in an observation. -/
def output? : SessionObs → Option ServerMessage
  | output m => some m
  | _ => none

/-- Everything a session has output. -/
def outputs (tr : List SessionObs) : List ServerMessage := tr.filterMap output?

/-- A method of `Destinations` is called. -/
def isCall : SessionObs → Bool
  | call _ => true
  | _ => false

/-- A CONNECTED frame is output. -/
def isConnected : SessionObs → Bool
  | output (.inl (.connected _)) => true
  | _ => false

/-- A DISCONNECT frame or a `Close` is handled. -/
def endsSession : SessionObs → Bool
  | handled e => e.ends
  | _ => false

/-- An event is handled or something is output. -/
def continues : SessionObs → Bool
  | handled _ => true
  | output _ => true
  | _ => false

@[simp] theorem outputs_append (tr os : List SessionObs) :
    outputs (tr ++ os) = outputs tr ++ outputs os := List.filterMap_append

end SessionObs

open SessionObs

/-- What a connected session puts out: MESSAGE frames, ERROR frames and heartbeats. -/
inductive Ordinary : ServerMessage → Prop
  | message (frame : MessageFrame) : Ordinary (.inl (.message frame))
  | error (text : String) : Ordinary (.inl (.error text))
  | heartbeat : Ordinary (.inr eol)

/-- **The output protocol** of a session with the given first item. -/
structure OutputProtocol (p : Params) (item : Option (StomperResult Bytes))
    (factory : ClientFactory) (tr : List SessionObs) : Prop where
  /-- One ERROR frame and no call, or CONNECTED and then nothing out of the ordinary. -/
  shape : (∃ text, outputs tr = [.inl (.error text)] ∧ Never isCall tr) ∨
    ∃ frame rest, outputs tr = .inl (.connected frame) :: rest ∧ ∀ m ∈ rest, Ordinary m
  /-- The client is connected exactly if its first item is accepted. -/
  connects : (∃ frame rest, outputs tr = .inl (.connected frame) :: rest) ↔
    ∃ frame client, Accepts p item factory frame client
  /-- The heart-beat of CONNECTED is the client's with its components swapped. -/
  swaps : ∀ connected, .inl (.connected connected) ∈ outputs tr →
    ∀ frame client, Accepts p item factory frame client →
      connected.heartbeat = ⟨frame.heartbeat.expected, frame.heartbeat.supplied⟩
  /-- Calls come behind CONNECTED. -/
  calls : OnlyBehind isConnected isCall tr
  /-- Behind a DISCONNECT or `Close` nothing is handled and nothing is output. -/
  ended : NoneBehind endsSession continues tr

namespace Session

/-! ## After CONNECTED -/

/-- What a session has observed since it was connected. -/
structure Proceeds (s : Session) (tr : List SessionObs) : Prop where
  ordinary : ∀ m ∈ outputs tr, Ordinary m
  ended : NoneBehind endsSession continues tr
  alive : ∀ r, s = running r → ¬ Seen endsSession tr ∧ ∀ e ∈ r.events, ∀ i, e ≠ .connected i
  started : s ≠ awaiting

variable {p : Params}

/-- Handling an event other than `Connected`: what is output is ordinary, and nothing is
handled or output behind an event that ends the session. -/
theorem Handles.proceeds {s : ClientSession} {resetFails : Bool} {e : ClientEvent} {s' : Session}
    {os : List SessionObs} (h : Handles p s resetFails e s' os)
    (hwaiting : ∀ e ∈ s.events, ∀ i, e ≠ .connected i) (hne : ∀ i, e ≠ .connected i) :
    Proceeds s' os := by
  have hbegun : outputs (begun s e) = [] := by
    rw [outputs, List.filterMap_eq_nil_iff]
    intro o ho
    simp only [begun, List.mem_append, List.mem_cons, List.mem_map] at ho
    rcases ho with (rfl | ⟨timer, -, rfl⟩) | ⟨call, -, rfl⟩ <;> rfl
  have hquiet : Never continues
      (e.timer?.toList.map .reset
        ++ (e.call? s.activeSubscriptionsByClientId).toList.map .call) := by
    intro o ho
    simp only [List.mem_append, List.mem_map] at ho
    rcases ho with ⟨timer, -, rfl⟩ | ⟨call, -, rfl⟩ <;> rfl
  have hfirst : ∀ rest, Never continues rest →
      NoneBehind endsSession continues (.handled e :: rest) := by
    intro rest hrest pre o post heq ho
    rcases pre with _ | ⟨o', pre⟩
    · obtain ⟨-, rfl⟩ := List.cons.inj heq
      exact hrest
    · obtain ⟨-, rfl⟩ := List.cons.inj heq
      exact fun o' ho' => hrest o' (by simp [ho'])
  cases h with
  | stuck hpanic =>
      have hnone : outputs (.handled e :: clientMessageReceived e ++ [.panicked]) = [] := by
        cases e <;> rfl
      refine ⟨by rw [hnone]; simp, ?_, fun r hr => (by cases hr), by simp⟩
      rw [List.cons_append]
      exact hfirst _ (by cases e <;> simp [clientMessageReceived, Never, continues])
  | callPanics hpanic hcall =>
      refine ⟨?_, ?_, fun r hr => (by cases hr), by simp⟩
      · rw [outputs_append, hbegun]
        simp [outputs, output?]
      · rw [begun, List.cons_append, List.cons_append]
        exact hfirst _ (never_append.mpr ⟨hquiet, by simp [Never, continues]⟩)
  | ends hpanic hends =>
      refine ⟨by simp [hbegun], ?_, fun r hr => (by cases hr), by simp⟩
      rw [begun, List.cons_append]
      exact hfirst _ hquiet
  | goesOn hpanic hends =>
      have hnot : ¬ Seen endsSession
          (begun s e ++ (s.message? p e).toList.map SessionObs.output) := by
        rw [not_seen_iff]
        intro o ho
        simp only [begun, List.mem_append, List.mem_cons, List.mem_map] at ho
        rcases ho with ((rfl | ⟨timer, -, rfl⟩) | ⟨call, -, rfl⟩) | ⟨m, -, rfl⟩
        · exact hends
        · rfl
        · rfl
        · rfl
      refine ⟨?_, NoneBehind.of_not_seen hnot, ?_, by simp⟩
      · intro m hm
        rw [outputs_append, hbegun, List.nil_append] at hm
        have hm : s.message? p e = some m := by
          cases hmsg : s.message? p e with
          | none => simp [hmsg, outputs] at hm
          | some m' => simpa [hmsg, outputs, output?, eq_comm] using hm
        rw [ClientSession.message?] at hm
        split at hm
        · obtain rfl := Option.some.inj hm
          exact Ordinary.error _
        · cases e with
          | connected i => exact absurd rfl (hne i)
          | serverMessage i message =>
              obtain rfl := Option.some.inj hm
              exact Ordinary.message _
          | heartbeat =>
              obtain rfl := Option.some.inj hm
              exact Ordinary.heartbeat
          | _ => simp [plain?] at hm
      · rintro r hr
        obtain rfl := Session.running.inj hr
        refine ⟨hnot, fun e' he' i => ?_⟩
        rw [ClientSession.after, List.mem_append] at he'
        rcases he' with he' | he'
        · exact hwaiting e' he' i
        · split at he'
          · obtain rfl := List.mem_singleton.mp he'
            simp
          · simp at he'

/-- An item of the client's stream is never a `Connected`. -/
theorem clientEvent_ne_connected (item : Option (StomperResult Bytes)) (i : HeartBeatIntervalls) :
    clientEvent p item ≠ .connected i := by
  unfold clientEvent
  split
  · simp
  · simp
  · split <;> simp

/-- **Every step after CONNECTED keeps the protocol.** -/
theorem Proceeds.step {s s' : Session} {input : SessionInput} {tr os : List SessionObs}
    (h : Proceeds s tr) (hturn : Turn p s input s' os) : Proceeds s' (tr ++ os) := by
  have hgo : ∀ {r : ClientSession}, s = running r → Proceeds s' os → Proceeds s' (tr ++ os) := by
    intro r hr hos
    obtain ⟨hopen, -⟩ := h.alive r hr
    refine ⟨fun m hm => ?_, ?_, fun r' hr' => ?_, hos.started⟩
    · rw [outputs_append, List.mem_append] at hm
      exact hm.elim (h.ordinary m) (hos.ordinary m)
    · exact (noneBehind_append h.ended hos.ended).mpr fun hs => absurd hs hopen
    · rw [seen_append, not_or]
      exact ⟨⟨hopen, (hos.alive r' hr').1⟩, (hos.alive r' hr').2⟩
  cases hturn with
  | rejected hfirst => exact absurd rfl h.started
  | overflows hfirst hnew => exact absurd rfl h.started
  | connected hfirst hnew => exact absurd rfl h.started
  | client hhandles =>
      exact hgo rfl (hhandles.proceeds (h.alive _ rfl).2 (clientEvent_ne_connected _))
  | @own s₀ resetFails e events s' os hevents hhandles =>
      have hwaiting := (h.alive _ rfl).2
      rw [hevents] at hwaiting
      exact hgo rfl (hhandles.proceeds (fun e' he' => hwaiting e' (List.mem_cons_of_mem _ he'))
        (hwaiting e List.mem_cons_self))
  | heartbeat hheartbeat hhandles =>
      exact hgo rfl (hhandles.proceeds (h.alive _ rfl).2 (by simp))
  | @missed s₀ hlistening hheartbeat =>
      refine hgo rfl ⟨by simp [outputs], NoneBehind.of_not_seen not_seen_nil, ?_, by simp⟩
      intro r hr
      obtain rfl := Session.running.inj hr
      refine ⟨not_seen_nil, fun e he i => ?_⟩
      rcases List.mem_append.mp he with he | he
      · exact (h.alive _ rfl).2 e he i
      · obtain rfl := List.mem_singleton.mp he
        simp
  | @delivered s₀ e hfrom =>
      refine hgo rfl ⟨by simp [outputs], NoneBehind.of_not_seen not_seen_nil, ?_, by simp⟩
      intro r hr
      obtain rfl := Session.running.inj hr
      refine ⟨not_seen_nil, fun e' he i => ?_⟩
      rcases List.mem_append.mp he with he | he
      · exact (h.alive _ rfl).2 e' he i
      · obtain rfl := List.mem_singleton.mp he
        rintro rfl
        simp [fromSubscriber] at hfrom
  | sinkFails =>
      exact hgo rfl ⟨by simp [outputs], NoneBehind.of_not_seen not_seen_nil,
        fun r hr => (by cases hr), by simp⟩

/-- From a connected session on the protocol is kept. -/
theorem proceeds {s s' : Session} {ls : List (SessionInput × (DestinationCall → Bool))}
    {tr : List SessionObs} (h : (lts p).Run LTS.Free s ls tr s')
    (hstart : ∀ r, s = running r → ∀ e ∈ r.events, ∀ i, e ≠ .connected i)
    (hne : s ≠ awaiting) : Proceeds s' tr := by
  refine h.invariant ⟨by simp [outputs], NoneBehind.of_not_seen not_seen_nil,
    fun r hr => ⟨not_seen_nil, hstart r hr⟩, hne⟩ fun _ ih _ hstep => ?_
  exact ih.step (turn_of_step hstep)

/-- A session that is over does nothing. -/
theorem ended_run {s' : Session} {ls : List (SessionInput × (DestinationCall → Bool))}
    {tr : List SessionObs} (h : (lts p).Run LTS.Free ended ls tr s') : tr = [] := by
  have hinv : s' = ended ∧ tr = [] := by
    refine h.invariant (P := fun s tr => s = ended ∧ tr = []) ⟨rfl, rfl⟩ ?_
    rintro _ _ _ _ _ ⟨input, panics⟩ - ⟨rfl, -⟩ - hstep
    cases input <;> cases hstep
  exact hinv.2

/-! ## The protocol -/

/-- **The output protocol holds** of a session with arbitrary surroundings **if and only if**
the period of its client's heartbeat does not overflow. -/
theorem outputProtocol_iff {item : Option (StomperResult Bytes)} {factory : ClientFactory}
    {panics : DestinationCall → Bool} {ls : List (SessionInput × (DestinationCall → Bool))}
    {tr : List SessionObs} {s : Session}
    (h : (lts p).Run LTS.Free awaiting ((.first item factory, panics) :: ls) tr s) :
    OutputProtocol p item factory tr ↔ ¬ Overflows p item factory := by
  obtain ⟨s₁, os, tr', -, hstep, hrest, rfl⟩ := h.uncons
  have hturn : Turn p awaiting (.first item factory) s₁ os :=
    turn_of_step (show step p panics awaiting (.first item factory) = some (s₁, os) from hstep)
  cases hturn with
  | @rejected _ _ err hfirst =>
      obtain rfl := ended_run hrest
      have hnot : ¬ ∃ frame client, Accepts p item factory frame client := by
        rintro ⟨frame, client, haccepts⟩
        rw [validateAndConnect_eq_ok.mpr ⟨frame, haccepts, rfl⟩] at hfirst
        cases hfirst
      refine ⟨fun _ hover => ?_, fun _ => ⟨?_, ?_, ?_, ?_, ?_⟩⟩
      · obtain ⟨-, frame, client, haccepts, -⟩ := hover
        exact hnot ⟨frame, client, haccepts⟩
      · exact Or.inl ⟨err.message, rfl, by simp [Never, isCall]⟩
      · refine ⟨?_, fun hex => absurd hex hnot⟩
        rintro ⟨frame, rest, heq⟩
        simp [outputs, output?] at heq
      · intro connected hmem
        simp [outputs, output?] at hmem
      · exact OnlyBehind.of_never (by simp [Never, isCall])
      · exact NoneBehind.of_not_seen (by simp [Seen, endsSession])
  | @overflows _ _ requested client hfirst hnew =>
      obtain rfl := ended_run hrest
      obtain ⟨frame, haccepts, rfl⟩ := validateAndConnect_eq_ok.mp hfirst
      have hover : Overflows p item factory := by
        obtain ⟨hchecks, hbig⟩ := new_eq_none_iff.mp hnew
        exact ⟨hchecks, frame, client, haccepts, hbig⟩
      refine ⟨fun hprotocol => ?_, fun hno => absurd hover hno⟩
      obtain ⟨connected, rest, heq⟩ := hprotocol.connects.mpr ⟨frame, client, haccepts⟩
      cases heq
  | @connected _ _ requested client s₀ hfirst hnew =>
      obtain ⟨frame, haccepts, rfl⟩ := validateAndConnect_eq_ok.mp hfirst
      obtain ⟨hevents, -, -⟩ := new_eq_some hnew
      have hproceeds := proceeds hrest (fun r hr e he => by
        obtain rfl := Session.running.inj hr
        rw [hevents] at he
        simp at he) (by simp)
      have hnot : ¬ Overflows p item factory := by
        rintro ⟨hchecks, frame', client', haccepts', hbig⟩
        obtain ⟨rfl, rfl⟩ := haccepts.unique haccepts'
        rw [new_eq_none_iff.mpr ⟨hchecks, hbig⟩] at hnew
        cases hnew
      set connected := ClientSession.connectedFrame client
        ⟨frame.heartbeat.expected, frame.heartbeat.supplied⟩ with hconnected
      have houtputs : ∀ o, outputs ([.handled o, .output (.inl (.connected connected))] ++ tr')
          = .inl (.connected connected) :: outputs tr' := fun o => rfl
      refine ⟨fun _ => hnot, fun _ => ⟨?_, ?_, ?_, ?_, ?_⟩⟩
      · exact Or.inr ⟨connected, outputs tr', houtputs _, hproceeds.ordinary⟩
      · exact ⟨fun _ => ⟨frame, client, haccepts⟩, fun _ => ⟨connected, outputs tr', houtputs _⟩⟩
      · intro connected' hmem frame' client' haccepts'
        obtain ⟨rfl, rfl⟩ := haccepts.unique haccepts'
        rw [houtputs, List.mem_cons] at hmem
        rcases hmem with heq | hmem
        · obtain rfl := ServerFrame.connected.inj (Sum.inl.inj heq)
          rfl
        · cases hproceeds.ordinary _ hmem
      · refine OnlyBehind.append (OnlyBehind.of_never ?_) ?_
        · simp [Never, isCall]
        · exact ⟨_, List.mem_cons_of_mem _ List.mem_cons_self, rfl⟩
      · rw [noneBehind_append (NoneBehind.of_not_seen ?_) hproceeds.ended]
        · simp [Seen, endsSession, ClientEvent.ends]
        · simp [Seen, endsSession, ClientEvent.ends]

/-- A CONNECT frame whose client promises a heartbeat every 35791395 milliseconds. -/
def slowConnect : ClientFrame := .connect ⟨[.v1_2], ⟨35791395, 0⟩, none, none⟩

/-- The theorem applied to a client that connects and disconnects. -/
theorem outputProtocol_iff_disconnect :
    let frame := sampleConnect
    let p := Params.knowing [frame, .disconnect] true
    let ls : List (SessionInput × (DestinationCall → Bool)) :=
      [(.client (ClientFrame.item .disconnect), fun _ => false)]
    ∃ tr s, (lts p).Run LTS.Free awaiting
        ((.first frame.item defaultClientFactory, fun _ => false) :: ls) tr s ∧
      (OutputProtocol p frame.item defaultClientFactory tr ↔
        ¬ Overflows p frame.item defaultClientFactory) := by
  intro frame p ls
  have hrun := LTS.Run.exec_get (lts p) LTS.Free awaiting
    ((.first frame.item defaultClientFactory, fun _ => false) :: ls) (by decide)
  exact ⟨_, _, hrun, outputProtocol_iff hrun⟩

/-- **An accepted client may see nothing**: in a build with overflow checks the session
panics before it outputs CONNECTED. -/
theorem slow_client_never_connected :
    ¬ ∀ (p : Params) (item : Option (StomperResult Bytes)) (factory : ClientFactory)
        (panics : DestinationCall → Bool) (ls : List (SessionInput × (DestinationCall → Bool)))
        (tr : List SessionObs) (s : Session),
      (lts p).Run LTS.Free awaiting ((.first item factory, panics) :: ls) tr s →
        OutputProtocol p item factory tr := by
  intro hall
  let p := Params.knowing [slowConnect] true
  have hrun := LTS.Run.exec_get (lts p) LTS.Free awaiting
    [(.first slowConnect.item defaultClientFactory, fun _ => false)] (by decide)
  have hprotocol := hall p _ _ _ _ _ _ hrun
  rcases hprotocol.shape with ⟨text, houtputs, -⟩ | ⟨connected, rest, houtputs, -⟩
  · cases houtputs
  · cases houtputs

end Session
