/-
# What the sample server writes to its sockets

Two parties put messages into the channel of a connection: the sink of the session, with the
texts that the session puts out, and `handle_message`, which answers a ping with a pong and
forwards a close message.  The response processor writes them to the socket in this order and
stops at the close message.

So the texts on a socket are, from the first one on, what the session has put out, and the pongs
are the answers to the pings (`socket_in_order`).  The session goes on for a while when its client
has closed the connection, but nothing that it puts out then is written (`silent_after_close`).
-/
import LittleStomper.Library.Drain
import LittleStomper.OutputProtocol
import LittleStomper.SinkPanics

open Obs

/-! ## Messages -/

namespace Message

/-- `is_close`. -/
def isClose : Message → Bool
  | close _ => true
  | _ => false

/-- The text of a text message. -/
def text? : Message → Option String
  | text t => some t
  | _ => none

/-- What a pong brings back. -/
def pong? : Message → Option Bytes
  | pong bytes => some bytes
  | _ => none

/-- A text or a pong. -/
def isReply (m : Message) : Bool := m.text?.isSome || m.pong?.isSome

end Message

namespace SampleLabel

/-- What the client of the connection `c` pings with in the step. -/
def ping? (c : SessionId) : SampleLabel → Option Bytes
  | message c' (some (.ok (.ping bytes))) => if c' = c then some bytes else none
  | _ => none

/-- What `handle_message` sends back to the client of `c` in the step, if it can. -/
def answer? (c : SessionId) : SampleLabel → Option Message
  | message c' (some (.ok (.ping bytes))) => if c' = c then some (.pong bytes) else none
  | message c' (some (.ok (.close frame))) => if c' = c then some (.close frame) else none
  | _ => none

end SampleLabel

namespace SampleObs

/-- What was written to the socket of `c`. -/
def written? (c : SessionId) : SampleObs → Option Message
  | written c' message => if c' = c then some message else none
  | _ => none

/-- All that was written to the socket of `c`. -/
def writtenTo (c : SessionId) (tr : List SampleObs) : List Message := tr.filterMap (written? c)

/-- All that the session `c` has put out. -/
def outputsOf (c : SessionId) (tr : List SampleObs) : List ServerMessage :=
  SessionObs.outputs (atSession c (tr.filterMap ofWorld?))

@[simp] theorem writtenTo_append (c : SessionId) (tr os : List SampleObs) :
    writtenTo c (tr ++ os) = writtenTo c tr ++ writtenTo c os := List.filterMap_append

@[simp] theorem outputsOf_append (c : SessionId) (tr os : List SampleObs) :
    outputsOf c (tr ++ os) = outputsOf c tr ++ outputsOf c os := by
  rw [outputsOf, List.filterMap_append, atSession_append, SessionObs.outputs_append]
  rfl

end SampleObs

open SampleObs

/-! ## The output of a step -/

namespace Session

variable {p : Params} {s s' : Session} {input : SessionInput} {os : List SessionObs}

/-- A handler puts out one message at most. -/
theorem Handles.outputs_cases {r : ClientSession} {resetFails : Bool} {e : ClientEvent}
    (h : Handles p r resetFails e s' os) :
    SessionObs.outputs os = [] ∨ ∃ m, SessionObs.outputs os = [m] := by
  have hbegun : SessionObs.outputs (begun r e) = [] := by
    unfold begun
    cases e.timer? <;> cases e.call? r.activeSubscriptionsByClientId <;> rfl
  cases h with
  | stuck hpanic => exact Or.inl (by cases e <;> rfl)
  | callPanics hpanic hcall =>
      rw [SessionObs.outputs_append, hbegun]
      exact Or.inl rfl
  | ends hpanic hends => exact Or.inl hbegun
  | goesOn hpanic hends =>
      rw [SessionObs.outputs_append, hbegun]
      cases r.message? p e with
      | none => exact Or.inl rfl
      | some m => exact Or.inr ⟨m, rfl⟩

/-- A step of a session puts out one message at most. -/
theorem Turn.outputs_cases (h : Turn p s input s' os) :
    SessionObs.outputs os = [] ∨ ∃ m, SessionObs.outputs os = [m] := by
  cases h with
  | rejected hfirst => exact Or.inr ⟨_, rfl⟩
  | overflows hfirst hnew => exact Or.inl rfl
  | connected hfirst hnew => exact Or.inr ⟨_, rfl⟩
  | client hhandles => exact hhandles.outputs_cases
  | own hevents hhandles => exact hhandles.outputs_cases
  | heartbeat hheartbeat hhandles => exact hhandles.outputs_cases
  | missed hlistening hheartbeat => exact Or.inl rfl
  | delivered hfrom => exact Or.inl rfl
  | sinkFails => exact Or.inl rfl

end Session

namespace SampleServer

variable {p : SampleParams} {x x₁ x' : SampleServer} {l : SampleLabel} {ls : List SampleLabel}
  {tr os : List SampleObs} {ws : List Obs} {w w' : World} {c : SessionId} {m : ServerMessage}

/-- **The output of a step** is what is passed to a sink, if this is that of `c`. -/
theorem outputs_of_step {l₁ : Label} (hstep : w.step p.toParams l₁ = some (w', ws))
    (c : SessionId) :
    SessionObs.outputs (atSession c ws)
      = ((outputOf ws).filter (·.1 = c)).toList.map Prod.snd := by
  have hmem : ∀ m, m ∈ SessionObs.outputs (atSession c ws) ↔ session c (.output m) ∈ ws := by
    intro m
    rw [← mem_atSession, SessionObs.outputs, List.mem_filterMap]
    constructor
    · rintro ⟨o, ho, heq⟩
      cases o with
      | output m' =>
          obtain rfl := Option.some.inj heq
          exact ho
      | _ => cases heq
    · exact fun h => ⟨_, h, rfl⟩
  -- if the session puts out nothing, then what is put out is not its own
  have hother : SessionObs.outputs (atSession c ws) = [] →
      [] = ((outputOf ws).filter (·.1 = c)).toList.map Prod.snd := by
    intro hnil
    cases hout : outputOf ws with
    | none => rfl
    | some output =>
        obtain ⟨c', m⟩ := output
        have hc : c' ≠ c := by
          rintro rfl
          have hin := (hmem m).mpr (mem_of_outputOf hout)
          rw [hnil] at hin
          cases hin
        simp [Option.filter, hc]
  rcases (World.turn_of_step hstep).atSession c with ⟨input, rfl, hturn, -, -⟩ | ⟨hos, -, -⟩
  · rcases hturn.outputs_cases with hnil | ⟨m, hm⟩
    · rw [hnil]
      exact hother hnil
    · -- somebody has put something out, so this is it
      obtain ⟨⟨c', m'⟩, hout⟩ := Option.isSome_iff_exists.mp
        (isSome_outputOf ((hmem m).mp (by rw [hm]; exact List.mem_singleton_self m)))
      obtain ⟨input', heq, -⟩ := puts_of_outputOf hstep hout
      obtain rfl := (Label.session.inj heq).1
      have hin := (hmem m').mpr (mem_of_outputOf hout)
      rw [hm] at hin
      rw [hm, hout, List.mem_singleton.mp hin]
      simp [Option.filter]
  · have hnil : SessionObs.outputs (atSession c ws) = [] := by
      rw [hos]
      rfl
    rw [hnil]
    exact hother hnil

/-! ## One step at a connection -/

/-- **What the sink of `c` does in a step**: it sends the text that the session puts out, or it
ends the session and sends nothing. -/
inductive Sinks (p : SampleParams) (c : SessionId) (channel : Mailbox Message)
    (outputs : List ServerMessage) (w' : World) (x' : SampleServer) : Prop
  | quiet (hnone : outputs = []) (hchannel : x'.channels c = channel)
      (hsession : x'.world.sessions c = w'.sessions c)
  | sends {m : ServerMessage} {text : String} (houtputs : outputs = [m])
      (hbytes : Utf8.encode text = m.bytes p)
      (hsend : channel.send (.text text) = some (x'.channels c))
  | ends {m : ServerMessage} (houtputs : outputs = [m]) (hchannel : x'.channels c = channel)
      (hended : x'.world.sessions c = .ended)

/-- The end of a step is one of these at every connection, and nothing is written. -/
theorem sinks_settle {l₁ : Label} (hstep : w.step p.toParams l₁ = some (w', ws))
    (c : SessionId) :
    Sinks p c (x.channels c) (SessionObs.outputs (atSession c ws)) w' (x.settle p (w', ws)).1 ∧
      writtenTo c (x.settle p (w', ws)).2 = [] := by
  have hwritten : ∀ o, written? c o = none → writtenTo c (ws.map .world ++ [o]) = [] := by
    intro o ho
    rw [writtenTo, List.filterMap_append, List.filterMap_map, List.filterMap_cons_none ho]
    simp [written?, Function.comp_def]
  have hquiet : writtenTo c (ws.map .world) = [] := by
    rw [writtenTo, List.filterMap_map]
    simp [written?, Function.comp_def]
  rw [outputs_of_step hstep c]
  unfold settle
  cases hout : outputOf ws with
  | none => exact ⟨Sinks.quiet rfl rfl rfl, hquiet⟩
  | some output =>
      obtain ⟨c', m⟩ := output
      dsimp only
      by_cases hc : c' = c
      · subst hc
        cases hsend : sendBytes p (x.channels c') (m.bytes p) with
        | accepted message channel =>
            obtain ⟨text, rfl, hbytes, hsent⟩ := sendBytes_accepted hsend
            refine ⟨Sinks.sends (m := m) (by simp [Option.filter]) hbytes ?_, hwritten _ rfl⟩
            simpa [setChannel] using hsent
        | failed =>
            exact ⟨Sinks.ends (m := m) (by simp [Option.filter]) rfl (by simp [World.setSession]),
              hquiet⟩
        | panicked =>
            exact ⟨Sinks.ends (m := m) (by simp [Option.filter]) rfl (by simp [World.setSession]),
              hwritten _ rfl⟩
      · -- the sink of another connection
        have hnone : ((some (c', m)).filter (·.1 = c)).toList.map Prod.snd
            = ([] : List ServerMessage) := by
          simp [Option.filter, hc]
        rw [hnone]
        have hother : c ≠ c' := Ne.symm hc
        cases sendBytes p (x.channels c') (m.bytes p) with
        | accepted message channel =>
            exact ⟨Sinks.quiet rfl (by simp [setChannel, Function.update_of_ne hother]) rfl,
              hwritten _ rfl⟩
        | failed =>
            exact ⟨Sinks.quiet rfl rfl (by simp [World.setSession, Function.update_of_ne hother]),
              hquiet⟩
        | panicked =>
            exact ⟨Sinks.quiet rfl rfl (by simp [World.setSession, Function.update_of_ne hother]),
              hwritten _ rfl⟩

/-- What `handle_message` puts into the channel of `c` in the step. -/
def answers (x : SampleServer) (c : SessionId) (l : SampleLabel) : List Message :=
  if (x.channels c).isGone then [] else (l.answer? c).toList

/-- **What happens to the connection `c` in a step**: `sent` are the texts that its sink sends. -/
structure Exchange (p : SampleParams) (c : SessionId) (x : SampleServer) (l : SampleLabel)
    (x' : SampleServer) (os : List SampleObs) (sent : List String) : Prop where
  flow : Mailbox.Flow Message.isClose (x.channels c) (x.answers c l ++ sent.map .text)
    (writtenTo c os) (x'.channels c)
  sent : sent.map Utf8.encode = (outputsOf c os).map (·.bytes p) ∨
    sent = [] ∧ x.world.sessions c ≠ .ended ∧ x'.world.sessions c = .ended
  ended : x.world.sessions c = .ended → outputsOf c os = [] ∧ x'.world.sessions c = .ended

/-- `handle_message` puts its answer into the channel, if there is a receiver. -/
theorem posts_incoming (channel : Mailbox Message) (item : Option (Except String Message))
    (c : SessionId) :
    Mailbox.Posts channel
      (if channel.isGone then [] else ((SampleLabel.message c item).answer? c).toList)
      (incoming channel item).1 := by
  have hsend : ∀ message, Mailbox.Posts channel (if channel.isGone then [] else [message])
      ((channel.send message).getD channel) := by
    intro message
    cases hsent : channel.send message with
    | none =>
        rw [if_pos (Mailbox.send_eq_none.mp hsent)]
        exact Mailbox.Posts.nil channel
    | some channel' =>
        rw [if_neg fun hgone => by rw [Mailbox.send_eq_none.mpr hgone] at hsent; cases hsent]
        exact Mailbox.Posts.single hsent
  have hnil : Mailbox.Posts channel (if channel.isGone then [] else []) channel := by
    rw [ite_self]
    exact Mailbox.Posts.nil channel
  cases item with
  | none => exact hnil
  | some result =>
      cases result with
      | error err => exact hnil
      | ok msg =>
          cases msg with
          | ping bytes =>
              have hpong := hsend (.pong bytes)
              simp only [SampleLabel.answer?, if_true, Option.toList_some]
              cases hsent : channel.send (.pong bytes) <;>
                simpa [incoming, handleMessage, hsent] using hpong
          | close frame =>
              simp only [SampleLabel.answer?, if_true, Option.toList_some]
              exact hsend (.close frame)
          | _ => exact hnil

/-- A step of the sessions and destinations, after something was put into the channel. -/
theorem exchange_of_move {l₁ : Label} (hmove : x₁.move p l₁ = some (x', os))
    (hworld : x₁.world = x.world)
    (hposts : Mailbox.Posts (x.channels c) (x.answers c l) (x₁.channels c)) :
    ∃ sent, Exchange p c x l x' os sent := by
  obtain ⟨⟨w', ws⟩, hstep, heq⟩ := Option.map_eq_some_iff.mp hmove
  obtain ⟨hsinks, hwritten⟩ := sinks_settle (x := x₁) hstep c
  obtain ⟨hos, -⟩ := settle_world (p := p) (x := x₁) (w', ws)
  rw [heq] at hsinks hwritten hos
  have houtputs : outputsOf c os = SessionObs.outputs (atSession c ws) := by rw [outputsOf, hos]
  rw [← houtputs] at hsinks
  -- a session that is over puts nothing out
  have hended : x.world.sessions c = .ended →
      outputsOf c os = [] ∧ w'.sessions c = .ended := by
    intro hc
    rw [← hworld] at hc
    have hturn := World.turn_of_step hstep
    refine ⟨?_, hturn.ended hc⟩
    rw [houtputs]
    rcases hturn.atSession c with ⟨input, -, hsession, -, -⟩ | ⟨hnone, -, -⟩
    · rw [hc] at hsession
      cases hsession
    · rw [hnone]
      rfl
  cases hsinks with
  | quiet hnone hchannel hsession =>
      refine ⟨[], ?_, Or.inl ?_, ?_⟩
      · rw [hwritten, hchannel, List.map_nil, List.append_nil]
        exact Mailbox.Flow.posts hposts
      · rw [hnone]
        rfl
      · rw [hsession]
        exact hended
  | @sends m text hm hbytes hsend =>
      refine ⟨[text], ?_, Or.inl ?_, ?_⟩
      · rw [hwritten]
        exact Mailbox.Flow.posts (hposts.trans (Mailbox.Posts.single hsend))
      · simp [hm, hbytes]
      · intro hc
        rw [hm] at hended
        cases (hended hc).1
  | @ends m hm hchannel hover =>
      have hbegun : x.world.sessions c ≠ .ended := by
        intro hc
        rw [hm] at hended
        cases (hended hc).1
      refine ⟨[], ?_, Or.inr ⟨rfl, hbegun, hover⟩, fun hc => absurd hc hbegun⟩
      rw [hwritten, hchannel, List.map_nil, List.append_nil]
      exact Mailbox.Flow.posts hposts

/-- A step that touches neither the sessions nor the destinations. -/
theorem Exchange.beside (hworld : x'.world = x.world)
    (hos : os.filterMap SampleObs.ofWorld? = [])
    (hflow : Mailbox.Flow Message.isClose (x.channels c) (x.answers c l) (writtenTo c os)
      (x'.channels c)) : Exchange p c x l x' os [] := by
  have hnone : outputsOf c os = [] := by
    rw [outputsOf, hos]
    rfl
  refine ⟨?_, Or.inl ?_, fun hc => ⟨hnone, hworld ▸ hc⟩⟩
  · rw [List.map_nil, List.append_nil]
    exact hflow
  · rw [hnone]
    rfl

/-- **Every step is an exchange** at every connection. -/
theorem exchange_of_step (hstep : x.step p l = some (x', os)) (c : SessionId) :
    ∃ sent, Exchange p c x l x' os sent := by
  have hsilent : ∀ {l : SampleLabel}, l.answer? c = none → x.answers c l = [] := by
    intro l hl
    rw [answers, hl]
    exact ite_self []
  cases l with
  | message c' item =>
      have hposts : Mailbox.Posts (x.channels c) (x.answers c (.message c' item))
          ((x.setChannel c' (incoming (x.channels c') item).1).channels c) := by
        by_cases hc : c' = c
        · subst hc
          simpa [setChannel, answers] using posts_incoming (x.channels c') item c'
        · have hnone : (SampleLabel.message c' item).answer? c = none := by
            unfold SampleLabel.answer?
            split <;> simp_all
          rw [hsilent hnone]
          simp only [setChannel, Function.update_of_ne (Ne.symm hc)]
          exact Mailbox.Posts.nil _
      have hmessage : x.stepMessage p c' item = some (x', os) := hstep
      unfold stepMessage at hmessage
      split at hmessage
      · cases hmessage
      · cases hitem : (incoming (x.channels c') item).2 with
        | none =>
            simp only [hitem] at hmessage
            obtain ⟨rfl, rfl⟩ := Prod.mk.inj (Option.some.inj hmessage)
            exact ⟨[], Exchange.beside rfl rfl (Mailbox.Flow.posts hposts)⟩
        | some item' =>
            simp only [hitem] at hmessage
            exact exchange_of_move hmessage rfl hposts
  | world l₁ =>
      have hworld : (if x.allows l₁ then x.move p l₁ else none) = some (x', os) := hstep
      split at hworld
      · refine exchange_of_move hworld rfl ?_
        rw [hsilent rfl]
        exact Mailbox.Posts.nil _
      · cases hworld
  | respond c' =>
      obtain ⟨⟨message, channel⟩, hrecv, heq⟩ := Option.map_eq_some_iff.mp hstep
      have hother : c ≠ c' → ∀ channel', (x.setChannel c' channel').channels c = x.channels c :=
        fun hc channel' => Function.update_of_ne hc _ _
      by_cases hclose : message.isClose = true
      · obtain ⟨frame, rfl⟩ : ∃ frame, message = .close frame := by
          cases message <;> simp [Message.isClose] at hclose ⊢
        obtain ⟨rfl, rfl⟩ := Prod.mk.inj heq
        refine ⟨[], Exchange.beside rfl rfl ?_⟩
        rw [hsilent rfl]
        by_cases hc : c = c'
        · subst hc
          simpa [setChannel, writtenTo] using Mailbox.Flow.stops hrecv hclose
        · rw [hother hc]
          exact Mailbox.Flow.posts (Mailbox.Posts.nil _)
      · obtain ⟨rfl, rfl⟩ : x.setChannel c' channel = x' ∧ [.written c' message] = os := by
          cases message with
          | close frame => exact absurd rfl hclose
          | _ => exact Prod.mk.inj heq
        refine ⟨[], Exchange.beside rfl rfl ?_⟩
        rw [hsilent rfl]
        by_cases hc : c = c'
        · subst hc
          have hpasses : Mailbox.Flow Message.isClose _ [] [message] channel :=
            .passes hrecv (by simpa using hclose)
          simpa [setChannel, writtenTo, written?] using hpasses
        · rw [hother hc]
          have hidle : Mailbox.Flow Message.isClose _ [] [] (x.channels c) := .posts (.nil _)
          simpa [writtenTo, written?, Ne.symm hc] using hidle
  | hangUp c' =>
      have hhang : (if (x.channels c').isGone then none
        else some (x.setChannel c' .finished, [])) = some (x', os) := hstep
      split at hhang
      · cases hhang
      · obtain ⟨rfl, rfl⟩ := Prod.mk.inj (Option.some.inj hhang)
        refine ⟨[], Exchange.beside rfl rfl ?_⟩
        rw [hsilent rfl]
        by_cases hc : c = c'
        · subst hc
          simpa [setChannel, writtenTo] using Mailbox.Flow.givesUp (x.channels c)
        · have hidle : Mailbox.Flow Message.isClose _ [] [] (x.channels c) := .posts (.nil _)
          simpa [setChannel, writtenTo, Function.update_of_ne hc] using hidle

/-! ## Runs -/

/-- What `handle_message` puts into a channel is a pong, or forwards a close message. -/
theorem mem_answers {message : Message} (h : message ∈ x.answers c l) :
    message.text? = none ∧ (message.isClose || message.isReply) = true := by
  unfold answers at h
  split at h
  · cases h
  · rw [Option.mem_toList] at h
    unfold SampleLabel.answer? at h
    split at h
    · rw [Option.ite_none_right_eq_some] at h
      obtain ⟨-, heq⟩ := h
      obtain rfl := Option.some.inj heq
      exact ⟨rfl, rfl⟩
    · rw [Option.ite_none_right_eq_some] at h
      obtain ⟨-, heq⟩ := h
      obtain rfl := Option.some.inj heq
      exact ⟨rfl, rfl⟩
    · cases h

/-- The texts put into the channel in a step are those of the sink. -/
theorem texts_posted (sent : List String) :
    (x.answers c l ++ sent.map Message.text).filterMap Message.text? = sent := by
  have hanswers : (x.answers c l).filterMap Message.text? = [] :=
    List.filterMap_eq_nil_iff.mpr fun _ h => (mem_answers h).1
  rw [List.filterMap_append, hanswers, List.filterMap_map, List.nil_append]
  exact List.filterMap_some

/-- The pongs put into the channel in a step answer the ping, if there is a receiver. -/
theorem pongs_posted (sent : List String) :
    (x.answers c l ++ sent.map Message.text).filterMap Message.pong? =
      if (x.channels c).isGone then [] else (l.ping? c).toList := by
  have htexts : (sent.map Message.text).filterMap Message.pong? = [] := by
    rw [List.filterMap_map]
    exact List.filterMap_eq_nil_iff.mpr fun _ _ => rfl
  rw [List.filterMap_append, htexts, List.append_nil, answers]
  split
  · rfl
  · cases l with
    | message c' item =>
        by_cases hc : c' = c
        · unfold SampleLabel.answer? SampleLabel.ping?
          split <;> simp_all [Message.pong?]
        · unfold SampleLabel.answer? SampleLabel.ping?
          split <;> simp_all
    | _ => rfl

/-- **The account of a connection**: `posted` was put into its channel. -/
structure Socket (p : SampleParams) (c : SessionId) (posted : List Message) (x : SampleServer)
    (ls : List SampleLabel) (tr : List SampleObs) : Prop where
  drains : Mailbox.Drains Message.isClose posted (writtenTo c tr) (x.channels c)
  kinds : ∀ message ∈ posted, (message.isClose || message.isReply) = true
  texts : (posted.filterMap Message.text?).map Utf8.encode <+:
    (outputsOf c tr).map (·.bytes p)
  complete : x.world.sessions c ≠ .ended →
    (posted.filterMap Message.text?).map Utf8.encode = (outputsOf c tr).map (·.bytes p)
  pongs : posted.filterMap Message.pong? <+: ls.filterMap (SampleLabel.ping? c)
  answered : (x.channels c).isGone = false →
    posted.filterMap Message.pong? = ls.filterMap (SampleLabel.ping? c)

/-- **Every step keeps the account.** -/
theorem Socket.step {posted : List Message} {sent : List String} (h : Socket p c posted x ls tr)
    (hex : Exchange p c x l x' os sent) :
    Socket p c (posted ++ (x.answers c l ++ sent.map Message.text)) x' (ls ++ [l]) (tr ++ os) := by
  have htexts : ((posted ++ (x.answers c l ++ sent.map Message.text)).filterMap Message.text?).map
      Utf8.encode = (posted.filterMap Message.text?).map Utf8.encode ++ sent.map Utf8.encode := by
    rw [List.filterMap_append, texts_posted, List.map_append]
  have houtputs : (outputsOf c (tr ++ os)).map (·.bytes p)
      = (outputsOf c tr).map (·.bytes p) ++ (outputsOf c os).map (·.bytes p) := by
    rw [outputsOf_append, List.map_append]
  have hpings : (ls ++ [l]).filterMap (SampleLabel.ping? c)
      = ls.filterMap (SampleLabel.ping? c) ++ (l.ping? c).toList := by
    cases hl : l.ping? c <;> simp [hl]
  have hgone : (x.channels c).isGone = true → (x'.channels c).isGone = true :=
    fun hg => (hex.flow.of_gone hg).2.2
  constructor
  · rw [writtenTo_append]
    exact h.drains.flow hex.flow
  · intro message hmem
    rcases List.mem_append.mp hmem with hold | hnew
    · exact h.kinds message hold
    · rcases List.mem_append.mp hnew with hanswer | htext
      · exact (mem_answers hanswer).2
      · obtain ⟨t, -, rfl⟩ := List.mem_map.mp htext
        rfl
  · rw [htexts, houtputs]
    by_cases hended : x.world.sessions c = .ended
    · -- nothing is put out any more, so nothing was sent
      rcases hex.sent with hsent | ⟨-, hne, -⟩
      · rw [hsent, (hex.ended hended).1, List.map_nil, List.append_nil, List.append_nil]
        exact h.texts
      · exact absurd hended hne
    · rw [h.complete hended]
      rcases hex.sent with hsent | ⟨rfl, -, -⟩
      · rw [hsent]
      · rw [List.map_nil, List.append_nil]
        exact List.prefix_append _ _
  · intro hrunning
    have hbegun : x.world.sessions c ≠ .ended := fun hended => hrunning (hex.ended hended).2
    rw [htexts, houtputs, h.complete hbegun]
    rcases hex.sent with hsent | ⟨-, -, hended⟩
    · rw [hsent]
    · exact absurd hended hrunning
  · rw [List.filterMap_append, pongs_posted, hpings]
    cases hg : (x.channels c).isGone with
    | true =>
        rw [if_pos rfl, List.append_nil]
        exact h.pongs.trans (List.prefix_append _ _)
    | false =>
        rw [if_neg (by simp), h.answered hg]
  · intro hg'
    have hg : (x.channels c).isGone = false := by
      rw [Bool.eq_false_iff]
      intro hg
      rw [hgone hg] at hg'
      cases hg'
    rw [List.filterMap_append, pongs_posted, hpings, h.answered hg, hg, if_neg (by simp)]

/-- When nothing waits for the response processor, it has written everything. -/
theorem Socket.all_written {posted : List Message} (h : Socket p c posted x ls tr)
    (hchannel : x.channels c = .listening []) : posted = writtenTo c tr := by
  rw [h.drains.waiting [] hchannel, List.append_nil]

/-- Every run has such an account of every connection. -/
theorem socket {C : SampleServer → SampleLabel → Prop} (hrun : (lts p).Run C initial ls tr x)
    (c : SessionId) : ∃ posted, Socket p c posted x ls tr := by
  induction hrun with
  | refl =>
      exact ⟨[], Mailbox.Drains.start, by simp, List.prefix_rfl, fun _ => rfl, List.prefix_rfl,
        fun _ => rfl⟩
  | snoc _ _ hstep ih =>
      obtain ⟨posted, hsocket⟩ := ih
      obtain ⟨sent, hex⟩ := exchange_of_step hstep c
      exact ⟨_, hsocket.step hex⟩

/-- **What is written to a socket.**  In every run the texts on the socket of a connection are,
from the first one on and in order, what its session has put out; the pongs bring back the first
pings of the client, in order; and there is nothing else on it.  While the session goes on and
nothing waits for the response processor, no text and no pong is missing. -/
theorem socket_in_order (hrun : (lts p).Run LTS.Free initial ls tr x) (c : SessionId) :
    ((writtenTo c tr).filterMap Message.text?).map Utf8.encode <+:
        (outputsOf c tr).map (·.bytes p) ∧
      (writtenTo c tr).filterMap Message.pong? <+: ls.filterMap (SampleLabel.ping? c) ∧
      (∀ message ∈ writtenTo c tr, message.isReply = true) ∧
      (x.channels c = .listening [] → x.world.sessions c ≠ .ended →
        ((writtenTo c tr).filterMap Message.text?).map Utf8.encode =
            (outputsOf c tr).map (·.bytes p) ∧
          (writtenTo c tr).filterMap Message.pong? = ls.filterMap (SampleLabel.ping? c)) := by
  obtain ⟨posted, hsocket⟩ := socket hrun c
  have hfirst := hsocket.drains.passed_first
  refine ⟨?_, ?_, ?_, ?_⟩
  · exact ((hfirst.filterMap _).map _).trans hsocket.texts
  · exact (hfirst.filterMap _).trans hsocket.pongs
  · intro message hmem
    have hkind := hsocket.kinds message (hfirst.subset hmem)
    rwa [hsocket.drains.stop_eq_false hmem, Bool.false_or] at hkind
  · intro hchannel hgoing
    rw [← hsocket.all_written hchannel]
    exact ⟨hsocket.complete hgoing, hsocket.answered (by rw [hchannel]; rfl)⟩

/-- The client of session 0 connects and pings, and the response processor writes both answers. -/
def pinged : List SampleLabel :=
  [binary 0 sampleConnect, .message 0 (some (.ok (.ping [1, 2]))), .respond 0, .respond 0]

/-- The theorem applied to this client. -/
theorem socket_in_order_pinged :
    let p := sampleServerParams
    ∃ tr x, (lts p).Run LTS.Free initial pinged tr x ∧ (writtenTo 0 tr).length = 2 ∧
      ((writtenTo 0 tr).filterMap Message.text?).map Utf8.encode =
        (outputsOf 0 tr).map (·.bytes p) ∧
      (writtenTo 0 tr).filterMap Message.pong? = [[1, 2]] := by
  intro p
  have hrun := LTS.Run.exec_get (lts p) LTS.Free initial pinged (by decide)
  have hgoing : ((((lts p).exec LTS.Free initial pinged).get (by decide)).1.world.sessions
      0).isOpen = true := by decide
  have hall := (socket_in_order hrun 0).2.2.2 (by decide)
    (by intro hended; rw [hended] at hgoing; cases hgoing)
  exact ⟨_, _, hrun, by decide, hall⟩

/-- **After the client has closed the connection** nothing is written that was not put out or
pinged for before, whatever the session does until it is over. -/
theorem silent_after_close {ls' : List SampleLabel} {tr' : List SampleObs}
    {frame : Option (UInt16 × String)} (hrun : (lts p).Run LTS.Free initial ls tr x)
    (hrun' : (lts p).Run LTS.Free x (.message c (some (.ok (.close frame))) :: ls') tr' x') :
    ((writtenTo c (tr ++ tr')).filterMap Message.text?).map Utf8.encode <+:
        (outputsOf c tr).map (·.bytes p) ∧
      (writtenTo c (tr ++ tr')).filterMap Message.pong? <+:
        ls.filterMap (SampleLabel.ping? c) := by
  obtain ⟨posted, hsocket⟩ := socket hrun c
  have hwritten : writtenTo c (tr ++ tr') <+: posted := by
    obtain ⟨x₁, os, tr₁, -, hstep, hrest, rfl⟩ := hrun'.uncons
    have hstep : x.step p (.message c (some (.ok (.close frame)))) = some (x₁, os) := hstep
    obtain ⟨sent, hex⟩ := exchange_of_step hstep c
    cases hgone : (x.channels c).isGone with
    | true =>
        -- nothing is written any more
        obtain ⟨-, hos, hgone₁⟩ := hex.flow.of_gone hgone
        have hnone : (x'.channels c).isGone = true ∧ writtenTo c tr₁ = [] := by
          refine hrest.invariant
            (P := fun x tr => (x.channels c).isGone = true ∧ writtenTo c tr = [])
            ⟨hgone₁, rfl⟩ ?_
          rintro ls₂ tr₂ os₂ x₂ x₃ l₂ - ⟨hgone₂, hnil⟩ - hstep₂
          obtain ⟨sent₂, hex₂⟩ := exchange_of_step hstep₂ c
          obtain ⟨-, hos₂, hgone₃⟩ := hex₂.flow.of_gone hgone₂
          rw [writtenTo_append, hnil, hos₂]
          exact ⟨hgone₃, rfl⟩
        rw [writtenTo_append, writtenTo_append, hos, hnone.2, List.append_nil, List.append_nil]
        exact hsocket.drains.passed_first
    | false =>
        -- the close message waits behind what was posted before
        have hanswers : x.answers c (.message c (some (.ok (.close frame)))) = [.close frame] := by
          simp [answers, hgone, SampleLabel.answer?]
        have hdrains : ∃ more, Mailbox.Drains Message.isClose (posted ++ .close frame :: more)
            (writtenTo c (tr ++ os ++ tr₁)) (x'.channels c) := by
          refine hrest.invariant (P := fun x tr₂ => ∃ more, Mailbox.Drains Message.isClose
            (posted ++ .close frame :: more) (writtenTo c (tr ++ os ++ tr₂)) (x.channels c)) ?_ ?_
          · have hfirst := hsocket.drains.flow hex.flow
            rw [hanswers, List.singleton_append] at hfirst
            rw [List.append_nil, writtenTo_append]
            exact ⟨_, hfirst⟩
          · rintro ls₂ tr₂ os₂ x₂ x₃ l₂ - ⟨more, hdrains⟩ - hstep₂
            obtain ⟨sent₂, hex₂⟩ := exchange_of_step hstep₂ c
            have hnext := hdrains.flow hex₂.flow
            rw [List.append_assoc, List.cons_append] at hnext
            rw [← List.append_assoc, writtenTo_append]
            exact ⟨_, hnext⟩
        obtain ⟨more, hdrains⟩ := hdrains
        rw [← List.append_assoc]
        exact hdrains.before rfl
  exact ⟨((hwritten.filterMap _).map _).trans hsocket.texts,
    (hwritten.filterMap _).trans hsocket.pongs⟩

/-- The theorem applied to a client that connects and closes the connection: the ERROR frame that
its session puts out then is not written. -/
theorem silent_after_close_connected :
    let p := sampleServerParams
    ∃ tr x tr' x', (lts p).Run LTS.Free initial [binary 0 sampleConnect] tr x ∧
      (lts p).Run LTS.Free x
        [.message 0 (some (.ok (.close none))), .respond 0, .respond 0] tr' x' ∧
      (outputsOf 0 (tr ++ tr')).length = 2 ∧ (writtenTo 0 (tr ++ tr')).length = 1 ∧
      ((writtenTo 0 (tr ++ tr')).filterMap Message.text?).map Utf8.encode <+:
        (outputsOf 0 tr).map (·.bytes p) := by
  intro p
  have hrun := LTS.Run.exec_get (lts p) LTS.Free initial [binary 0 sampleConnect] (by decide)
  have hrun' := LTS.Run.exec_get (lts p) LTS.Free
    (((lts p).exec LTS.Free initial [binary 0 sampleConnect]).get (by decide)).1
    [.message 0 (some (.ok (.close none))), .respond 0, .respond 0] (by decide)
  exact ⟨_, _, _, _, hrun, hrun', by decide, by decide, (silent_after_close hrun hrun').1⟩

end SampleServer
