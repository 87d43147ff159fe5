/-
# From one client to another

What a subscriber gets of a sender, from the SEND frames of the one to the MESSAGE frames of the
other.  The way leads through two queues and a backend that hands every message to all
subscribers: the sender's frames are published as one block (`Enqueues`), a subscription gets one
block of what is published (`LogEntry.feed_block`), and a session passes on the first of what it
has got.

So the frames of one subscription bring one block of the frames of each sender, with nothing left
out, repeated or put elsewhere (`one_block_of_each_sender`), however the messages of different
senders are mixed.
-/
import LittleStomper.Requests
import LittleStomper.Wire

open Obs DestinationObs

/-! ## The messages of a sender -/

/-- The message that a backend publishes for the session `c`. -/
def DestinationObs.publishedFor? (d : DestinationId) (c : SessionId) :
    DestinationObs ProxyBox → Option OutboundMessage
  | took (.send message k) uuid =>
      if k.session = c then some ⟨d, ⟨uuid⟩, message.body⟩ else none
  | _ => none

namespace Obs

/-- The messages that `d` has published for the session `c`. -/
def messagesFrom (c : SessionId) (d : DestinationId) (tr : List Obs) : List OutboundMessage :=
  (atDestination d tr).filterMap (publishedFor? d c)

/-- All messages that `d` has published. -/
def messagesAt (d : DestinationId) (tr : List Obs) : List OutboundMessage :=
  (log d (atDestination d tr)).filterMap LogEntry.message?

/-- Their bodies are those of the actions taken. -/
theorem body_messagesFrom (c : SessionId) (d : DestinationId) (tr : List Obs) :
    (messagesFrom c d tr).map (·.body) = publishedBy c d tr := by
  rw [messagesFrom, publishedBy, takenAt, List.map_filterMap, List.filterMap_filterMap]
  refine List.filterMap_congr fun o _ => ?_
  cases o with
  | took a uuid =>
      cases a with
      | send message k =>
          by_cases hk : k.session = c <;>
            simp [publishedFor?, taken?, DestinationAction.sentBy?, hk]
      | _ => rfl
  | _ => rfl

/-- A message that was published for somebody. -/
theorem mem_messagesFrom {c : SessionId} {d : DestinationId} {tr : List Obs}
    {m : OutboundMessage} :
    m ∈ messagesFrom c d tr ↔ ∃ message k uuid, destination d (.took (.send message k) uuid) ∈ tr ∧
      k.session = c ∧ m = ⟨d, ⟨uuid⟩, message.body⟩ := by
  rw [messagesFrom, List.mem_filterMap]
  constructor
  · rintro ⟨o, ho, heq⟩
    unfold publishedFor? at heq
    split at heq
    · rename_i message k uuid
      obtain ⟨hk, hm⟩ := Option.ite_none_right_eq_some.mp heq
      exact ⟨message, k, uuid, mem_atDestination.mp ho, hk, (Option.some.inj hm).symm⟩
    · cases heq
  · rintro ⟨message, k, uuid, ho, hk, rfl⟩
    exact ⟨_, mem_atDestination.mpr ho, if_pos hk⟩

end Obs

namespace World

variable {p : Params} {w : World} {tr : List Obs}

/-- Every message that was published was published for somebody. -/
theorem exists_sender {d : DestinationId} {m : OutboundMessage} (hm : m ∈ messagesAt d tr) :
    ∃ c, m ∈ messagesFrom c d tr := by
  obtain ⟨entry, hentry, hmessage⟩ := List.mem_filterMap.mp hm
  obtain ⟨o, ho, hlogged⟩ := List.mem_filterMap.mp hentry
  cases entry with
  | sent m' =>
      obtain rfl := Option.some.inj hmessage
      unfold logged? at hlogged
      split at hlogged
      · cases hlogged
      · cases hlogged
      · rename_i message k uuid
        obtain rfl := LogEntry.sent.inj (Option.some.inj hlogged)
        exact ⟨k.session, mem_messagesFrom.mpr
          ⟨message, k, uuid, mem_atDestination.mp ho, rfl, rfl⟩⟩
      · cases hlogged
      · cases hlogged
  | _ => cases hmessage

/-- **The messages of one sender** among all that were published: no two senders have one in
common, as no uuid is drawn twice. -/
theorem Provenance.filter_messagesAt (h : Provenance w tr) (c : SessionId) (d : DestinationId) :
    (messagesAt d tr).filter (· ∈ messagesFrom c d tr) = messagesFrom c d tr := by
  rw [messagesAt, log, List.filterMap_filterMap, List.filter_filterMap]
  conv_rhs => rw [messagesFrom]
  refine List.filterMap_congr fun o ho => ?_
  cases o with
  | took a uuid =>
      cases a with
      | send message k =>
          have htook := mem_atDestination.mp ho
          have hmem : (⟨d, ⟨uuid⟩, message.body⟩ : OutboundMessage) ∈ messagesFrom c d tr ↔
              k.session = c := by
            rw [mem_messagesFrom]
            constructor
            · rintro ⟨message', k', uuid', htook', hk', heq⟩
              obtain ⟨-, hid, -⟩ := OutboundMessage.mk.inj heq
              obtain rfl := MessageId.mk.inj hid
              obtain ⟨-, ha⟩ := h.once _ _ _ _ _ htook htook'
              obtain ⟨-, rfl⟩ := DestinationAction.send.inj ha
              exact hk'
            · exact fun hk => ⟨message, k, uuid, htook, hk, rfl⟩
          by_cases hk : k.session = c <;>
            simp [logged?, LogEntry.message?, publishedFor?, Option.filter, hmem, hk]
      | _ => rfl
  | invoked i reply =>
      cases i with
      | send k s sub m => cases reply <;> rfl
      | _ => rfl
  | _ => rfl

/-- What a subscription was owed of one sender. -/
theorem feed_of_sender {C : World → Label → Prop} {ls : List Label}
    (h : (lts p).Run C initial ls tr w) (c : SessionId) (d : DestinationId)
    (s : SubscriptionId) :
    ((LogEntry.feed s (log d (atDestination d tr))).filter
      (· ∈ messagesFrom c d tr)).map (·.body) <:+: publishedBy c d tr := by
  have hblock := ((LogEntry.feed_block s (log d (atDestination d tr))).filter
    (· ∈ messagesFrom c d tr)).map (·.body)
  have hmessages := (provenance h).filter_messagesAt c d
  rw [messagesAt] at hmessages
  rwa [hmessages, body_messagesFrom] at hblock

/-- Deliveries that feed their subscriptions bring messages of senders, one block of each. -/
theorem blocks_of_feeds {C : World → Label → Prop} {ls : List Label}
    (h : (lts p).Run C initial ls tr w) {taken : List SubscriptionMessage}
    (hfeeds : ∀ d s, (taken.filter (·.isFor d s)).map (·.message)
      <+: LogEntry.feed s (log d (atDestination d tr))) :
    (∀ δ ∈ taken, ∃ sender, δ.message ∈ messagesFrom sender δ.destination tr) ∧
      ∀ sender d s, (((taken.filter (·.isFor d s)).map (·.message)).filter
          (· ∈ messagesFrom sender d tr)).map (·.body)
        <:+: Obs.sendFrames sender d tr := by
  constructor
  · intro δ hδ
    have hmine : δ.message ∈
        (taken.filter (·.isFor δ.destination δ.subscription)).map (·.message) :=
      List.mem_map.mpr ⟨δ, List.mem_filter.mpr ⟨hδ, by simp [SubscriptionMessage.isFor]⟩, rfl⟩
    have hfeed := (hfeeds δ.destination δ.subscription).subset hmine
    exact exists_sender ((LogEntry.feed_block _ _).subset hfeed)
  · intro sender d s
    have hfirst := ((hfeeds d s).filter (· ∈ messagesFrom sender d tr)).map (·.body)
    exact hfirst.isInfix.trans
      ((feed_of_sender h sender d s).trans (publishedBy_block h sender d))

/-- **A subscriber gets one block of each sender.**  In every run the MESSAGE frames of a session
bring the first of the deliveries to its subscriptions, in order, and each brings a message of
some sender; and the bodies that one subscription gets of one sender are one block of the bodies
of the SEND frames that the sender's session has handled. -/
theorem one_block_of_each_sender {ls : List Label}
    (hrun : (lts p).Run LTS.Free initial ls tr w) (receiver : SessionId) :
    ∃ taken, taken <+: deliveriesTo receiver tr ∧
      messageFrames receiver tr = taken.map SubscriptionMessage.frame ∧
      (∀ δ ∈ taken, ∃ sender, δ.message ∈ messagesFrom sender δ.destination tr) ∧
      ∀ sender d s, (((taken.filter (·.isFor d s)).map (·.message)).filter
          (· ∈ messagesFrom sender d tr)).map (·.body)
        <:+: Obs.sendFrames sender d tr := by
  obtain ⟨taken, htaken, hframes, hfeeds⟩ := frames_honoured hrun receiver
  exact ⟨taken, htaken, hframes, blocks_of_feeds hrun hfeeds⟩

/-- Another message to the first destination. -/
def sampleFarewell : ClientFrame := .send "/queue/a" (some (ascii "bye"))

/-- The theorem applied to two clients whose messages are mixed: the subscriber gets both
messages of the other client. -/
theorem one_block_of_each_sender_mixed :
    let p := sampleParams [sampleFarewell]
    let ls : List Label := Label.subscribed ++ [.connects 1, .frame 1 sampleSend,
      .frame 0 sampleSend, .frame 1 sampleFarewell,
      .backend sampleDestination "uuid-1" [⟨"uuid-0"⟩],
      .backend sampleDestination "uuid-2" [⟨"uuid-0"⟩],
      .backend sampleDestination "uuid-3" [⟨"uuid-0"⟩], .own 0, .own 0, .own 0]
    ∃ tr w, ∃ taken : List SubscriptionMessage, (lts p).Run LTS.Free initial ls tr w ∧
      taken <+: deliveriesTo 0 tr ∧ (messageFrames 0 tr).length = 3 ∧
      messageFrames 0 tr = taken.map SubscriptionMessage.frame ∧
      let block := (((taken.filter (·.isFor sampleDestination ⟨"uuid-0"⟩)).map (·.message)).filter
        (· ∈ messagesFrom 1 sampleDestination tr)).map (·.body)
      block <:+: Obs.sendFrames 1 sampleDestination tr ∧ block = [ascii "hello", ascii "bye"] := by
  intro p ls
  let r := ((lts p).exec LTS.Free initial ls).get (by decide)
  have hrun : (lts p).Run LTS.Free initial ls r.2 r.1 := LTS.Run.exec_get _ _ _ _ (by decide)
  obtain ⟨taken, htaken, hframes, -, hblock⟩ := one_block_of_each_sender hrun 0
  have hlength : (messageFrames 0 r.2).length = 3 := by decide
  -- all deliveries were taken
  have hall : taken = deliveriesTo 0 r.2 := by
    refine htaken.eq_of_length ?_
    rw [hframes, List.length_map] at hlength
    rw [hlength]
    decide
  refine ⟨_, _, taken, hrun, htaken, hlength, hframes, hblock 1 sampleDestination ⟨"uuid-0"⟩, ?_⟩
  rw [hall]
  decide

end World
