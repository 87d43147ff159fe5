/-
# After an UNSUBSCRIBE is confirmed

A backend announces the removal of a subscription behind everything it has sent to it, and
the session handles both in that order.  So no MESSAGE frame is on behalf of a
subscription whose removal was handled (`unsubscribed_stops`).

That is less than silence under the client's id.  The table has one entry for an id, the
backends have a subscription for every SUBSCRIBE; when an id was used twice, the older
subscription goes on after the newer one is gone.
-/
import LittleStomper.Messages
import LittleStomper.Subscribing

open Obs ClientEvent

namespace World

variable {p : Params} {w w' : World} {l : Label} {tr os : List Obs} {c : SessionId}

/-- Where a message in the session's channel comes from: a subscription of the session that
was passed it, and whose removal was not announced before. -/
structure Source (c : SessionId) (tr : List Obs) (before : List ClientEvent) (i : SubscriptionId)
    (m : OutboundMessage) (δ : SubscriptionMessage) : Prop where
  delivered : δ ∈ deliveriesTo c tr
  clientId : δ.clientId = i
  message : δ.message = m
  owned : Owned tr c δ.destination δ.subscription i
  unannounced : .unsubscribed i (.ok δ.subscription) ∉ before

theorem Source.append {before : List ClientEvent} {i : SubscriptionId} {m : OutboundMessage}
    {δ : SubscriptionMessage} (h : Source c tr before i m δ) (os : List Obs) :
    Source c (tr ++ os) before i m δ where
  delivered := by
    rw [deliveriesTo_append]
    exact List.mem_append_left _ h.delivered
  clientId := h.clientId
  message := h.message
  owned := h.owned.append os
  unannounced := h.unannounced

/-- **A message that is sent now** has such a source. -/
theorem Source.of_sends (hprov : Provenance w tr) (hown : Ownership w tr)
    (hturn : Turn p w l w' os) {before : List ClientEvent} {i : SubscriptionId}
    {m : OutboundMessage} {after : List ClientEvent}
    (hes : sentTo c os = before ++ .serverMessage i m :: after) :
    ∃ δ, Source c (tr ++ os) (sentTo c tr ++ before) i m δ := by
  have hsends := hturn.sends hprov c
  have hin : .serverMessage i m ∈ sentTo c os := by
    rw [hes]
    exact List.mem_append_right _ List.mem_cons_self
  obtain ⟨d, uuid, order, D, message, k, q, s, sub, rfl, hdest, horder, hmail, rfl, hs, hc, hi⟩ :=
    hsends.of_serverMessage hin
  obtain ⟨i', hid, hi', hcreated⟩ := hprov.held d D s sub hdest hs
  obtain rfl := Option.some.inj (hi.symm.trans hi')
  obtain ⟨hos, -, -⟩ := hturn.performed_of_backend hdest hmail (by simp)
  refine ⟨⟨d, s, i, D.backend.outMessage uuid message⟩, ?_, rfl, rfl, ?_, ?_⟩
  · rw [deliveriesTo_append]
    refine List.mem_append_right _ (List.mem_filterMap.mpr ?_)
    -- the call of its `send` is observed
    have hcall := hprov.send_mem hdest horder hs uuid message k
    refine ⟨destination d (.invoked (sub.send (D.backend.outMessage uuid message))
      (w.reply (sub.send (D.backend.outMessage uuid message)))), ?_, ?_⟩
    · rw [hos]
      refine List.mem_map_of_mem (List.mem_cons_of_mem _ ?_)
      exact List.mem_map.mpr ⟨_, hcall, rfl⟩
    · simp [Subscription.send, delivery?, hc, hi, hid]
  · exact Owned.append ⟨_, hc, hcreated⟩ _
  · intro hbefore
    have hheld : w.Held d s := ⟨D, hdest, by rw [hs]; rfl⟩
    rcases List.mem_append.mp hbefore with hold | hnew
    · exact hown.gone c i s hold d hheld
    · -- a step that sends a message removes nothing
      have hin' : .unsubscribed i (.ok s) ∈ sentTo c os := by
        rw [hes]
        exact List.mem_append_left _ hnew
      obtain ⟨d', _, _, D', k', q', _, hl, hdest', hmail', -⟩ := hsends.of_unsubscribed hin'
      obtain ⟨rfl, -, -⟩ := Label.backend.inj hl
      obtain rfl := Option.some.inj (hdest.symm.trans hdest')
      cases hmail.symm.trans hmail'

/-- **Every message in a channel has its source**, in every run. -/
theorem source {C : World → Label → Prop} {ls : List Label}
    (h : (lts p).Run C initial ls tr w) :
    ∀ before i m after, sentTo c tr = before ++ .serverMessage i m :: after →
      ∃ δ, Source c tr before i m δ := by
  refine h.invariant (P := fun _ tr => ∀ before i m after,
    sentTo c tr = before ++ .serverMessage i m :: after → ∃ δ, Source c tr before i m δ) ?_ ?_
  · intro before i m after heq
    exact absurd heq (by simp [sentTo])
  · intro ls tr os w w' l hrun ih _ hstep before i m after heq
    rw [sentTo_append] at heq
    rcases Trace.split_append heq with ⟨rest, hold, -⟩ | ⟨rest, hes, rfl⟩
    · obtain ⟨δ, hδ⟩ := ih before i m rest hold
      exact ⟨δ, hδ.append os⟩
    · exact Source.of_sends (provenance hrun) (ownership hrun) (turn_of_step hstep) hes

/-- A MESSAGE frame is output when its event is handled, from whatever state a run starts. -/
theorem handled_of_messageFrame {C : World → Label → Prop} {ls : List Label}
    (h : (lts p).Run C w ls tr w') (c : SessionId) : ∀ frame ∈ messageFrames c tr,
      ∃ i m, .serverMessage i m ∈ handledBy c tr ∧ frame = ClientSession.messageFrame i m := by
  refine h.invariant (P := fun _ tr => ∀ frame ∈ messageFrames c tr,
    ∃ i m, .serverMessage i m ∈ handledBy c tr ∧ frame = ClientSession.messageFrame i m)
    (by simp [messageFrames, atSession]) ?_
  intro ls tr os w w' l _ ih _ hstep frame hframe
  rw [messageFrames_append, List.mem_append] at hframe
  rw [handledBy_append]
  rcases hframe with hframe | hframe
  · obtain ⟨i, m, hin, heq⟩ := ih frame hframe
    exact ⟨i, m, List.mem_append_left _ hin, heq⟩
  · rcases (turn_of_step hstep).atSession c with ⟨input, -, hsturn, -⟩ | ⟨hos, -⟩
    · rcases hsturn.messageFrames with hsame | ⟨-, hnone⟩
      · rw [messageFrames, hsame] at hframe
        obtain ⟨e, he, heq⟩ := List.mem_filterMap.mp hframe
        cases e with
        | serverMessage i m =>
            exact ⟨i, m, List.mem_append_right _ he, (Option.some.inj heq).symm⟩
        | _ => cases heq
      · rw [messageFrames, hnone] at hframe
        cases hframe
    · rw [messageFrames, hos] at hframe
      cases hframe

/-- **After an `Unsubscribed` is handled** the session outputs no MESSAGE frame on behalf of
that subscription: every frame under the client's id was passed to another subscription,
created for the session under the same id, and of which no `Unsubscribed` had been
handled. -/
theorem unsubscribed_stops {ls₁ ls₂ : List Label} {tr₁ tr₂ : List Obs} {w₁ w₂ : World}
    {i s : SubscriptionId} (h₁ : (lts p).Run LTS.Free initial ls₁ tr₁ w₁)
    (hconfirmed : session c (.handled (.unsubscribed i (.ok s))) ∈ tr₁)
    (h₂ : (lts p).Run LTS.Free w₁ ls₂ tr₂ w₂) :
    ∀ frame ∈ messageFrames c tr₂, frame.subscription = i.str →
      ∃ δ ∈ deliveriesTo c (tr₁ ++ tr₂), δ.frame = frame ∧ δ.subscription ≠ s ∧
        Owned (tr₁ ++ tr₂) c δ.destination δ.subscription i ∧
        session c (.handled (.unsubscribed i (.ok δ.subscription))) ∉ tr₁ := by
  intro frame hframe hid
  have hrun := h₁.trans h₂
  obtain ⟨i', m, hin, rfl⟩ := handled_of_messageFrame h₂ c frame hframe
  obtain rfl : i' = i := congrArg SubscriptionId.mk hid
  -- the event stands in the channel behind everything handled before
  have hreceived : .serverMessage i' m ∈ received c tr₂ := List.mem_filter.mpr ⟨hin, rfl⟩
  obtain ⟨before, after, hsplit⟩ := List.append_of_mem hreceived
  obtain ⟨rest, hrest⟩ := (channel hrun c).tracks.initial
  rw [received_append, hsplit] at hrest
  obtain ⟨δ, hδ⟩ := source hrun (received c tr₁ ++ before) i' m (after ++ rest)
    (by rw [← hrest]; simp)
  have hunconfirmed : session c (.handled (.unsubscribed i' (.ok δ.subscription))) ∉ tr₁ := by
    intro hh
    refine hδ.unannounced (List.mem_append_left _ (List.mem_filter.mpr ⟨?_, rfl⟩))
    exact mem_handledBy.mpr hh
  refine ⟨δ, hδ.delivered, ?_, ?_, hδ.owned, hunconfirmed⟩
  · rw [← SubscriptionMessage.messageFrame_eq_frame, hδ.clientId, hδ.message]
  · rintro rfl
    exact hunconfirmed hconfirmed

/-- A client that subscribes twice under one id, ends the subscription that the session knows,
and sends a message to the other destination. -/
def subscribingTwice : List Label × List Label × List Label :=
  (Label.subscribed ++
      [.frame 0 sampleResubscribe, .create otherDestination, .subscribe 1,
        .backend otherDestination "uuid-1" [], .own 0],
    [.frame 0 sampleUnsubscribe, .backend otherDestination "uuid-2" [⟨"uuid-1"⟩], .own 0],
    [.frame 0 sampleSend, .backend sampleDestination "uuid-3" [⟨"uuid-0"⟩], .own 0])

/-- The theorem applied to this client. -/
theorem unsubscribed_stops_twice :
    let p := sampleParams []
    let (ls₀, ls₁, ls₂) := subscribingTwice
    ∃ tr₁ w₁ tr₂ w₂, (lts p).Run LTS.Free initial (ls₀ ++ ls₁) tr₁ w₁ ∧
      session 0 (.handled (.unsubscribed ⟨"sub-0"⟩ (.ok ⟨"uuid-1"⟩))) ∈ tr₁ ∧
      (lts p).Run LTS.Free w₁ ls₂ tr₂ w₂ ∧ (messageFrames 0 tr₂).length = 1 ∧
      ∀ frame ∈ messageFrames 0 tr₂, frame.subscription = "sub-0" →
        ∃ δ ∈ deliveriesTo 0 (tr₁ ++ tr₂), δ.frame = frame ∧ δ.subscription ≠ ⟨"uuid-1"⟩ ∧
          Owned (tr₁ ++ tr₂) 0 δ.destination δ.subscription ⟨"sub-0"⟩ ∧
          session 0 (.handled (.unsubscribed ⟨"sub-0"⟩ (.ok δ.subscription))) ∉ tr₁ := by
  intro p
  let r₁ := ((lts p).exec LTS.Free initial (subscribingTwice.1 ++ subscribingTwice.2.1)).get
    (by decide)
  let r₂ := ((lts p).exec LTS.Free r₁.1 subscribingTwice.2.2).get (by decide)
  have h₁ : (lts p).Run LTS.Free initial _ r₁.2 r₁.1 := LTS.Run.exec_get _ _ _ _ (by decide)
  have h₂ : (lts p).Run LTS.Free r₁.1 _ r₂.2 r₂.1 := LTS.Run.exec_get _ _ _ _ (by decide)
  have hconfirmed : session 0 (.handled (.unsubscribed ⟨"sub-0"⟩ (.ok ⟨"uuid-1"⟩))) ∈ r₁.2 := by
    decide
  exact ⟨_, _, _, _, h₁, hconfirmed, h₂, by decide, unsubscribed_stops h₁ hconfirmed h₂⟩

/-- **A confirmed UNSUBSCRIBE need not bring silence**: the session of this client outputs a
MESSAGE frame under the id whose UNSUBSCRIBE was confirmed and that was not subscribed
again. -/
theorem message_after_confirmation :
    ¬ ∀ (p : Params) (c : SessionId) (k : ProxyBox) (i : String) (d : DestinationId)
        (s : SubscriptionId) (ls₀ ls₁ ls₂ : List Label) (tr₀ tr₁ tr₂ : List Obs)
        (w₀ w₁ w₂ : World),
      (lts p).Run LTS.Free initial ls₀ tr₀ w₀ → (lts p).Run LTS.Free w₀ ls₁ tr₁ w₁ →
      (lts p).Run LTS.Free w₁ ls₂ tr₂ w₂ → k.session = c →
      session c (.handled (.clientFrame (.ok (.unsubscribe i)))) ∈ tr₁ →
      dispatched k (.unsubscribe d s) ∈ tr₁ →
      session c (.handled (.unsubscribed ⟨i⟩ (.ok s))) ∈ tr₁ →
      (∀ d', session c (.handled (.clientFrame (.ok (.subscribe d' i)))) ∉ tr₁ ++ tr₂) →
      ∀ frame ∈ messageFrames c tr₂, frame.subscription ≠ i := by
  intro hall
  let p := sampleParams []
  let r₀ := ((lts p).exec LTS.Free initial subscribingTwice.1).get (by decide)
  let r₁ := ((lts p).exec LTS.Free r₀.1 subscribingTwice.2.1).get (by decide)
  let r₂ := ((lts p).exec LTS.Free r₁.1 subscribingTwice.2.2).get (by decide)
  have h₀ : (lts p).Run LTS.Free initial _ r₀.2 r₀.1 := LTS.Run.exec_get _ _ _ _ (by decide)
  have h₁ : (lts p).Run LTS.Free r₀.1 _ r₁.2 r₁.1 := LTS.Run.exec_get _ _ _ _ (by decide)
  have h₂ : (lts p).Run LTS.Free r₁.1 _ r₂.2 r₂.1 := LTS.Run.exec_get _ _ _ _ (by decide)
  have hnone : subscribeFrames 0 (r₁.2 ++ r₂.2) = [] := by decide
  obtain ⟨frame, hframe, hid⟩ : ∃ frame ∈ messageFrames 0 r₂.2, frame.subscription = "sub-0" := by
    decide
  refine hall p 0 ⟨0, 2⟩ "sub-0" otherDestination ⟨"uuid-1"⟩ _ _ _ _ _ _ _ _ _ h₀ h₁ h₂ rfl
    (by decide) (by decide) (by decide) ?_ frame hframe hid
  intro d' hin
  have hframes := mem_subscribeFrames hin
  rw [hnone] at hframes
  cases hframes

end World
