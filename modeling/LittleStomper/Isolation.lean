/-
# Sessions apart

Sessions share destinations, and their clients choose their ids freely, also the same
ones.  Still no session can get hold of a subscription of another: whatever names a
subscription in the state of a session, or on its behalf, names one that was created for
this session, under the same id (`Isolated`).  So a subscription ends only by an
`Unsubscribe` of its own session, or because that session is gone (`Removal`).
-/
import LittleStomper.Ownership
import LittleStomper.Wire

open Obs ClientEvent

namespace World

variable {p : Params} {w w' : World} {l : Label} {tr os : List Obs} {c : SessionId}

/-- **Whose subscriptions are named**: in the table of a session, in a `Subscribed` that waits
in its channel and in an `Unsubscribe` that it has queued, with the id of the UNSUBSCRIBE
frame it was queued for. -/
structure Isolated (w : World) (tr : List Obs) : Prop where
  table : ∀ c r i d s, w.sessions c = .running r →
    r.activeSubscriptionsByClientId i = some (d, s) → Owned tr c d s i
  events : ∀ c r d i s, w.sessions c = .running r → .subscribed d i (.ok s) ∈ r.events →
    Owned tr c d s i
  actions : ∀ d D s k, w.destinations d = some D → .unsubscribe s k ∈ D.mailbox.queue →
    ∃ i, session k.session (.handled (.clientFrame (.ok (.unsubscribe i.str)))) ∈ tr ∧
      Owned tr k.session d s i

/-- What waits in a session's channel and comes from a destination was sent to it. -/
theorem Channel.waiting (h : Channel c w tr) {r : ClientSession} (hr : w.sessions c = .running r)
    {e : ClientEvent} (he : e ∈ r.events) (hfrom : e.fromSubscriber = true) : e ∈ sentTo c tr := by
  rw [h.sent_eq hr]
  exact List.mem_append_right _ (List.mem_filter.mpr ⟨he, hfrom⟩)

/-- An unsubscribe call is made for an UNSUBSCRIBE frame, under the id of the subscription. -/
theorem asked {C : World → Label → Prop} {ls : List Label}
    (h : (lts p).Run C initial ls tr w) : ∀ k d s, dispatched k (.unsubscribe d s) ∈ tr →
      ∃ i, session k.session (.handled (.clientFrame (.ok (.unsubscribe i.str)))) ∈ tr ∧
        Owned tr k.session d s i := by
  refine h.invariant (P := fun _ tr => ∀ k d s, dispatched k (.unsubscribe d s) ∈ tr →
    ∃ i, Obs.session k.session (.handled (.clientFrame (.ok (.unsubscribe i.str)))) ∈ tr ∧
      Owned tr k.session d s i) (by simp) ?_
  intro ls tr os w w' l hrun ih _ hstep k d s hk
  rcases List.mem_append.mp hk with hk | hk
  · obtain ⟨i, hhandled, howned⟩ := ih k d s hk
    exact ⟨i, List.mem_append_left _ hhandled, howned.append os⟩
  · obtain ⟨r, i, hr, hentry, hhandled⟩ := (turn_of_step hstep).unsubscribe_entry hk
    have hin := (channel hrun k.session).announced hr hentry
    exact ⟨i, List.mem_append_right _ hhandled,
      ((ownership hrun).subscribed _ d i s hin).append os⟩

/-- **What can end a subscription** of the session `c`: an `Unsubscribe` of the session itself,
or a `Send` when its channel is closed. -/
inductive Removal (w : World) (c : SessionId) (d : DestinationId) (s : SubscriptionId) :
    Label → Prop
  | unsubscribe {uuid : String} {order : List SubscriptionId} {D : InMemDestination ProxyBox}
      {k : ProxyBox} {q : List (DestinationAction ProxyBox)} (hD : w.destinations d = some D)
      (hmail : D.mailbox = .listening (.unsubscribe s k :: q)) (hc : k.session = c) :
      Removal w c d s (.backend d uuid order)
  | send {uuid : String} {order : List SubscriptionId} {D : InMemDestination ProxyBox}
      {m : InboundMessage} {k : ProxyBox} {q : List (DestinationAction ProxyBox)}
      (hD : w.destinations d = some D) (hmail : D.mailbox = .listening (.send m k :: q))
      (hclosed : (w.sessions c).isOpen = false) :
      Removal w c d s (.backend d uuid order)

/-- **Nothing else ends it.** -/
theorem Turn.removal (h : Turn p w l w' os) (hprov : Provenance w tr) (hown : Ownership w tr)
    {d : DestinationId} {s i : SubscriptionId} (hholds : w.Holds c d s i) :
    w'.Holds c d s i ∨ w.Removal c d s l := by
  obtain ⟨D, sub, hD, hsub, rfl, hi⟩ := hholds
  obtain ⟨i', -, hi', hcreated⟩ := hprov.held d D s sub hD hsub
  obtain rfl := Option.some.inj (hi.symm.trans hi')
  rcases h.survives hprov hcreated ⟨D, hD, Option.isSome_iff_exists.mpr ⟨sub, hsub⟩⟩ with
    ⟨D', hD', hs'⟩ | ⟨uuid, order, D', a, q, rfl, hD', hmail, ⟨m, k', rfl, hended⟩ | ⟨k', rfl⟩⟩
  · obtain ⟨sub', hsub'⟩ := Option.isSome_iff_exists.mp hs'
    have heq := (hprov.step h).lookup_of_created (hcreated.append os) hD' hsub'
    exact Or.inl ⟨D', sub', hD', hsub', by rw [heq], by rw [heq]⟩
  · exact Or.inr (Removal.send hD' hmail (by simp [hended, Session.isOpen]))
  · have hissued : dispatched k' (.unsubscribe d s) ∈ tr := hprov.head hD' hmail
    obtain ⟨i', howned⟩ := hown.calls k' d s hissued
    obtain ⟨hc, -, -⟩ := hprov.owned_unique howned ⟨_, rfl, hcreated⟩
    exact Or.inr (Removal.unsubscribe hD' hmail hc)

/-- **Sessions cannot touch each other's subscriptions.**  In every state of every run all
that names a subscription on behalf of a session names one of its own; and a step that
ends a subscription of a session takes an `Unsubscribe` of this session, or a `Send` when
the channel of this session is closed. -/
theorem sessions_isolated {ls : List Label} (hrun : (lts p).Run LTS.Free initial ls tr w) :
    Isolated w tr ∧ ∀ l w' os, (lts p).step w l = some (w', os) →
      ∀ c d s i, w.Holds c d s i → w'.Holds c d s i ∨ w.Removal c d s l := by
  have hown := ownership hrun
  refine ⟨⟨?_, ?_, ?_⟩, ?_⟩
  · intro c r i d s hr hentry
    exact hown.subscribed c d i s ((channel hrun c).announced hr hentry)
  · intro c r d i s hr hevent
    exact hown.subscribed c d i s ((channel hrun c).waiting hr hevent rfl)
  · intro d D s k hD haction
    exact asked hrun k d s ((provenance hrun).queued d D hD _ haction)
  · intro l w' os hstep c d s i
    exact (turn_of_step hstep).removal (provenance hrun) hown

/-- The theorem applied to two clients that subscribe to one destination under the same id,
and the first of which ends its subscription. -/
theorem sessions_isolated_same_id :
    let p := sampleParams []
    let ls := Label.subscribed ++ [.connects 1, .frame 1 sampleSubscribe, .subscribe 1,
      .backend sampleDestination "uuid-1" [⟨"uuid-0"⟩], .own 1, .frame 0 sampleUnsubscribe]
    ∃ tr w, (lts p).Run LTS.Free initial ls tr w ∧
      w.Holds 1 sampleDestination ⟨"uuid-1"⟩ ⟨"sub-0"⟩ ∧ Isolated w tr := by
  intro p ls
  have hrun := LTS.Run.exec_get (lts p) LTS.Free initial ls (by decide)
  exact ⟨_, _, hrun, ⟨_, _, rfl, rfl, rfl, rfl⟩, (sessions_isolated hrun).1⟩

end World
