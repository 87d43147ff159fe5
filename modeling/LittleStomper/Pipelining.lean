/-
# UNSUBSCRIBE behind SUBSCRIBE

A session knows what it may unsubscribe from its table, and the table only knows a
subscription when the backend's answer to the subscribe call has come back and was
handled.  A client that does not wait for this is told that its subscription is unknown.

An UNSUBSCRIBE reaches the subscription of a given SUBSCRIBE exactly when the answer to
that SUBSCRIBE is the last answer under the client's id that the session has handled
(`unsubscribes_iff`).
-/
import LittleStomper.Subscribing
import LittleStomper.Messages

open Obs ClientEvent Trace

/-! ## The last answer -/

namespace ClientEvent

/-- The event answers a call about the client's id `i` with success. -/
def answers (i : SubscriptionId) : ClientEvent → Bool
  | subscribed _ i' (.ok _) => i' = i
  | unsubscribed i' (.ok _) => i' = i
  | _ => false

/-- The last such answer among some events. -/
def lastAnswer (i : SubscriptionId) (es : List ClientEvent) : Option ClientEvent :=
  es.reverse.find? (answers i)

/-- The entry in the table that an answer makes. -/
def entry? : ClientEvent → Option (DestinationId × SubscriptionId)
  | subscribed d _ (.ok s) => some (d, s)
  | _ => none

end ClientEvent

namespace World

variable {p : Params} {w w' : World} {l : Label} {tr os : List Obs} {c : SessionId}

/-- **The table holds the last answer** under every id. -/
theorem tableOf_eq (es : List ClientEvent) (i : SubscriptionId) :
    tableOf es i = (lastAnswer i es).bind entry? := by
  induction es using List.reverseRecOn with
  | nil => rfl
  | append_singleton es e ih =>
      rw [tableOf_concat, lastAnswer, List.reverse_append, List.reverse_singleton,
        List.singleton_append, List.find?_cons]
      rw [lastAnswer] at ih
      -- an answer writes its own id and no other
      have hwrites : ∀ (i' : SubscriptionId) entry, answers i e = decide (i' = i) →
          entry? e = entry → Function.update (tableOf es) i' entry i =
            (bif answers i e then some e else lastAnswer i es).bind entry? := by
        intro i' entry hanswers hentry
        rw [hanswers, Function.update_apply, lastAnswer]
        by_cases hi : i' = i
        · simp [hi, hentry]
        · simp [hi, Ne.symm hi, ih]
      cases e with
      | subscribed d i' result =>
          cases result with
          | ok s => exact hwrites i' _ rfl rfl
          | error err => exact ih
      | unsubscribed i' result =>
          cases result with
          | ok s => exact hwrites i' _ rfl rfl
          | error err => exact ih
      | _ => exact ih

/-- A destination that has created a subscription exists. -/
theorem exists_of_created {C : World → Label → Prop} {ls : List Label}
    (h : (lts p).Run C initial ls tr w) {d : DestinationId} {s i : SubscriptionId} {k : ProxyBox}
    (hcreated : Created tr d s i k) : ∃ D, w.destinations d = some D := by
  refine Option.ne_none_iff_exists'.mp fun hnone => ?_
  have hempty := (delivers h).2 hnone
  have hin := mem_atDestination.mpr hcreated
  rw [hempty] at hin
  cases hin

/-! ## The step that handles an UNSUBSCRIBE -/

/-- **The UNSUBSCRIBE is obeyed**: the session outputs no ERROR frame, and enqueues an
`Unsubscribe` for the subscription that was created for the box `k`. -/
structure Unsubscribes (c : SessionId) (k : ProxyBox) (d : DestinationId) (i : SubscriptionId)
    (tr os : List Obs) : Prop where
  silent : ¬ Seen SessionObs.isError (atSession c os)
  queued : ∃ s k', Created tr d s i k ∧ destination d (.called (.unsubscribe s k') true) ∈ os

/-- The session knows the subscription of the box `k`: the last answer under its id that it
has handled is the one to that subscribe call. -/
def Knows (c : SessionId) (k : ProxyBox) (d : DestinationId) (i : SubscriptionId)
    (tr : List Obs) : Prop :=
  ∃ s, Created tr d s i k ∧ lastAnswer i (handledBy c tr) = some (.subscribed d i (.ok s))

/-- What an `Unsubscribe` names is in the table of the session that enqueues it. -/
theorem entry_of_called {C : World → Label → Prop} {ls : List Label}
    (hrun : (lts p).Run C initial ls tr w) (hturn : Turn p w l w' os) {d : DestinationId}
    {s : SubscriptionId} {k' : ProxyBox}
    (hcalled : destination d (.called (.unsubscribe s k') true) ∈ os) :
    ∃ c i r, w.sessions c = .running r ∧ Owned tr c d s i ∧
      r.activeSubscriptionsByClientId i = some (d, s) := by
  cases hturn.caller hcalled with
  | @session c input s' sos call _ hl hsturn hcall haction hdispatched htasks =>
      cases call with
      | unsubscribe d₁ s₁ =>
          obtain ⟨rfl, heq⟩ := Prod.mk.inj (Option.some.inj haction)
          obtain ⟨rfl, -⟩ := DestinationAction.unsubscribe.inj heq
          obtain ⟨r, i, hr, hentry, -⟩ := hturn.unsubscribe_entry hdispatched
          refine ⟨c, i, r, hr, ?_, hentry⟩
          exact (ownership hrun).subscribed c _ _ _ ((channel hrun c).announced hr hentry)
      | _ => cases haction

/-- **When an UNSUBSCRIBE is obeyed.**  Over open destinations, a step that handles an
UNSUBSCRIBE enqueues the `Unsubscribe` for the subscription created for a box `k` of the
session, and outputs no ERROR frame, if and only if the session knows that subscription. -/
theorem unsubscribes_iff {ls : List Label} (hrun : (lts p).Run LTS.Free initial ls tr w)
    (hopen : ∀ d D, w.destinations d = some D → D.mailbox.isListening = true)
    {k : ProxyBox} {d : DestinationId} {i : String}
    (hstep : (lts p).step w l = some (w', os))
    (hhandled : session k.session (.handled (.clientFrame (.ok (.unsubscribe i)))) ∈ os) :
    Unsubscribes k.session k d ⟨i⟩ tr os ↔ Knows k.session k d ⟨i⟩ tr := by
  have hturn := turn_of_step hstep
  obtain ⟨r, r₀, resetFails, hr, hsame, hhandles⟩ := hturn.handles_of_handled hhandled (by simp)
  have htable := (channel hrun k.session).table r hr
  constructor
  · rintro ⟨-, s, k', hcreated, hcalled⟩
    obtain ⟨c, i', r', hr', howned, hentry⟩ := entry_of_called hrun hturn hcalled
    -- the subscription has one owner and one id
    obtain ⟨rfl, -, rfl⟩ := (provenance hrun).owned_unique howned ⟨k, rfl, hcreated⟩
    obtain rfl := Session.running.inj (hr.symm.trans hr')
    refine ⟨s, hcreated, ?_⟩
    rw [htable, tableOf_eq, Option.bind_eq_some_iff] at hentry
    obtain ⟨e, hlast, hentry⟩ := hentry
    have hanswers : answers ⟨i⟩ e = true := List.find?_some hlast
    rw [hlast]
    unfold entry? at hentry
    split at hentry
    · obtain ⟨rfl, rfl⟩ := Prod.mk.inj (Option.some.inj hentry)
      obtain rfl := of_decide_eq_true hanswers
      rfl
    · cases hentry
  · rintro ⟨s, hcreated, hlast⟩
    have hentry : r₀.activeSubscriptionsByClientId ⟨i⟩ = some (d, s) := by
      rw [hsame, htable, tableOf_eq, hlast]
      rfl
    constructor
    · refine hhandles.not_failed ?_
      simp [fault?, hentry]
    · have hcall : callOf (Obs.atSession k.session os) = some (.unsubscribe d s) := by
        rw [callOf_handles hhandles]
        simp [call?, hentry]
      obtain ⟨D, hD⟩ := exists_of_created hrun hcreated
      obtain ⟨-, hcases⟩ := hturn.call_cases hcall
      rcases hcases d _ rfl with ⟨hnone, -⟩ | ⟨D', hD', ⟨m, -, -, hcalled⟩ | ⟨hgone, -⟩⟩
      · simp [hnone] at hD
      · exact ⟨s, _, hcreated, hcalled⟩
      · have hlistening := hopen d D' hD'
        rw [Mailbox.isListening_of_isGone hgone] at hlistening
        cases hlistening

/-- The theorem applied to a client that waits for its subscription. -/
theorem unsubscribes_iff_subscribed :
    let p := sampleParams []
    ∃ tr w w' os, (lts p).Run LTS.Free initial Label.subscribed tr w ∧
      (lts p).step w (.frame 0 sampleUnsubscribe) = some (w', os) ∧
      (Unsubscribes 0 ⟨0, 0⟩ sampleDestination ⟨"sub-0"⟩ tr os ↔
        Knows 0 ⟨0, 0⟩ sampleDestination ⟨"sub-0"⟩ tr) := by
  intro p
  let r := ((lts p).exec LTS.Free initial Label.subscribed).get (by decide)
  let r' := ((lts p).step r.1 (.frame 0 sampleUnsubscribe)).get (by decide)
  have hrun : (lts p).Run LTS.Free initial _ r.2 r.1 := LTS.Run.exec_get _ _ _ _ (by decide)
  have hstep : (lts p).step r.1 (.frame 0 sampleUnsubscribe) = some (r'.1, r'.2) :=
    LTS.step_get _ _ _ (by decide)
  have hopen := open_of_run hrun (by decide)
  exact ⟨_, _, _, _, hrun, hstep, unsubscribes_iff (k := ⟨0, 0⟩) hrun hopen hstep (by decide)⟩

/-- **An UNSUBSCRIBE can come too soon**: right behind the SUBSCRIBE it is answered with an
ERROR frame. -/
theorem unsubscribe_too_soon :
    ¬ ∀ (p : Params) (ls : List Label) (tr os : List Obs) (w w' : World) (l : Label)
        (k : ProxyBox) (d : DestinationId) (i : String) (pre post : List Obs),
      (lts p).Run LTS.Free initial ls tr w →
      (∀ d D, w.destinations d = some D → D.mailbox.isListening = true) →
      tr = pre ++ dispatched k (.subscribe d (some ⟨i⟩)) :: post →
      session k.session (.handled (.clientFrame (.ok (.unsubscribe i)))) ∉ post →
      (lts p).step w l = some (w', os) →
      session k.session (.handled (.clientFrame (.ok (.unsubscribe i)))) ∈ os →
        Unsubscribes k.session k d ⟨i⟩ tr os := by
  intro hall
  let p := sampleParams []
  let r := ((lts p).exec LTS.Free initial Label.subscribing).get (by decide)
  let r' := ((lts p).step r.1 (.frame 0 sampleUnsubscribe)).get (by decide)
  have hrun : (lts p).Run LTS.Free initial _ r.2 r.1 := LTS.Run.exec_get _ _ _ _ (by decide)
  have hstep : (lts p).step r.1 (.frame 0 sampleUnsubscribe) = some (r'.1, r'.2) :=
    LTS.step_get _ _ _ (by decide)
  have hdispatched : dispatched ⟨0, 0⟩ (.subscribe sampleDestination (some ⟨"sub-0"⟩)) ∈ r.2 := by
    decide
  obtain ⟨pre, post, hsplit⟩ := List.append_of_mem hdispatched
  have hnone : session 0 (.handled (.clientFrame (.ok (.unsubscribe "sub-0")))) ∉ r.2 := by decide
  have hobeyed := hall p _ _ _ _ _ _ ⟨0, 0⟩ sampleDestination "sub-0" pre post hrun
    (open_of_run hrun (by decide)) hsplit
    (fun hin => hnone (hsplit ▸ List.mem_append_right _ (List.mem_cons_of_mem _ hin))) hstep
    (by decide)
  have herror : ∃ o ∈ atSession 0 r'.2, SessionObs.isError o = true := by decide
  exact hobeyed.silent herror

end World
