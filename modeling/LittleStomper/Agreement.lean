/-
# The table of a session and the backends

A session writes its table when it handles the answers to its calls, and the answers of
different destinations reach it in any order.  An entry is never stale once the answers
have been handled (`not_stale`), but it can be lost: the table is keyed by the client's
id, so an id that is used again on another destination lets the answer about one
subscription overwrite or remove the entry of the other.

`keepsEntries` is the condition on a step that handles no `Subscribed` while the table
has an entry under its id.  In a run that keeps it the table and the backends agree
whenever no answer is on its way (`agreement`).
-/
import LittleStomper.Library.Trace
import LittleStomper.Subscribing
import LittleStomper.Ownership

open Obs ClientEvent Trace

/-! ## Answers -/

namespace ClientEvent

/-- The event answers a call. -/
def isAnswer : ClientEvent → Bool
  | subscribed _ _ _ => true
  | unsubscribed _ _ => true
  | _ => false

end ClientEvent

namespace World

variable {p : Params} {w w' : World} {l : Label} {tr os : List Obs} {c : SessionId}

/-- **A removed subscription is not in the table**, if nothing more is told of it. -/
theorem not_stale {es : List ClientEvent} {s i : SubscriptionId} {d : DestinationId}
    (hlast : NoneBehind (removes s) (names s) es) (hin : .unsubscribed i (.ok s) ∈ es) :
    tableOf es i ≠ some (d, s) := by
  induction es using List.reverseRecOn with
  | nil => cases hin
  | append_singleton es e ih =>
      rw [tableOf_concat]
      rw [List.mem_append, List.mem_singleton] at hin
      rcases hin with hin | rfl
      · have hnames : names s e = false := by
          obtain ⟨pre, post, rfl⟩ := List.append_of_mem hin
          exact hlast pre (.unsubscribed i (.ok s)) (post ++ [e]) (by simp) (by simp [removes]) e
            (by simp)
        have ih := ih hlast.of_append hin
        cases e with
        | subscribed d' i' result =>
            cases result with
            | ok s' =>
                have hs : s' ≠ s := by simpa [names] using hnames
                rw [tableAfter, Function.update_apply]
                split_ifs
                · simp [hs]
                · exact ih
            | error err => exact ih
        | unsubscribed i' result =>
            cases result with
            | ok s' =>
                rw [tableAfter, Function.update_apply]
                split_ifs
                · simp
                · exact ih
            | error err => exact ih
        | _ => exact ih
      · rw [tableAfter, Function.update_self]
        simp

/-- Only what destinations send is written into the table. -/
theorem tableOf_filter (es : List ClientEvent) :
    tableOf (es.filter fromSubscriber) = tableOf es := by
  induction es using List.reverseRecOn with
  | nil => rfl
  | append_singleton es e ih =>
      rw [List.filter_append, tableOf_concat]
      cases hfrom : e.fromSubscriber with
      | true => rw [List.filter_cons_of_pos hfrom, List.filter_nil, tableOf_concat, ih]
      | false =>
          rw [List.filter_cons_of_neg (by simp [hfrom]), List.filter_nil, List.append_nil, ih]
          cases e <;> first | rfl | simp [fromSubscriber] at hfrom

/-! ## Entries that are kept -/

/-- **The condition of a step that keeps the entries of the session `c`**: it handles no
answer to a subscribe call while the table has an entry under the client's id. -/
def keepsEntries (p : Params) (c : SessionId) (w : World) : Label → Bool
  | .session c' input =>
      match w.sessions c', Session.next? p (w.sessions c') input with
      | .running r, some (.subscribed _ i (.ok _)) =>
          c' ≠ c || (r.activeSubscriptionsByClientId i).isNone
      | _, _ => true
  | _ => true

/-- What a session handles in a step: nothing, or one event, which a destination has sent or
not, and which does not overwrite an entry if the step keeps the entries. -/
theorem Turn.handled_cases (h : Turn p w l w' os) (c : SessionId) : handledBy c os = [] ∨
    ∃ e, handledBy c os = [e] ∧ ∀ r d i s, w.sessions c = .running r → e = .subscribed d i (.ok s) →
      keepsEntries p c w l = true → r.activeSubscriptionsByClientId i = none := by
  rcases h.atSession c with ⟨input, rfl, hsturn, -, -⟩ | ⟨hos, -, -⟩
  · cases hs : w.sessions c with
    | awaiting =>
        rw [hs] at hsturn
        rw [handledBy]
        generalize Obs.atSession c os = sos at hsturn
        generalize w'.sessions c = s' at hsturn
        cases hsturn with
        | connected hfirst hnew => exact Or.inr ⟨_, rfl, by simp⟩
        | _ => exact Or.inl rfl
    | running r =>
        have hcond := hs ▸ hsturn
        rcases hcond.running_cases with ⟨e, r₀, resetFails, hnext, -, -, hhandles, -⟩ |
          ⟨-, hnone, -⟩
        · refine Or.inr ⟨e, hhandles.handled, ?_⟩
          rintro r' d i s hr rfl hkeeps
          obtain rfl := Session.running.inj hr
          simpa [keepsEntries, hs, hnext] using hkeeps
        · rw [handledBy, hnone]
          exact Or.inl rfl
    | ended =>
        rw [hs] at hsturn
        cases hsturn
  · rw [handledBy, hos]
    exact Or.inl rfl

/-- The entry of a subscription stays until the session handles that it was removed. -/
def Listed (c : SessionId) (tr : List Obs) (d : DestinationId) (s i : SubscriptionId) : Prop :=
  tableOf (handledBy c tr) i = some (d, s) ∨ .unsubscribed i (.ok s) ∈ handledBy c tr

/-- **The entries of a session**: it has one for every subscription that it knows, and for
every subscription that it has asked to end, until it handles that it was removed. -/
structure Entries (c : SessionId) (tr : List Obs) : Prop where
  known : ∀ d i s, .subscribed d i (.ok s) ∈ handledBy c tr → Listed c tr d s i
  asked : ∀ k d s i, k.session = c → dispatched k (.unsubscribe d s) ∈ tr → Owned tr c d s i →
    Listed c tr d s i

/-- The session is told only once that a subscription is removed. -/
theorem Told.not_handled_before (h : Told w' (tr ++ os)) (hchannel : Channel c w' (tr ++ os))
    {i s : SubscriptionId} (hnow : handledBy c os = [.unsubscribed i (.ok s)]) :
    .unsubscribed i (.ok s) ∉ handledBy c tr := by
  intro hbefore
  have hreceived : received c os = [.unsubscribed i (.ok s)] := by
    rw [received, hnow]
    rfl
  obtain ⟨rest, hrest⟩ := hchannel.tracks.initial
  rw [received_append, hreceived] at hrest
  have hmem : .unsubscribed i (.ok s) ∈ received c tr := List.mem_filter.mpr ⟨hbefore, rfl⟩
  obtain ⟨pre, post, hsplit⟩ := List.append_of_mem hmem
  have hnever := h.last c s pre (.unsubscribed i (.ok s))
    (post ++ [.unsubscribed i (.ok s)] ++ rest) (by rw [← hrest, hsplit]; simp)
    (by simp [ClientEvent.removes])
  have hnames := hnever (.unsubscribed i (.ok s)) (by simp)
  simp [names] at hnames

/-- A step that keeps the entries keeps this one, unless it handles that it was removed. -/
theorem Listed.step {C : World → Label → Prop} {ls : List Label} {d : DestinationId}
    {s i : SubscriptionId} (h : Listed c tr d s i) (hrun : (lts p).Run C initial ls tr w)
    (hstep : (lts p).step w l = some (w', os)) (hkeeps : keepsEntries p c w l = true)
    (hentries : Entries c tr) : Listed c (tr ++ os) d s i := by
  have hturn := turn_of_step hstep
  have hrun' := hrun.free.snoc trivial hstep
  rcases h with hentry | hremoved
  · rcases hturn.handled_cases c with hnone | ⟨e, hone, hcond⟩
    · left
      rw [handledBy_append, hnone, List.append_nil]
      exact hentry
    · rw [Listed, handledBy_append, hone, tableOf_concat]
      cases e with
      | subscribed d' i' result =>
          cases result with
          | ok s' =>
              left
              rw [tableAfter, Function.update_apply]
              split_ifs with hi
              · -- the step would overwrite the entry
                subst hi
                obtain ⟨r, -, -, hr, -⟩ := hturn.handles_of_handled (c := c)
                  (mem_handledBy.mp (hone ▸ List.mem_cons_self)) (by simp)
                have hnone := hcond r d' i s' hr rfl hkeeps
                rw [(channel hrun c).table r hr, hentry] at hnone
                cases hnone
              · exact hentry
          | error err => exact Or.inl hentry
      | unsubscribed i' result =>
          cases result with
          | ok s' =>
              rw [tableAfter, Function.update_apply]
              split_ifs with hi
              · subst hi
                by_cases hs : s' = s
                · subst hs
                  exact Or.inr (List.mem_append_right _ List.mem_cons_self)
                · -- another subscription was to be removed, but the entry is not its own
                  exfalso
                  have hchannel := channel hrun' c
                  have hsent : .unsubscribed i (.ok s') ∈ sentTo c (tr ++ os) := by
                    refine hchannel.sent ?_ rfl
                    rw [handledBy_append, hone]
                    exact List.mem_append_right _ List.mem_cons_self
                  have hold : .unsubscribed i (.ok s') ∈ sentTo c tr := by
                    rcases hturn.atSession c with ⟨-, -, -, -, hnothing⟩ | ⟨hos, -, -⟩
                    · rwa [sentTo_append, hnothing, List.append_nil] at hsent
                    · rw [handledBy, hos] at hone
                      cases hone
                  obtain ⟨k, d', hk, hissued, howned⟩ := (told hrun).asked c i s' hold
                  rcases hentries.asked k d' s' i hk hissued howned with hentry' | hremoved
                  · rw [hentry] at hentry'
                    exact hs (Prod.mk.inj (Option.some.inj hentry')).2.symm
                  · exact (told hrun').not_handled_before hchannel hone hremoved
              · exact Or.inl hentry
          | error err => exact Or.inl hentry
      | _ => exact Or.inl hentry
  · right
    rw [handledBy_append]
    exact List.mem_append_left _ hremoved

/-- **In a run that keeps the entries** a session has them all. -/
theorem entries {ls : List Label}
    (h : (lts p).Run (fun w l => keepsEntries p c w l = true) initial ls tr w) : Entries c tr := by
  refine h.invariant (P := fun _ tr => Entries c tr) ?_ ?_
  · constructor
    · simp [handledBy, atSession]
    · simp
  · intro ls tr os w w' l hrun ih hkeeps hstep
    have hturn := turn_of_step hstep
    have hrun' := hrun.free.snoc trivial hstep
    constructor
    · intro d i s hin
      rw [handledBy_append, List.mem_append] at hin
      rcases hin with hin | hin
      · exact (ih.known d i s hin).step hrun hstep hkeeps ih
      · rcases hturn.handled_cases c with hnone | ⟨e, hone, -⟩
        · rw [hnone] at hin
          cases hin
        · left
          rw [hone, List.mem_singleton] at hin
          rw [handledBy_append, hone, tableOf_concat, ← hin, tableAfter, Function.update_self]
    · rintro k d s i rfl hin howned
      rcases List.mem_append.mp hin with hin | hin
      · obtain ⟨i', howned'⟩ := (ownership hrun).calls k d s hin
        obtain ⟨-, -, rfl⟩ := (provenance hrun').owned_unique (howned'.append os) howned
        exact (ih.asked k d s i' rfl hin howned').step hrun hstep hkeeps ih
      · -- it is asked for because of an entry
        left
        obtain ⟨r, i', hr, hentry, hhandled⟩ := hturn.unsubscribe_entry hin
        have hchannel := channel hrun k.session
        have howned' := (ownership hrun).subscribed _ _ _ _ (hchannel.announced hr hentry)
        obtain ⟨-, -, rfl⟩ := (provenance hrun').owned_unique (howned'.append os) howned
        rw [hchannel.table r hr] at hentry
        rcases hturn.handled_cases k.session with hnone | ⟨e, hone, -⟩
        · rw [← mem_handledBy, hnone] at hhandled
          cases hhandled
        · rw [← mem_handledBy, hone, List.mem_singleton] at hhandled
          rw [handledBy_append, hone, tableOf_concat, ← hhandled]
          exact hentry

/-! ## Agreement -/

/-- A session whose channel has no answer in it has handled all that were sent. -/
theorem handled_of_quiet {C : World → Label → Prop} {ls : List Label}
    (hrun : (lts p).Run C initial ls tr w) {r : ClientSession} (hr : w.sessions c = .running r)
    (hquiet : ∀ e ∈ r.events, e.isAnswer = false) {e : ClientEvent} (he : e ∈ sentTo c tr)
    (hanswer : e.isAnswer = true) : e ∈ handledBy c tr := by
  rw [(channel hrun c).sent_eq hr, List.mem_append] at he
  rcases he with he | he
  · exact (List.mem_filter.mp he).1
  · rw [hquiet e (List.mem_filter.mp he).1] at hanswer
    cases hanswer

/-- **When the table agrees with the backends.**  In every run whose steps all keep the
entries of the session `c`, in every state in which it runs and no answer waits in its
channel, its table maps `i` to `(d, s)` if and only if the backend of `d` holds the
subscription `s` of this session under the id `i`, whatever tasks and actions are still
underway. -/
theorem agreement {ls : List Label}
    (hrun : (lts p).Run (fun w l => keepsEntries p c w l = true) initial ls tr w)
    {r : ClientSession} (hr : w.sessions c = .running r)
    (hquiet : ∀ e ∈ r.events, e.isAnswer = false) (i s : SubscriptionId) (d : DestinationId) :
    r.activeSubscriptionsByClientId i = some (d, s) ↔ Holds w c d s i := by
  have hchannel := channel hrun c
  have htold := told hrun
  have hprov := provenance hrun
  rw [hchannel.table r hr]
  constructor
  · intro hentry
    have hsent := hchannel.sent (mem_of_tableOf hentry) rfl
    obtain ⟨k, rfl, hcreated⟩ := (ownership hrun).subscribed c d i s hsent
    rcases htold.kept d s i k hcreated with ⟨D, hD, hs⟩ | hended | hremoved
    · obtain ⟨sub, hsub⟩ := Option.isSome_iff_exists.mp hs
      obtain rfl := hprov.lookup_of_created hcreated hD hsub
      exact ⟨D, _, hD, hsub, rfl, rfl⟩
    · simp [hr] at hended
    · -- then the entry would be stale
      exfalso
      have hhandled := handled_of_quiet hrun hr hquiet hremoved rfl
      obtain ⟨rest, hrest⟩ := hchannel.tracks.initial
      have hlast := htold.last k.session s
      rw [← hrest] at hlast
      refine not_stale hlast.of_append (List.mem_filter.mpr ⟨hhandled, rfl⟩) (d := d) ?_
      rw [received, tableOf_filter]
      exact hentry
  · rintro ⟨D, sub, hD, hsub, rfl, hi⟩
    obtain ⟨i', -, hi', hcreated⟩ := hprov.held d D s sub hD hsub
    obtain rfl := Option.some.inj (hi.symm.trans hi')
    have hhandled := handled_of_quiet hrun hr hquiet (htold.announced d s i _ hcreated) rfl
    rcases (entries hrun).known d i s hhandled with hentry | hremoved
    · exact hentry
    · exact absurd ⟨D, hD, Option.isSome_iff_exists.mpr ⟨sub, hsub⟩⟩
        ((ownership hrun).gone _ i s (hchannel.sent hremoved rfl) d)

/-- The theorem applied to a client that has subscribed. -/
theorem agreement_subscribed :
    let p := sampleParams []
    ∃ tr w r, (lts p).Run (fun w l => keepsEntries p 0 w l = true) initial Label.subscribed tr w ∧
      w.sessions 0 = .running r ∧ ∀ i s d,
        r.activeSubscriptionsByClientId i = some (d, s) ↔ Holds w 0 d s i := by
  intro p
  let r := ((lts p).exec (fun w l => keepsEntries p 0 w l = true) initial Label.subscribed).get
    (by decide)
  have hrun : (lts p).Run (fun w l => keepsEntries p 0 w l = true) initial _ r.2 r.1 :=
    LTS.Run.exec_get _ _ _ _ (by decide)
  have hrest := atRest_of_run hrun (by decide) (by decide)
  refine ⟨_, _, _, hrun, rfl, agreement hrun rfl ?_⟩
  rw [hrest.events 0 _ rfl]
  exact fun e he => by cases he

/-! ## Ids that are used again -/

/-- **The id rule**: a SUBSCRIBE uses an id that was not used before, or whose last SUBSCRIBE
was followed by exactly one UNSUBSCRIBE that led to no error.  `used` counts these for
every id since its last SUBSCRIBE. -/
def idRule : ActiveSubscriptions → (String → Option Nat) → List ClientEvent → Bool
  | _, _, [] => true
  | T, used, .clientFrame (.ok (.subscribe _ i)) :: es =>
      (used i = none || used i = some 1) && idRule T (Function.update used i (some 0)) es
  | T, used, .clientFrame (.ok (.unsubscribe i)) :: es =>
      idRule T (if (T ⟨i⟩).isSome then Function.update used i ((used i).map (· + 1)) else used) es
  | T, used, e :: es => idRule (e.tableAfter T) used es

/-- The client of the session `c` follows the rule. -/
def FollowsIdRule (c : SessionId) (tr : List Obs) : Prop :=
  idRule (fun _ => none) (fun _ => none) (handledBy c tr) = true

/-- **A subscription can be orphaned**: the client ends its subscription and subscribes to
another destination under the same id, whose backend is faster.  The answer about the old
subscription removes the entry of the new one. -/
theorem subscription_orphaned :
    ¬ ∀ (p : Params) (c : SessionId) (ls : List Label) (tr : List Obs) (w : World)
        (r : ClientSession),
      (lts p).Run LTS.Free initial ls tr w → FollowsIdRule c tr →
      (∀ d D, w.destinations d = some D → D.mailbox.isListening = true) → AtRest w →
      w.sessions c = .running r → ∀ i s d,
        r.activeSubscriptionsByClientId i = some (d, s) ↔ Holds w c d s i := by
  intro hall
  let p := sampleParams []
  let ls := Label.subscribed ++
    [.frame 0 sampleUnsubscribe, .frame 0 sampleResubscribe, .create otherDestination,
      .subscribe 2, .backend otherDestination "uuid-1" [], .own 0,
      .backend sampleDestination "uuid-2" [⟨"uuid-0"⟩], .own 0]
  let r := ((lts p).exec LTS.Free initial ls).get (by decide)
  have hrun : (lts p).Run LTS.Free initial ls r.2 r.1 := LTS.Run.exec_get _ _ _ _ (by decide)
  have hrule : FollowsIdRule 0 r.2 := by
    show idRule _ _ _ = true
    decide
  have hagrees := hall p 0 ls _ _ _ hrun hrule (open_of_run hrun (by decide))
    (atRest_of_run hrun (by decide) (by decide)) rfl ⟨"sub-0"⟩ ⟨"uuid-1"⟩ otherDestination
  exact absurd (hagrees.mpr ⟨_, _, rfl, rfl, rfl, rfl⟩) (by decide)

end World
