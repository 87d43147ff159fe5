/-
# When the session's task panics

Nothing that a session does on a frame it implements panics, with one exception: it
unsubscribes at a destination that has stopped.  The handle of the destination then invokes
`unsubscribe_callback` itself, without the client's id, and `unwrap_subscriber_sub_id` panics
inside the session's handler.  A run is free of panics exactly if this does not happen
(`noPanics_iff`).

The server heartbeat can always be reset, since the session holds the resetter and never drops
the stream while it runs.
-/
import LittleStomper.TimedSystemStep
import LittleStomper.Wire

namespace ClientEvent

/-- The event has no client frame, or one that the handler implements: CONNECT, SUBSCRIBE,
UNSUBSCRIBE, SEND with a body or DISCONNECT. -/
def isImplemented : ClientEvent → Bool
  | clientFrame (.ok (.send _ none)) => false
  | clientFrame (.ok .abort) => false
  | clientFrame (.ok .ack) => false
  | clientFrame (.ok .begin) => false
  | clientFrame (.ok .commit) => false
  | clientFrame (.ok .nack) => false
  | _ => true

/-- If the server heartbeat can be reset, the handler itself panics on nothing else. -/
theorem panics_false (e : ClientEvent) : e.panics false = !e.isImplemented := by
  cases e with
  | clientFrame result =>
      cases result with
      | error err => rfl
      | ok frame =>
          cases frame with
          | send d body => cases body <;> rfl
          | _ => rfl
  | _ => rfl

end ClientEvent

/-! ## Calls that panic -/

namespace World

/-- The event unsubscribes at a destination that has no receiver any more. -/
def stranded (w : World) (T : ActiveSubscriptions) : ClientEvent → Bool
  | .clientFrame (.ok (.unsubscribe i)) =>
    (T ⟨i⟩).any fun entry => (w.destinations entry.1).any (·.mailbox.isGone)
  | _ => false

/-- Such an event is implemented. -/
theorem isImplemented_of_stranded {w : World} {T : ActiveSubscriptions} {e : ClientEvent}
    (h : w.stranded T e = true) : e.isImplemented = true := by
  unfold stranded at h
  split at h
  · rfl
  · cases h

/-- Some of the calls of proxies that are observed panicked. -/
theorem panicked_observe (answers : Answers ProxyBox) (d : DestinationId)
    (is : List (Invocation ProxyBox)) :
    panicked ((InMemDestination.observe answers is).map (.destination d))
      = is.any fun i => answers i = .panic := by
  rw [panicked, InMemDestination.observe, List.any_map, List.any_map]
  congr 1
  funext i
  simp only [Function.comp_apply]
  cases answers i <;> rfl

/-- A call on a destination panics if there is no receiver and the callback that is invoked with
an error does. -/
theorem panicked_callDestination {w : World} {d : DestinationId} {D : InMemDestination ProxyBox}
    (a : DestinationAction ProxyBox) (hdest : w.destinations d = some D) :
    panicked (w.callDestination d D a).2 = (D.mailbox.isGone &&
      (InMemDestination.failure D.backend.id a).any fun i => w.reply i = .panic) := by
  cases hsend : D.mailbox.send a with
  | some m =>
      have hgone : D.mailbox.isGone = false := by
        rw [← Bool.not_eq_true, ← Mailbox.send_eq_none, hsend]
        simp
      rw [callDestination_accepted hsend, hgone]
      rfl
  | none =>
      have hgone := Mailbox.send_eq_none.mp hsend
      rw [callDestination_refused hdest hgone, hgone]
      exact panicked_observe _ d _

/-- A call that goes to a destination panics if the one at the handle does. -/
theorem callPanics_of_action {w : World} {c : SessionId} {call : DestinationCall}
    {d : DestinationId} {a : DestinationAction ProxyBox}
    (haction : actionOf ⟨c, w.boxes⟩ call = some (d, a)) :
    w.callPanics c call = (w.destinations d).any fun D => D.mailbox.isGone &&
      (InMemDestination.failure D.backend.id a).any fun i => w.reply i = .panic := by
  cases hdest : w.destinations d with
  | none =>
      rw [callPanics, perform_notFound haction hdest]
      cases call <;> rfl
  | some D =>
      rw [callPanics, perform_found haction hdest]
      let w₁ : World := { w with boxes := w.boxes + 1 }
      have hdest' : w₁.destinations d = some D := hdest
      exact panicked_callDestination a hdest'

/-- **Which calls panic**: an unsubscribe call on a destination without a receiver, since
`unsubscribe_callback` is invoked without an id then. -/
theorem callPanics_eq (w : World) (c : SessionId) (call : DestinationCall) :
    w.callPanics c call = match call with
      | .unsubscribe d _ => (w.destinations d).any (·.mailbox.isGone)
      | _ => false := by
  cases call with
  | subscribe d sub => rfl
  | send d message =>
      rw [callPanics_of_action rfl]
      cases w.destinations d with
      | none => rfl
      | some D => exact Bool.and_false _
  | unsubscribe d sub =>
      rw [callPanics_of_action rfl]
      show _ = (w.destinations d).any (·.mailbox.isGone)
      cases w.destinations d with
      | none => rfl
      | some D => exact Bool.and_true _

/-- The call that an event leads to panics exactly if the event is stranded. -/
theorem any_callPanics (w : World) (c : SessionId) (T : ActiveSubscriptions) (e : ClientEvent) :
    (e.call? T).any (w.callPanics c) = w.stranded T e := by
  cases e with
  | clientFrame result =>
      cases result with
      | error err => rfl
      | ok frame =>
          cases frame with
          | send d body => cases body <;> simp [ClientEvent.call?, callPanics_eq, stranded]
          | unsubscribe i =>
              simp only [ClientEvent.call?, stranded]
              cases T ⟨i⟩ <;> simp [callPanics_eq]
          | _ => simp [ClientEvent.call?, callPanics_eq, stranded]
  | _ => rfl

end World

namespace Session

variable {p : Params} {panics : DestinationCall → Bool} {r : ClientSession}

/-- **When the handler's task panics.** -/
theorem panicked_mem_run (resetFails : Bool) (e : ClientEvent) :
    .panicked ∈ (run p panics r resetFails e).2 ↔
      e.panics resetFails = true ∨ (e.call? r.activeSubscriptionsByClientId).any panics = true := by
  rw [run, ClientSession.handleEvent_eq]
  cases hpanic : e.panics resetFails with
  | true => simp
  | false =>
      simp only [Bool.false_eq_true, if_false, false_or]
      by_cases hcall : (e.call? r.activeSubscriptionsByClientId).any panics = true
      · simp [hcall]
      · rw [if_neg hcall]
        cases hends : e.ends <;> simp [hcall]

/-- What is observed of a handler begins with the event, and has no other. -/
theorem run_shape (resetFails : Bool) (e : ClientEvent) :
    ∃ rest, (run p panics r resetFails e).2 = .handled e :: rest ∧ ∀ e', .handled e' ∉ rest := by
  rw [run, ClientSession.handleEvent_eq]
  cases hpanic : e.panics resetFails with
  | true => exact ⟨_, rfl, by cases e <;> simp [clientMessageReceived]⟩
  | false =>
      simp only [Bool.false_eq_true, if_false]
      by_cases hcall : (e.call? r.activeSubscriptionsByClientId).any panics = true
      · rw [if_pos hcall]
        exact ⟨_, rfl, by simp⟩
      · rw [if_neg hcall]
        cases hends : e.ends with
        | true => exact ⟨_, rfl, by simp⟩
        | false => exact ⟨_, rfl, by simp⟩

/-- **A step of a connected session** runs the handler, or nothing is observed. -/
theorem step_running {input : SessionInput} {s' : Session} {sos : List SessionObs}
    (h : (running r).step p panics input = some (s', sos)) :
    (∃ e r₀ resetFails, next? p (running r) input = some e ∧
        r₀.activeSubscriptionsByClientId = r.activeSubscriptionsByClientId ∧
        (resetFails = true → input = .own true) ∧ sos = (run p panics r₀ resetFails e).2) ∨
      (next? p (running r) input = none ∧ sos = []) := by
  cases input with
  | first item factory => cases h
  | client item =>
      refine Or.inl ⟨_, r, false, rfl, rfl, by simp, ?_⟩
      exact (congrArg Prod.snd (Option.some.inj h)).symm
  | own resetFails =>
      cases hevents : r.events with
      | nil => simp [step, hevents] at h
      | cons e events =>
          simp only [step, hevents, Option.some.injEq] at h
          refine Or.inl ⟨e, { r with events := events }, resetFails, ?_, rfl, ?_, ?_⟩
          · rw [next?, hevents]
            rfl
          · rintro rfl
            rfl
          · exact (congrArg Prod.snd h).symm
  | heartbeat =>
      simp only [step] at h
      split at h
      · refine Or.inl ⟨_, r, false, rfl, rfl, by simp, ?_⟩
        exact (congrArg Prod.snd (Option.some.inj h)).symm
      · cases h
  | missedHeartbeat =>
      simp only [step] at h
      split at h
      · exact Or.inr ⟨rfl, (congrArg Prod.snd (Option.some.inj h)).symm⟩
      · cases h
  | deliver e =>
      simp only [step] at h
      split at h
      · exact Or.inr ⟨rfl, (congrArg Prod.snd (Option.some.inj h)).symm⟩
      · cases h
  | sinkFails => exact Or.inr ⟨rfl, (congrArg Prod.snd (Option.some.inj h)).symm⟩

end Session

/-! ## Traces without panics -/

/-- The event that is handled. -/
def TimedObs.handled? : TimedObs → Option ClientEvent
  | session _ (.handled e) => some e
  | _ => none

/-- The event that was handled last. -/
def lastHandled (tr : List TimedObs) : Option ClientEvent :=
  (tr.filterMap TimedObs.handled?).getLast?

/-- **A session's task does not panic** once it is connected, but for an event that the handler
does not implement. -/
def PanicFree (tr : List TimedObs) : Prop :=
  ∀ pre now post, tr = pre ++ .session now .panicked :: post →
    ∀ e, lastHandled pre = some e → e.isImplemented = false

section

variable {A B : List TimedObs}

/-- A trace that goes on: a panic is in the first part or in the second. -/
theorem panicFree_append :
    PanicFree (A ++ B) ↔ PanicFree A ∧ ∀ pre now post, B = pre ++ .session now .panicked :: post →
      ∀ e, lastHandled (A ++ pre) = some e → e.isImplemented = false := by
  constructor
  · intro hfree
    constructor
    · intro pre now post heq
      exact hfree pre now (post ++ B) (by rw [heq]; simp)
    · intro pre now post heq
      exact hfree (A ++ pre) now post (by rw [heq, List.append_assoc])
  · rintro ⟨hA, hB⟩ pre now post heq
    rcases List.append_eq_append_iff.mp heq with ⟨mid, rfl, hmid⟩ | ⟨mid, rfl, hmid⟩
    · exact hB mid now post hmid
    · rcases mid with _ | ⟨o, mid⟩
      · have hB' := hB [] now post hmid.symm
        rwa [List.append_nil, List.append_nil] at hB'
      · obtain ⟨rfl, -⟩ := List.cons.inj hmid
        exact hA pre now mid rfl

/-- A trace without panics. -/
theorem panicFree_of_calm (h : ∀ now, .session now .panicked ∉ B) : PanicFree B := by
  rintro pre now post rfl
  exact absurd (List.mem_append_right _ List.mem_cons_self) (h now)

/-- A trace that goes on without panics. -/
theorem panicFree_append_of_calm (h : ∀ now, .session now .panicked ∉ B) :
    PanicFree (A ++ B) ↔ PanicFree A := by
  rw [panicFree_append, and_iff_left_iff_imp]
  rintro - pre now post rfl
  exact absurd (List.mem_append_right _ List.mem_cons_self) (h now)

/-- A trace that goes on with an event that is handled. -/
theorem panicFree_append_of_handled {t : Instant} {e : ClientEvent} {rest : List SessionObs}
    (hrest : ∀ e', .handled e' ∉ rest) :
    PanicFree (A ++ (.handled e :: rest).map (.session t)) ↔
      PanicFree A ∧ (.panicked ∈ rest → e.isImplemented = false) := by
  -- it is the last one
  have hlast : ∀ mid, mid ⊆ rest.map (TimedObs.session t) →
      lastHandled (A ++ .session t (.handled e) :: mid) = some e := by
    intro mid hmid
    have hnone : mid.filterMap TimedObs.handled? = [] := by
      rw [List.filterMap_eq_nil_iff]
      intro o ho
      obtain ⟨so, hso, rfl⟩ := List.mem_map.mp (hmid ho)
      cases so with
      | handled e' => exact absurd hso (hrest e')
      | _ => rfl
    rw [lastHandled, List.filterMap_append, List.filterMap_cons_some (rfl :
      TimedObs.handled? (.session t (.handled e)) = some e), hnone]
    simp
  rw [panicFree_append]
  refine and_congr_right fun _ => ⟨fun hfree hpanic => ?_, fun hpanic pre now post heq => ?_⟩
  · obtain ⟨mid, post, rfl⟩ := List.append_of_mem hpanic
    refine hfree (.session t (.handled e) :: mid.map (.session t)) t (post.map (.session t))
      (by simp) e (hlast _ ?_)
    rw [List.map_append]
    exact List.subset_append_left _ _
  · rcases pre with _ | ⟨o, mid⟩
    · cases heq
    · obtain ⟨rfl, hmid⟩ := List.cons.inj heq
      have hin : .session now .panicked ∈ rest.map (TimedObs.session t) :=
        (congrArg _ hmid).mpr (List.mem_append_right _ List.mem_cons_self)
      obtain ⟨so, hso, heq'⟩ := List.mem_map.mp hin
      obtain ⟨rfl, rfl⟩ := TimedObs.session.inj heq'
      have hsub : mid ⊆ rest.map (TimedObs.session t) := fun o ho =>
        (congrArg _ hmid).mpr (List.mem_append_left _ ho)
      intro e' he'
      obtain rfl := Option.some.inj ((hlast mid hsub).symm.trans he')
      exact hpanic hso

end

/-! ## Runs -/

/-- Nobody unsubscribes at a destination that has stopped. -/
def Unstranded (p : Params) (x : TimedWorld) : TimedWorldLabel → Bool
  | .world (.session c input) => match x.world.sessions c with
    | .running r => (Session.next? p (.running r) input).all fun e =>
        !x.world.stranded r.activeSubscriptionsByClientId e
    | _ => true
  | _ => true

/-- What is observed of a session is observed of the system. -/
theorem TimedWorldObs.mem_ofSession {c : SessionId} {t : Instant} {o : SessionObs}
    {os : List TimedWorldObs} :
    .session t o ∈ os.filterMap (ofSession? c) ↔ .world t (.session c o) ∈ os := by
  rw [List.mem_filterMap]
  constructor
  · rintro ⟨o', ho', heq⟩
    cases o' with
    | world t' o'' =>
        obtain ⟨so, hso, hsession⟩ := Option.map_eq_some_iff.mp heq
        obtain ⟨rfl, rfl⟩ := TimedObs.session.inj hsession
        have hin : so ∈ Obs.atSession c [o''] := by simp [Obs.atSession, hso]
        rwa [List.mem_singleton.mp (Obs.mem_atSession.mp hin)]
    | missed t' c' => simp [ofSession?] at heq
  · intro h
    exact ⟨_, h, by simp [ofSession?, Obs.ofSession?]⟩

/-- **No session's task panics** once it is connected, but for an event that the handler does not
implement. -/
def NoPanic (tr : List TimedWorldObs) : Prop :=
  ∀ c, PanicFree (tr.filterMap (TimedWorldObs.ofSession? c))

/-- A step that one session takes part in. -/
theorem noPanic_append {tr os : List TimedWorldObs} {c : SessionId} {part : List TimedObs}
    (hfree : NoPanic tr)
    (hpart : ∀ c', os.filterMap (TimedWorldObs.ofSession? c') = if c = c' then part else []) :
    NoPanic (tr ++ os) ↔ PanicFree (tr.filterMap (TimedWorldObs.ofSession? c) ++ part) := by
  simp only [NoPanic, List.filterMap_append, hpart]
  constructor
  · intro h
    simpa using h c
  · intro h c'
    by_cases hc : c = c'
    · subst hc
      rwa [if_pos rfl]
    · rw [if_neg hc, List.append_nil]
      exact hfree c'

namespace TimedWorld

variable {p : Params} {x x' : TimedWorld} {l : TimedWorldLabel} {tr os : List TimedWorldObs}
  {now : Instant} {ls : List TimedWorldLabel}

/-- **A session's handler panics exactly if the event is stranded**, or not implemented. -/
theorem panicFree_session {c : SessionId} {input : SessionInput} {s : Session}
    {sos : List SessionObs} (hrun : (lts p).Run LTS.Free (start now) ls tr x)
    (hfree : NoPanic tr)
    (hallows : Heartbeats.allows (x.heartbeats c) input = true ∨ input = .heartbeat)
    (hstep : (x.world.sessions c).step p (x.world.callPanics c) input = some (s, sos)) :
    PanicFree (tr.filterMap (TimedWorldObs.ofSession? c) ++ sos.map (.session x.now)) ↔
      Unstranded p x (.world (.session c input)) = true := by
  cases hsession : x.world.sessions c with
  | awaiting =>
      -- nothing was handled before, and `Connected` makes no call
      obtain ⟨ls', hrun'⟩ := run_atSession hrun c
      rw [TimedSession.unobserved hrun' hsession, List.nil_append]
      rw [hsession] at hstep
      refine iff_of_true ?_ (by simp [Unstranded, hsession])
      cases Session.turn_of_step hstep with
      | rejected hfirst => exact panicFree_of_calm (by simp)
      | overflows hfirst hnew =>
          rintro (_ | ⟨o, pre⟩) t post heq e he
          · cases he
          · simp at heq
      | connected hfirst hnew => exact panicFree_of_calm (by simp)
  | ended =>
      rw [hsession] at hstep
      cases input <;> cases hstep
  | running r =>
      rw [hsession] at hstep
      rcases Session.step_running hstep with ⟨e, r₀, resetFails, hnext, htable, hown, rfl⟩ |
        ⟨hnext, rfl⟩
      · -- the reset does not fail
        obtain rfl : resetFails = false := by
          cases resetFails with
          | false => rfl
          | true =>
              obtain rfl := hown rfl
              obtain ⟨h, client, hheartbeats, hserves⟩ := attended hrun hsession
              simp [hheartbeats, Heartbeats.allows, Heartbeats.resetFails, hserves.accepts]
                at hallows
        obtain ⟨rest, hshape, hrest⟩ :=
          @Session.run_shape p (x.world.callPanics c) r₀ false e
        have hpanic := @Session.panicked_mem_run p (x.world.callPanics c) r₀ false e
        rw [hshape] at hpanic ⊢
        rw [ClientEvent.panics_false, World.any_callPanics, htable] at hpanic
        rw [panicFree_append_of_handled hrest, and_iff_right (hfree c)]
        simp only [Unstranded, hsession, hnext, Option.all_some, Bool.not_eq_true']
        rw [List.mem_cons, or_iff_right (by simp)] at hpanic
        cases hstranded : x.world.stranded r.activeSubscriptionsByClientId e with
        | true =>
            -- an UNSUBSCRIBE is implemented
            have himplemented := World.isImplemented_of_stranded hstranded
            simp [hpanic, hstranded, himplemented]
        | false => simpa [hstranded] using hpanic.mp
      · simpa [Unstranded, hsession, hnext] using hfree c

/-- **A step panics exactly if it is stranded**, or the event is not implemented. -/
theorem noPanic_step (hrun : (lts p).Run LTS.Free (start now) ls tr x) (hfree : NoPanic tr)
    (hstep : (lts p).step x l = some (x', os)) : NoPanic (tr ++ os) ↔ Unstranded p x l = true := by
  -- nobody panics
  have hcalm : (∀ t c, .world t (.session c .panicked) ∉ os) → Unstranded p x l = true →
      (NoPanic (tr ++ os) ↔ Unstranded p x l = true) := by
    intro hos hC
    refine iff_of_true (fun c => ?_) hC
    rw [List.filterMap_append]
    refine (panicFree_append_of_calm fun t hin => ?_).mpr (hfree c)
    exact hos t c (TimedWorldObs.mem_ofSession.mp hin)
  -- a session moves
  have hmoves : ∀ {c : SessionId} {input : SessionInput} {os' : List Obs},
      Heartbeats.allows (x.heartbeats c) input = true ∨ input = .heartbeat →
      x.world.step p (.session c input) = some (x'.world, os') →
      (NoPanic (tr ++ os'.map (.world x.now)) ↔
        Unstranded p x (.world (.session c input)) = true) := by
    intro c input os' hallows hworld
    obtain ⟨-, hworld⟩ := World.stepSession_of_step hworld
    obtain ⟨s, sos, hsession, -, hos, -⟩ := World.stepSession_cases hworld
    have hpart : ∀ c', (os'.map (.world x.now)).filterMap (TimedWorldObs.ofSession? c')
        = if c = c' then sos.map (.session x.now) else [] := by
      intro c'
      rw [TimedWorldObs.filterMap_ofSession?_map_world, hos]
      split_ifs <;> rfl
    rw [noPanic_append hfree hpart]
    exact panicFree_session hrun hfree hallows hsession
  cases worldTurn_of_step hrun hstep with
  | still hl hworld =>
      refine hcalm (by simp) ?_
      cases l with
      | world l' => exact absurd rfl (hl l')
      | _ => rfl
  | session hallows hworld => exact hmoves (Or.inl hallows) hworld
  | beats hworld =>
      refine (hmoves (Or.inr rfl) hworld).trans (iff_of_true ?_ rfl)
      rw [Unstranded]
      split <;> rfl
  | missed hworld => exact hcalm (by simp) rfl
  | @other l' os' hl hworld =>
      refine hcalm (fun t c hin => ?_) ?_
      · obtain ⟨o, ho, heq⟩ := List.mem_map.mp hin
        obtain ⟨rfl, rfl⟩ := TimedWorldObs.world.inj heq
        rcases (World.turn_of_step hworld).atSession c with ⟨input, hl', -⟩ | ⟨hos, -, -⟩
        · exact hl c input hl'
        · rw [← Obs.mem_atSession, hos] at ho
          cases ho
      · cases l' with
        | session c input => exact absurd rfl (hl c input)
        | _ => rfl

/-- **No session's task panics** exactly if nobody unsubscribes at a destination that has
stopped. -/
theorem noPanic_iff (hrun : (lts p).Run LTS.Free (start now) ls tr x) :
    NoPanic tr ↔ (lts p).Run (fun x l => Unstranded p x l = true) (start now) ls tr x := by
  refine LTS.Run.characterize ?_ ?_ noPanic_step hrun
  · rintro c (_ | ⟨o, pre⟩) now post heq <;> cases heq
  · intro tr os hfree c
    have hfree' := hfree c
    rw [List.filterMap_append] at hfree'
    exact (panicFree_append.mp hfree').1

/-- The theorem applied to a client that subscribes and unsubscribes. -/
theorem noPanic_iff_unsubscribe :
    let p := sampleParams []
    let unsubscribes : List Label := Label.subscribed ++ [.frame 0 sampleUnsubscribe,
      .backend sampleDestination "uuid-1" [⟨"uuid-0"⟩], .own 0]
    let ls := unsubscribes.map TimedWorldLabel.world
    ∃ tr x, (lts p).Run LTS.Free (start 0) ls tr x ∧ NoPanic tr := by
  intro p unsubscribes ls
  let r := ((lts p).exec (fun x l => Unstranded p x l = true) (start 0) ls).get (by decide)
  have hrun : (lts p).Run (fun x l => Unstranded p x l = true) (start 0) ls r.2 r.1 :=
    LTS.Run.exec_get _ _ _ _ (by decide)
  exact ⟨_, _, hrun.free, (noPanic_iff hrun.free).mpr hrun⟩

/-- **A client can kill its own session**: its destination was closed, and it unsubscribes. -/
theorem unsubscribing_from_stopped_panics :
    ¬ ∀ (p : Params) (now : Instant) (ls : List TimedWorldLabel) (tr : List TimedWorldObs)
        (x : TimedWorld), (lts p).Run LTS.Free (start now) ls tr x → NoPanic tr := by
  intro hall
  let p := sampleParams []
  let closes : List Label := Label.subscribed ++ [.close sampleDestination,
    .backend sampleDestination "uuid-1" [⟨"uuid-0"⟩], .finish sampleDestination,
    .frame 0 sampleUnsubscribe]
  let ls := closes.map TimedWorldLabel.world
  let r := ((lts p).exec LTS.Free (start 0) ls).get (by decide)
  have hrun : (lts p).Run LTS.Free (start 0) ls r.2 r.1 := LTS.Run.exec_get _ _ _ _ (by decide)
  have hfree := hall p 0 ls _ _ hrun 0
  -- the panic is the last that is observed of the session
  let pre := (r.2.filterMap (TimedWorldObs.ofSession? 0)).dropLast
  have himplemented := hfree pre 0 [] (by decide)
    (.clientFrame (.ok sampleUnsubscribe)) (by decide)
  cases himplemented

end TimedWorld
