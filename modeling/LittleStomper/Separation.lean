/-
# Groups of clients that share no destination

Suppose that the clients of a group `G` subscribe and send only to destinations in `T`, and
all other clients only to other destinations.  Then the others cannot be noticed: for every
run of the system there is a run in which the others never even connect, and the group sees
and does the same, in the same order (`World.runs_alone`).

The proof keeps the part of the system that belongs to the group (`Part`) in step with the
whole.  A step of the group is repeated in the part, and a step of the others leaves the
part alone: what they have at their destinations is their own, so no event of theirs goes to
the group.  The boxes in the part have other numbers, which nobody looks at
(`InMemDestination.Rel`).
-/
import LittleStomper.Isolation
import LittleStomper.Parametricity
import Mathlib.Data.Multiset.Filter

/-- The destination of a call. -/
def DestinationCall.destination : DestinationCall → DestinationId
  | subscribe d _ => d
  | send d _ => d
  | unsubscribe d _ => d

/-- Two boxes of one session of the group. -/
def ProxyBox.Alike (G : Set SessionId) (k k' : ProxyBox) : Prop :=
  k'.session = k.session ∧ k.session ∈ G

/-- Two tasks that a session of the group has spawned for one subscribe call. -/
structure SubscribeTask.Alike (G : Set SessionId) (t t' : SubscribeTask) : Prop where
  destination : t'.destination = t.destination
  subId : t'.subscriberSubId = t.subscriberSubId
  subscriber : t.subscriber.Alike G t'.subscriber

namespace Label

/-- What the session `c` does. -/
def inputOf? (c : SessionId) : Label → Option SessionInput
  | session c' input => if c' = c then some input else none
  | _ => none

/-- The destination where something happens. -/
def at? : Label → Option DestinationId
  | create d => some d
  | backend d _ _ => some d
  | finish d => some d
  | close d => some d
  | _ => none

end Label

namespace Obs

variable (G : Set SessionId) (T : Set DestinationId)

/-- The clients of `G`, and nobody else, subscribe and send to the destinations in `T`. -/
def KeepsTo : Obs → Prop
  | dispatched k (.subscribe d _) => k.session ∈ G ↔ d ∈ T
  | dispatched k (.send d _) => k.session ∈ G ↔ d ∈ T
  | _ => True

instance [DecidablePred (· ∈ G)] [DecidablePred (· ∈ T)] : DecidablePred (KeepsTo G T)
  | dispatched k (.subscribe d _) => inferInstanceAs (Decidable (k.session ∈ G ↔ d ∈ T))
  | dispatched k (.send d _) => inferInstanceAs (Decidable (k.session ∈ G ↔ d ∈ T))
  | dispatched _ (.unsubscribe _ _) => isTrue trivial
  | session _ _ => isTrue trivial
  | unknownDestination _ => isTrue trivial
  | destination _ _ => isTrue trivial

/-- The group takes part: it is observed of one of its sessions or at one of its
destinations. -/
def concerns [DecidablePred (· ∈ G)] [DecidablePred (· ∈ T)] : Obs → Bool
  | session c _ => c ∈ G
  | dispatched k _ => k.session ∈ G
  | unknownDestination k => k.session ∈ G
  | destination d _ => d ∈ T

/-- The same is observed of the group, up to the numbers of its boxes. -/
inductive Alike : Obs → Obs → Prop
  | session {c : SessionId} (hc : c ∈ G) (o : SessionObs) : Alike (.session c o) (.session c o)
  | dispatched {k k' : ProxyBox} (h : k.Alike G k') (call : DestinationCall) :
      Alike (.dispatched k call) (.dispatched k' call)
  | unknownDestination {k k' : ProxyBox} (h : k.Alike G k') :
      Alike (.unknownDestination k) (.unknownDestination k')
  | destination {d : DestinationId} (hd : d ∈ T) {o o' : DestinationObs ProxyBox}
      (h : o.Rel (ProxyBox.Alike G) o') : Alike (.destination d o) (.destination d o')

variable {G T}

/-- What is the same for the group concerns the group. -/
theorem filter_of_alike [DecidablePred (· ∈ G)] [DecidablePred (· ∈ T)] {os os' : List Obs}
    (h : List.Forall₂ (Alike G T) os os') : os.filter (concerns G T) = os := by
  induction h with
  | nil => rfl
  | @cons o o' os os' ho _ ih =>
      have hmine : concerns G T o = true := by
        cases ho with
        | session hc o => exact decide_eq_true hc
        | dispatched hk call => exact decide_eq_true hk.2
        | unknownDestination hk => exact decide_eq_true hk.2
        | destination hd h => exact decide_eq_true hd
      rw [List.filter_cons_of_pos hmine, ih]

end Obs

open Obs

/-! ## Calls of sessions -/

/-- **A session depends on the panics of its surroundings** only in the call that it makes. -/
theorem Session.run_congr {p : Params} {panics panics' : DestinationCall → Bool}
    {r : ClientSession} {resetFails : Bool} {e : ClientEvent}
    (h : ∀ call, World.callOf (run p panics r resetFails e).2 = some call →
      panics' call = panics call) : run p panics' r resetFails e = run p panics r resetFails e := by
  unfold run at h ⊢
  cases hhandled : r.handleEvent p resetFails e with
  | none => rfl
  | some handled =>
      simp only [hhandled] at h ⊢
      cases hcall : handled.call with
      | none => rfl
      | some call =>
          have hsame : panics' call = panics call := by
            refine h call ?_
            cases handled.reset <;> cases hpanics : panics call <;> cases handled.state <;>
              simp [World.callOf, hcall, hpanics]
          simp only [Option.any_some, hsame]

/-- The same for its steps. -/
theorem Session.step_congr {p : Params} {panics panics' : DestinationCall → Bool} {s s' : Session}
    {input : SessionInput} {os : List SessionObs} (hstep : s.step p panics input = some (s', os))
    (h : ∀ call, World.callOf os = some call → panics' call = panics call) :
    s.step p panics' input = some (s', os) := by
  have hrun : ∀ {r : ClientSession} {resetFails : Bool} {e : ClientEvent},
      some (run p panics r resetFails e) = some (s', os) →
      some (run p panics' r resetFails e) = some (s', os) := by
    intro r resetFails e heq
    rw [run_congr fun call hcall => h call ?_]
    · exact heq
    · rwa [Option.some.inj heq] at hcall
  unfold step at hstep ⊢
  split at hstep
  · exact hstep
  · exact hrun hstep
  · split at hstep
    · cases hstep
    · exact hrun hstep
  · split at hstep
    · rename_i hbeats
      rw [if_pos hbeats]
      exact hrun hstep
    · cases hstep
  · exact hstep
  · exact hstep
  · exact hstep
  · cases hstep

namespace World

/-- The destination of an action is that of the call. -/
theorem destination_of_actionOf {d : DestinationId} {k : ProxyBox} {call : DestinationCall}
    {a : DestinationAction ProxyBox} (h : actionOf k call = some (d, a)) :
    call.destination = d := by
  cases call with
  | subscribe d' sub => cases h
  | send d' message => exact (Prod.mk.inj (Option.some.inj h)).1
  | unsubscribe d' s => exact (Prod.mk.inj (Option.some.inj h)).1

/-- A call with another box of the same session is the same action. -/
theorem actionOf_alike {G : Set SessionId} {k k' : ProxyBox} (hk : k.Alike G k')
    {call : DestinationCall} {d : DestinationId} {a : DestinationAction ProxyBox}
    (h : actionOf k call = some (d, a)) :
    ∃ a', actionOf k' call = some (d, a') ∧ a.Rel (ProxyBox.Alike G) a' := by
  cases call with
  | subscribe d' sub => cases h
  | send d' message =>
      obtain ⟨rfl, rfl⟩ := Prod.mk.inj (Option.some.inj h)
      exact ⟨_, rfl, .send message hk⟩
  | unsubscribe d' s =>
      obtain ⟨rfl, rfl⟩ := Prod.mk.inj (Option.some.inj h)
      exact ⟨_, rfl, .unsubscribe s hk⟩

/-- The same is observed when it finds no destination. -/
theorem unknown_alike {G : Set SessionId} {T : Set DestinationId} {k k' : ProxyBox}
    (hk : k.Alike G k') (call : DestinationCall) :
    List.Forall₂ (Alike G T) (World.unknown k call) (World.unknown k' call) := by
  cases call with
  | send d message => exact List.Forall₂.cons (Alike.unknownDestination hk) List.Forall₂.nil
  | _ => exact List.Forall₂.nil

/-! ## The part of a group -/

open Classical in
/-- **The part of the group**: its sessions are those of the whole, its destinations and tasks
are the same up to boxes, and nobody else has come. -/
structure Part (G : Set SessionId) (T : Set DestinationId) (w v : World) : Prop where
  sessions : ∀ c ∈ G, v.sessions c = w.sessions c
  awaiting : ∀ c, c ∉ G → v.sessions c = .awaiting
  destinations : ∀ d ∈ T, Option.Rel (InMemDestination.Rel (ProxyBox.Alike G))
    (w.destinations d) (v.destinations d)
  tasks : Multiset.Rel (SubscribeTask.Alike G)
    (Multiset.filter (fun t => t.destination ∈ T) ↑w.tasks) ↑v.tasks
  uuids : v.uuids ⊆ w.uuids

variable {p : Params} {G : Set SessionId} {T : Set DestinationId} {w w' v : World} {l : Label}
  {tr os : List Obs} {c : SessionId} {d : DestinationId}

namespace Part

/-- A destination of the group is there in the part. -/
theorem found (h : Part G T w v) (hd : d ∈ T) {D : InMemDestination ProxyBox}
    (hD : w.destinations d = some D) :
    ∃ D', v.destinations d = some D' ∧ D.Rel (ProxyBox.Alike G) D' := by
  have hrel := h.destinations d hd
  rw [hD] at hrel
  exact hrel.of_some

/-- A destination of the group that is not there is not there in the part. -/
theorem notFound (h : Part G T w v) (hd : d ∈ T) (hD : w.destinations d = none) :
    v.destinations d = none := by
  have hrel := h.destinations d hd
  rw [hD] at hrel
  generalize v.destinations d = o at hrel
  cases hrel with
  | none => rfl

/-- **The sessions of the group answer in the part as in the whole.** -/
theorem reply (h : Part G T w v) : Answers.Rel (ProxyBox.Alike G) w.reply v.reply := by
  intro i i' hi
  cases hi with
  | send hk s sub m =>
      obtain ⟨hsession, hmine⟩ := hk
      simp only [World.reply, hsession, h.sessions _ hmine]
  | _ => rfl

/-- A session of the group moves. -/
theorem setSession (h : Part G T w v) (hc : c ∈ G) (s : Session) :
    Part G T (w.setSession c s) (v.setSession c s) where
  sessions c' hc' := by
    by_cases heq : c' = c
    · subst heq
      simp [World.setSession]
    · simp [World.setSession, Function.update_of_ne heq, h.sessions c' hc']
  awaiting c' hc' := by
    have hne : c' ≠ c := fun heq => hc' (heq ▸ hc)
    simp [World.setSession, Function.update_of_ne hne, h.awaiting c' hc']
  destinations := h.destinations
  tasks := h.tasks
  uuids := h.uuids

/-- Boxes are made. -/
theorem setBoxes (h : Part G T w v) (n n' : Nat) :
    Part G T { w with boxes := n } { v with boxes := n' } :=
  ⟨h.sessions, h.awaiting, h.destinations, h.tasks, h.uuids⟩

/-- A uuid is drawn. -/
theorem draw (h : Part G T w v) (uuid : String) :
    Part G T { w with uuids := uuid :: w.uuids } { v with uuids := uuid :: v.uuids } :=
  ⟨h.sessions, h.awaiting, h.destinations, h.tasks, List.cons_subset_cons _ h.uuids⟩

/-- A destination of the group changes. -/
theorem setDestination (h : Part G T w v) {D D' : InMemDestination ProxyBox}
    (hD : D.Rel (ProxyBox.Alike G) D') :
    Part G T (w.setDestination d D) (v.setDestination d D') where
  sessions := h.sessions
  awaiting := h.awaiting
  destinations d' hd' := by
    by_cases heq : d' = d
    · subst heq
      simpa [World.setDestination] using hD
    · simpa [World.setDestination, Function.update_of_ne heq] using h.destinations d' hd'
  tasks := h.tasks
  uuids := h.uuids

/-- The order of the tasks does not matter. -/
theorem coe_concat (ts : List SubscribeTask) (t : SubscribeTask) :
    ((ts ++ [t] : List SubscribeTask) : Multiset SubscribeTask) = t ::ₘ ↑ts := by
  rw [Multiset.cons_coe]
  exact Multiset.coe_eq_coe.mpr (List.perm_append_singleton t ts)

/-- A task is spawned for a destination of the group. -/
theorem spawn (h : Part G T w v) {t t' : SubscribeTask} (ht : t.Alike G t')
    (hT : t.destination ∈ T) :
    Part G T { w with tasks := w.tasks ++ [t] } { v with tasks := v.tasks ++ [t'] } := by
  classical
  refine { h with tasks := ?_ }
  simp only [coe_concat]
  rw [Multiset.filter_cons_of_pos (p := fun t : SubscribeTask => t.destination ∈ T) _ hT]
  exact Multiset.Rel.cons ht h.tasks

/-- Corresponding calls send the same events. -/
theorem eventsFor {os os' : List (DestinationObs ProxyBox)}
    (h : List.Forall₂ (DestinationObs.Rel (ProxyBox.Alike G)) os os') (c : SessionId)
    (d : DestinationId) : World.eventsFor c d os' = World.eventsFor c d os := by
  have hone : ∀ o o', DestinationObs.Rel (ProxyBox.Alike G) o o' →
      sent? c (.destination d o') = sent? c (.destination d o) := by
    intro o o' ho
    cases ho with
    | @invoked i i' hi reply =>
        have hsame : i'.target.session = i.target.session ∧ event? i' = event? i := by
          cases hi with
          | _ hk => exact ⟨hk.1, rfl⟩
        simp only [sent?]
        rw [hsame.1, hsame.2]
    | _ => rfl
  induction h with
  | nil => rfl
  | @cons o o' os os' ho _ ih =>
      rw [World.eventsFor, World.eventsFor, sentTo, sentTo] at ih ⊢
      rw [List.map_cons, List.map_cons, List.filterMap_cons, List.filterMap_cons, hone o o' ho, ih]

/-- **A destination of the group calls on sessions.** -/
theorem invokeAll (h : Part G T w v) {os os' : List (DestinationObs ProxyBox)}
    (hos : List.Forall₂ (DestinationObs.Rel (ProxyBox.Alike G)) os os') :
    Part G T (w.invokeAll os) (v.invokeAll os') := by
  -- the destination does not matter for what is sent
  rw [invokeAll_eq w ⟨""⟩, invokeAll_eq v ⟨""⟩]
  refine ⟨fun c hc => ?_, fun c hc => ?_, h.destinations, h.tasks, h.uuids⟩
  · simp only [h.sessions c hc, eventsFor hos]
  · simp only [h.awaiting c hc, Session.receive]

/-- **A call on a destination of the group.** -/
theorem callDestination (h : Part G T w v) (hd : d ∈ T) {D D' : InMemDestination ProxyBox}
    (hD : D.Rel (ProxyBox.Alike G) D') {a a' : DestinationAction ProxyBox}
    (ha : a.Rel (ProxyBox.Alike G) a') :
    Part G T (w.callDestination d D a).1 (v.callDestination d D' a').1 ∧
      List.Forall₂ (Alike G T) (w.callDestination d D a).2 (v.callDestination d D' a').2 := by
  obtain ⟨hstate, hos⟩ := hD.call h.reply ha
  exact ⟨(h.setDestination hstate).invokeAll hos,
    List.rel_map (fun _ _ ho => Alike.destination hd ho) hos⟩

/-- **A session of the group calls a method of `AsyncDestinations`.** -/
theorem perform (h : Part G T w v) (hc : c ∈ G) {call : DestinationCall}
    (hcall : call.destination ∈ T) :
    Part G T (w.perform c call).1 (v.perform c call).1 ∧
      List.Forall₂ (Alike G T) (w.perform c call).2 (v.perform c call).2 := by
  have hk : ProxyBox.Alike G ⟨c, w.boxes⟩ ⟨c, v.boxes⟩ := ⟨rfl, hc⟩
  have hboxes := h.setBoxes (w.boxes + 1) (v.boxes + 1)
  have hdispatched := Alike.dispatched (T := T) hk call
  cases haction : actionOf ⟨c, w.boxes⟩ call with
  | none =>
      cases call with
      | subscribe d sub =>
          exact ⟨hboxes.spawn ⟨rfl, rfl, hk⟩ hcall,
            List.Forall₂.cons hdispatched List.Forall₂.nil⟩
      | send d message => cases haction
      | unsubscribe d s => cases haction
  | some da =>
      obtain ⟨d, a⟩ := da
      obtain ⟨a', haction', ha⟩ := actionOf_alike hk haction
      have hd : d ∈ T := by rwa [← destination_of_actionOf haction]
      cases hD : w.destinations d with
      | none =>
          rw [perform_notFound haction hD, perform_notFound haction' (h.notFound hd hD)]
          exact ⟨hboxes, List.Forall₂.cons hdispatched (unknown_alike hk call)⟩
      | some D =>
          obtain ⟨D', hD', hrel⟩ := h.found hd hD
          obtain ⟨hpart, hos⟩ := hboxes.callDestination hd hrel ha
          rw [perform_found haction hD, perform_found haction' hD']
          exact ⟨hpart, List.Forall₂.cons hdispatched hos⟩

/-- Such a call panics in the part exactly if it does in the whole. -/
theorem callPanics (h : Part G T w v) (hc : c ∈ G) {call : DestinationCall}
    (hcall : call.destination ∈ T) : v.callPanics c call = w.callPanics c call := by
  have hos := (h.perform hc hcall).2
  rw [World.callPanics, World.callPanics]
  generalize (w.perform c call).2 = os at hos
  generalize (v.perform c call).2 = os' at hos
  induction hos with
  | nil => rfl
  | @cons o o' os os' ho _ ih =>
      rw [panicked, panicked] at ih ⊢
      rw [List.any_cons, List.any_cons, ih]
      cases ho with
      | destination hd hrel =>
          cases hrel with
          | invoked hi reply => cases reply <;> rfl
          | _ => rfl
      | _ => rfl

end Part

/-! ## Steps of the group -/

/-- **The part repeats a step of the whole**, and the same is observed. -/
def Repeats (p : Params) (G : Set SessionId) (T : Set DestinationId) (v : World) (l : Label)
    (w' : World) (os : List Obs) : Prop :=
  ∃ l' v' os', (lts p).step v l' = some (v', os') ∧ Part G T w' v' ∧
    List.Forall₂ (Alike G T) os os' ∧ ∀ c, l'.inputOf? c = l.inputOf? c

/-- A task is known by its box. -/
theorem Calls.task_eq (h : Calls w tr) {t t' : SubscribeTask} (ht : t ∈ w.tasks)
    (ht' : t' ∈ w.tasks) (hbox : t.subscriber.box = t'.subscriber.box) : t = t' := by
  obtain ⟨hk, hcall⟩ := h.one _ _ _ _ (h.task t ht) (h.task t' ht') hbox
  obtain ⟨hdest, hsub⟩ := DestinationCall.subscribe.inj hcall
  obtain ⟨d, sub, k⟩ := t
  obtain ⟨d', sub', k'⟩ := t'
  obtain rfl : d = d' := hdest
  obtain rfl : sub = sub' := hsub
  obtain rfl : k = k' := hk
  rfl

/-- A task is found by its box. -/
theorem Calls.find_task (h : Calls w tr) {t : SubscribeTask} (ht : t ∈ w.tasks) :
    (w.tasks.find? fun t' => t'.subscriber.box = t.subscriber.box) = some t := by
  have hfound : (w.tasks.find? fun t' => t'.subscriber.box = t.subscriber.box).isSome = true :=
    List.find?_isSome.mpr ⟨t, ht, by simp⟩
  obtain ⟨t', hfind⟩ := Option.isSome_iff_exists.mp hfound
  have hbox : t'.subscriber.box = t.subscriber.box := by simpa using List.find?_some hfind
  rw [hfind, h.task_eq (List.mem_of_find?_eq_some hfind) ht hbox]

/-- A call is dispatched with the next box. -/
theorem dispatched_mem_perform (w : World) (c : SessionId) (call : DestinationCall) :
    dispatched ⟨c, w.boxes⟩ call ∈ (w.perform c call).2 := by
  cases haction : actionOf ⟨c, w.boxes⟩ call with
  | none =>
      cases call with
      | subscribe d sub => exact List.mem_cons_self
      | send d message => cases haction
      | unsubscribe d s => cases haction
  | some da =>
      obtain ⟨d, a⟩ := da
      cases hD : w.destinations d with
      | none =>
          rw [perform_notFound haction hD]
          exact List.mem_cons_self
      | some D =>
          rw [perform_found haction hD]
          exact List.mem_cons_self

namespace Part

/-- **A session of the group moves.** -/
theorem session (h : Part G T w v) (hc : c ∈ G) {input : SessionInput}
    (hkept : ∀ k call, dispatched k call ∈ os → (k.session ∈ G ↔ call.destination ∈ T))
    (hstep : (lts p).step w (.session c input) = some (w', os)) :
    Repeats p G T v (.session c input) w' os := by
  have hlabel : ∀ u : World, (lts p).step u (.session c input) = u.stepSession p c input := by
    intro u
    cases input with
    | deliver e => cases hstep
    | _ => rfl
  rw [hlabel, stepSession] at hstep
  cases hs : (w.sessions c).step p (w.callPanics c) input with
  | none =>
      rw [hs] at hstep
      cases hstep
  | some r =>
      obtain ⟨s, sos⟩ := r
      rw [hs] at hstep
      obtain ⟨rfl, rfl⟩ := Prod.mk.inj (Option.some.inj hstep)
      have hsos : List.Forall₂ (Alike G T) (sos.map (.session c)) (sos.map (.session c)) := by
        rw [List.forall₂_same]
        intro o ho
        obtain ⟨o, -, rfl⟩ := List.mem_map.mp ho
        exact Alike.session hc o
      have htopic : ∀ call, callOf sos = some call → call.destination ∈ T := by
        intro call hcall
        refine (hkept ⟨c, w.boxes⟩ call ?_).mp hc
        rw [hcall]
        exact List.mem_append_right _ (dispatched_mem_perform (w.setSession c s) c call)
      have hsame : (v.sessions c).step p (v.callPanics c) input = some (s, sos) := by
        rw [h.sessions c hc]
        exact Session.step_congr hs fun call hcall => h.callPanics hc (htopic call hcall)
      cases hcall : callOf sos with
      | none =>
          refine ⟨.session c input, v.setSession c s, sos.map (.session c) ++ [], ?_,
            h.setSession hc s, List.rel_append hsos List.Forall₂.nil, fun _ => rfl⟩
          rw [hlabel, stepSession, hsame]
          simp only [hcall]
      | some call =>
          obtain ⟨hpart, hos⟩ := (h.setSession hc s).perform hc (htopic call hcall)
          refine ⟨.session c input, ((v.setSession c s).perform c call).1,
            sos.map (.session c) ++ ((v.setSession c s).perform c call).2, ?_, hpart,
            List.rel_append hsos hos, fun _ => rfl⟩
          rw [hlabel, stepSession, hsame]
          simp only [hcall]

/-- A destination of the group is created. -/
theorem create (h : Part G T w v) (hd : d ∈ T)
    (hstep : (lts p).step w (.create d) = some (w', os)) :
    Repeats p G T v (.create d) w' os := by
  classical
  cases turn_of_step hstep with
  | created htask hdest =>
      obtain ⟨t, ht, rfl⟩ := htask
      -- the task is there in the part, too
      have hmine : t ∈ Multiset.filter (fun t : SubscribeTask => t.destination ∈ T) ↑w.tasks :=
        Multiset.mem_filter.mpr ⟨ht, hd⟩
      obtain ⟨t', ht', halike⟩ := Multiset.exists_mem_of_rel_of_mem h.tasks hmine
      have hany : ∃ u ∈ v.tasks, u.destination = t.destination := ⟨t', ht', halike.destination⟩
      refine ⟨.create t.destination, v.setDestination t.destination (.create t.destination), [],
        ?_, h.setDestination (InMemDestination.create_rel _), List.Forall₂.nil, fun _ => rfl⟩
      simpa [lts, World.step, stepCreate, h.notFound hd hdest] using hany

/-- **A task of the group calls.** -/
theorem subscribe (h : Part G T w v) {tr' : List Obs} (hcalls : Calls v tr') {t : SubscribeTask}
    (ht : t ∈ w.tasks)
    (hfind : (w.tasks.find? fun t' => t'.subscriber.box = t.subscriber.box) = some t)
    (hd : t.destination ∈ T)
    (hstep : (lts p).step w (.subscribe t.subscriber.box) = some (w', os)) :
    Repeats p G T v (.subscribe t.subscriber.box) w' os := by
  classical
  have hsplit : (↑w.tasks : Multiset SubscribeTask) = t ::ₘ ↑(w.tasks.erase t) := by
    rw [Multiset.cons_coe]
    exact Multiset.coe_eq_coe.mpr (List.perm_cons_erase ht)
  have htasks := h.tasks
  rw [hsplit, Multiset.filter_cons_of_pos (p := fun t : SubscribeTask => t.destination ∈ T) _ hd,
    Multiset.rel_cons_left] at htasks
  obtain ⟨t', rest, halike, hrest, hv⟩ := htasks
  have ht' : t' ∈ v.tasks := by
    rw [← Multiset.mem_coe, hv]
    exact Multiset.mem_cons_self _ _
  have herase : (↑(v.tasks.erase t') : Multiset SubscribeTask) = rest := by
    rw [← Multiset.coe_erase, hv, Multiset.erase_cons_head]
  rw [← herase] at hrest
  have hpart : Part G T { w with tasks := w.tasks.erase t } { v with tasks := v.tasks.erase t' } :=
    { h with tasks := hrest }
  have hfind' : (v.tasks.find? fun u => u.subscriber.box = t'.subscriber.box) = some t' :=
    hcalls.find_task ht'
  cases hD : w.destinations t.destination with
  | none => simp [lts, World.step, stepSubscribe, hfind, hD] at hstep
  | some D =>
      obtain ⟨D', hD', hrel⟩ := h.found hd hD
      have ha : DestinationAction.Rel (ProxyBox.Alike G)
          (.subscribe t.subscriberSubId t.subscriber)
          (.subscribe t'.subscriberSubId t'.subscriber) := by
        rw [halike.subId]
        exact .subscribe _ halike.subscriber
      obtain ⟨hpart', hos⟩ := hpart.callDestination hd hrel ha
      simp only [lts, World.step, stepSubscribe, hfind, hD, Option.some.injEq] at hstep
      obtain ⟨rfl, rfl⟩ := Prod.mk.inj hstep
      refine ⟨.subscribe t'.subscriber.box, _, _, ?_, hpart', hos, fun _ => rfl⟩
      simp only [lts, World.step, stepSubscribe, hfind', halike.destination, hD']

/-- **A backend of the group takes an action.** -/
theorem backend (h : Part G T w v) (hd : d ∈ T) {uuid : String} {order : List SubscriptionId}
    (hstep : (lts p).step w (.backend d uuid order) = some (w', os)) :
    Repeats p G T v (.backend d uuid order) w' os := by
  simp only [lts, World.step, stepBackend] at hstep
  cases hD : w.destinations d with
  | none => simp [hD] at hstep
  | some D =>
      obtain ⟨D', hD', hrel⟩ := h.found hd hD
      simp only [hD, Option.ite_none_left_eq_some] at hstep
      obtain ⟨hfresh, hstep⟩ := hstep
      have hfresh' : uuid ∉ v.uuids := fun hin => hfresh (h.uuids hin)
      obtain ⟨⟨D₁, dos⟩, hprocess, heq⟩ := Option.map_eq_some_iff.mp hstep
      obtain ⟨rfl, rfl⟩ := Prod.mk.inj heq
      have hturn := hrel.process h.reply uuid order
      rw [hprocess] at hturn
      obtain ⟨r, hprocess', hstate, hdos⟩ := hturn.of_some
      refine ⟨.backend d uuid order, _, _, ?_,
        ((h.draw uuid).setDestination hstate).invokeAll hdos,
        List.rel_map (fun _ _ ho => Alike.destination hd ho) hdos, fun _ => rfl⟩
      simp only [lts, World.step, stepBackend, hD', if_neg hfresh', hprocess', Option.map_some]

/-- A backend of the group closes its receiver. -/
theorem finish (h : Part G T w v) (hd : d ∈ T)
    (hstep : (lts p).step w (.finish d) = some (w', os)) :
    Repeats p G T v (.finish d) w' os := by
  simp only [lts, World.step] at hstep
  cases hD : w.destinations d with
  | none => simp [hD] at hstep
  | some D =>
      obtain ⟨D', hD', hrel⟩ := h.found hd hD
      simp only [hD] at hstep
      obtain ⟨⟨D₁, dos⟩, hfinish, heq⟩ := Option.map_eq_some_iff.mp hstep
      obtain ⟨rfl, rfl⟩ := Prod.mk.inj heq
      have hturn := hrel.finish
      rw [hfinish] at hturn
      obtain ⟨r, hfinish', hstate, hdos⟩ := hturn.of_some
      refine ⟨.finish d, _, _, ?_, h.setDestination hstate,
        List.rel_map (fun _ _ ho => Alike.destination hd ho) hdos, fun _ => rfl⟩
      simp only [lts, World.step, hD', hfinish', Option.map_some]

/-- Somebody closes a destination of the group. -/
theorem close (h : Part G T w v) (hd : d ∈ T)
    (hstep : (lts p).step w (.close d) = some (w', os)) :
    Repeats p G T v (.close d) w' os := by
  simp only [lts, World.step] at hstep
  cases hD : w.destinations d with
  | none => simp [hD] at hstep
  | some D =>
      obtain ⟨D', hD', hrel⟩ := h.found hd hD
      simp only [hD, Option.some.injEq] at hstep
      obtain ⟨rfl, rfl⟩ := Prod.mk.inj hstep
      obtain ⟨hpart, hos⟩ := h.callDestination hd hrel DestinationAction.Rel.close
      refine ⟨.close d, _, _, ?_, hpart, hos, fun _ => rfl⟩
      simp only [lts, World.step, hD']

end Part

/-! ## Steps of the others -/

/-- **The groups keep apart** in all their calls: a session unsubscribes only from what it has
subscribed to. -/
theorem kept_apart {C : World → Label → Prop} {ls : List Label}
    (hrun : (lts p).Run C initial ls tr w) (hkept : ∀ o ∈ tr, o.KeepsTo G T) :
    ∀ k call, dispatched k call ∈ tr → (k.session ∈ G ↔ call.destination ∈ T) := by
  intro k call hk
  cases call with
  | subscribe d sub => exact hkept _ hk
  | send d message => exact hkept _ hk
  | unsubscribe d s =>
      obtain ⟨i, -, k', hsession, hcreated⟩ := asked hrun k d s hk
      have hissued : dispatched k' (.subscribe d (some i)) ∈ tr :=
        (provenance hrun).taken _ _ _ hcreated
      rw [← hsession]
      exact hkept _ hissued

/-- **A step of the others**: it is made by one of their sessions, or for one of their tasks, or
at a destination that is not the group's. -/
structure OfOthers (G : Set SessionId) (T : Set DestinationId) (w : World) (l : Label)
    (os : List Obs) : Prop where
  calls : ∀ k call, dispatched k call ∈ os → (k.session ∈ G ↔ call.destination ∈ T)
  session : ∀ c input, l = .session c input → c ∉ G
  task : ∀ t ∈ w.tasks, l = .subscribe t.subscriber.box → t.destination ∉ T
  here : ∀ d, l.at? = some d → d ∉ T

/-- **It sends nothing to the group.** -/
theorem OfOthers.sends_nothing (ho : OfOthers G T w l os) (h : Turn p w l w' os)
    (hprov : Provenance w tr)
    (hapart : ∀ k call, dispatched k call ∈ tr → (k.session ∈ G ↔ call.destination ∈ T))
    (hc : c ∈ G) : sentTo c os = [] := by
  have hsends := h.sends hprov c
  generalize sentTo c os = es at hsends ⊢
  cases hsends with
  | nothing => rfl
  | @refused t i D hl ht hsession hi hD hgone =>
      rw [← hsession] at hc
      exact absurd ((hapart _ _ (hprov.toCalls.task t ht)).mp hc) (ho.task t ht hl)
  | @subscribed d uuid order D i k q hl hD hmail hsession =>
      rw [← hsession] at hc
      exact absurd ((hapart _ _ (hprov.head hD hmail)).mp hc) (ho.here d (by rw [hl]; rfl))
  | @unsubscribed d uuid order D s i k sub q hl hD hmail hsession hs hi =>
      rw [← hsession] at hc
      exact absurd ((hapart _ _ (hprov.head hD hmail)).mp hc) (ho.here d (by rw [hl]; rfl))
  | @messages d uuid order D message k q hl hD horder hmail =>
      rw [messagesFor, List.filterMap_eq_nil_iff]
      intro sub hsub
      obtain ⟨s, hs⟩ := (InMemDestinationBackend.mem_values _ horder).mp hsub
      obtain ⟨i, -, -, hcreated⟩ := hprov.held d D s sub hD hs
      have hissued : dispatched sub.sendFn (.subscribe d (some i)) ∈ tr :=
        hprov.taken _ _ _ hcreated
      refine if_neg fun hsession => ?_
      rw [← hsession] at hc
      exact ho.here d (by rw [hl]; rfl) ((hapart _ _ hissued).mp hc)

/-- It changes no destination of the group. -/
theorem OfOthers.destinations (ho : OfOthers G T w l os) (h : Turn p w l w' os) (hd : d ∈ T) :
    w'.destinations d = w.destinations d := by
  have hupdate : ∀ {d₁ : DestinationId} (D : InMemDestination ProxyBox), d₁ ∉ T →
      Function.update w.destinations d₁ (some D) d = w.destinations d := by
    intro d₁ D hd₁
    refine Function.update_of_ne ?_ _ _
    rintro rfl
    exact hd₁ hd
  cases h with
  | @enqueued c input s sos call d₁ a D m hturn hinput hcall haction hdest hsend =>
      refine hupdate _ fun hd₁ => ho.session c input rfl ?_
      refine (ho.calls ⟨c, w.boxes⟩ call (by simp)).mpr ?_
      rwa [destination_of_actionOf haction]
  | created htask hdest => exact hupdate _ (ho.here _ rfl)
  | subscribed ht hfind hdest hsend => exact hupdate _ (ho.task _ ht rfl)
  | closed hdest fresh hmail => exact hupdate _ (ho.here _ rfl)
  | performed os hdest fresh horder hmail hclose hos => exact hupdate _ (ho.here _ rfl)
  | finished hdest hmail => exact hupdate _ (ho.here _ rfl)
  | close hdest hsend => exact hupdate _ (ho.here _ rfl)
  | _ => rfl

/-- It leaves the tasks of the group alone. -/
theorem OfOthers.tasks [DecidablePred (· ∈ T)] (ho : OfOthers G T w l os)
    (h : Turn p w l w' os) :
    Multiset.filter (fun t : SubscribeTask => t.destination ∈ T) ↑w'.tasks
      = Multiset.filter (fun t : SubscribeTask => t.destination ∈ T) ↑w.tasks := by
  have herase : ∀ t ∈ w.tasks, t.destination ∉ T →
      Multiset.filter (fun t : SubscribeTask => t.destination ∈ T) ↑(w.tasks.erase t)
        = Multiset.filter (fun t : SubscribeTask => t.destination ∈ T) ↑w.tasks := by
    intro t ht hd
    rw [← Multiset.filter_cons_of_neg (p := fun t : SubscribeTask => t.destination ∈ T)
      (↑(w.tasks.erase t)) hd, Multiset.cons_coe]
    exact congrArg _ (Multiset.coe_eq_coe.mpr (List.perm_cons_erase ht).symm)
  cases h with
  | @spawned c input s sos d sub hturn hinput hcall =>
      have hd : d ∉ T := fun hd =>
        ho.session c input rfl ((ho.calls ⟨c, w.boxes⟩ (.subscribe d sub) (by simp)).mpr hd)
      simp only [Part.coe_concat]
      exact Multiset.filter_cons_of_neg _ hd
  | subscribed ht hfind hdest hsend => exact herase _ ht (ho.task _ ht rfl)
  | subscribeRefused os ht hfind hdest hgone hos => exact herase _ ht (ho.task _ ht rfl)
  | _ => rfl

/-- The group observes nothing of it. -/
theorem OfOthers.unobserved [DecidablePred (· ∈ G)] [DecidablePred (· ∈ T)]
    (ho : OfOthers G T w l os) (h : Turn p w l w' os) : os.filter (concerns G T) = [] := by
  have hsos : ∀ {c : SessionId} (sos : List SessionObs), c ∉ G →
      (sos.map (Obs.session c)).filter (concerns G T) = [] := by
    intro c sos hc
    rw [List.filter_eq_nil_iff]
    intro o ho
    obtain ⟨o, -, rfl⟩ := List.mem_map.mp ho
    simp [concerns, hc]
  have hdos : ∀ {d : DestinationId} (dos : List (DestinationObs ProxyBox)), d ∉ T →
      (dos.map (Obs.destination d)).filter (concerns G T) = [] := by
    intro d dos hd
    rw [List.filter_eq_nil_iff]
    intro o ho
    obtain ⟨o, -, rfl⟩ := List.mem_map.mp ho
    simp [concerns, hd]
  cases h with
  | @session c input s sos hturn hinput hcall => exact hsos sos (ho.session c input rfl)
  | @spawned c input s sos d sub hturn hinput hcall =>
      have hc := ho.session c input rfl
      simp [hsos sos hc, concerns, hc]
  | @unknown c input s sos call d a hturn hinput hcall haction hdest =>
      have hc := ho.session c input rfl
      cases call <;> simp [hsos sos hc, concerns, hc, World.unknown]
  | @enqueued c input s sos call d a D m hturn hinput hcall haction hdest hsend =>
      have hc := ho.session c input rfl
      have hd : d ∉ T := by
        rw [← destination_of_actionOf haction, ← ho.calls ⟨c, w.boxes⟩ call (by simp)]
        exact hc
      simp [hsos sos hc, concerns, hc, hd]
  | @refused c input s sos call d a D dos hturn hinput hcall haction hdest hgone hos =>
      have hc := ho.session c input rfl
      have hd : d ∉ T := by
        rw [← destination_of_actionOf haction, ← ho.calls ⟨c, w.boxes⟩ call (by simp)]
        exact hc
      simp [hsos sos hc, hdos dos hd, concerns, hc]
  | created htask hdest => rfl
  | subscribed ht hfind hdest hsend => simp [concerns, ho.task _ ht rfl]
  | subscribeRefused dos ht hfind hdest hgone hos => exact hdos dos (ho.task _ ht rfl)
  | closed hdest fresh hmail => simp [concerns, ho.here _ rfl]
  | performed dos hdest fresh horder hmail hclose hos => exact hdos dos (ho.here _ rfl)
  | finished hdest hmail => simp [concerns, ho.here _ rfl]
  | close hdest hsend => simp [concerns, ho.here _ rfl]
  | closeRefused hdest hgone => simp [concerns, ho.here _ rfl]

/-- **The part need not move** when the others do. -/
theorem Part.other (h : Part G T w v) (ho : OfOthers G T w l os) (hturn : Turn p w l w' os)
    (hprov : Provenance w tr)
    (hapart : ∀ k call, dispatched k call ∈ tr → (k.session ∈ G ↔ call.destination ∈ T)) :
    Part G T w' v where
  sessions c hc := by
    rcases hturn.atSession c with ⟨input, hl, -⟩ | ⟨-, hreceive, -⟩
    · exact absurd hc (ho.session c input hl)
    · rw [h.sessions c hc, hreceive, ho.sends_nothing hturn hprov hapart hc, Session.receive_nil]
  awaiting := h.awaiting
  destinations d hd := by
    rw [ho.destinations hturn hd]
    exact h.destinations d hd
  tasks := by
    classical
    have hsame := ho.tasks hturn
    have htasks := h.tasks
    rw [← hsame] at htasks
    exact htasks
  uuids := fun u hu => hturn.uuids_subset (h.uuids hu)

/-! ## The whole run -/

/-- **A step of the whole** is repeated in the part, or it is one of the others, and the part and
the group do not notice. -/
theorem Part.step [DecidablePred (· ∈ G)] [DecidablePred (· ∈ T)] (h : Part G T w v)
    (hprov : Provenance w tr) {tr' : List Obs} (hcalls : Calls v tr')
    (hapart : ∀ k call, dispatched k call ∈ tr ++ os → (k.session ∈ G ↔ call.destination ∈ T))
    (hstep : (lts p).step w l = some (w', os)) :
    Repeats p G T v l w' os ∨ Part G T w' v ∧ os.filter (concerns G T) = [] ∧
      ∀ c ∈ G, l.inputOf? c = none := by
  have hturn := turn_of_step hstep
  have hbefore : ∀ k call, dispatched k call ∈ tr → (k.session ∈ G ↔ call.destination ∈ T) :=
    fun k call hk => hapart k call (List.mem_append_left _ hk)
  have hnow : ∀ k call, dispatched k call ∈ os → (k.session ∈ G ↔ call.destination ∈ T) :=
    fun k call hk => hapart k call (List.mem_append_right _ hk)
  -- whoever moves without the group
  have hother : (∀ c input, l = .session c input → c ∉ G) →
      (∀ t ∈ w.tasks, l = .subscribe t.subscriber.box → t.destination ∉ T) →
      (∀ d, l.at? = some d → d ∉ T) →
      Part G T w' v ∧ os.filter (concerns G T) = [] ∧ ∀ c ∈ G, l.inputOf? c = none := by
    intro hsession htask hdest
    have ho : OfOthers G T w l os := ⟨hnow, hsession, htask, hdest⟩
    refine ⟨h.other ho hturn hprov hbefore, ho.unobserved hturn, fun c hc => ?_⟩
    cases l with
    | session c' input =>
        have hne : c' ≠ c := by
          rintro rfl
          exact hsession c' input rfl hc
        exact if_neg hne
    | _ => rfl
  have hat : ∀ d, l.at? = some d → d ∉ T → Part G T w' v ∧ os.filter (concerns G T) = [] ∧
      ∀ c ∈ G, l.inputOf? c = none := by
    intro d hl hd
    refine hother ?_ ?_ ?_
    · rintro c input rfl
      cases hl
    · rintro t - rfl
      cases hl
    · intro d' hl'
      obtain rfl := Option.some.inj (hl.symm.trans hl')
      exact hd
  cases l with
  | session c input =>
      by_cases hc : c ∈ G
      · exact Or.inl (h.session hc hnow hstep)
      · refine Or.inr (hother ?_ (by simp) (by simp [Label.at?]))
        rintro c' input' heq
        obtain rfl := (Label.session.inj heq).1
        exact hc
  | subscribe box =>
      have hfound : ∃ t ∈ w.tasks, t.subscriber.box = box := by
        cases hturn with
        | subscribed ht hfind hdest hsend => exact ⟨_, ht, rfl⟩
        | subscribeRefused dos ht hfind hdest hgone hos => exact ⟨_, ht, rfl⟩
      obtain ⟨t, ht, rfl⟩ := hfound
      by_cases hd : t.destination ∈ T
      · exact Or.inl (h.subscribe hcalls ht (hprov.toCalls.find_task ht) hd hstep)
      · refine Or.inr (hother (by simp) ?_ (by simp [Label.at?]))
        intro t' ht' heq
        rwa [← hprov.toCalls.task_eq ht ht' (Label.subscribe.inj heq)]
  | create d =>
      by_cases hd : d ∈ T
      · exact Or.inl (h.create hd hstep)
      · exact Or.inr (hat d rfl hd)
  | backend d uuid order =>
      by_cases hd : d ∈ T
      · exact Or.inl (h.backend hd hstep)
      · exact Or.inr (hat d rfl hd)
  | finish d =>
      by_cases hd : d ∈ T
      · exact Or.inl (h.finish hd hstep)
      · exact Or.inr (hat d rfl hd)
  | close d =>
      by_cases hd : d ∈ T
      · exact Or.inl (h.close hd hstep)
      · exact Or.inr (hat d rfl hd)

/-- At the start the part is the whole. -/
theorem part_initial : Part G T initial initial where
  sessions _ _ := rfl
  awaiting _ _ := rfl
  destinations _ _ := Option.Rel.none
  tasks := Multiset.Rel.zero
  uuids := List.Subset.refl _

/-- **Every run has a run of the group alone**, with the part of the group at its end. -/
theorem part_run [DecidablePred (· ∈ G)] [DecidablePred (· ∈ T)] {C : World → Label → Prop}
    {ls : List Label} (hrun : (lts p).Run C initial ls tr w) (hkept : ∀ o ∈ tr, o.KeepsTo G T) :
    ∃ ls' tr' v, (lts p).Run LTS.Free initial ls' tr' v ∧ Part G T w v ∧
      (∀ c ∈ G, ls'.filterMap (Label.inputOf? c) = ls.filterMap (Label.inputOf? c)) ∧
      List.Forall₂ (Alike G T) (tr.filter (concerns G T)) tr' := by
  induction hrun with
  | refl => exact ⟨[], [], initial, LTS.Run.refl _, part_initial, fun _ _ => rfl, .nil⟩
  | @snoc w w' ls tr os l hrun hC hstep ih =>
      obtain ⟨ls', tr', v, hrun', hpart, hinputs, htr⟩ :=
        ih fun o ho => hkept o (List.mem_append_left _ ho)
      rcases hpart.step (provenance hrun) (provenance hrun').toCalls
        (kept_apart (hrun.snoc hC hstep) hkept) hstep with
        ⟨l', v', os', hstep', hpart', hos, hinput⟩ | ⟨hpart', hos, hinput⟩
      · refine ⟨_, _, v', hrun'.snoc trivial hstep', hpart', fun c hc => ?_, ?_⟩
        · have hone : [l'].filterMap (Label.inputOf? c) = [l].filterMap (Label.inputOf? c) := by
            simp only [List.filterMap_cons, List.filterMap_nil, hinput c]
          rw [List.filterMap_append, List.filterMap_append, hinputs c hc, hone]
        · rw [List.filter_append, filter_of_alike hos]
          exact List.rel_append htr hos
      · refine ⟨ls', tr', v, hrun', hpart', fun c hc => ?_, ?_⟩
        · have hnone : [l].filterMap (Label.inputOf? c) = [] := by
            simp only [List.filterMap_cons, List.filterMap_nil, hinput c hc]
          rw [List.filterMap_append, hnone, List.append_nil]
          exact hinputs c hc
        · rw [List.filter_append, hos, List.append_nil]
          exact htr

/-- **Clients that share no destination do not notice each other.**  Let the clients of a group,
and nobody else, subscribe and send to certain destinations.  Then for every run of the system
there is one in which all others never connect, the clients of the group do the same, their
sessions end in the same states, and the same is observed of the group and at its destinations,
in the same order. -/
theorem runs_alone [DecidablePred (· ∈ G)] [DecidablePred (· ∈ T)] {ls : List Label}
    (hrun : (lts p).Run LTS.Free initial ls tr w) (hkept : ∀ o ∈ tr, o.KeepsTo G T) :
    ∃ ls' tr' v, (lts p).Run LTS.Free initial ls' tr' v ∧
      (∀ c ∈ G, ls'.filterMap (Label.inputOf? c) = ls.filterMap (Label.inputOf? c) ∧
        v.sessions c = w.sessions c) ∧
      (∀ c, c ∉ G → v.sessions c = .awaiting) ∧
      List.Forall₂ (Alike G T) (tr.filter (concerns G T)) tr' := by
  obtain ⟨ls', tr', v, hrun', hpart, hinputs, htr⟩ := part_run hrun hkept
  exact ⟨ls', tr', v, hrun', fun c hc => ⟨hinputs c hc, hpart.sessions c hc⟩, hpart.awaiting, htr⟩

/-- The theorem applied to two clients that subscribe to different destinations under the same id,
the second of them first; both get what they have asked for. -/
theorem runs_alone_two_queues :
    let p := sampleParams []
    let ls := [Label.connects 1, .connects 0, .frame 1 sampleResubscribe, .frame 0 sampleSubscribe,
      .create otherDestination, .subscribe 0, .create sampleDestination, .subscribe 1,
      .backend otherDestination "uuid-0" [], .backend sampleDestination "uuid-1" [], .own 0,
      .frame 0 sampleSend, .own 1, .backend sampleDestination "uuid-2" [⟨"uuid-1"⟩], .own 0]
    ∃ tr w ls' tr' v, (lts p).Run LTS.Free initial ls tr w ∧
      (lts p).Run LTS.Free initial ls' tr' v ∧ v.sessions 0 = w.sessions 0 ∧
      v.sessions 1 = .awaiting := by
  intro p ls
  have hrun := LTS.Run.exec_get (lts p) LTS.Free initial ls (by decide)
  obtain ⟨ls', tr', v, hrun', hgroup, hothers, -⟩ :=
    runs_alone (G := {c | c = 0}) (T := {d | d = sampleDestination}) hrun (by decide)
  exact ⟨_, _, ls', tr', v, hrun, hrun', (hgroup 0 rfl).2, hothers 1 (by decide)⟩

end World
