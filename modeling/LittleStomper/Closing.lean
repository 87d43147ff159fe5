/-
# Closing

`error` puts an ERROR frame out and queues a `Close` for the session itself.  From then on
the session's channel has a first `Close`, and what stands before it is all that the
session will still take from the channel: whatever the destinations, the timers or later
errors add, they add it behind.

The session need not get that far: its client can leave first.
-/
import LittleStomper.ErrorFrames

open ClientEvent Trace SessionObs

namespace Session

/-- The event that a step takes from the session's own channel. -/
def taken : Session → SessionInput × (DestinationCall → Bool) → List ClientEvent
  | running r, (.own _, _) => r.events.head?.toList
  | _, _ => []

/-- The events that a session takes from its own channel. -/
def ownEvents (p : Params) : Session → List (SessionInput × (DestinationCall → Bool)) →
    List ClientEvent :=
  (lts p).collect taken

/-- Of the events `front` before a `Close`, the first `done` have been handled: the session
is over, or the others still wait and the `Close` behind them. -/
def Draining (front done : List ClientEvent) (s : Session) : Prop :=
  ∃ rest, front = done ++ rest ∧
    ∀ r, s = running r → ∃ behind, r.events = rest ++ .close :: behind

/-- The session went on to the `Close` and is over. -/
def Closed (front done : List ClientEvent) (s : Session) : Prop :=
  s = ended ∧ done = front ++ [.close]

variable {p : Params} {front done : List ClientEvent} {s s' : Session}
  {l : SessionInput × (DestinationCall → Bool)} {os : List SessionObs}

/-- A handled event leaves the channel in place. -/
theorem Handles.draining {r : ClientSession} {resetFails : Bool} {e : ClientEvent}
    {rest behind : List ClientEvent} (h : Handles p r resetFails e s' os)
    (hfront : front = done ++ rest) (hevents : r.events = rest ++ .close :: behind) :
    Draining front done s' := by
  refine ⟨rest, hfront, ?_⟩
  rintro r' rfl
  obtain ⟨hafter, -, -⟩ := h.failed_iff
  exact ⟨_, by rw [hafter, hevents, List.append_assoc, List.cons_append]⟩

/-- An event that is sent to the session waits behind the `Close`. -/
theorem Draining.sendEvent {r : ClientSession} (h : Draining front done (running r))
    (e : ClientEvent) : Draining front done (running (r.sendEvent e)) := by
  obtain ⟨rest, hfront, hwait⟩ := h
  obtain ⟨behind, hevents⟩ := hwait r rfl
  refine ⟨rest, hfront, ?_⟩
  rintro r' hr
  obtain rfl := Session.running.inj hr
  exact ⟨_, by rw [ClientSession.sendEvent, hevents, List.append_assoc, List.cons_append]⟩

/-- **Every step drains the channel up to its first `Close` or takes it and ends.** -/
theorem Turn.draining (hturn : Turn p s l.1 s' os) (h : Draining front done s)
    (hawait : s ≠ awaiting) :
    Draining front (done ++ taken s l) s' ∨ Closed front (done ++ taken s l) s' := by
  obtain ⟨input, panics⟩ := l
  have hdraining := h
  obtain ⟨rest, hfront, hwait⟩ := h
  cases hturn with
  | rejected hfirst => exact absurd rfl hawait
  | overflows hfirst hnew => exact absurd rfl hawait
  | connected hfirst hnew => exact absurd rfl hawait
  | client hhandles =>
      obtain ⟨behind, hevents⟩ := hwait _ rfl
      exact Or.inl (by simpa [taken] using hhandles.draining hfront hevents)
  | @own r resetFails e events _ _ hhead hhandles =>
      obtain ⟨behind, hevents⟩ := hwait _ rfl
      have htaken : taken (running r) (.own resetFails, panics) = [e] := by simp [taken, hhead]
      rw [htaken]
      rw [hhead] at hevents
      rcases rest with _ | ⟨e', rest⟩
      · -- the `Close` itself is taken
        obtain ⟨rfl, rfl⟩ := List.cons.inj hevents
        refine Or.inr ⟨?_, by rw [hfront, List.append_nil]⟩
        cases hhandles with
        | goesOn hpanic hends => cases hends
        | _ => rfl
      · obtain ⟨rfl, rfl⟩ := List.cons.inj hevents
        exact Or.inl (hhandles.draining (by rw [hfront]; simp) rfl)
  | heartbeat hheartbeat hhandles =>
      obtain ⟨behind, hevents⟩ := hwait _ rfl
      exact Or.inl (by simpa [taken] using hhandles.draining hfront hevents)
  | @missed r hlistening hheartbeat =>
      -- the heartbeat listener puts its error behind what waits and stops
      have hstopped : Draining front done (running { r with listening := false }) :=
        ⟨rest, hfront, fun r' hr => by
          obtain rfl := Session.running.inj hr
          exact hwait r rfl⟩
      exact Or.inl (by simpa [taken] using hstopped.sendEvent (.error "Missed heartbeat"))
  | delivered hfrom => exact Or.inl (by simpa [taken] using hdraining.sendEvent _)
  | sinkFails => exact Or.inl ⟨rest, by simpa [taken] using hfront, fun r hr => by cases hr⟩

/-- **An ERROR frame commits the session to closing.**  While a session runs that has output
an ERROR frame, its channel has a first `Close`.  However it goes on, the events it takes
from the channel are in order those before that `Close`, and then the `Close`, which ends it;
if it does not get that far, the others and the `Close` still wait, or something else has
ended it. -/
theorem error_commits_to_close {ls : List (SessionInput × (DestinationCall → Bool))}
    {tr : List SessionObs} {r : ClientSession}
    (h : (lts p).Run LTS.Free awaiting ls tr (running r)) (herror : Seen isError tr) :
    ∃ front behind, r.events = front ++ .close :: behind ∧ .close ∉ front ∧
      ∀ ls' tr' s', (lts p).Run LTS.Free (running r) ls' tr' s' →
        Draining front (ownEvents p (running r) ls') s' ∨
          Closed front (ownEvents p (running r) ls') s' := by
  have hclose : .close ∈ r.events := (closing h r rfl).mp herror
  obtain ⟨front, behind, hevents, hfirst⟩ := List.eq_append_cons_of_mem hclose
  refine ⟨front, behind, hevents, hfirst, fun ls' tr' s' hrun => ?_⟩
  have hstart : Draining front [] (running r) := by
    refine ⟨front, rfl, fun r' hr => ?_⟩
    obtain rfl := Session.running.inj hr
    exact ⟨behind, hevents⟩
  have hne : ∀ {ls' : List (SessionInput × (DestinationCall → Bool))} {tr' : List SessionObs}
      {s' : Session}, (lts p).Run LTS.Free (running r) ls' tr' s' → s' ≠ awaiting := by
    intro ls' tr' s' hrun
    exact hrun.invariant (P := fun s _ => s ≠ awaiting) (by simp)
      fun _ _ _ hstep => (turn_of_step hstep).ne_awaiting
  induction hrun with
  | refl => exact Or.inl hstart
  | snoc hrun _ hstep ih =>
      have hturn := turn_of_step hstep
      rw [ownEvents, hrun.collect_snoc hstep]
      rcases ih with hdraining | ⟨rfl, -⟩
      · exact hturn.draining hdraining (hne hrun)
      · cases hturn

/-- The labels of a client that connects twice while a destination answers its SUBSCRIBE. -/
def connectingTwice : List (SessionInput × (DestinationCall → Bool)) :=
  [(.first sampleConnect.item defaultClientFactory, fun _ => false),
    (.client sampleSubscribe.item, fun _ => false),
    (.deliver (.subscribed sampleDestination ⟨"sub-0"⟩ (.ok ⟨"uuid-0"⟩)), fun _ => false),
    (.client sampleConnect.item, fun _ => false)]

/-- The theorem applied to a second CONNECT: the `Close` behind its ERROR frame comes behind the
answer that waits already. -/
theorem error_commits_to_close_drained :
    let p := sampleParams []
    ∃ tr r, (lts p).Run LTS.Free awaiting connectingTwice tr (running r) ∧ Seen isError tr ∧
      ∃ front behind, r.events = front ++ .close :: behind ∧ .close ∉ front ∧
        ∀ ls' tr' s', (lts p).Run LTS.Free (running r) ls' tr' s' →
          Draining front (ownEvents p (running r) ls') s' ∨
            Closed front (ownEvents p (running r) ls') s' := by
  intro p
  have hrun := LTS.Run.exec_get (lts p) LTS.Free awaiting connectingTwice (by decide)
  have herror : Seen isError
      (((lts p).exec LTS.Free awaiting connectingTwice).get (by decide)).2 :=
    ⟨.output (.inl (.error "Already connected.")), by decide, rfl⟩
  exact ⟨_, _, hrun, herror, error_commits_to_close hrun herror⟩

/-- **The session need not get to its `Close`**: the client's stream ends, and the session
with it, before the answer that came in ahead of the `Close` is taken. -/
theorem close_not_reached :
    ¬ ∀ (p : Params) (ls ls' : List (SessionInput × (DestinationCall → Bool)))
        (tr tr' : List SessionObs) (r : ClientSession) (front behind : List ClientEvent),
      (lts p).Run LTS.Free awaiting ls tr (running r) → Seen isError tr →
      r.events = front ++ .close :: behind → .close ∉ front →
      (lts p).Run LTS.Free (running r) ls' tr' ended →
        (ownEvents p (running r) ls').filter (· ≠ .close) = front := by
  intro hall
  let p := sampleParams []
  let answer : ClientEvent := .subscribed sampleDestination ⟨"sub-0"⟩ (.ok ⟨"uuid-0"⟩)
  have hrun := LTS.Run.exec_get (lts p) LTS.Free awaiting connectingTwice (by decide)
  have herror : Seen isError
      (((lts p).exec LTS.Free awaiting connectingTwice).get (by decide)).2 :=
    ⟨.output (.inl (.error "Already connected.")), by decide, rfl⟩
  have hleave : [] = [answer] :=
    hall p connectingTwice [(.client none, fun _ => false)] _ _ _ [answer] [] hrun
      herror rfl (by decide) (LTS.Run.single trivial rfl)
  cases hleave
end Session
