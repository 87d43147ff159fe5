/-
# Deadline timers

What a timer with a period is for.  Once started, it counts its period from the last instant
at which it was started, ticked or got a command; when the period has fully elapsed, and the
clock at hand has noticed that, it ticks, and time does not go on before it has.  Ticks are handed
out one by one, the oldest first, to whoever polls.

Which periods count at all, what a command does to the period, and when the clock notices that a
deadline has come, is left open (`Rules`).

* `handed_out` : the `n`-th emission is the `n`-th tick, and does not come before it.
-/
import LittleStomper.Library.Run
import Mathlib.Algebra.Order.Monoid.Canonical.Defs
import Mathlib.Data.List.Forall2

/-- A timer at an instant: its period, what this is counted from, and the instants of the ticks
that nobody has taken. -/
structure DeadlineTimer (τ : Type*) where
  now : τ
  period : τ
  since : Option τ
  waiting : List τ

namespace DeadlineTimer

/-- Which periods ever elapse, what a command does to the period, and when the clock notices that a
deadline has come. -/
structure Rules (τ κ : Type*) where
  counts : τ → Bool
  apply : κ → τ → τ
  wake : τ → τ

/-- What can happen to a timer. -/
inductive Label (τ κ : Type*) where
  | wait (d : τ)
  | poll
  | tick
  | command (c : κ)

/-- What is seen of it. -/
inductive Event (τ κ : Type*) where
  | polled (now : τ) (emitted : Bool)
  | ticked (now : τ)
  | commanded (now : τ) (c : κ)

variable {τ κ : Type*}

/-- The instants of the ticks. -/
def ticks (tr : List (Event τ κ)) : List τ :=
  tr.filterMap fun
    | .ticked now => some now
    | _ => none

/-- The instants of the polls that emitted. -/
def emissions (tr : List (Event τ κ)) : List τ :=
  tr.filterMap fun
    | .polled now true => some now
    | _ => none

@[simp] theorem ticks_append (tr os : List (Event τ κ)) : ticks (tr ++ os) = ticks tr ++ ticks os :=
  List.filterMap_append

@[simp] theorem emissions_append (tr os : List (Event τ κ)) :
    emissions (tr ++ os) = emissions tr ++ emissions os :=
  List.filterMap_append

variable [AddCommMonoid τ] [LinearOrder τ]

/-- The period counts and has fully elapsed, as the clock tells. -/
def isDue (R : Rules τ κ) (t : DeadlineTimer τ) : Bool :=
  R.counts t.period && t.since.any fun b => R.wake (b + t.period) ≤ t.now

/-- A timer that has not been started. -/
def start (now period : τ) : DeadlineTimer τ := ⟨now, period, none, []⟩

/-- One step: the first poll starts the timer, the others take the oldest tick. -/
def step (R : Rules τ κ) (t : DeadlineTimer τ) :
    Label τ κ → Option (DeadlineTimer τ × List (Event τ κ))
  | .wait d => if t.isDue R then none else some ({ t with now := t.now + d }, [])
  | .poll =>
    match t.since, t.waiting with
    | none, _ => some ({ t with since := some t.now }, [.polled t.now false])
    | some _, [] => some (t, [.polled t.now false])
    | some _, _ :: waiting => some ({ t with waiting := waiting }, [.polled t.now true])
  | .tick =>
    if t.isDue R then
      some ({ t with since := some t.now, waiting := t.waiting ++ [t.now] }, [.ticked t.now])
    else none
  | .command c =>
    if t.since.isSome then
      some ({ t with period := R.apply c t.period, since := some t.now }, [.commanded t.now c])
    else none

/-- The deadline timer. -/
def lts (R : Rules τ κ) : LTS (DeadlineTimer τ) (Label τ κ) (Event τ κ) where
  step := step R

/-- What was emitted in a run, against what has ticked. -/
structure Ledger (t : DeadlineTimer τ) (tr : List (Event τ κ)) : Prop where
  /-- The oldest ticks were taken, none before its instant; the others wait. -/
  taken : ∃ taken, ticks tr = taken ++ t.waiting ∧ List.Forall₂ (· ≤ ·) taken (emissions tr)
  /-- The ticks that wait are past. -/
  past : ∀ u ∈ t.waiting, u ≤ t.now

variable [CanonicallyOrderedAdd τ]

/-- **Every step keeps the ledger.** -/
theorem Ledger.step {R : Rules τ κ} {t t' : DeadlineTimer τ} {l : Label τ κ}
    {tr os : List (Event τ κ)} (h : Ledger t tr) (hstep : (lts R).step t l = some (t', os)) :
    Ledger t' (tr ++ os) := by
  obtain ⟨⟨taken, hticks, htaken⟩, hpast⟩ := h
  have hsilent : t'.waiting = t.waiting → t.now ≤ t'.now → ticks os = [] → emissions os = [] →
      Ledger t' (tr ++ os) := by
    intro hwaiting hnow ht he
    refine ⟨⟨taken, by simp [ht, hticks, hwaiting], by simpa [he] using htaken⟩, ?_⟩
    rw [hwaiting]
    exact fun u hu => (hpast u hu).trans hnow
  cases l with
  | wait d =>
      simp only [lts, DeadlineTimer.step] at hstep
      split at hstep
      · cases hstep
      · obtain ⟨rfl, rfl⟩ := Prod.mk.inj (Option.some.inj hstep)
        exact hsilent rfl le_self_add rfl rfl
  | poll =>
      simp only [lts, DeadlineTimer.step] at hstep
      split at hstep
      · obtain ⟨rfl, rfl⟩ := Prod.mk.inj (Option.some.inj hstep)
        exact hsilent rfl le_rfl rfl rfl
      · obtain ⟨rfl, rfl⟩ := Prod.mk.inj (Option.some.inj hstep)
        exact hsilent rfl le_rfl rfl rfl
      · rename_i b u waiting hsince hwaiting
        obtain ⟨rfl, rfl⟩ := Prod.mk.inj (Option.some.inj hstep)
        rw [hwaiting] at hticks hpast
        have hu : u ≤ t.now := hpast u List.mem_cons_self
        refine ⟨⟨taken ++ [u], ?_, ?_⟩, ?_⟩
        · rw [ticks_append, hticks]
          simp [ticks]
        · rw [emissions_append]
          exact List.rel_append htaken (List.Forall₂.cons hu List.Forall₂.nil)
        · exact fun v hv => hpast v (List.mem_cons_of_mem _ hv)
  | tick =>
      simp only [lts, DeadlineTimer.step] at hstep
      split at hstep
      · obtain ⟨rfl, rfl⟩ := Prod.mk.inj (Option.some.inj hstep)
        refine ⟨⟨taken, ?_, ?_⟩, ?_⟩
        · rw [ticks_append, hticks, List.append_assoc]
          rfl
        · rw [emissions_append, show emissions ([.ticked t.now] : List (Event τ κ)) = [] from rfl,
            List.append_nil]
          exact htaken
        intro u hu
        rcases List.mem_append.mp hu with hu | hu
        · exact hpast u hu
        · obtain rfl := List.mem_singleton.mp hu
          exact le_rfl
      · cases hstep
  | command c =>
      simp only [lts, DeadlineTimer.step] at hstep
      split at hstep
      · obtain ⟨rfl, rfl⟩ := Prod.mk.inj (Option.some.inj hstep)
        exact hsilent rfl le_rfl rfl rfl
      · cases hstep

/-- **The `n`-th emission is the `n`-th tick**, and does not come before it; the ticks that have
not been emitted wait. -/
theorem handed_out {R : Rules τ κ} {C : DeadlineTimer τ → Label τ κ → Prop} {now period : τ}
    {ls : List (Label τ κ)} {tr : List (Event τ κ)} {t : DeadlineTimer τ}
    (h : (lts R).Run C (start now period) ls tr t) : Ledger t tr := by
  refine h.invariant ⟨⟨[], rfl, List.Forall₂.nil⟩, by simp [start]⟩ ?_
  exact fun _ hledger _ hstep => hledger.step hstep

end DeadlineTimer
