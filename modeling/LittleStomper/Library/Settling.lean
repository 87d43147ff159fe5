/-
# Runs that come to rest

A system whose steps of some kind use up a quantity `μ` cannot take such steps forever: a run
of them is no longer than what there was of `μ`, and there is a run to a state in which no such
step is enabled.  The quantity need only go down in states that keep an invariant.
-/
import LittleStomper.Library.Run
import Mathlib.Algebra.BigOperators.Group.Finset.Piecewise
import Mathlib.Algebra.Order.BigOperators.Group.Finset

namespace LTS

variable {σ ℓ ω : Type*} {M : LTS σ ℓ ω} {C : σ → ℓ → Prop} {I : σ → Prop} {μ : σ → ℕ}

/-- Every step of the kind `C` keeps `I` and uses up some of `μ`. -/
def UsesUp (M : LTS σ ℓ ω) (C : σ → ℓ → Prop) (I : σ → Prop) (μ : σ → ℕ) : Prop :=
  ∀ {s s' : σ} {l : ℓ} {os : List ω}, I s → C s l → M.step s l = some (s', os) →
    I s' ∧ μ s' < μ s

/-- A run keeps the invariant, and what it uses up is at least its length. -/
theorem UsesUp.run (h : M.UsesUp C I μ) {s s' : σ} {ls : List ℓ} {tr : List ω} (hs : I s)
    (hrun : M.Run C s ls tr s') : I s' ∧ ls.length + μ s' ≤ μ s := by
  induction hrun with
  | refl => exact ⟨hs, by simp⟩
  | snoc _ hC hstep ih =>
      obtain ⟨hinv, hlength⟩ := ih
      obtain ⟨hinv', hless⟩ := h hinv hC hstep
      refine ⟨hinv', ?_⟩
      rw [List.length_append, List.length_singleton]
      omega

/-- **There is a run that uses up all that it can.** -/
theorem UsesUp.exhausts (h : M.UsesUp C I μ) {s : σ} (hs : I s) :
    ∃ ls tr s', M.Run C s ls tr s' ∧ I s' ∧ ∀ l, C s' l → M.step s' l = none := by
  induction hμ : μ s using Nat.strong_induction_on generalizing s with
  | _ n ih =>
      subst hμ
      by_cases hstuck : ∀ l, C s l → M.step s l = none
      · exact ⟨[], [], s, Run.refl s, hs, hstuck⟩
      · simp only [not_forall] at hstuck
        obtain ⟨l, hC, hne⟩ := hstuck
        obtain ⟨⟨s₁, os⟩, hstep⟩ := Option.ne_none_iff_exists'.mp hne
        obtain ⟨hs₁, hless⟩ := h hs hC hstep
        obtain ⟨ls, tr, s', hrun, hs', hend⟩ := ih (μ s₁) hless hs₁ rfl
        exact ⟨_, _, s', hrun.cons hC hstep, hs', hend⟩

end LTS

/-! ## Sums in which one summand changes -/

namespace Finset

variable {α β : Type*} [DecidableEq α]

/-- The sum over a function that was updated at one place. -/
theorem sum_comp_update {s : Finset α} {a : α} (ha : a ∈ s) (f : α → β) (b : β) (g : β → ℕ) :
    ∑ x ∈ s, g (Function.update f a b x) + g (f a) = ∑ x ∈ s, g (f x) + g b := by
  have hnew := Finset.sum_eq_add_sum_sdiff_singleton_of_mem ha fun x => g (Function.update f a b x)
  have hold := Finset.sum_eq_add_sum_sdiff_singleton_of_mem ha fun x => g (f x)
  have hrest : ∑ x ∈ s \ {a}, g (Function.update f a b x) = ∑ x ∈ s \ {a}, g (f x) := by
    refine Finset.sum_congr rfl fun x hx => ?_
    rw [Function.update_of_ne (Finset.notMem_singleton.mp (Finset.mem_sdiff.mp hx).2)]
  rw [Function.update_self] at hnew
  omega

end Finset

namespace List

variable {α β γ : Type*} [DecidableEq γ]

/-- What is distributed among some receivers is no more than there was. -/
theorem sum_length_filterMap_le (s : Finset γ) (target : α → γ) (f : α → Option β) (l : List α) :
    ∑ c ∈ s, (l.filterMap fun x => if target x = c then f x else none).length ≤ l.length := by
  induction l with
  | nil => simp
  | cons x l ih =>
      have hone : ∑ c ∈ s, ([x].filterMap fun x => if target x = c then f x else none).length
          ≤ 1 := by
        calc ∑ c ∈ s, ([x].filterMap fun x => if target x = c then f x else none).length
            ≤ ∑ c ∈ s, if target x = c then 1 else 0 := by
              refine Finset.sum_le_sum fun c _ => ?_
              by_cases hc : target x = c
              · refine Nat.le_trans (List.length_filterMap_le _ _) ?_
                simp [hc]
              · simp [hc]
          _ ≤ 1 := by
              rw [Finset.sum_ite_eq]
              split_ifs <;> omega
      have hsplit : ∑ c ∈ s, ((x :: l).filterMap fun x => if target x = c then f x else none).length
          = ∑ c ∈ s, ([x].filterMap fun x => if target x = c then f x else none).length
            + ∑ c ∈ s, (l.filterMap fun x => if target x = c then f x else none).length := by
        rw [← Finset.sum_add_distrib]
        refine Finset.sum_congr rfl fun c _ => ?_
        rw [← List.length_append, ← List.filterMap_append]
        rfl
      rw [hsplit, List.length_cons]
      omega

end List
