/-
# Labelled transition systems with observations

A system is a partial function: in a state, a label (who moves, and what the
environment decided) either is not enabled or leads to one next state and a list of
observations.  All nondeterminism is in the labels, so a run is determined by its
labels, and a closed run can be computed (`exec`).

A run carries a condition `C` on its steps, read in the state *before* the step.
`Free` is no condition at all; a smaller condition gives fewer runs.

* `Run.invariant` : what one step preserves, a whole run preserves;
* `Run.characterize` : a safety property of the observations holds exactly of the runs
  whose steps all meet a condition;
* `Run.simulate` : a run is matched, step by step, by runs of another system;
* `collect` : what a run does in the reading of an observer who also sees the states;
* `Run.of_exec` : what `exec` computes is a run.
-/
import Mathlib.Data.List.Basic

/-- A labelled transition system over states `σ`, labels `ℓ` and observations `ω`. -/
structure LTS (σ ℓ ω : Type*) where
  /-- The step taken in a state under a label, if the label is enabled there. -/
  step : σ → ℓ → Option (σ × List ω)

namespace LTS

variable {σ ℓ ω : Type*}

/-- The condition that every step meets. -/
def Free : σ → ℓ → Prop := fun _ _ => True

instance (s : σ) (l : ℓ) : Decidable (Free s l) := isTrue trivial

variable (M : LTS σ ℓ ω)

/-- `M.Run C s ls tr s'`: the labels `ls` lead from `s` to `s'`, every one of them
meeting `C` in the state it is taken in, and `tr` is all that was observed. -/
inductive Run (C : σ → ℓ → Prop) : σ → List ℓ → List ω → σ → Prop
  | refl (s : σ) : Run C s [] [] s
  | snoc {s s' s'' : σ} {ls : List ℓ} {tr os : List ω} {l : ℓ} :
      Run C s ls tr s' → C s' l → M.step s' l = some (s'', os) →
      Run C s (ls ++ [l]) (tr ++ os) s''

variable {M} {C D : σ → ℓ → Prop} {s s' s'' : σ} {ls ls' : List ℓ} {tr tr' os : List ω} {l : ℓ}

/-- One step is a run. -/
theorem Run.single (hC : C s l) (h : M.step s l = some (s', os)) : M.Run C s [l] os s' := by
  simpa using (Run.refl (M := M) (C := C) s).snoc hC h

/-- Runs compose, and their observations are appended. -/
theorem Run.trans (h : M.Run C s ls tr s') (h' : M.Run C s' ls' tr' s'') :
    M.Run C s (ls ++ ls') (tr ++ tr') s'' := by
  induction h' with
  | refl => simpa using h
  | snoc _ hC hstep ih =>
    rw [← List.append_assoc, ← List.append_assoc]
    exact ih.snoc hC hstep

/-- A run that starts with a given step. -/
theorem Run.cons (hC : C s l) (h : M.step s l = some (s', os)) (h' : M.Run C s' ls tr s'') :
    M.Run C s (l :: ls) (os ++ tr) s'' :=
  (Run.single hC h).trans h'

/-- A run without steps. -/
theorem Run.of_nil (h : M.Run C s [] tr s') : s' = s ∧ tr = [] := by
  generalize hls : ([] : List ℓ) = all at h
  cases h with
  | refl => exact ⟨rfl, rfl⟩
  | snoc _ _ _ => simp at hls

/-- The first step of a run. -/
theorem Run.uncons (h : M.Run C s (l :: ls) tr s') :
    ∃ s₁ os tr', C s l ∧ M.step s l = some (s₁, os) ∧ M.Run C s₁ ls tr' s' ∧ tr = os ++ tr' := by
  generalize hls : l :: ls = all at h
  induction h generalizing ls with
  | refl => cases hls
  | @snoc s₂ s₃ ls₁ tr₁ os l' hrun hC hstep ih =>
      rcases ls₁ with _ | ⟨l₁, ls₁⟩
      · obtain ⟨rfl, rfl⟩ := List.cons.inj hls
        obtain ⟨rfl, rfl⟩ := hrun.of_nil
        exact ⟨s₃, os, [], hC, hstep, Run.refl s₃, by simp⟩
      · obtain ⟨rfl, rfl⟩ := List.cons.inj hls
        obtain ⟨s₁, os₁, tr', hC₁, hstep₁, hrest, rfl⟩ := ih rfl
        exact ⟨s₁, os₁, tr' ++ os, hC₁, hstep₁, hrest.snoc hC hstep, by simp⟩

/-- A condition may be replaced by a weaker one. -/
theorem Run.mono (hCD : ∀ s l, C s l → D s l) (h : M.Run C s ls tr s') : M.Run D s ls tr s' := by
  induction h with
  | refl => exact Run.refl _
  | snoc _ hC hstep ih => exact ih.snoc (hCD _ _ hC) hstep

/-- A condition that every label of a run meets in every state is met by the run. -/
theorem Run.of_labels (h : M.Run C s ls tr s') (hD : ∀ l ∈ ls, ∀ s, D s l) :
    M.Run D s ls tr s' := by
  induction h with
  | refl => exact Run.refl _
  | snoc _ _ hstep ih =>
    refine (ih fun l hl => hD l (List.mem_append_left _ hl)).snoc ?_ hstep
    exact hD _ (List.mem_append_right _ List.mem_cons_self) _

/-- Every run is a run without conditions. -/
theorem Run.free (h : M.Run C s ls tr s') : M.Run Free s ls tr s' :=
  h.mono fun _ _ _ => trivial

/-- **Invariant rule.**  A property of the state and of everything observed so far that
holds at the start and is preserved by one step of a run holds at the end of the run.
The step case may use that the run so far is a run. -/
theorem Run.invariant {P : σ → List ω → Prop} (h : M.Run C s ls tr s') (init : P s [])
    (step : ∀ {ls : List ℓ} {tr os : List ω} {s' s'' : σ} {l : ℓ}, M.Run C s ls tr s' →
      P s' tr → C s' l → M.step s' l = some (s'', os) → P s'' (tr ++ os)) : P s' tr := by
  induction h with
  | refl => exact init
  | snoc hrun hC hstep ih => exact step hrun ih hC hstep

/-- **Exact conditions.**  Let `P` be a property of observations that is never regained once
lost.  If, in a run that has kept `P` so far, a step keeps it exactly when it meets `C`,
then `P` holds of a run exactly when all its steps meet `C`. -/
theorem Run.characterize {P : List ω → Prop} (init : P [])
    (lost : ∀ {tr os : List ω}, P (tr ++ os) → P tr)
    (step : ∀ {ls : List ℓ} {tr os : List ω} {s' s'' : σ} {l : ℓ}, M.Run Free s ls tr s' →
      P tr → M.step s' l = some (s'', os) → (P (tr ++ os) ↔ C s' l))
    (h : M.Run Free s ls tr s') : P tr ↔ M.Run C s ls tr s' := by
  constructor
  · induction h with
    | refl => exact fun _ => Run.refl _
    | snoc hrun _ hstep ih =>
      intro hP
      exact (ih (lost hP)).snoc ((step hrun (lost hP) hstep).mp hP) hstep
  · intro hC
    exact hC.invariant init fun hrun hP hCl hstep => (step hrun.free hP hstep).mpr hCl

/-- **Simulation rule.**  If every step of `M` out of a related state is matched by a run of
`N` whose observations are the image of the step's, then so is every run of `M`. -/
theorem Run.simulate {τ ℓ' ω' : Type*} {N : LTS τ ℓ' ω'} {E : τ → ℓ' → Prop}
    {R : σ → τ → Prop} {f : ω → Option ω'}
    (step : ∀ {s s' : σ} {l : ℓ} {os : List ω} {t : τ}, R s t → C s l →
      M.step s l = some (s', os) → ∃ ls' t', N.Run E t ls' (os.filterMap f) t' ∧ R s' t')
    {t : τ} (hR : R s t) (h : M.Run C s ls tr s') :
    ∃ ls' t', N.Run E t ls' (tr.filterMap f) t' ∧ R s' t' := by
  induction h with
  | refl => exact ⟨[], t, Run.refl t, hR⟩
  | snoc _ hC hstep ih =>
    obtain ⟨ls₁, t₁, hrun₁, hR₁⟩ := ih
    obtain ⟨ls₂, t₂, hrun₂, hR₂⟩ := step hR₁ hC hstep
    refine ⟨ls₁ ++ ls₂, t₂, ?_, hR₂⟩
    rw [List.filterMap_append]
    exact hrun₁.trans hrun₂

/-! ## Observers of states and labels -/

variable (M)

/-- What an observer notes along the labels of a run who sees each label together with the
state it is taken in. -/
def collect {α : Type*} (f : σ → ℓ → List α) : σ → List ℓ → List α
  | _, [] => []
  | s, l :: ls => f s l ++ ((M.step s l).elim [] fun r => collect f r.1 ls)

variable {M}

/-- The last step of a run is noted last. -/
theorem Run.collect_snoc {α : Type*} {f : σ → ℓ → List α} (h : M.Run C s ls tr s')
    (hstep : M.step s' l = some (s'', os)) :
    M.collect f s (ls ++ [l]) = M.collect f s ls ++ f s' l := by
  induction ls generalizing s tr with
  | nil =>
    obtain ⟨rfl, -⟩ := h.of_nil
    simp [collect, hstep]
  | cons l₁ ls ih =>
    obtain ⟨s₁, os₁, tr₁, -, hstep₁, hrest, -⟩ := h.uncons
    simp only [List.cons_append, collect, hstep₁, Option.elim_some, List.append_assoc]
    rw [ih hrest]

/-! ## Closed runs -/

variable (M) (C)

/-- Runs the labels in order, checking the condition before each step. -/
def exec [∀ s l, Decidable (C s l)] : σ → List ℓ → Option (σ × List ω)
  | s, [] => some (s, [])
  | s, l :: ls =>
    if C s l then
      (M.step s l).bind fun r => (exec r.1 ls).map fun q => (q.1, r.2 ++ q.2)
    else none

variable {M} {C}

/-- What `exec` computes is a run. -/
theorem Run.of_exec [∀ s l, Decidable (C s l)] {s : σ} {ls : List ℓ} {r : σ × List ω}
    (h : M.exec C s ls = some r) : M.Run C s ls r.2 r.1 := by
  induction ls generalizing s r with
  | nil =>
    obtain rfl := Option.some.inj h
    exact Run.refl s
  | cons l ls ih =>
    rw [exec] at h
    split at h
    · rename_i hC
      obtain ⟨⟨s₁, os⟩, hstep, hrest⟩ := Option.bind_eq_some_iff.mp h
      obtain ⟨q, hq, rfl⟩ := Option.map_eq_some_iff.mp hrest
      exact Run.cons hC hstep (ih hq)
    · simp at h

variable (M) (C)

/-- A closed run that gets to its end, with its final state and its observations. -/
theorem Run.exec_get [∀ s l, Decidable (C s l)] (s : σ) (ls : List ℓ)
    (h : (M.exec C s ls).isSome) :
    M.Run C s ls ((M.exec C s ls).get h).2 ((M.exec C s ls).get h).1 :=
  Run.of_exec (Option.some_get h).symm

/-- A closed step that is enabled, with the state it leads to and its observations. -/
theorem step_get (s : σ) (l : ℓ) (h : (M.step s l).isSome) :
    M.step s l = some (((M.step s l).get h).1, ((M.step s l).get h).2) :=
  (Option.some_get h).symm

end LTS
