/-
# Order in a trace

Two ways in which one kind of observation can depend on the place of another:

* `NoneBehind mark bad tr` : nothing bad is observed behind a marked observation;
* `OnlyBehind mark what tr` : what is observed comes behind some marked observation.

Both are described by what happens when a run goes on and observations are appended, and so is
`since mark tr`, what was observed behind the last mark.
-/
import Mathlib.Data.List.Basic
import Mathlib.Data.List.DropRight

namespace Trace

variable {ω : Type*} {mark bad what : ω → Bool} {tr os : List ω}

/-- A marked observation has been made. -/
def Seen (mark : ω → Bool) (tr : List ω) : Prop := ∃ o ∈ tr, mark o = true

/-- No bad observation has been made. -/
def Never (bad : ω → Bool) (tr : List ω) : Prop := ∀ o ∈ tr, bad o = false

/-- No bad observation is made behind a marked one. -/
def NoneBehind (mark bad : ω → Bool) (tr : List ω) : Prop :=
  ∀ pre o post, tr = pre ++ o :: post → mark o = true → Never bad post

/-- Every such observation is made behind a marked one. -/
def OnlyBehind (mark what : ω → Bool) (tr : List ω) : Prop :=
  ∀ pre o post, tr = pre ++ o :: post → what o = true → Seen mark pre

@[simp] theorem seen_append : Seen mark (tr ++ os) ↔ Seen mark tr ∨ Seen mark os := by
  simp only [Seen, List.mem_append, or_and_right, exists_or]

@[simp] theorem never_append : Never bad (tr ++ os) ↔ Never bad tr ∧ Never bad os := by
  simp only [Never, List.mem_append, or_imp, forall_and]

@[simp] theorem not_seen_nil : ¬ Seen mark [] := by simp [Seen]

@[simp] theorem never_nil : Never bad [] := by simp [Never]

/-- What has not been seen was never observed. -/
theorem not_seen_iff : ¬ Seen mark tr ↔ Never mark tr := by
  simp only [Seen, Never, not_exists, not_and, Bool.not_eq_true]

/-- What is observed in two runs, one after the other, is observed in the first or in the
second. -/
theorem split_append {pre post : List ω} {o : ω} (h : tr ++ os = pre ++ o :: post) :
    (∃ rest, tr = pre ++ o :: rest ∧ post = rest ++ os) ∨
      ∃ rest, os = rest ++ o :: post ∧ pre = tr ++ rest := by
  rcases List.append_eq_append_iff.mp h with ⟨rest, rfl, rfl⟩ | ⟨rest, rfl, hrest⟩
  · exact Or.inr ⟨rest, rfl, rfl⟩
  · rcases List.cons_eq_append_iff.mp hrest with ⟨rfl, rfl⟩ | ⟨rest', rfl, rfl⟩
    · exact Or.inr ⟨[], rfl, by simp⟩
    · exact Or.inl ⟨rest', rfl, rfl⟩

/-- What comes in front of something was observed before the step in which that is, if that
step does not observe both and no later one observes it again. -/
theorem mem_of_pair_sublist {start after : List ω} {o o' : ω}
    (h : [o, o'].Sublist (start ++ os ++ after)) (hos : o ∈ os → o' ∉ os) (hafter : o' ∉ after) :
    o ∈ start := by
  obtain ⟨pre, post, heq, hpre, hpost⟩ := List.sublist_append_iff.mp h
  rcases List.eq_nil_or_concat post with rfl | ⟨rest, last, rfl⟩
  · rw [List.append_nil] at heq
    subst heq
    obtain ⟨front, back, heq, hfront, hback⟩ := List.sublist_append_iff.mp hpre
    rcases List.cons_eq_append_iff.mp heq with ⟨-, rfl⟩ | ⟨front', rfl, -⟩
    · have hin : o ∈ os := hback.subset List.mem_cons_self
      exact absurd (hback.subset (List.mem_cons_of_mem _ List.mem_cons_self)) (hos hin)
    · exact hfront.subset List.mem_cons_self
  · -- the last of the two would be observed later
    have hlast : [o] ++ [o'] = (pre ++ rest) ++ [last] := by simpa using heq
    obtain ⟨-, heq'⟩ := List.append_inj' hlast rfl
    obtain rfl := List.cons.inj heq' |>.1
    exact absurd (hpost.subset (by simp)) hafter

/-! ## Nothing bad behind a mark -/

/-- Without a mark there is nothing to respect. -/
theorem NoneBehind.of_not_seen (h : ¬ Seen mark tr) : NoneBehind mark bad tr :=
  fun _ o _ heq ho => absurd ⟨o, by simp [heq], ho⟩ h

/-- The beginning of a run respects its marks if the whole does. -/
theorem NoneBehind.of_append (h : NoneBehind mark bad (tr ++ os)) : NoneBehind mark bad tr := by
  intro pre o post heq ho
  have hlong := h pre o (post ++ os) (by rw [heq]; simp) ho
  exact (never_append.mp hlong).1

/-- **Going on**: if a mark has been set, nothing bad may follow. -/
theorem noneBehind_append (htr : NoneBehind mark bad tr) (hos : NoneBehind mark bad os) :
    NoneBehind mark bad (tr ++ os) ↔ (Seen mark tr → Never bad os) := by
  constructor
  · rintro h ⟨o, ho, hmark⟩
    obtain ⟨pre, post, rfl⟩ := List.append_of_mem ho
    have hlong := h pre o (post ++ os) (by simp) hmark
    exact (never_append.mp hlong).2
  · intro h pre o post heq hmark
    rcases split_append heq with ⟨rest, rfl, rfl⟩ | ⟨rest, rfl, -⟩
    · rw [never_append]
      exact ⟨htr pre o rest rfl hmark, h ⟨o, by simp, hmark⟩⟩
    · exact hos rest o post rfl hmark

/-- The last observation may carry the only mark. -/
theorem NoneBehind.concat (h : ¬ Seen mark tr) (o : ω) : NoneBehind mark bad (tr ++ [o]) := by
  have ho : NoneBehind mark bad [o] := by
    intro pre o' post heq _
    rcases pre with _ | ⟨o'', pre⟩
    · obtain ⟨-, rfl⟩ := List.cons.inj heq
      exact never_nil
    · simp at heq
  exact (noneBehind_append (NoneBehind.of_not_seen h) ho).mpr fun hs => absurd hs h

/-! ## Only behind a mark -/

/-- What is never observed needs no mark. -/
theorem OnlyBehind.of_never (h : Never what tr) : OnlyBehind mark what tr := by
  intro pre o post heq ho
  have hno := h o (by simp [heq])
  rw [hno] at ho
  cases ho

/-- Once a mark has been set, everything may follow. -/
theorem OnlyBehind.append (htr : OnlyBehind mark what tr) (hseen : Seen mark tr) :
    OnlyBehind mark what (tr ++ os) := by
  intro pre o post heq ho
  rcases split_append heq with ⟨rest, rfl, -⟩ | ⟨rest, -, rfl⟩
  · exact htr pre o rest rfl ho
  · exact seen_append.mpr (Or.inl hseen)

/-! ## Since the last mark -/

/-- What was observed behind the last marked observation, or all if there is none. -/
def since (mark : ω → Bool) (tr : List ω) : List ω := tr.rtakeWhile fun o => !mark o

/-- With a mark everything begins anew. -/
theorem since_concat_of_marked {o : ω} (h : mark o = true) : since mark (tr ++ [o]) = [] :=
  List.rtakeWhile_concat_neg _ _ o (by simp [h])

/-- Without a mark it goes on. -/
theorem since_append_of_never (h : Never mark os) :
    since mark (tr ++ os) = since mark tr ++ os := by
  induction os using List.reverseRecOn with
  | nil => simp
  | append_singleton os o ih =>
      obtain ⟨hos, ho⟩ := never_append.mp h
      have hmark : (!mark o) = true := by simpa using ho o List.mem_cons_self
      unfold since at ih ⊢
      rw [← List.append_assoc, List.rtakeWhile_concat_pos _ _ o hmark, ih hos, List.append_assoc]

end Trace
