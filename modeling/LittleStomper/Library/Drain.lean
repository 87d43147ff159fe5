/-
# Consumers that stop

A consumer takes the items of a mailbox one after the other and passes them on, but stops at the
first item of a certain kind, which it takes and does not pass on.  Others may post items at any
time, and the consumer may give up at any time.

Whatever happens, what was passed on lies before the first item to stop at (`Drains.before`), and
while the consumer runs, the rest waits in order.
-/
import LittleStomper.Library.Mailbox
import Mathlib.Data.List.Infix
import Mathlib.Data.List.TakeWhile

namespace Mailbox

variable {α : Type*} (stop : α → Bool)

/-- **The account of such a consumer**: `posted` was put into the mailbox, `passed` passed on. -/
structure Drains (posted passed : List α) (m : Mailbox α) : Prop where
  initial : passed <+: posted.takeWhile fun a => !stop a
  waiting : ∀ q, m = listening q → posted = passed ++ q

/-- Items are sent, one after the other. -/
inductive Posts : Mailbox α → List α → Mailbox α → Prop
  | nil (m : Mailbox α) : Posts m [] m
  | snoc {m m' m'' : Mailbox α} {new : List α} {a : α} (h : Posts m new m')
      (hsend : m'.send a = some m'') : Posts m (new ++ [a]) m''

/-- **What can happen to the mailbox** in a step, with the items posted and those passed on. -/
inductive Flow : Mailbox α → List α → List α → Mailbox α → Prop
  | posts {m m' : Mailbox α} {new : List α} (h : Posts m new m') : Flow m new [] m'
  | passes {m m' : Mailbox α} {a : α} (hrecv : m.recv = some (a, m')) (ha : stop a = false) :
      Flow m [] [a] m'
  | stops {m m' : Mailbox α} {a : α} (hrecv : m.recv = some (a, m')) (ha : stop a = true) :
      Flow m [] [] m'.leave
  | givesUp (m : Mailbox α) : Flow m [] [] finished

variable {stop} {posted passed new used : List α} {m m' : Mailbox α} {a : α}

/-- One item is sent. -/
theorem Posts.single (h : m.send a = some m') : Posts m [a] m' := (Posts.nil m).snoc h

/-- Items that are sent in two parts. -/
theorem Posts.trans {new' : List α} {m'' : Mailbox α} (h : Posts m new m')
    (h' : Posts m' new' m'') : Posts m (new ++ new') m'' := by
  induction h' with
  | nil =>
      rw [List.append_nil]
      exact h
  | snoc _ hsend ih =>
      rw [← List.append_assoc]
      exact ih.snoc hsend

/-- Nobody sends to a receiver that is gone. -/
theorem Posts.of_gone (h : Posts m new m') (hm : m.isGone = true) : new = [] ∧ m' = m := by
  induction h with
  | nil => exact ⟨rfl, rfl⟩
  | snoc _ hsend ih =>
      obtain ⟨-, rfl⟩ := ih
      rw [send_eq_none.mpr hm] at hsend
      cases hsend

/-- At the start nothing was posted. -/
theorem Drains.start : Drains stop [] [] (listening []) :=
  ⟨List.prefix_rfl, fun q hq => by cases hq; rfl⟩

/-- One more item is posted. -/
theorem Drains.send (h : Drains stop posted passed m) (hsend : m.send a = some m') :
    Drains stop (posted ++ [a]) passed m' := by
  refine ⟨h.initial.trans ?_, ?_⟩
  · rw [List.takeWhile_append]
    split
    · exact (List.takeWhile_prefix _).trans (List.prefix_append _ _)
    · exact List.prefix_rfl
  · rintro q rfl
    rcases send_eq_some hsend with ⟨q', rfl, hq⟩ | ⟨q', rfl, hq⟩
    · obtain rfl := listening.inj hq
      rw [h.waiting q' rfl, List.append_assoc]
    · cases hq

/-- More items are posted. -/
theorem Drains.posts (h : Drains stop posted passed m) (hposts : Posts m new m') :
    Drains stop (posted ++ new) passed m' := by
  induction hposts with
  | nil =>
      rw [List.append_nil]
      exact h
  | snoc _ hsend ih =>
      rw [← List.append_assoc]
      exact ih.send hsend

/-- All that was passed on is of the kind that is. -/
theorem Drains.stop_eq_false (h : Drains stop posted passed m) (ha : a ∈ passed) :
    stop a = false := by
  have hmem := List.mem_takeWhile_imp (h.initial.subset ha)
  simpa using hmem

/-- One item is passed on. -/
theorem Drains.pass (h : Drains stop posted passed m) (hrecv : m.recv = some (a, m'))
    (ha : stop a = false) : Drains stop posted (passed ++ [a]) m' := by
  obtain ⟨q, rfl, rfl⟩ := recv_eq_some.mp hrecv
  have hposted : posted = (passed ++ [a]) ++ q := by
    rw [h.waiting _ rfl, List.append_assoc, List.singleton_append]
  refine ⟨?_, fun q' hq' => by cases hq'; exact hposted⟩
  have hall : ∀ b ∈ passed ++ [a], (!stop b) = true := by
    intro b hb
    rcases List.mem_append.mp hb with hb | hb
    · simp [h.stop_eq_false hb]
    · simp [List.mem_singleton.mp hb, ha]
  rw [hposted, List.takeWhile_append_of_pos hall]
  exact List.prefix_append _ _

/-- **Every step keeps the account.** -/
theorem Drains.flow (h : Drains stop posted passed m) (hflow : Flow stop m new used m') :
    Drains stop (posted ++ new) (passed ++ used) m' := by
  cases hflow with
  | posts hposts =>
      rw [List.append_nil]
      exact h.posts hposts
  | passes hrecv ha =>
      rw [List.append_nil]
      exact h.pass hrecv ha
  | @stops m₁ a hrecv ha =>
      obtain ⟨q, rfl, rfl⟩ := recv_eq_some.mp hrecv
      rw [List.append_nil, List.append_nil]
      exact ⟨h.initial, by simp⟩
  | givesUp =>
      rw [List.append_nil, List.append_nil]
      exact ⟨h.initial, by simp⟩

/-- A receiver that is gone stays so, and nothing is posted or passed on any more. -/
theorem Flow.of_gone (h : Flow stop m new used m') (hm : m.isGone = true) :
    new = [] ∧ used = [] ∧ m'.isGone = true := by
  cases h with
  | posts hposts =>
      obtain ⟨rfl, rfl⟩ := hposts.of_gone hm
      exact ⟨rfl, rfl, hm⟩
  | passes hrecv ha =>
      obtain ⟨q, rfl, -⟩ := recv_eq_some.mp hrecv
      cases hm
  | stops hrecv ha =>
      obtain ⟨q, rfl, -⟩ := recv_eq_some.mp hrecv
      cases hm
  | givesUp => exact ⟨rfl, rfl, rfl⟩

/-- What was passed on is a prefix of what was posted. -/
theorem Drains.passed_first (h : Drains stop posted passed m) : passed <+: posted :=
  h.initial.trans (List.takeWhile_prefix _)

/-- **Nothing behind an item to stop at is passed on.** -/
theorem Drains.before {before after : List α} (h : Drains stop (before ++ a :: after) passed m)
    (ha : stop a = true) : passed <+: before := by
  refine h.initial.trans ?_
  by_cases hall : ∀ b ∈ before, (!stop b) = true
  · rw [List.takeWhile_append_of_pos hall, List.takeWhile_cons_of_neg (by simp [ha]),
      List.append_nil]
  · rw [List.takeWhile_append, if_neg]
    · exact List.takeWhile_prefix _
    · intro hlength
      apply hall
      rw [← List.takeWhile_eq_self_iff]
      exact (List.takeWhile_prefix _).eq_of_length hlength

end Mailbox
