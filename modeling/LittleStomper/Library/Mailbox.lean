/-
# Mailboxes

The receiving half of an unbounded channel together with the loop that drains it.
Anyone may send while the receiver exists; the loop takes one item after the other
from the front.  Leaving the loop and giving the receiver up are two steps: what is
sent in between is still accepted, and nobody will take it.

`Tracks` is the first-in-first-out law: what was taken is a prefix of what was
accepted, and the rest is what still waits.
-/
import Mathlib.Data.List.Basic

/-- The receiving half of a channel, in the states of the loop that drains it.  A queue
exists exactly as long as the receiver does. -/
inductive Mailbox (α : Type*) where
  /-- The loop runs, `queue` waits. -/
  | listening (queue : List α)
  /-- The loop was left, the receiver is not yet closed. -/
  | leaving (queue : List α)
  /-- The receiver is closed and gone. -/
  | finished
  /-- The loop panicked, which dropped the receiver. -/
  | panicked
  deriving DecidableEq, Repr

namespace Mailbox

variable {α : Type*}

/-- The items that wait. -/
def queue : Mailbox α → List α
  | listening q => q
  | leaving q => q
  | finished => []
  | panicked => []

/-- Sending fails exactly when there is no receiver. -/
def send : Mailbox α → α → Option (Mailbox α)
  | listening q, a => some (listening (q ++ [a]))
  | leaving q, a => some (leaving (q ++ [a]))
  | finished, _ => none
  | panicked, _ => none

/-- The loop takes the first item. -/
def recv : Mailbox α → Option (α × Mailbox α)
  | listening (a :: q) => some (a, listening q)
  | _ => none

/-- The loop is left. -/
def leave : Mailbox α → Mailbox α
  | listening q => leaving q
  | m => m

/-- The loop runs. -/
def isListening : Mailbox α → Bool
  | listening _ => true
  | _ => false

/-- There is no receiver any more. -/
def isGone : Mailbox α → Bool
  | finished => true
  | panicked => true
  | _ => false

@[simp] theorem queue_listening (q : List α) : (listening q).queue = q := rfl
@[simp] theorem queue_leaving (q : List α) : (leaving q).queue = q := rfl
@[simp] theorem queue_finished : (finished : Mailbox α).queue = [] := rfl
@[simp] theorem queue_panicked : (panicked : Mailbox α).queue = [] := rfl
@[simp] theorem leave_listening (q : List α) : (listening q).leave = leaving q := rfl
@[simp] theorem isListening_listening (q : List α) : (listening q).isListening = true := rfl

/-- Without a receiver there is no queue. -/
theorem queue_of_isGone {m : Mailbox α} (h : m.isGone = true) : m.queue = [] := by
  cases m with
  | listening q => cases h
  | leaving q => cases h
  | finished => rfl
  | panicked => rfl

/-- Without a receiver there is no loop. -/
theorem isListening_of_isGone {m : Mailbox α} (h : m.isGone = true) : m.isListening = false := by
  cases m with
  | listening q => cases h
  | leaving q => cases h
  | finished => rfl
  | panicked => rfl

/-- The item in front waits. -/
theorem head_mem_queue {m : Mailbox α} {a : α} {q : List α} (h : m = listening (a :: q)) :
    a ∈ m.queue := by
  rw [h]
  exact List.mem_cons_self

/-- What taking an item means. -/
theorem recv_eq_some {m m' : Mailbox α} {a : α} :
    m.recv = some (a, m') ↔ ∃ q, m = listening (a :: q) ∧ m' = listening q := by
  constructor
  · intro h
    rcases m with (_ | ⟨b, q⟩) | _ | _ | _ <;> simp [recv] at h
    obtain ⟨rfl, rfl⟩ := h
    exact ⟨q, rfl, rfl⟩
  · rintro ⟨q, rfl, rfl⟩
    rfl

/-- An accepted item is appended to the queue, and nothing else changes. -/
theorem send_eq_some {m m' : Mailbox α} {a : α} (h : m.send a = some m') :
    (∃ q, m = listening q ∧ m' = listening (q ++ [a])) ∨
      ∃ q, m = leaving q ∧ m' = leaving (q ++ [a]) := by
  cases m with
  | listening q => exact Or.inl ⟨q, rfl, (Option.some.inj h).symm⟩
  | leaving q => exact Or.inr ⟨q, rfl, (Option.some.inj h).symm⟩
  | finished => simp [send] at h
  | panicked => simp [send] at h

/-- An accepted item waits behind all others. -/
theorem queue_send {m m' : Mailbox α} {a : α} (h : m.send a = some m') :
    m'.queue = m.queue ++ [a] := by
  rcases send_eq_some h with ⟨q, rfl, rfl⟩ | ⟨q, rfl, rfl⟩ <;> rfl

/-- Sending does not stop the loop, nor start it. -/
theorem isListening_send {m m' : Mailbox α} {a : α} (h : m.send a = some m') :
    m'.isListening = m.isListening := by
  rcases send_eq_some h with ⟨q, rfl, rfl⟩ | ⟨q, rfl, rfl⟩ <;> rfl

/-- Sending fails exactly without a receiver. -/
theorem send_eq_none {m : Mailbox α} {a : α} : m.send a = none ↔ m.isGone = true := by
  cases m <;> simp [send, isGone]

/-! ## First in, first out -/

/-- `accepted` are the items sent with success and `taken` those the loop took: as long as
there is a receiver the rest waits in order, afterwards the rest is lost. -/
def Tracks (accepted taken : List α) : Mailbox α → Prop
  | listening q => accepted = taken ++ q
  | leaving q => accepted = taken ++ q
  | finished => taken <+: accepted
  | panicked => taken <+: accepted

theorem Tracks.send {accepted taken : List α} {m m' : Mailbox α} {a : α}
    (h : Tracks accepted taken m) (hsend : m.send a = some m') :
    Tracks (accepted ++ [a]) taken m' := by
  rcases send_eq_some hsend with ⟨q, rfl, rfl⟩ | ⟨q, rfl, rfl⟩
  · have h : accepted = taken ++ q := h
    simp [Tracks, h]
  · have h : accepted = taken ++ q := h
    simp [Tracks, h]

theorem Tracks.recv {accepted taken : List α} {m m' : Mailbox α} {a : α}
    (h : Tracks accepted taken m) (hrecv : m.recv = some (a, m')) :
    Tracks accepted (taken ++ [a]) m' := by
  obtain ⟨q, rfl, rfl⟩ := recv_eq_some.mp hrecv
  have h : accepted = taken ++ a :: q := h
  simp [Tracks, h]

/-- What the loop took is a prefix of what was accepted. -/
theorem Tracks.initial {accepted taken : List α} {m : Mailbox α} (h : Tracks accepted taken m) :
    taken <+: accepted := by
  cases m with
  | listening q => exact ⟨q, h.symm⟩
  | leaving q => exact ⟨q, h.symm⟩
  | finished => exact h
  | panicked => exact h

end Mailbox
