/-
# The feed of a subscriber

What a publish/subscribe topic owes each of its subscribers, said on the log of what
happened at the topic.  A log records subscriptions, unsubscriptions, published
messages and failed deliveries in the order in which the topic dealt with them; a
failed delivery is recorded behind the message it concerns.

* `feed s log` : the messages owed to `s`: those published after `s` subscribed, up to
  its unsubscription or to its first failed delivery, whichever comes first;
* `Live s log` : `s` has subscribed and neither has happened yet.

Both are described by what one more log entry does to them (`feed_concat`,
`live_concat`), so that a topic is shown to honour its subscribers one entry at a time.
-/
import Mathlib.Data.List.TakeWhile

/-- What happened at a topic with subscribers `σ` and messages `μ`. -/
inductive LogEntry (σ μ : Type*) where
  | subscribed (s : σ)
  | unsubscribed (s : σ)
  | sent (m : μ)
  | failed (s : σ)
  deriving DecidableEq, Repr

namespace LogEntry

variable {σ μ : Type*} [DecidableEq σ]

/-- The message an entry publishes, if it does. -/
def message? : LogEntry σ μ → Option μ
  | sent m => some m
  | _ => none

/-- The entry ends the feed of `s`. -/
def ends (s : σ) : LogEntry σ μ → Bool
  | unsubscribed s' => s' = s
  | failed s' => s' = s
  | _ => false

/-- The entry starts the feed of `s`. -/
def starts (s : σ) : LogEntry σ μ → Bool
  | subscribed s' => s' = s
  | _ => false

/-- The messages published until the feed of `s` ends. -/
def untilEnd (s : σ) (log : List (LogEntry σ μ)) : List μ :=
  (log.takeWhile fun e => !e.ends s).filterMap message?

/-- The messages owed to `s`: skip to its subscription, then take messages until its
feed ends. -/
def feed (s : σ) : List (LogEntry σ μ) → List μ
  | [] => []
  | e :: log => if e.starts s then untilEnd s log else feed s log

/-- `s` has subscribed and its feed has not ended. -/
def Live (s : σ) : List (LogEntry σ μ) → Prop
  | [] => False
  | e :: log => if e.starts s then ∀ e' ∈ log, e'.ends s = false else Live s log

/-- `s` has not subscribed yet. -/
def Absent (s : σ) (log : List (LogEntry σ μ)) : Prop := ∀ e ∈ log, e.starts s = false

@[simp] theorem feed_nil (s : σ) : feed s ([] : List (LogEntry σ μ)) = [] := rfl

@[simp] theorem live_nil (s : σ) : ¬ Live s ([] : List (LogEntry σ μ)) := id

/-- An entry that ends a feed publishes nothing. -/
theorem message?_of_ends {s : σ} {e : LogEntry σ μ} (h : e.ends s = true) :
    e.message? = none := by
  cases e <;> simp_all [ends, message?]

/-- One more entry adds its message unless the feed has ended. -/
theorem untilEnd_concat (s : σ) (log : List (LogEntry σ μ)) (e : LogEntry σ μ) :
    (∀ e' ∈ log, e'.ends s = false) →
      untilEnd s (log ++ [e]) = untilEnd s log ++ e.message?.toList := by
  intro h
  have hall : log.takeWhile (fun e => !e.ends s) = log :=
    List.takeWhile_eq_self_iff.mpr fun e' he' => by simp [h e' he']
  rw [untilEnd, untilEnd, List.takeWhile_append, hall, if_pos rfl, List.filterMap_append]
  congr 1
  cases hends : e.ends s
  · cases hm : e.message? <;> simp [hends, hm]
  · simp [hends, message?_of_ends hends]

/-- Once the feed has ended nothing is added. -/
theorem untilEnd_concat_of_ended (s : σ) (log : List (LogEntry σ μ)) (e : LogEntry σ μ)
    (h : ¬ ∀ e' ∈ log, e'.ends s = false) : untilEnd s (log ++ [e]) = untilEnd s log := by
  have hne : (log.takeWhile fun e => !e.ends s).length ≠ log.length := by
    intro hlen
    have hself : log.takeWhile (fun e => !e.ends s) = log :=
      (List.takeWhile_prefix _).eq_of_length hlen
    exact h fun e' he' => by simpa using List.takeWhile_eq_self_iff.mp hself e' he'
  rw [untilEnd, untilEnd, List.takeWhile_append, if_neg hne]

open Classical in
/-- **One more entry, seen by the feed.**  A published message is owed to exactly the
live subscribers. -/
theorem feed_concat (s : σ) (log : List (LogEntry σ μ)) (e : LogEntry σ μ) :
    feed s (log ++ [e]) = feed s log ++ if Live s log then e.message?.toList else [] := by
  induction log with
  | nil => by_cases h : e.starts s <;> simp [feed, h, untilEnd]
  | cons e₀ log ih =>
    rw [List.cons_append, feed, feed, Live]
    by_cases hstart : e₀.starts s = true
    · simp only [hstart, if_true]
      by_cases hlive : ∀ e' ∈ log, e'.ends s = false
      · rw [if_pos hlive, untilEnd_concat s log e hlive]
      · rw [if_neg hlive, untilEnd_concat_of_ended s log e hlive, List.append_nil]
    · simp only [hstart]
      exact ih

/-- **A feed is one block of the messages published.** -/
theorem feed_block (s : σ) (log : List (LogEntry σ μ)) :
    feed s log <:+: log.filterMap message? := by
  induction log with
  | nil => exact List.infix_rfl
  | cons e log ih =>
    have hsuffix : log.filterMap message? <:+ (e :: log).filterMap message? :=
      (List.suffix_cons e log).filterMap message?
    rw [feed]
    split
    · have hfirst : untilEnd s log <+: log.filterMap message? :=
        (List.takeWhile_prefix _).filterMap message?
      exact hfirst.isInfix.trans hsuffix.isInfix
    · exact ih.trans hsuffix.isInfix

/-- **One more entry, seen by liveness.**  A feed goes on until an entry ends it, and a
new one is started by the first subscription only. -/
theorem live_concat (s : σ) (log : List (LogEntry σ μ)) (e : LogEntry σ μ) :
    Live s (log ++ [e]) ↔
      (Live s log ∧ e.ends s = false) ∨ (Absent s log ∧ e.starts s = true) := by
  induction log with
  | nil => by_cases h : e.starts s <;> simp [Live, Absent, h]
  | cons e₀ log ih =>
    rw [List.cons_append, Live, Live]
    by_cases hstart : e₀.starts s = true
    · simp only [hstart, if_true, List.mem_append, List.mem_singleton]
      constructor
      · intro h
        exact Or.inl ⟨fun e' he' => h e' (Or.inl he'), h e (Or.inr rfl)⟩
      · rintro (⟨h, he⟩ | ⟨h, -⟩)
        · rintro e' (he' | rfl)
          · exact h e' he'
          · exact he
        · exact absurd (h e₀ List.mem_cons_self) (by simp [hstart])
    · simp only [hstart]
      have habs : Absent s (e₀ :: log) ↔ Absent s log := by
        simp [Absent, Bool.not_eq_true _ ▸ hstart]
      rw [habs]
      exact ih

/-- One more entry, seen by absence. -/
theorem absent_concat (s : σ) (log : List (LogEntry σ μ)) (e : LogEntry σ μ) :
    Absent s (log ++ [e]) ↔ Absent s log ∧ e.starts s = false := by
  simp only [Absent, List.mem_append, List.mem_singleton]
  constructor
  · intro h
    exact ⟨fun e' he' => h e' (Or.inl he'), h e (Or.inr rfl)⟩
  · rintro ⟨h, he⟩ e' (he' | rfl)
    · exact h e' he'
    · exact he

/-! ## Several failed deliveries -/

/-- Failed deliveries publish nothing. -/
theorem feed_append_failed (s : σ) (log : List (LogEntry σ μ)) (ids : List σ) :
    feed s (log ++ ids.map failed) = feed s log := by
  induction ids generalizing log with
  | nil => simp
  | cons id ids ih =>
    rw [List.map_cons, List.append_cons, ih, feed_concat]
    simp [message?]

/-- Failed deliveries end the feeds of those they concern. -/
theorem live_append_failed (s : σ) (log : List (LogEntry σ μ)) (ids : List σ) :
    Live s (log ++ ids.map failed) ↔ Live s log ∧ s ∉ ids := by
  induction ids generalizing log with
  | nil => simp
  | cons id ids ih =>
    rw [List.map_cons, List.append_cons, ih, live_concat]
    simp only [ends, starts, decide_eq_false_iff_not, List.mem_cons, not_or, Bool.false_eq_true,
      and_false, or_false, and_assoc, eq_comm (a := id)]

/-- Failed deliveries start no feed. -/
theorem absent_append_failed (s : σ) (log : List (LogEntry σ μ)) (ids : List σ) :
    Absent s (log ++ ids.map failed) ↔ Absent s log := by
  simp only [Absent, List.mem_append, List.mem_map]
  constructor
  · intro h e he
    exact h e (Or.inl he)
  · rintro h e (he | ⟨id, -, rfl⟩)
    · exact h e he
    · rfl

end LogEntry
