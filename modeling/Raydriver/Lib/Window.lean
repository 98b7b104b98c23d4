import Mathlib.Algebra.GroupWithZero.Nat
import Mathlib.Data.List.Basic

/-!
# A sliding window over a buffered channel

A writer hands items to a reader with a buffer of bounded size.  The reader removes
the items one by one and answers each; the writer hears the answers later still.  So
the items written are cut at three places, each behind the next: heard, answered,
removed.  What lies in the reader's buffer is always part of what the writer has not
heard an answer for, and a writer that keeps the latter within the buffer size never
overflows it.

## Main definitions

* `Window α` — the items written and the three cuts; the order of the cuts is part of
  the structure.
* `resident`, `outstanding` — the items in the buffer, and those without an answer heard.
* `Step ok` — the moves, writing being allowed by `ok`.

## Main results

* `Step.resident_le` — **a writer that admits only what fits never overflows the buffer**.
-/

/-- The items written, and how many of them have been removed from the buffer, answered,
and heard of. -/
structure Window (α : Type*) where
  written : List α
  removed : ℕ
  answered : ℕ
  heard : ℕ
  heard_le : heard ≤ answered
  answered_le : answered ≤ removed
  removed_le : removed ≤ written.length

namespace Window

variable {α : Type*} {w w' : Window α} {size : α → ℕ} {C : ℕ} {ok : Window α → α → Prop}

/-- The items in the reader's buffer. -/
def resident (w : Window α) : List α := w.written.drop w.removed

/-- The items the writer has heard no answer for. -/
def outstanding (w : Window α) : List α := w.written.drop w.heard

/-- Nothing has been written yet. -/
def empty : Window α := ⟨[], 0, 0, 0, Nat.le_refl 0, Nat.le_refl 0, Nat.le_refl 0⟩

/-! ### The moves -/

/-- The writer writes an item. -/
def write (x : α) (w : Window α) : Window α where
  written := w.written ++ [x]
  removed := w.removed
  answered := w.answered
  heard := w.heard
  heard_le := w.heard_le
  answered_le := w.answered_le
  removed_le := by rw [List.length_append]; exact Nat.le_add_right_of_le w.removed_le

/-- The reader removes the oldest item of its buffer. -/
def remove (w : Window α) (h : w.removed < w.written.length) : Window α where
  written := w.written
  removed := w.removed + 1
  answered := w.answered
  heard := w.heard
  heard_le := w.heard_le
  answered_le := Nat.le_succ_of_le w.answered_le
  removed_le := h

/-- The reader answers the oldest removed item it has not answered. -/
def answer (w : Window α) (h : w.answered < w.removed) : Window α where
  written := w.written
  removed := w.removed
  answered := w.answered + 1
  heard := w.heard
  heard_le := Nat.le_succ_of_le w.heard_le
  answered_le := h
  removed_le := w.removed_le

/-- The writer hears `n` answers. -/
def hear (n : ℕ) (w : Window α) (h : w.heard + n ≤ w.answered) : Window α where
  written := w.written
  removed := w.removed
  answered := w.answered
  heard := w.heard + n
  heard_le := h
  answered_le := w.answered_le
  removed_le := w.removed_le

/-- One move; an item is only written where `ok` allows it. -/
inductive Step (ok : Window α → α → Prop) (w : Window α) : Window α → Prop
  | write (x : α) (h : ok w x) : Step ok w (w.write x)
  | remove (h : w.removed < w.written.length) : Step ok w (w.remove h)
  | answer (h : w.answered < w.removed) : Step ok w (w.answer h)
  | hear (n : ℕ) (h : w.heard + n ≤ w.answered) : Step ok w (w.hear n h)

/-! ### Outstanding items -/

theorem heard_le_length (w : Window α) : w.heard ≤ w.written.length :=
  Nat.le_trans (Nat.le_trans w.heard_le w.answered_le) w.removed_le

/-! ### The buffer -/

theorem resident_write (x : α) (w : Window α) : (w.write x).resident = w.resident ++ [x] :=
  List.drop_append_of_le_length w.removed_le

/-- The total size of a list of items. -/
def total (size : α → ℕ) (l : List α) : ℕ := (l.map size).sum

theorem total_append (size : α → ℕ) (l l' : List α) :
    total size (l ++ l') = total size l + total size l' := by
  rw [total, List.map_append, List.sum_append]
  rfl

theorem total_drop_le (size : α → ℕ) (n : ℕ) (l : List α) : total size (l.drop n) ≤ total size l := by
  have h := total_append size (l.take n) (l.drop n)
  rw [List.take_append_drop] at h
  omega

/-- What lies in the buffer is outstanding. -/
theorem total_resident_le (size : α → ℕ) (w : Window α) :
    total size w.resident ≤ total size w.outstanding := by
  obtain ⟨k, hk⟩ := Nat.exists_eq_add_of_le (Nat.le_trans w.heard_le w.answered_le)
  rw [resident, hk, ← List.drop_drop]
  exact total_drop_le size k _

/-- **A writer that admits only what fits beside the outstanding items never overflows
the buffer**, whatever the reader and the answers do. -/
theorem Step.resident_le (hok : ∀ w x, ok w x → total size w.outstanding + size x ≤ C)
    (h : Step ok w w') (hw : total size w.resident ≤ C) : total size w'.resident ≤ C := by
  cases h with
  | write x hx =>
    have hfit := hok w x hx
    have hle := total_resident_le size w
    have hx' : total size [x] = size x := by simp [total]
    rw [resident_write, total_append, hx']
    omega
  | remove hr =>
    have hdrop : (w.remove hr).resident = w.resident.drop 1 := (List.drop_drop ..).symm
    rw [hdrop]
    exact Nat.le_trans (total_drop_le size 1 _) hw
  | answer ha => exact hw
  | hear n hn => exact hw

end Window
