import Mathlib.Data.List.Basic
import Mathlib.Data.List.Infix

/-!
# Leftmost search

A *matcher* reads a list from its head and answers the length of the match it
finds there.  `leftmost m l` slides the matcher along `l` and answers where the
first match starts and stops.

## Main definitions

* `leftmost m l` — start and stop of the first match of `m` in `l`.
* `NoMatchIn m a b` — no match of `m` in `a ++ b` starts inside `a`.

## Main results

* `leftmost_append` — a prefix no match starts in is skipped.
* `leftmost_hit` — a match right behind such a prefix is the one found.
-/

namespace Search

variable {α : Type*}

/-- Start and stop of the first match of `m`. -/
def leftmost (m : List α → Option ℕ) : List α → Option (ℕ × ℕ)
  | [] => none
  | a :: l =>
    match m (a :: l) with
    | some n => some (0, n)
    | none => (leftmost m l).map fun p => (p.1 + 1, p.2 + 1)

/-- No match of `m` in `a ++ b` starts inside `a`. -/
def NoMatchIn (m : List α → Option ℕ) (a b : List α) : Prop :=
  ∀ s, s <:+ a → s ≠ [] → m (s ++ b) = none

theorem NoMatchIn.nil (m : List α → Option ℕ) (b : List α) : NoMatchIn m [] b :=
  fun _ hs hne => absurd (List.suffix_nil.mp hs) hne

theorem NoMatchIn.tail {m : List α → Option ℕ} {x : α} {a b : List α}
    (h : NoMatchIn m (x :: a) b) : NoMatchIn m a b :=
  fun s hs hne => h s (hs.trans (List.suffix_cons x a)) hne

/-- **A prefix no match starts in is skipped.** -/
theorem leftmost_append {m : List α → Option ℕ} {b : List α} : ∀ {a : List α},
    NoMatchIn m a b → leftmost m (a ++ b)
      = (leftmost m b).map fun p => (p.1 + a.length, p.2 + a.length) := by
  intro a
  induction a with
  | nil => intro _; simp
  | cons x a ih =>
    intro h
    have hx : m (x :: (a ++ b)) = none := h (x :: a) (List.suffix_refl _) (List.cons_ne_nil _ _)
    rw [List.cons_append, leftmost, hx, ih h.tail, Option.map_map]
    rfl

/-- **A match right behind such a prefix is the one found.** -/
theorem leftmost_hit {m : List α → Option ℕ} {a b : List α} {n : ℕ} (h : NoMatchIn m a b)
    (hb : b ≠ []) (hm : m b = some n) :
    leftmost m (a ++ b) = some (a.length, a.length + n) := by
  obtain ⟨y, b, rfl⟩ := List.exists_cons_of_ne_nil hb
  rw [leftmost_append h, leftmost, hm]
  simp [Nat.add_comm]

/-- Nothing is found where no match starts anywhere. -/
theorem leftmost_eq_none {m : List α → Option ℕ} {a : List α} (h : NoMatchIn m a []) :
    leftmost m a = none := by
  rw [← List.append_nil a, leftmost_append h]
  rfl

/-- A match lies within the list, and is not empty if the matcher never matches nothing. -/
theorem leftmost_bounds {m : List α → Option ℕ}
    (hm : ∀ l n, m l = some n → 0 < n ∧ n ≤ l.length) : ∀ {l : List α} {start stop : ℕ},
    leftmost m l = some (start, stop) → start < stop ∧ stop ≤ l.length := by
  intro l
  induction l with
  | nil => exact fun h => by cases h
  | cons a l ih =>
    intro start stop h
    rw [leftmost] at h
    split at h
    · rename_i n hn
      cases h
      exact hm _ _ hn
    · obtain ⟨⟨x, y⟩, hxy, heq⟩ := Option.map_eq_some_iff.mp h
      cases heq
      obtain ⟨h1, h2⟩ := ih hxy
      exact ⟨Nat.succ_lt_succ h1, Nat.succ_le_succ h2⟩

end Search
