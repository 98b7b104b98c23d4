import Mathlib.Data.List.Induction
import Mathlib.Order.MinMax

/-!
# Reporting up to a high-water mark

A consumer of numbered items remembers the highest number it has reported.  Whenever an
item arrives it reports all numbers from behind that mark up to the number of the item,
and moves the mark there.  If the numbers arrive in order, gaps and repetitions among
them, then what has been reported at any time is each number up to the highest once.

## Main definitions

* `upTo m` — the numbers from zero up to `m`.
* `behind mark a` — what the arrival of `a` reports.
* `reports mark as`, `markAfter mark as` — what arrivals report, and where they leave the mark.
* `highest as` — the highest number, and `-1` if there is none.

## Main results

* `upTo_append_reports` — **every number up to the highest is reported once, in order.**
* `exists_of_mem_upTo` — none of them before an item with that number or a higher one.
-/

namespace HighWater

/-- The numbers from zero up to `m`, none if `m` is negative. -/
def upTo (m : ℤ) : List ℤ := (List.range (m + 1).toNat).map fun k : ℕ => (k : ℤ)

/-- The numbers behind `mark` up to `a`. -/
def behind (mark a : ℤ) : List ℤ := (List.range (a - mark).toNat).map fun k : ℕ => mark + 1 + k

/-- What the arrival of items reports. -/
def reports : ℤ → List ℤ → List ℤ
  | _, [] => []
  | mark, a :: as => behind mark a ++ reports a as

/-- The mark behind the arrival of items. -/
def markAfter : ℤ → List ℤ → ℤ
  | mark, [] => mark
  | _, a :: as => markAfter a as

/-- The highest number, and `-1` if there is none. -/
def highest (as : List ℤ) : ℤ := as.foldl max (-1)

@[simp] theorem upTo_neg_one : upTo (-1) = [] := rfl

@[simp] theorem highest_nil : highest [] = -1 := rfl

theorem mem_upTo {m i : ℤ} : i ∈ upTo m ↔ 0 ≤ i ∧ i ≤ m := by
  unfold upTo
  rw [List.mem_map]
  constructor
  · rintro ⟨k, hk, rfl⟩
    rw [List.mem_range] at hk
    omega
  · rintro ⟨hnonneg, hle⟩
    refine ⟨i.toNat, ?_, ?_⟩
    · rw [List.mem_range]
      omega
    · omega

/-! ### One arrival -/

/-- **One arrival moves the reports up to its number.** -/
theorem upTo_append_behind {mark a : ℤ} (hmark : -1 ≤ mark) (hle : mark ≤ a) :
    upTo mark ++ behind mark a = upTo a := by
  have hsplit : (a + 1).toNat = (mark + 1).toNat + (a - mark).toNat := by omega
  unfold upTo behind
  rw [hsplit, List.range_add, List.map_append, List.map_map]
  refine congrArg _ (List.map_congr_left fun k _ => ?_)
  show mark + 1 + (k : ℤ) = (((mark + 1).toNat + k : ℕ) : ℤ)
  omega

theorem highest_append (as : List ℤ) (a : ℤ) : highest (as ++ [a]) = max (highest as) a := by
  unfold highest
  rw [List.foldl_append]
  rfl

theorem le_foldl_max : ∀ (as : List ℤ) (m : ℤ), m ≤ as.foldl max m := by
  intro as
  induction as with
  | nil => exact fun m => le_refl m
  | cons a as ih => exact fun m => (le_max_left m a).trans (ih _)

theorem neg_one_le_highest (as : List ℤ) : -1 ≤ highest as := le_foldl_max as (-1)

/-- The highest number is one of the numbers. -/
theorem highest_mem : ∀ {as : List ℤ}, highest as ≠ -1 → highest as ∈ as := by
  intro as
  induction as using List.reverseRecOn with
  | nil => exact fun h => absurd rfl h
  | append_singleton as a ih =>
    intro h
    rw [highest_append] at h ⊢
    rcases max_choice (highest as) a with hmax | hmax
    · rw [hmax] at h ⊢
      exact List.mem_append_left _ (ih h)
    · rw [hmax]
      exact List.mem_append_right _ List.mem_cons_self

theorem highest_le {as : List ℤ} {m : ℤ} (hm : -1 ≤ m) (h : ∀ a ∈ as, a ≤ m) :
    highest as ≤ m := by
  by_cases hnone : highest as = -1
  · rw [hnone]
    exact hm
  · exact h _ (highest_mem hnone)

/-- No number is above the highest. -/
theorem le_highest {as : List ℤ} {a : ℤ} (h : a ∈ as) : a ≤ highest as := by
  induction as using List.reverseRecOn with
  | nil => cases h
  | append_singleton as b ih =>
    rw [highest_append]
    rcases List.mem_append.mp h with h | h
    · exact (ih h).trans (le_max_left _ _)
    · rw [List.mem_singleton.mp h]
      exact le_max_right _ _

/-! ### Arrivals in order -/

/-- **Every number up to the highest is reported once, in order**, when the items arrive in
the order of their numbers. -/
theorem upTo_append_reports : ∀ {as bs : List ℤ}, (as ++ bs).Pairwise (· ≤ ·) →
    (∀ b ∈ bs, 0 ≤ b) →
    upTo (highest as) ++ reports (highest as) bs = upTo (highest (as ++ bs)) ∧
      markAfter (highest as) bs = highest (as ++ bs) := by
  intro as bs
  induction bs generalizing as with
  | nil =>
    intro _ _
    rw [List.append_nil]
    exact ⟨List.append_nil _, rfl⟩
  | cons b bs ih =>
    intro hsorted hnonneg
    have hb : 0 ≤ b := hnonneg b List.mem_cons_self
    have hle : highest as ≤ b := by
      refine highest_le (by omega) fun a ha => ?_
      exact (List.pairwise_append.mp hsorted).2.2 a ha b List.mem_cons_self
    have hnext : highest (as ++ [b]) = b := by
      rw [highest_append, max_eq_right hle]
    have hmove : as ++ b :: bs = as ++ [b] ++ bs := by
      rw [List.append_assoc]
      rfl
    rw [hmove] at hsorted ⊢
    obtain ⟨hreports, hmark⟩ :=
      ih hsorted fun b' hb' => hnonneg b' (List.mem_cons_of_mem b hb')
    rw [hnext] at hreports hmark
    refine ⟨?_, hmark⟩
    show upTo (highest as) ++ (behind (highest as) b ++ reports b bs) = _
    rw [← List.append_assoc, upTo_append_behind (neg_one_le_highest as) hle]
    exact hreports

/-- **No number is reported before an item that is at least as high.** -/
theorem exists_of_mem_upTo {as : List ℤ} {i : ℤ} (h : i ∈ upTo (highest as)) :
    ∃ a ∈ as, i ≤ a := by
  obtain ⟨hnonneg, hle⟩ := mem_upTo.mp h
  exact ⟨highest as, highest_mem (by omega), hle⟩

end HighWater
