import Mathlib.Data.List.Basic
import Mathlib.Data.List.Perm.Basic

/-!
# The latest reading

A register is updated by the items of a list: an item that holds a reading overwrites the
register, any other leaves it alone.  What the register holds in the end is the latest
reading, or what it held before if there was none.  If at most one item holds a reading,
the order of the items does not matter.

## Main definitions

* `latest read l` — the last reading among the items of `l`.

## Main results

* `latest_cons`, `latest_concat` — an item behind which nothing is read is the latest.
* `latest_perm` — **with at most one reading, the order of the items does not matter**.
-/

namespace Latest

variable {α β γ : Type*} {read : α → Option β} {l l' : List α}

/-- The last reading among the items of a list. -/
def latest (read : α → Option β) (l : List α) : Option β := (l.filterMap read).getLast?

@[simp] theorem latest_nil (read : α → Option β) : latest read [] = none := rfl

/-- An item is the latest reading unless there is one behind it. -/
theorem latest_cons (read : α → Option β) (a : α) (l : List α) :
    latest read (a :: l) = (latest read l).or (read a) := by
  unfold latest
  cases h : read a with
  | none => rw [List.filterMap_cons_none h, Option.or_none]
  | some b =>
    rw [List.filterMap_cons_some h, List.getLast?_cons]
    cases (l.filterMap read).getLast? <;> rfl

/-- An item that holds a reading is the latest if none is behind it. -/
theorem latest_concat {a : α} {b : β} (h : read a = some b) : latest read (l ++ [a]) = some b := by
  unfold latest
  rw [List.filterMap_append, List.filterMap_cons_some h, List.filterMap_nil,
    List.getLast?_concat]

/-- The latest reading is that of one of the items. -/
theorem exists_of_latest {b : β} (h : latest read l = some b) : ∃ a ∈ l, read a = some b :=
  List.mem_filterMap.mp (List.mem_of_getLast? h)

theorem latest_eq_none_iff : latest read l = none ↔ ∀ a ∈ l, read a = none := by
  rw [latest, List.getLast?_eq_none_iff, List.filterMap_eq_nil_iff]

/-- **With at most one reading among them, the order of the items does not matter.** -/
theorem latest_perm (hp : l.Perm l') (h : l.countP (fun a => (read a).isSome) ≤ 1) :
    latest read l = latest read l' := by
  have hperm : (l.filterMap read).Perm (l'.filterMap read) := hp.filterMap read
  have hlen : (l.filterMap read).length ≤ 1 := by
    rw [List.length_filterMap_eq_countP]
    exact h
  have heq : l.filterMap read = l'.filterMap read := by
    match hl : l.filterMap read with
    | [] =>
      rw [hl] at hperm
      exact (List.nil_perm.mp hperm).symm
    | [b] =>
      rw [hl] at hperm
      exact List.singleton_perm.mp hperm
    | b :: c :: bs =>
      rw [hl] at hlen
      exact absurd hlen (by simp)
  rw [latest, latest, heq]

end Latest
