import Mathlib.Data.List.Basic
import Mathlib.Data.List.Infix
import Raydriver.Lib.Run

/-!
# Journals

A system keeps a journal of what it announces and of what it does.  The journal is complete
if the deeds are what was announced, in the same order, and none was done before it was
announced.  A step that announces one deed and does it keeps a journal complete, and so does
a step that does neither; of the steps that write no more than that, no others do.

## Main definitions

* `Entry` — an announcement, or a deed.
* `IsComplete log` — the journal is complete.
* `paired t` — what a step writes is nothing, or an announcement and its deed.
* `journaled step emits` — the system with its journal.

## Main results

* `IsComplete.append_iff` — **which steps keep a journal complete**.
* `run_complete` — a run of such steps keeps it complete.
-/

namespace Journal

variable {α S L : Type*}

/-- An announcement, or a deed. -/
inductive Entry (α : Type*) where
  | announced (a : α)
  | done (a : α)
  deriving DecidableEq, Repr

/-- What has been announced. -/
def announcements (log : List (Entry α)) : List α :=
  log.filterMap fun e =>
    match e with
    | .announced a => some a
    | .done _ => none

/-- What has been done. -/
def deeds (log : List (Entry α)) : List α :=
  log.filterMap fun e =>
    match e with
    | .announced _ => none
    | .done a => some a

/-- The deeds are what was announced, and each was announced before. -/
structure IsComplete (log : List (Entry α)) : Prop where
  same : deeds log = announcements log
  before : ∀ l, l <+: log → (deeds l).length ≤ (announcements l).length

/-- Nothing, or an announcement and its deed. -/
def paired [DecidableEq α] : List (Entry α) → Bool
  | [] => true
  | [.announced a, .done b] => decide (a = b)
  | _ => false

/-- Nothing, one entry, or an announcement and a deed. -/
def brief : List (Entry α) → Bool
  | [] | [_] | [.announced _, .done _] => true
  | _ => false

theorem announcements_append (l l' : List (Entry α)) :
    announcements (l ++ l') = announcements l ++ announcements l' := List.filterMap_append

theorem deeds_append (l l' : List (Entry α)) : deeds (l ++ l') = deeds l ++ deeds l' :=
  List.filterMap_append

theorem IsComplete.nil : IsComplete ([] : List (Entry α)) := by
  refine ⟨rfl, fun l hl => ?_⟩
  rw [List.prefix_nil.mp hl]
  rfl

/-- An announcement and its deed. -/
theorem IsComplete.pair {log : List (Entry α)} (h : IsComplete log) (a : α) :
    IsComplete (log ++ [.announced a, .done a]) := by
  have hsame : deeds log = announcements log := h.same
  refine ⟨by rw [deeds_append, announcements_append, hsame]; rfl, fun l hl => ?_⟩
  have hsplit : log ++ [Entry.announced a, .done a] = (log ++ [.announced a]) ++ [.done a] := by
    rw [List.append_assoc]
    rfl
  rw [hsplit, List.prefix_concat_iff, List.prefix_concat_iff] at hl
  rcases hl with rfl | rfl | hl
  · rw [deeds_append, deeds_append, announcements_append, announcements_append, hsame]
    simp [deeds, announcements]
  · rw [deeds_append, announcements_append, hsame]
    simp [deeds, announcements]
  · exact h.before l hl

/-- **Which steps keep a journal complete**: of those that write at most an announcement and a
deed, just those whose deed is the one announced. -/
theorem IsComplete.append_iff [DecidableEq α] {log t : List (Entry α)} (h : IsComplete log)
    (ht : brief t = true) : IsComplete (log ++ t) ↔ paired t = true := by
  have hsame : deeds log = announcements log := h.same
  have hlength : IsComplete (log ++ t) → (deeds t).length = (announcements t).length := by
    intro ht
    have heq := congrArg List.length ht.same
    rw [deeds_append, announcements_append, hsame] at heq
    simpa using heq
  unfold brief at ht
  split at ht
  · rw [List.append_nil]
    exact iff_of_true h rfl
  · -- a single entry leaves a deed or an announcement over
    rename_i e
    cases e with
    | announced a =>
      exact iff_of_false (fun ht => absurd (hlength ht) (by simp [deeds, announcements]))
        (by simp [paired])
    | done a =>
      exact iff_of_false (fun ht => absurd (hlength ht) (by simp [deeds, announcements]))
        (by simp [paired])
  · rename_i a b
    constructor
    · intro ht
      have heq := ht.same
      rw [deeds_append, announcements_append, hsame] at heq
      have hlast : [b] = [a] := List.append_cancel_left heq
      exact decide_eq_true (List.singleton_inj.mp hlast).symm
    · intro hab
      obtain rfl : a = b := of_decide_eq_true hab
      exact h.pair a
  · cases ht

/-! ### Systems with a journal -/

/-- A system with its journal; `emits` is what a step writes to it. -/
def journaled (step : L → S → Option S) (emits : L → S → List (Entry α)) :
    L → S × List (Entry α) → Option (S × List (Entry α)) :=
  fun l s => (step l s.1).map fun u => (u, s.2 ++ emits l s.1)

variable [DecidableEq α] {step : L → S → Option S} {emits : L → S → List (Entry α)}
  {s u : S × List (Entry α)} {l : L}

/-- A step keeps the journal complete if and only if what it writes is paired. -/
theorem step_complete_iff (hbrief : brief (emits l s.1) = true)
    (hs : journaled step emits l s = some u) (h : IsComplete s.2) :
    IsComplete u.2 ↔ paired (emits l s.1) = true := by
  obtain ⟨v, -, rfl⟩ := Option.map_eq_some_iff.mp hs
  exact h.append_iff hbrief

/-- A run of paired steps keeps the journal complete. -/
theorem run_complete (hbrief : ∀ l s, brief (emits l s) = true) (h : IsComplete s.2)
    (hr : Lts.Run (journaled step emits) (fun a l _ => paired (emits l a.1) = true) s u) :
    IsComplete u.2 :=
  hr.invariant (I := fun s => IsComplete s.2)
    (fun _ _ _ h hs hok => (step_complete_iff (hbrief _ _) hs h).mpr hok) h

end Journal
