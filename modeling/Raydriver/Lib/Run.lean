import Mathlib.Data.List.Infix

/-!
# Runs of a system given by a partial step function

A concurrent program is modelled by a state type `S`, a type `L` of labels (who
moves, and how the environment answers) and a partial function
`step : L → S → Option S`, undefined where the label is not enabled.  A *run* is
a finite chain of steps; it is *guarded* when each of its steps satisfies a
condition on the state before it, its label and the state after it.

## Main definitions

* `Run step ok s t` — a run from `s` to `t`, each step of which satisfies `ok`.
* `AnyStep` — the guard every step satisfies.
* `CountedRun step ok p q n r s t` — the same, with `n` steps of kind `p` and `r` of kind `q`.
* `exec step ls s` — the state after the labels `ls`, computed, if all are enabled.
* `reach step ls s` — that state.

## Main results

* `Run.invariant` — what holds at the start and is kept by every guarded step
  holds at the end.
* `CountedRun.bound` — a measure that the steps counted lower, but for those of the other
  kind, bounds their number.
* `run_reach`, `run_reach_guarded` — an executable label list is a run.
-/

namespace Lts

variable {S L : Type*}

/-- The guard every step satisfies. -/
def AnyStep (_ : S) (_ : L) (_ : S) : Prop := True

/-- A run from `s` to `t` each of whose steps satisfies the guard `ok`. -/
inductive Run (step : L → S → Option S) (ok : S → L → S → Prop) : S → S → Prop
  | refl (s : S) : Run step ok s s
  | tail {s t u : S} {l : L} (r : Run step ok s t) (h : step l t = some u) (hok : ok t l u) :
      Run step ok s u

namespace Run

variable {step : L → S → Option S} {ok ok' : S → L → S → Prop} {s t u : S}

theorem single {l : L} (h : step l s = some t) (hok : ok s l t) : Run step ok s t :=
  .tail (.refl s) h hok

theorem trans (h : Run step ok s t) (h' : Run step ok t u) : Run step ok s u := by
  induction h' with
  | refl => exact h
  | tail _ hs hok ih => exact .tail ih hs hok

theorem mono (hle : ∀ a l b, ok a l b → ok' a l b) (h : Run step ok s t) :
    Run step ok' s t := by
  induction h with
  | refl => exact .refl _
  | tail _ hs hok ih => exact .tail ih hs (hle _ _ _ hok)

/-- Forgetting the guard of a run. -/
theorem any (h : Run step ok s t) : Run step AnyStep s t :=
  h.mono fun _ _ _ _ => trivial

/-- **The invariant rule**: what every guarded step keeps, every guarded run keeps. -/
theorem invariant {I : S → Prop} (hI : ∀ a l b, I a → step l a = some b → ok a l b → I b)
    (h : Run step ok s t) (hs : I s) : I t := by
  induction h with
  | refl => exact hs
  | tail _ hst hok ih => exact hI _ _ _ ih hst hok

/-- What every step takes back from its end to its start holds all along a run at whose
end it holds. -/
theorem strengthen {P : S → Prop} (hP : ∀ a l b, step l a = some b → ok a l b → P b → P a)
    (h : Run step ok s t) (ht : P t) : Run step (fun a l b => ok a l b ∧ P b) s t := by
  induction h with
  | refl => exact .refl _
  | tail _ hst hok ih => exact .tail (ih (hP _ _ _ hst hok ht)) hst ⟨hok, ht⟩

/-- The same, with what holds before each step. -/
theorem strengthen_before {P : S → Prop}
    (hP : ∀ a l b, step l a = some b → ok a l b → P b → P a)
    (h : Run step ok s t) (ht : P t) : Run step (fun a l b => ok a l b ∧ P a) s t := by
  induction h with
  | refl => exact .refl _
  | tail _ hst hok ih =>
    have ha := hP _ _ _ hst hok ht
    exact .tail (ih ha) hst ⟨hok, ha⟩

/-- An invariant can be read off before each step. -/
theorem carry {I : S → Prop} (hI : ∀ a l b, I a → step l a = some b → ok a l b → I b)
    (h : Run step ok s t) (hs : I s) : Run step (fun a l b => ok a l b ∧ I a) s t := by
  induction h with
  | refl => exact .refl _
  | tail h hst hok ih => exact .tail ih hst ⟨hok, h.invariant hI hs⟩

end Run

/-! ### Counting steps -/

/-- A guarded run of which `n` steps are of the kind `p` and `r` of the kind `q`. -/
inductive CountedRun (step : L → S → Option S) (ok : S → L → S → Prop) (p q : S → L → Bool) :
    ℕ → ℕ → S → S → Prop
  | refl (s : S) : CountedRun step ok p q 0 0 s s
  | tail {n r : ℕ} {s t u : S} {l : L} (h : CountedRun step ok p q n r s t)
      (hst : step l t = some u) (hok : ok t l u) :
      CountedRun step ok p q (n + (p t l).toNat) (r + (q t l).toNat) s u

namespace CountedRun

variable {step : L → S → Option S} {ok : S → L → S → Prop} {p q : S → L → Bool} {n r : ℕ} {s t : S}

/-- Forgetting the counts. -/
theorem run (h : CountedRun step ok p q n r s t) : Run step ok s t := by
  induction h with
  | refl => exact .refl _
  | tail _ hst hok ih => exact .tail ih hst hok

/-- **The variant rule**: where each step of the kind `p` lowers the measure `f`, and one of the
kind `q` raises it by at most `B`, there are as many steps of the kind `p` as that allows. -/
theorem bound {I : S → Prop} {f : S → ℕ} {B : ℕ}
    (hI : ∀ a l b, I a → step l a = some b → ok a l b → I b)
    (hf : ∀ a l b, I a → step l a = some b → ok a l b →
      f b + (p a l).toNat ≤ f a + (q a l).toNat * B)
    (h : CountedRun step ok p q n r s t) (hs : I s) : n + f t ≤ f s + r * B := by
  induction h with
  | refl => omega
  | tail h hst hok ih =>
    have hlast := hf _ _ _ (h.run.invariant hI hs) hst hok
    rw [Nat.add_mul]
    have hrun := ih hs
    omega

/-- The counts of a run add up. -/
theorem trans {u : S} {m v : ℕ} (h : CountedRun step ok p q n r s t)
    (h' : CountedRun step ok p q m v t u) : CountedRun step ok p q (n + m) (r + v) s u := by
  induction h' with
  | refl => exact h
  | tail _ hst hok ih =>
    have hlast := (ih h).tail hst hok
    rw [Nat.add_assoc, Nat.add_assoc] at hlast
    exact hlast

end CountedRun

/-- The steps of a run can be counted. -/
theorem Run.counted {step : L → S → Option S} {ok : S → L → S → Prop} {s t : S}
    (h : Run step ok s t) (p q : S → L → Bool) : ∃ n r, CountedRun step ok p q n r s t := by
  induction h with
  | refl => exact ⟨0, 0, .refl _⟩
  | tail _ hst hok ih =>
    obtain ⟨n, r, h⟩ := ih
    exact ⟨_, _, h.tail hst hok⟩

/-- The state after the labels `ls`, if each is enabled when its turn comes. -/
def exec (step : L → S → Option S) : List L → S → Option S
  | [], s => some s
  | l :: ls, s => (step l s).bind (exec step ls)

@[simp] theorem exec_nil (step : L → S → Option S) (s : S) : exec step [] s = some s := rfl

@[simp] theorem exec_cons (step : L → S → Option S) (l : L) (ls : List L) (s : S) :
    exec step (l :: ls) s = (step l s).bind (exec step ls) := rfl

/-- The labels of an executed list, with the guard checked at every step. -/
def execWith (step : L → S → Option S) (ok : S → L → S → Bool) : List L → S → Option S
  | [], s => some s
  | l :: ls, s => (step l s).bind fun t => if ok s l t then execWith step ok ls t else none

/-- **An executed label list is a run.** -/
theorem run_of_exec {step : L → S → Option S} :
    ∀ {ls : List L} {s t : S}, exec step ls s = some t → Run step AnyStep s t
  | [], s, t, h => by
    cases Option.some.inj h
    exact .refl s
  | l :: ls, s, t, h => by
    obtain ⟨u, hu, ht⟩ := Option.bind_eq_some_iff.mp h
    exact (Run.single hu trivial).trans (run_of_exec ht)

/-- A label list executed with its guard checked is a guarded run. -/
theorem run_of_execWith {step : L → S → Option S} {ok : S → L → S → Bool} :
    ∀ {ls : List L} {s t : S}, execWith step ok ls s = some t →
      Run step (fun a l b => ok a l b = true) s t
  | [], s, t, h => by
    cases Option.some.inj h
    exact .refl s
  | l :: ls, s, t, h => by
    obtain ⟨u, hu, ht⟩ := Option.bind_eq_some_iff.mp h
    by_cases hok : ok s l u
    · rw [if_pos hok] at ht
      exact (Run.single hu hok).trans (run_of_execWith ht)
    · rw [if_neg hok] at ht
      cases ht

/-- The state an executable label list leads to. -/
def reach (step : L → S → Option S) (ls : List L) (s : S) : S := (exec step ls s).getD s

theorem run_reach {step : L → S → Option S} {ls : List L} {s : S}
    (h : (exec step ls s).isSome = true) : Run step AnyStep s (reach step ls s) := by
  obtain ⟨t, ht⟩ := Option.isSome_iff_exists.mp h
  unfold reach
  rw [ht]
  exact run_of_exec ht

/-- Checking the guard does not change where a label list leads. -/
theorem exec_of_execWith {step : L → S → Option S} {ok : S → L → S → Bool} :
    ∀ {ls : List L} {s t : S}, execWith step ok ls s = some t → exec step ls s = some t
  | [], s, t, h => h
  | l :: ls, s, t, h => by
    obtain ⟨u, hu, ht⟩ := Option.bind_eq_some_iff.mp h
    split_ifs at ht
    rw [exec_cons, hu]
    exact exec_of_execWith ht

theorem run_reach_guarded {step : L → S → Option S} {ok : S → L → S → Bool} {ls : List L} {s : S}
    (h : (execWith step ok ls s).isSome = true) :
    Run step (fun a l b => ok a l b = true) s (reach step ls s) := by
  obtain ⟨t, ht⟩ := Option.isSome_iff_exists.mp h
  unfold reach
  rw [exec_of_execWith ht]
  exact run_of_execWith ht

/-- The same for a guard on the state before a step and its label. -/
theorem run_reach_where {step : L → S → Option S} {p : S → L → Bool} {ls : List L} {s : S}
    (h : (execWith step (fun a l _ => p a l) ls s).isSome = true) :
    Run step (fun a l _ => p a l = true) s (reach step ls s) :=
  run_reach_guarded h

/-- The same for two guards. -/
theorem run_reach_both {step : L → S → Option S} {p q : S → L → Bool} {ls : List L} {s : S}
    (h : (execWith step (fun a l _ => p a l && q a l) ls s).isSome = true) :
    Run step (fun a l _ => p a l = true ∧ q a l = true) s (reach step ls s) :=
  (run_reach_guarded h).mono fun _ _ _ hok => Bool.and_eq_true_iff.mp hok

end Lts
