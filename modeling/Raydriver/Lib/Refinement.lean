import Raydriver.Lib.Run

/-!
# Refinement of one system by another

A system refines another when each of its steps is, seen through an abstraction of its
state, either a step of the other or no step at all.  Whatever the more abstract system
keeps, the refined one then keeps as well.

## Main definitions

* `Simulation` — the square of one step.
* `Matches` — a step is matched by a run, through a relation of the states.

## Main results

* `Simulation.run` — **a run of the refined system is a run of the abstract one.**
* `Simulation.invariant` — what the abstract system keeps holds of the refined one.
* `Matches.run` — **a run is matched by a run**, along which the abstract system keeps its
  invariants.
-/

namespace Lts

variable {S T L K : Type*}

/-- Each guarded step that `obs` sees as a step `k` is the step `k` of the abstract system;
each other one leaves the abstract state alone.  The squares may use an invariant of the
refined system. -/
structure Simulation (step : L → S → Option S) (ok : S → L → S → Prop)
    (step' : K → T → Option T) (inv : S → Prop) (abs : S → T) (obs : S → L → Option K) :
    Prop where
  keeps : ∀ s l t, inv s → step l s = some t → ok s l t → inv t
  stutter : ∀ s l t, inv s → step l s = some t → ok s l t → obs s l = none → abs t = abs s
  move : ∀ s l t k, inv s → step l s = some t → ok s l t → obs s l = some k →
    step' k (abs s) = some (abs t)

namespace Simulation

variable {step : L → S → Option S} {ok : S → L → S → Prop} {step' : K → T → Option T}
  {inv : S → Prop} {abs : S → T} {obs : S → L → Option K} {s t : S}

/-- **A run of the refined system is a run of the abstract one.** -/
theorem run (h : Simulation step ok step' inv abs obs) (hr : Run step ok s t) (hs : inv s) :
    Run step' AnyStep (abs s) (abs t) := by
  induction hr with
  | refl => exact .refl _
  | @tail a b l hr hst hok ih =>
    have ha : inv a := hr.invariant h.keeps hs
    cases hobs : obs a l with
    | none =>
      rw [h.stutter a l b ha hst hok hobs]
      exact ih
    | some k => exact ih.tail (h.move a l b k ha hst hok hobs) trivial

/-- What the abstract system keeps holds of the refined one. -/
theorem invariant {I : T → Prop} (h : Simulation step ok step' inv abs obs)
    (hI : ∀ a k b, I a → step' k a = some b → I b) (hr : Run step ok s t) (hs : inv s)
    (habs : I (abs s)) : I (abs t) :=
  (h.run hr hs).invariant (fun a k b ha hst _ => hI a k b ha hst) habs

end Simulation

/-- Each guarded step between related states is matched by a guarded run of the abstract system.
The abstract system may be supposed to have its invariant. -/
def Matches (step : L → S → Option S) (ok : S → L → S → Prop) (step' : K → T → Option T)
    (ok' : T → K → T → Prop) (inv : T → Prop) (R : S → T → Prop) : Prop :=
  ∀ s l t a, R s a → inv a → step l s = some t → ok s l t → ∃ b, Run step' ok' a b ∧ R t b

/-- **A run is matched by a run.** -/
theorem Matches.run {step : L → S → Option S} {ok : S → L → S → Prop} {step' : K → T → Option T}
    {ok' : T → K → T → Prop} {inv : T → Prop} {R : S → T → Prop} {s t : S} {a : T}
    (h : Matches step ok step' ok' inv R)
    (hinv : ∀ a k b, inv a → step' k a = some b → ok' a k b → inv b)
    (hr : Run step ok s t) (hs : R s a) (ha : inv a) :
    ∃ b, Run step' ok' a b ∧ R t b ∧ inv b := by
  induction hr with
  | refl => exact ⟨a, .refl a, hs, ha⟩
  | @tail t u l hr hst hok ih =>
    obtain ⟨b, hab, htb, hb⟩ := ih
    obtain ⟨c, hbc, huc⟩ := h t l u b htb hb hst hok
    exact ⟨c, hab.trans hbc, huc, hbc.invariant hinv hb⟩

end Lts
