import Mathlib.Tactic.Ring
import Raydriver.Grbl.Attributes

/-!
# The coordinates of a status report

A report gives some of the machine position, the work position and the work coordinate
offset; the others are carried over from earlier reports or computed.  Whatever is given,
the three fit together afterwards.

## Main definitions

* `reportedPos posType stateStr` — the position of a report under a label.
* `inMm` — a reported position in millimetres.
* `Coordinates` — three positions of one length that satisfy `MPos = WPos + WCO`.
* `DeviceState.scaled` — the known coordinates read as inches and given in millimetres.

## Main results

* `parseState_coordinates` — **the coordinate equation holds behind every report that gives
  a position**, and what is reported is kept.
* `parseState_scaled` — **a report in inches is the metric reading scaled**.
-/

namespace Raydriver

open Latest

/-- The position a report gives under a label, if any. -/
def reportedPos (posType stateStr : Text) : Option Pos :=
  latest (fun a => parsePositionAttribute a posType) (attributesOf stateStr)

/-- A reported position in millimetres. -/
def inMm (inches : Bool) (p : Pos) : Pos := if inches then posFromInches p else p

/-- Three positions of one length, all entries known, with `MPos = WPos + WCO`. -/
structure Coordinates (machinePos workPos wco : Pos) : Prop where
  length_work : workPos.length = machinePos.length
  length_wco : wco.length = machinePos.length
  three_le : 3 ≤ machinePos.length
  equation : ∀ i < machinePos.length, ∃ w o : ℚ, workPos[i]? = some (some w) ∧
    wco[i]? = some (some o) ∧ machinePos[i]? = some (some (w + o))

/-! ### Known positions -/

theorem allKnown_iff {p : Pos} : allKnown p = true ↔ ∃ xs : List ℚ, p = xs.map some := by
  constructor
  · intro h
    induction p with
    | nil => exact ⟨[], rfl⟩
    | cons v p ih =>
      rw [allKnown, List.all_cons, Bool.and_eq_true] at h
      obtain ⟨x, rfl⟩ := Option.isSome_iff_exists.mp h.1
      obtain ⟨xs, rfl⟩ := ih h.2
      exact ⟨x :: xs, rfl⟩
  · rintro ⟨xs, rfl⟩
    rw [allKnown, List.all_eq_true]
    intro v hv
    obtain ⟨x, -, rfl⟩ := List.mem_map.mp hv
    rfl

theorem allKnown_map (xs : List ℚ) : allKnown (xs.map some) = true := allKnown_iff.mpr ⟨xs, rfl⟩

theorem combinePos_map (f : ℚ → ℚ → ℚ) : ∀ xs ys : List ℚ,
    combinePos f (xs.map some) (ys.map some) = (List.zipWith f xs ys).map some := by
  intro xs ys
  rw [combinePos, List.zipWith_map, List.map_zipWith]
  rfl

theorem padPos_map (xs : List ℚ) (n : ℕ) :
    padPos (xs.map some) n 0 = (xs ++ List.replicate (n - xs.length) 0).map some := by
  rw [padPos, List.length_map, List.map_append, List.map_replicate]

theorem length_padPos {p : Pos} {n : ℕ} (h : p.length ≤ n) : (padPos p n 0).length = n := by
  rw [padPos, List.length_append, List.length_replicate]
  omega

theorem allKnown_padPos {p : Pos} (h : allKnown p = true) (n : ℕ) :
    allKnown (padPos p n 0) = true := by
  obtain ⟨xs, rfl⟩ := allKnown_iff.mp h
  exact allKnown_iff.mpr ⟨_, padPos_map xs n⟩

/-! ### Completing the positions -/

section Complete

variable {xs ys zs : List ℚ} {n : ℕ}

/-- The difference is added again. -/
theorem zipWith_add_sub (h : xs.length = ys.length) :
    List.zipWith (· + ·) (List.zipWith (· - ·) xs ys) ys = xs := by
  induction xs generalizing ys with
  | nil => rfl
  | cons x xs ih =>
    cases ys with
    | nil => exact absurd h (by simp)
    | cons y ys =>
      have hlen : xs.length = ys.length := by simpa using h
      rw [List.zipWith_cons_cons, List.zipWith_cons_cons, ih hlen, sub_add_cancel]

theorem zipWith_sub_sub (h : xs.length = ys.length) :
    List.zipWith (· - ·) xs (List.zipWith (· - ·) xs ys) = ys := by
  induction xs generalizing ys with
  | nil => exact (List.length_eq_zero_iff.mp h.symm).symm
  | cons x xs ih =>
    cases ys with
    | nil => exact absurd h (by simp)
    | cons y ys =>
      have hlen : xs.length = ys.length := by simpa using h
      rw [List.zipWith_cons_cons, List.zipWith_cons_cons, ih hlen, sub_sub_cancel]

/-- Known work positions and offsets of one length, and their sum. -/
theorem Coordinates.of_sum (hw : ys.length = n) (ho : zs.length = n) (hn : 3 ≤ n) :
    Coordinates ((List.zipWith (· + ·) ys zs).map some) (ys.map some) (zs.map some) := by
  have hlen : (List.zipWith (· + ·) ys zs).length = n := by
    rw [List.length_zipWith, hw, ho, Nat.min_self]
  refine ⟨?_, ?_, ?_, ?_⟩
  · rw [List.length_map, List.length_map, hlen, hw]
  · rw [List.length_map, List.length_map, hlen, ho]
  · rw [List.length_map, hlen]
    exact hn
  · intro i hi
    rw [List.length_map] at hi
    have hy : i < ys.length := by omega
    have hz : i < zs.length := by omega
    refine ⟨ys[i], zs[i], ?_, ?_, ?_⟩
    · rw [List.getElem?_map, List.getElem?_eq_getElem hy, Option.map_some]
    · rw [List.getElem?_map, List.getElem?_eq_getElem hz, Option.map_some]
    · rw [List.getElem?_map, List.getElem?_eq_getElem hi, Option.map_some, List.getElem_zipWith]

/-- Known machine positions and offsets of one length, and their difference. -/
theorem Coordinates.of_difference (hm : xs.length = n) (ho : zs.length = n) (hn : 3 ≤ n) :
    Coordinates (xs.map some) ((List.zipWith (· - ·) xs zs).map some) (zs.map some) := by
  have hlen : (List.zipWith (· - ·) xs zs).length = n := by
    rw [List.length_zipWith, hm, ho, Nat.min_self]
  have h := Coordinates.of_sum hlen ho hn
  rwa [zipWith_add_sub (hm.trans ho.symm)] at h

end Complete

/-- **What completing the positions yields**, if a position was found and everything found
and the offset are known. -/
theorem recalculatePositions_spec {m w o : Pos} {mposFound wposFound : Bool} (wcoFound : Bool)
    {n : ℕ}
    (hn : n = max (max (max m.length w.length) o.length) 3)
    (hm : mposFound = true → allKnown m = true) (hw : wposFound = true → allKnown w = true)
    (ho : allKnown o = true) (hfound : mposFound = true ∨ wposFound = true) :
    ∃ m' w' o' : Pos,
      recalculatePositions m w o mposFound wposFound wcoFound = (m', w', o') ∧
      Coordinates m' w' o' ∧ m'.length = n ∧ (mposFound = true → m' = padPos m n 0) ∧
      (wposFound = true → mposFound = false ∨ wcoFound = false → w' = padPos w n 0) := by
  have hmn : (padPos m n 0).length = n := length_padPos (by omega)
  have hwn : (padPos w n 0).length = n := length_padPos (by omega)
  have hon : (padPos o n 0).length = n := length_padPos (by omega)
  have h3 : 3 ≤ n := by omega
  have hmk := fun h => allKnown_padPos (hm h) n
  have hwk := fun h => allKnown_padPos (hw h) n
  obtain ⟨zs, hzs⟩ := allKnown_iff.mp (allKnown_padPos ho n)
  unfold recalculatePositions
  dsimp only
  rw [← hn]
  generalize padPos m n 0 = M at *
  generalize padPos w n 0 = W at *
  generalize padPos o n 0 = O at *
  subst hzs
  rw [List.length_map] at hon
  cases mposFound with
  | true =>
    obtain ⟨xs, rfl⟩ := allKnown_iff.mp (hmk rfl)
    rw [List.length_map] at hmn
    by_cases hinfer : wposFound = true ∧ wcoFound = false
    · -- the offset is the difference of the two positions
      obtain ⟨rfl, rfl⟩ := hinfer
      obtain ⟨ys, rfl⟩ := allKnown_iff.mp (hwk rfl)
      rw [List.length_map] at hwn
      have hlen : (List.zipWith (· - ·) xs ys).length = n := by
        rw [List.length_zipWith, hmn, hwn, Nat.min_self]
      have hback : List.zipWith (· - ·) xs (List.zipWith (· - ·) xs ys) = ys :=
        zipWith_sub_sub (hmn.trans hwn.symm)
      refine ⟨xs.map some, ys.map some, (List.zipWith (· - ·) xs ys).map some, ?_, ?_, ?_,
        fun _ => rfl, fun _ _ => rfl⟩
      · simp only [Bool.not_false, Bool.and_self, allKnown_map, if_true, combinePos_map, hback]
      · have h := Coordinates.of_difference hmn hlen h3
        rwa [hback] at h
      · rw [List.length_map, hmn]
    · -- the offset is known, the work position computed
      refine ⟨xs.map some, (List.zipWith (· - ·) xs zs).map some, zs.map some, ?_,
        Coordinates.of_difference hmn hon h3, by rw [List.length_map, hmn], fun _ => rfl, ?_⟩
      · have hno : (wposFound && !wcoFound) = false := by
          cases wposFound <;> cases wcoFound <;> simp at hinfer ⊢
        simp [allKnown_map, combinePos_map, hno]
      · intro hwf hor
        rcases hor with h | h
        · cases h
        · exact absurd ⟨hwf, h⟩ hinfer
  | false =>
    -- only the work position was found: the machine position is the sum
    have hwf : wposFound = true := hfound.resolve_left Bool.false_ne_true
    obtain ⟨ys, rfl⟩ := allKnown_iff.mp (hwk hwf)
    rw [List.length_map] at hwn
    refine ⟨(List.zipWith (· + ·) ys zs).map some, ys.map some, zs.map some, ?_,
      Coordinates.of_sum hwn hon h3, ?_, fun h => absurd h Bool.false_ne_true, fun _ _ => rfl⟩
    · simp [allKnown_map, combinePos_map, hwf]
    · rw [List.length_map, List.length_zipWith, hwn, hon, Nat.min_self]

/-! ### The coordinates of a report -/

theorem allKnown_posFromInches (p : Pos) : allKnown (posFromInches p) = allKnown p := by
  rw [allKnown, posFromInches, List.all_map, allKnown]
  congr 1
  funext v
  cases v <;> rfl

theorem allKnown_inMm (inches : Bool) (p : Pos) : allKnown (inMm inches p) = allKnown p := by
  cases inches with
  | false => rfl
  | true => exact allKnown_posFromInches p

theorem reportedPos_known {posType stateStr : Text} {p : Pos}
    (h : reportedPos posType stateStr = some p) : allKnown p = true := by
  obtain ⟨a, -, ha⟩ := exists_of_latest h
  obtain ⟨-, -, -, hknown⟩ := parsePosition_known ha
  exact hknown

theorem isEnclosed_of_reportedPos {posType stateStr : Text}
    (h : (reportedPos posType stateStr).isSome = true) : isEnclosed stateStr = true := by
  by_contra hno
  rw [reportedPos, attributesOf, reportParts, if_neg hno] at h
  cases h

/-- The position a report leaves, before the three are completed: what it reports, or what
was known before. -/
def posBefore (inches : Bool) (posType stateStr : Text) (known : Pos) : Pos :=
  ((reportedPos posType stateStr).map (inMm inches)).getD known

/-- The three positions behind a report. -/
theorem parseState_positions {stateStr : Text} (h : isEnclosed stateStr = true)
    (default : DeviceState) (inches : Bool) :
    ((parseState stateStr default inches).machinePos, (parseState stateStr default inches).workPos,
        (parseState stateStr default inches).wco)
      = recalculatePositions (posBefore inches "MPos".toList stateStr default.machinePos)
          (posBefore inches "WPos".toList stateStr default.workPos)
          (posBefore inches "WCO".toList stateStr default.wco)
          (reportedPos "MPos".toList stateStr).isSome (reportedPos "WPos".toList stateStr).isSome
          (reportedPos "WCO".toList stateStr).isSome := by
  have hbefore (posType : Text) (known : Pos) :
      (if (inches && (reportedPos posType stateStr).isSome) = true then
          posFromInches ((reportedPos posType stateStr).getD known)
        else (reportedPos posType stateStr).getD known)
        = posBefore inches posType stateStr known := by
    unfold posBefore
    cases reportedPos posType stateStr with
    | none => simp
    | some p => cases inches <;> rfl
  rw [parseState_eq h, withStatus_eq, ← hbefore, ← hbefore, ← hbefore]
  rfl

/-- The position a report leaves is known if it reports one. -/
theorem allKnown_posBefore (inches : Bool) {posType stateStr : Text} (known : Pos)
    (h : (reportedPos posType stateStr).isSome = true ∨ allKnown known = true) :
    allKnown (posBefore inches posType stateStr known) = true := by
  unfold posBefore
  cases hp : reportedPos posType stateStr with
  | none =>
    rw [hp] at h
    exact h.resolve_left Bool.false_ne_true
  | some p => exact (allKnown_inMm inches p).trans (reportedPos_known hp)

/-- **The coordinate equation holds behind every report that gives a position**, on a base
whose offset is known.  A reported machine position is kept as it is; a reported work
position is, unless the offset comes with a machine position. -/
theorem parseState_coordinates (stateStr : Text) (default : DeviceState) (inches : Bool)
    (hwco : allKnown default.wco = true)
    (hfound : (reportedPos "MPos".toList stateStr).isSome = true ∨
      (reportedPos "WPos".toList stateStr).isSome = true) :
    let s := parseState stateStr default inches
    Coordinates s.machinePos s.workPos s.wco ∧
      (∀ p, reportedPos "MPos".toList stateStr = some p →
        s.machinePos = padPos (inMm inches p) s.machinePos.length 0) ∧
      ∀ p, reportedPos "WPos".toList stateStr = some p →
        reportedPos "MPos".toList stateStr = none ∨ reportedPos "WCO".toList stateStr = none →
        s.workPos = padPos (inMm inches p) s.machinePos.length 0 := by
  have henc : isEnclosed stateStr = true :=
    hfound.elim isEnclosed_of_reportedPos isEnclosed_of_reportedPos
  -- the three positions are completed from what the report gives and what the base knows
  obtain ⟨m, w, o, hrec, hcoord, hlen, hm, hw⟩ :=
    recalculatePositions_spec (reportedPos "WCO".toList stateStr).isSome rfl
      (fun h => allKnown_posBefore inches default.machinePos (.inl h))
      (fun h => allKnown_posBefore inches default.workPos (.inl h))
      (@allKnown_posBefore inches "WCO".toList stateStr default.wco (.inr hwco)) hfound
  have hpos := (parseState_positions henc default inches).trans hrec
  simp only [Prod.mk.injEq] at hpos
  obtain ⟨hsm, hsw, hso⟩ := hpos
  intro s
  refine ⟨by rw [hsm, hsw, hso]; exact hcoord, ?_, ?_⟩
  · intro p hp
    rw [hsm, hlen, hm (by rw [hp]; rfl), posBefore, hp]
    rfl
  · intro p hp hno
    rw [hsm, hsw, hlen, hw (by rw [hp]; rfl), posBefore, hp]
    · rfl
    · rcases hno with h | h
      · left
        rw [h]
        rfl
      · right
        rw [h]
        rfl

/-- Two axes in inches, and the offset of an earlier report. -/
theorem parseState_coordinates_inches :
    Coordinates (parseState "<Idle|WPos:1,2>".toList {} true).machinePos
      (parseState "<Idle|WPos:1,2>".toList {} true).workPos
      (parseState "<Idle|WPos:1,2>".toList {} true).wco :=
  (parseState_coordinates "<Idle|WPos:1,2>".toList {} true (by decide)
    (.inr (by decide +kernel))).1

/-! ### Reports in inches -/

/-- The known coordinates read as inches and given in millimetres. -/
def DeviceState.scaled (d : DeviceState) : DeviceState :=
  { d with
    machinePos := posFromInches d.machinePos
    workPos := posFromInches d.workPos
    wco := posFromInches d.wco }

theorem padPos_posFromInches (p : Pos) (n : ℕ) :
    padPos (posFromInches p) n 0 = posFromInches (padPos p n 0) := by
  rw [padPos, padPos, posFromInches, posFromInches, List.length_map, List.map_append,
    List.map_replicate, Option.map_some, zero_mul]

/-- A combination that commutes with scaling. -/
theorem combinePos_posFromInches {f : ℚ → ℚ → ℚ}
    (hf : ∀ x y, f (x * mmPerInch) (y * mmPerInch) = f x y * mmPerInch) (p q : Pos) :
    combinePos f (posFromInches p) (posFromInches q) = posFromInches (combinePos f p q) := by
  rw [combinePos, posFromInches, posFromInches, List.zipWith_map, combinePos, posFromInches,
    List.map_zipWith]
  congr 1
  funext u v
  cases u with
  | none => rfl
  | some x =>
    cases v with
    | none => rfl
    | some y => exact congrArg some (hf x y)

/-- The three positions scaled. -/
def scaledPositions (r : Pos × Pos × Pos) : Pos × Pos × Pos :=
  (posFromInches r.1, posFromInches r.2.1, posFromInches r.2.2)

/-- Completing scaled positions is scaling the completed ones. -/
theorem recalculatePositions_scaled (m w o : Pos) (mposFound wposFound wcoFound : Bool) :
    recalculatePositions (posFromInches m) (posFromInches w) (posFromInches o) mposFound wposFound
        wcoFound
      = scaledPositions (recalculatePositions m w o mposFound wposFound wcoFound) := by
  have hsub := @combinePos_posFromInches (· - ·) fun x y => (sub_mul x y mmPerInch).symm
  have hadd := @combinePos_posFromInches (· + ·) fun x y => (add_mul x y mmPerInch).symm
  have hlen (p : Pos) : (posFromInches p).length = p.length := List.length_map _
  unfold recalculatePositions
  dsimp only
  rw [hlen, hlen, hlen]
  simp only [padPos_posFromInches, allKnown_posFromInches, hsub, ← apply_ite posFromInches, hadd]
  unfold scaledPositions
  split_ifs <;> rfl

/-- A report leaves a scaled position in inches where it leaves the position itself in
millimetres. -/
theorem posBefore_scaled (posType stateStr : Text) (known : Pos) :
    posBefore true posType stateStr (posFromInches known)
      = posFromInches (posBefore false posType stateStr known) := by
  unfold posBefore
  cases reportedPos posType stateStr <;> rfl

theorem withStatus_scaled (stateStr : Text) (default : DeviceState) :
    withStatus stateStr default.scaled = (withStatus stateStr default).scaled := by
  unfold withStatus
  cases statusPartOf stateStr with
  | none => rfl
  | some part =>
    simp only [Option.elim_some, applyStatusPart]
    split <;> rfl

attribute [ext] DeviceState

/-- **A report in inches is the metric reading scaled.** -/
theorem parseState_scaled (stateStr : Text) (default : DeviceState) :
    parseState stateStr default.scaled true = (parseState stateStr default false).scaled := by
  cases h : isEnclosed stateStr with
  | false => rw [parseState_of_not_enclosed h, parseState_of_not_enclosed h]
  | true =>
    -- the positions behind the two reports
    have hpos := parseState_positions h default.scaled true
    rw [DeviceState.scaled, posBefore_scaled, posBefore_scaled, posBefore_scaled,
      recalculatePositions_scaled, ← parseState_positions h default false] at hpos
    simp only [scaledPositions, Prod.mk.injEq] at hpos
    obtain ⟨hm, hw, ho⟩ := hpos
    -- the rest does not depend on them
    have hrest := parseState_eq h default.scaled true
    rw [withStatus_scaled] at hrest
    refine DeviceState.ext ?_ ?_ hm hw ho ?_ ?_ ?_ ?_ <;> rw [hrest, parseState_eq h] <;> rfl

end Raydriver
