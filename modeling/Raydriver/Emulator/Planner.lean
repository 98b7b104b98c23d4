import Raydriver.Emulator.Overrun
import Raydriver.Lib.Run

/-!
# The planner of the emulator

The emulator asks once for each line whether it plans motion, and lets it wait when the
planner is full.  Two kinds of lines plan more than that: a homing command is not seen to
plan anything, and a dwell together with a motion along an axis plans two blocks for the one
place that was asked for.  As long as neither is executed without room for it, the planner
holds what it can hold.  The driver reads its figure in the status report together with the
one of the RX buffer, so it can read both as long as the host does not overfill that buffer.

## Main definitions

* `overcommits` — the line plans more blocks than the planner has room for, and is not made
  to wait.
* `staysWithin` — no line that an event executes overcommits the planner.
* `overfills` — an event feeds a byte that takes a place in a full RX buffer.
* `Fits` — the planner holds at most its capacity, and the buffer field can be read.

## Main results

* `room_of_nextLine` — every other line has room.
* `parseBufferState_bufferField` — the driver reads what the emulator reports.
* `run_fits` — **the planner never exceeds its capacity**, as long as no line overcommits it,
  and the driver reads its figure, as long as no byte overfills the RX buffer.
-/

namespace Raydriver.Emulator

open PyFloat Firmware Lts

variable {F : Type} [PyFloat F]

/-! ### The lines that find no room -/

/-- The line is a homing command and plans a block. -/
def homes (raw : Text) (s : Firmware F) : Bool :=
  let stripped := upper (strip raw)
  !startsWith "$J=".toList stripped && startsWith "$".toList stripped && isHoming stripped &&
    !s.settingIsZero "22"

/-- The line asks for a dwell and for a motion along an axis. -/
def dwellsAndMoves (F : Type) [PyFloat F] (raw : Text) : Bool :=
  let words : List (Word F) := parseWords raw
  !startsWith "$".toList (upper (strip raw)) && words.any Word.isDwell &&
    words.any Word.isMotion && words.any Word.isAxis

/-- A line that is executed though it may plan more blocks than there is room for. -/
def overcommits (raw : Text) (s : Firmware F) : Bool :=
  (homes raw s && s.planner.length ≥ plannerBlocks) ||
    (dwellsAndMoves F raw && s.planner.length + 1 ≥ plannerBlocks)

/-- A value in a list is in a longer one. -/
theorem isIn_subset {v : F} {values values' : List String} (h : values ⊆ values')
    (hv : isIn v values = true) : isIn v values' = true := by
  obtain ⟨s, hs, heq⟩ := List.any_eq_true.mp hv
  exact List.any_eq_true.mpr ⟨s, h hs, heq⟩

/-- The prediction sees every line that asks for a dwell or a motion. -/
theorem producesMotion_of_any {raw : Text}
    (h : (parseWords (F := F) raw).any Word.isDwell = true ∨
      (parseWords (F := F) raw).any Word.isMotion = true) : producesMotion F raw = true := by
  have hword : ∀ w : Word F, w.isDwell = true ∨ w.isMotion = true →
      (w.letter = 'G' && isIn w.value ["0", "1", "2", "3", "4", "38.2"]) = true := by
    rintro w (hw | hw)
    · obtain ⟨hletter, hvalue⟩ := Bool.and_eq_true_iff.mp hw
      exact Bool.and_eq_true_iff.mpr ⟨hletter, isIn_subset (by simp) hvalue⟩
    · obtain ⟨hletter, hvalue⟩ := Bool.and_eq_true_iff.mp hw
      exact Bool.and_eq_true_iff.mpr ⟨hletter, isIn_subset (by simp) hvalue⟩
  unfold producesMotion
  rw [Bool.or_eq_true]
  right
  rcases h with h | h
  · obtain ⟨w, hmem, hw⟩ := List.any_eq_true.mp h
    exact List.any_eq_true.mpr ⟨w, hmem, hword w (.inl hw)⟩
  · obtain ⟨w, hmem, hw⟩ := List.any_eq_true.mp h
    exact List.any_eq_true.mpr ⟨w, hmem, hword w (.inr hw)⟩

/-- **Every line that does not overcommit the planner has room for its blocks.** -/
theorem room_of_nextLine {s t : Firmware F} {line : Text} (h : s.nextLine = some (line, t))
    (hs : s.planner.length ≤ plannerBlocks) (hover : overcommits line t = false) :
    t.planner.length + blockLimit (!t.settingIsZero "22") F line ≤ plannerBlocks := by
  obtain ⟨rest, -, hroom, ht⟩ := nextLine_cases h
  rw [show s.planner = t.planner by rw [ht]] at hs hroom
  -- where motion is predicted, one place is free
  have hplace : producesMotion F line = true → t.planner.length + 1 ≤ plannerBlocks := by
    intro hmotion
    rw [hmotion, Bool.true_and, decide_eq_false_iff_not] at hroom
    omega
  obtain ⟨hhomes, hboth⟩ := Bool.or_eq_false_iff.mp hover
  unfold blockLimit
  dsimp only
  by_cases hjog : startsWith "$J=".toList (upper (strip line)) = true
  · rw [if_pos hjog]
    apply hplace
    unfold producesMotion
    rw [hjog, Bool.true_or]
  · rw [if_neg hjog]
    by_cases hsystem : startsWith "$".toList (upper (strip line)) = true
    · rw [if_pos hsystem]
      cases hhoming : isHoming (upper (strip line)) && !t.settingIsZero "22" with
      | false => exact hs
      | true =>
        have hhome : homes line t = true := by
          unfold homes
          dsimp only
          rw [Bool.eq_false_iff.mpr hjog, hsystem, Bool.and_assoc, hhoming]
          rfl
        rw [hhome, Bool.true_and, decide_eq_false_iff_not] at hhomes
        exact Nat.lt_of_not_le hhomes
    · rw [if_neg hsystem]
      unfold wordBlocks
      cases hdwell : (parseWords (F := F) line).any Word.isDwell with
      | false =>
        cases hmotion : (parseWords (F := F) line).any Word.isMotion with
        | false => exact hs
        | true =>
          have hfree := hplace (producesMotion_of_any (.inr hmotion))
          have hone := Bool.toNat_le ((parseWords (F := F) line).any Word.isAxis)
          rw [Bool.true_and, Bool.toNat_false]
          omega
      | true =>
        have hfree := hplace (producesMotion_of_any (.inl hdwell))
        cases hmoves : (parseWords (F := F) line).any Word.isMotion &&
            (parseWords (F := F) line).any Word.isAxis with
        | false => exact hfree
        | true =>
          have hdouble : dwellsAndMoves F line = true := by
            unfold dwellsAndMoves
            dsimp only
            rw [Bool.eq_false_iff.mpr hsystem, hdwell, Bool.and_assoc, hmoves]
            rfl
          rw [hdouble, Bool.true_and, decide_eq_false_iff_not] at hboth
          show t.planner.length + 2 ≤ plannerBlocks
          omega

/-! ### The events -/

/-- No line that the event executes overcommits the planner. -/
def staysWithin (s : Firmware F) (e : Event F) : Bool :=
  (executionsOf e s).all fun x => !overcommits x.1 x.2

/-- One line keeps the planner within its capacity, if it has room. -/
theorem executeLine_fits {n : ℕ} {raw : Text} {s : Firmware F}
    (h : s.planner.length + blockLimit (!s.settingIsZero "22") F raw ≤ plannerBlocks) :
    (s.executeLine n raw).planner.length ≤ plannerBlocks := by
  cases executeLine_executed n raw s with
  | answered hplans hlen _ ha _ =>
    rw [ha.planner, hplans.planner, List.length_append]
    omega
  | deferred hplans hlen _ _ _ _ =>
    rw [hplans.planner, List.length_append, List.length_append, List.length_singleton]
    omega
  | alarmed ha =>
    rw [ha.planner]
    exact Nat.zero_le _

theorem drainLoop_fits {k : ℕ} {s : Firmware F} (hs : s.planner.length ≤ plannerBlocks)
    (h : ((executions k s).all fun x => !overcommits x.1 x.2) = true) :
    (drainLoop k s).planner.length ≤ plannerBlocks := by
  refine drain_induction (P := fun s => s.planner.length ≤ plannerBlocks)
    (C := fun line t => overcommits line t = false) ?_ k s hs ?_
  · intro s line t hs hnext hover
    exact executeLine_fits (room_of_nextLine hnext hs hover)
  · intro x hx
    simpa using List.all_eq_true.mp h x hx

/-- A byte does not plan anything. -/
theorem feedByte_planner (byte : UInt8) (s : Firmware F) :
    (s.feedByte byte).planner.length ≤ s.planner.length := by
  have hgreet : s.greet.planner = s.planner := by
    unfold greet
    split <;> rfl
  unfold feedByte
  split
  · exact Nat.le_refl _
  · rw [← hgreet]
    generalize s.greet = s
    dsimp only
    split_ifs
    · -- a soft reset clears the planner
      unfold softReset
      dsimp only
      split <;> exact Nat.zero_le _
    · unfold statusReport
      dsimp only
      split <;> exact Nat.le_refl _
    · unfold cycleResume
      split <;> exact Nat.le_refl _
    · -- and so does a hold while a jog is under way
      unfold feedHold
      split
      · exact Nat.le_refl _
      · dsimp only
        split
        · exact Nat.zero_le _
        · exact Nat.le_refl _
    · exact Nat.le_refl _
    · unfold endLine
      dsimp only
      split
      · exact Nat.le_refl _
      · split <;> exact Nat.le_refl _
    · unfold takeChar
      dsimp only
      split
      · exact Nat.le_refl _
      · split <;> exact Nat.le_refl _

/-- The planner only shrinks while a block goes on. -/
theorem advance_planner (elapsed : F) (s : Firmware F) :
    (s.advance elapsed).planner.length ≤ s.planner.length := by
  cases advance_advanced elapsed s with
  | onward _ _ _ hplanner _ => rw [hplanner]
  | finished _ _ _ _ hplanner _ h =>
    rw [← hplanner]
    cases h with
    | quiet _ _ _ _ hp _ => rw [hp]
    | acked _ _ _ _ _ _ hp _ => rw [hp]
    | alarmed ha =>
      rw [ha.planner]
      exact Nat.zero_le _

/-- **One event keeps the planner within its capacity.** -/
theorem step_fits {e : Event F} {s : Firmware F} (hs : s.planner.length ≤ plannerBlocks)
    (h : staysWithin s e = true) : (step e s).planner.length ≤ plannerBlocks := by
  cases e with
  | feedByte byte => exact (feedByte_planner byte s).trans hs
  | tick now =>
    obtain ⟨elapsed, u, hu, htick⟩ := tick_cases now s
    show (s.tick now).planner.length ≤ plannerBlocks
    rw [htick]
    refine (advance_planner elapsed _).trans ((startBlock_starts _).planner.trans ?_)
    refine drainLoop_fits ?_ ?_
    · rw [hu]
      exact hs
    · rw [hu]
      exact h
  | drain => exact drainLoop_fits hs h
  | setSetting key value => exact hs
  | setProbeTouch touch => exact hs
  | setSpeedFactor factor => exact hs
  | setSilent silent => exact hs

/-! ### The status report -/

/-- The figures of the buffer field are decimal numerals. -/
theorem intText_digits : ∀ n ≤ 128, (intText (n : ℕ)).all isDigit = true ∧
    (intText (n : ℕ)).isEmpty = false ∧ parseI64 (intText (n : ℕ)) = some (n : ℤ) := by
  decide +kernel

omit [PyFloat F] in
/-- **The driver reads the buffer field of the emulator.** -/
theorem parseBufferState_bufferField {s : Firmware F} (hs : s.planner.length ≤ plannerBlocks)
    (hrx : s.rx.rxUsed ≤ rxBufferSize) :
    parseBufferState s.bufferField =
      some ((plannerBlocks : ℤ) - s.planner.length, rxBufferSize - max s.rx.rxUsed 0) := by
  obtain ⟨n, hn⟩ : ∃ n : ℕ, (plannerBlocks : ℤ) - s.planner.length = n :=
    ⟨plannerBlocks - s.planner.length, by omega⟩
  obtain ⟨m, hm⟩ : ∃ m : ℕ, rxBufferSize - max s.rx.rxUsed 0 = m :=
    ⟨(rxBufferSize - max s.rx.rxUsed 0).toNat, by simp only [rxBufferSize] at hrx ⊢; omega⟩
  have hnle : n ≤ 128 := by simp only [plannerBlocks] at hn; omega
  have hmle : m ≤ 128 := by simp only [rxBufferSize] at hm; omega
  obtain ⟨hdn, hnen, hpn⟩ := intText_digits n hnle
  obtain ⟨hdm, hnem, hpm⟩ := intText_digits m hmle
  have hread : readPair "Bf:".toList s.bufferField = some (intText n, intText m) := by
    have hfirst : readDigits (intText n ++ (',' :: intText m)) =
        some (intText n, ',' :: intText m) := readDigits_append hdn hnen rfl
    have hsecond : readDigits (intText m) = some (intText m, []) := by
      have h := readDigits_append (t := []) hdm hnem rfl
      rwa [List.append_nil] at h
    have hfield : s.bufferField = "Bf:".toList ++ (intText n ++ (',' :: intText m)) := by
      unfold bufferField
      rw [hn, hm, List.append_assoc, List.append_assoc, List.singleton_append]
    unfold readPair
    rw [hfield, stripPrefix_append, Option.bind_some, hfirst, Option.bind_some]
    simp only [hsecond, Option.map_some]
  have hsearch := search_of_read hread
  unfold parseBufferState
  rw [hsearch, hn, hm]
  show (parseI64 (intText n)).bind _ = _
  rw [hpn]
  show (parseI64 (intText m)).map _ = _
  rw [hpm]
  rfl

/-! ### The places in the RX buffer -/

/-- The event feeds a byte that takes a place in the RX buffer, where none is left. -/
def overfills (s : Firmware F) : Event F → Bool
  | .feedByte byte => (EndsLine byte s || StoresChar byte s) && s.rx.rxUsed ≥ rxBufferSize
  | _ => false

/-- The counter of the RX buffer is right, and does not exceed its size. -/
structure RxHolds (s : Firmware F) : Prop where
  count : s.rx.rxUsed = s.waiting
  room : s.rx.rxUsed ≤ rxBufferSize

omit [PyFloat F] in
theorem RxHolds.lowers {s t : Firmware F} (hs : RxHolds s) (h : Lowers s t) : RxHolds t := by
  refine ⟨h.count hs.count, ?_⟩
  have hwaiting := h.waiting
  have hcount := hs.count
  have hroom := hs.room
  rw [h.count hcount]
  omega

/-- **One event that does not overfill the RX buffer keeps it within its size.** -/
theorem RxHolds.step {e : Event F} {s : Firmware F} (hs : RxHolds s)
    (h : overfills s e = false) : RxHolds (step e s) := by
  by_cases he : ∀ byte, e ≠ .feedByte byte
  · exact hs.lowers (step_lowers he s)
  · push Not at he
    obtain ⟨byte, rfl⟩ := he
    have hcounter := hs.count
    -- a byte that takes a place finds one
    have hplace : EndsLine byte s ∨ StoresChar byte s →
        (Firmware.step (.feedByte byte) s).waiting = s.waiting + 1 →
        (s.rx.rxUsed = s.waiting → (Firmware.step (.feedByte byte) s).rx.rxUsed =
          (Firmware.step (.feedByte byte) s).waiting) →
        RxHolds (Firmware.step (.feedByte byte) s) := by
      intro htakes hwaiting hcount
      have hfull : ¬s.rx.rxUsed ≥ rxBufferSize := by
        intro hfull
        have hover : overfills s (.feedByte byte) = true := by
          simp only [overfills, ← Bool.decide_or, htakes, hfull, decide_true, Bool.and_self]
        rw [h] at hover
        cases hover
      refine ⟨hcount hcounter, ?_⟩
      rw [hcount hcounter, hwaiting]
      omega
    cases feedByte_received byte s with
    | lowers hl _ => exact hs.lowers hl
    | char hcount hwaiting _ _ hstores => exact hplace (.inr hstores) hwaiting hcount
    | newline hcount hwaiting _ hends => exact hplace (.inl hends) hwaiting hcount

/-! ### Runs -/

/-- The planner holds at most its capacity, and the driver reads the figure. -/
structure Fits (s : Firmware F) : Prop where
  planner : s.planner.length ≤ plannerBlocks
  report : parseBufferState s.bufferField =
    some ((plannerBlocks : ℤ) - s.planner.length, rxBufferSize - max s.rx.rxUsed 0)

/-- The events as a system. -/
def next (e : Event F) (s : Firmware F) : Option (Firmware F) := some (step e s)

theorem run_planner {speedFactor : F} {s : Firmware F}
    (h : Run next (fun s e _ => staysWithin s e = true) (.new speedFactor) s) :
    s.planner.length ≤ plannerBlocks := by
  refine h.invariant (I := fun s => s.planner.length ≤ plannerBlocks) ?_ (Nat.zero_le _)
  intro a e b ha hstep hstays
  cases hstep
  exact step_fits ha hstays

/-- **The planner never exceeds its capacity**, in any run in which no homing command is
executed with homing enabled while the planner is full, and no line that asks for a dwell and
for a motion along an axis while it has one place at most.  The driver reads its figure in
every state of such a run in which no byte overfills the RX buffer. -/
theorem run_fits (speedFactor : F) (s : Firmware F) :
    (Run next (fun s e _ => staysWithin s e = true) (.new speedFactor) s →
      s.planner.length ≤ plannerBlocks) ∧
    (Run next (fun s e _ => staysWithin s e = true ∧ overfills s e = false) (.new speedFactor) s →
      Fits s) := by
  refine ⟨run_planner, fun h => ?_⟩
  have hplanner := run_planner (h.mono fun _ _ _ hok => hok.1)
  have hrx : RxHolds s := by
    refine h.invariant (I := RxHolds) ?_ ⟨rfl, show (0 : ℤ) ≤ 128 by decide⟩
    intro a e b ha hstep hok
    cases hstep
    exact ha.step hok.2
  exact ⟨hplanner, parseBufferState_bufferField hplanner hrx.room⟩

/-- A line of text and its newline. -/
def feedLine (line : String) : List (Event ℚ) := (ascii line ++ [LF]).map .feedByte

/-- Homing is enabled, and a machine that homes is sent a motion. -/
theorem run_fits_homing : Fits (reach next (feedLine "$22=1" ++ feedLine "$H" ++
    feedLine "G0 X1" ++ [.tick 0]) (.new (2000 : ℚ))) := by
  refine (run_fits 2000 _).2 ((run_reach_both (p := fun s e => staysWithin s e)
    (q := fun s e => !overfills s e) ?_).mono fun _ _ _ hok => ⟨hok.1, by simpa using hok.2⟩)
  decide +kernel

/-- Seventeen homing commands are executed in one go, and the figure is negative. -/
theorem planner_overflows : ¬∀ s : Firmware ℚ, Run next AnyStep (.new (2000 : ℚ)) s → Fits s := by
  intro h
  have hrun := h (reach next (feedLine "$22=1" ++ (List.replicate 17 (feedLine "$H")).flatten ++
    [.tick 0]) (.new (2000 : ℚ))) (run_reach (by decide +kernel))
  have hplanner := hrun.planner
  revert hplanner
  decide +kernel

end Raydriver.Emulator
