import Raydriver.Emulator.Blocks

/-!
# The RX buffer of the emulator

The emulator counts the bytes that wait in its RX buffer, and the tests read off a flag
whether the host ever sent too many.  The count is right whatever happens.  The flag is
raised by the characters of a line only: the newline of a line takes a byte as well, and
when it is the one that does not fit, the flag stays down.

## Main definitions

* `Firmware.waiting` — the bytes that wait in the buffer.
* `Watched` — the emulator, and whether too many bytes have waited after some byte so far.
* `Exact` — the counter and the flag are right.
* `Unseen` — a newline that does not fit.

## Main results

* `executeLine_lowers`, `drainLoop_lowers` — executing lines only frees bytes.
* `watch_exact` — one event keeps the flag right, but for an unseen newline.
* `exact_iff` — **the flag is exact as long as no newline is the byte that does not fit.**
-/

namespace Raydriver.Emulator

open Firmware

variable {F : Type} [PyFloat F]

namespace Firmware

/-- The bytes that wait in the RX buffer. -/
def waiting (s : Firmware F) : ℕ :=
  s.rx.line.length + (s.rx.pendingLines.map fun l => l.length + 1).sum

/-- From `s` to `t` bytes are freed, and the counter goes along. -/
structure Lowers (s t : Firmware F) : Prop where
  count : s.rx.rxUsed = s.waiting → t.rx.rxUsed = t.waiting
  waiting : t.waiting ≤ s.waiting
  overrun : t.rx.rxOverrun = s.rx.rxOverrun

section Lowers

omit [PyFloat F]

variable {s t u : Firmware F}

theorem Lowers.trans (h : Lowers s t) (h' : Lowers t u) : Lowers s u where
  count hs := h'.count (h.count hs)
  waiting := h'.waiting.trans h.waiting
  overrun := h'.overrun.trans h.overrun

theorem Lowers.of_rx (h : t.rx = s.rx) : Lowers s t := by
  refine ⟨fun hs => ?_, ?_, ?_⟩
  · rw [h, hs]
    unfold Firmware.waiting
    rw [h]
  · unfold Firmware.waiting
    rw [h]
  · rw [h]

/-- An alarm and a soft reset empty the buffer. -/
theorem Lowers.of_clear (h : t.rx = { rxOverrun := s.rx.rxOverrun }) : Lowers s t := by
  have hwaiting : t.waiting = 0 := by
    unfold Firmware.waiting
    rw [h]
    rfl
  refine ⟨fun _ => ?_, ?_, ?_⟩
  · rw [hwaiting, h]
    rfl
  · rw [hwaiting]
    exact Nat.zero_le _
  · rw [h]

end Lowers

/-! ### The protocol loop -/

theorem executeLine_lowers (n : ℕ) (raw : Text) (s : Firmware F) :
    Lowers s (s.executeLine n raw) := by
  cases executeLine_executed n raw s with
  | answered h _ _ ha _ => exact .of_rx (ha.rx.trans h.rx)
  | deferred h _ _ _ _ _ => exact .of_rx h.rx
  | alarmed h => exact .of_clear h.rx

theorem nextLine_lowers {s t : Firmware F} {line : Text} (h : s.nextLine = some (line, t)) :
    Lowers s t := by
  obtain ⟨rest, hpending, -, rfl⟩ := nextLine_cases h
  have hwaiting : s.waiting = s.rx.line.length + (line.length + 1 +
      (rest.map fun l => l.length + 1).sum) := by
    unfold Firmware.waiting
    rw [hpending, List.map_cons, List.sum_cons]
  refine ⟨fun hs => ?_, ?_, rfl⟩
  · rw [hwaiting] at hs
    unfold Firmware.waiting
    push_cast at hs ⊢
    omega
  · rw [hwaiting]
    unfold Firmware.waiting
    simp only
    omega

theorem drainLoop_lowers (k : ℕ) (s : Firmware F) : Lowers s (drainLoop k s) := by
  refine drain_induction (P := Lowers s) (C := fun _ _ => True) ?_ k s (.of_rx rfl)
    fun _ _ => trivial
  intro t line u ht hnext _
  exact (ht.trans (nextLine_lowers hnext)).trans (executeLine_lowers _ line u)

theorem advance_lowers (elapsed : F) (s : Firmware F) : Lowers s (s.advance elapsed) := by
  cases advance_advanced elapsed s with
  | onward h => exact .of_rx h.rx
  | finished _ hu _ _ _ _ h =>
    refine Lowers.trans (.of_rx hu.rx) ?_
    cases h with
    | quiet h => exact .of_rx h.rx
    | acked h => exact .of_rx h.rx
    | alarmed h => exact .of_clear h.rx

theorem tick_lowers (now : F) (s : Firmware F) : Lowers s (s.tick now) := by
  obtain ⟨elapsed, u, hu, htick⟩ := tick_cases now s
  have hstart : Lowers u.drainPendingLines u.drainPendingLines.startBlock :=
    .of_rx (startBlock_starts _).rx
  rw [htick]
  exact (Lowers.of_rx (by rw [hu])).trans
    ((drainLoop_lowers _ u).trans (hstart.trans (advance_lowers elapsed _)))

/-! ### The bytes -/

omit [PyFloat F] in
theorem greet_rx (s : Firmware F) : s.greet.rx = s.rx := by
  unfold greet
  split <;> rfl

theorem statusReport_rx (s : Firmware F) : s.statusReport.rx = s.rx := by
  unfold statusReport
  dsimp only
  split <;> rfl

omit [PyFloat F] in
theorem feedHold_rx (s : Firmware F) : s.feedHold.rx = s.rx := by
  unfold feedHold
  cases s.currentBlock with
  | none => rfl
  | some block =>
    dsimp only
    split <;> rfl

omit [PyFloat F] in
theorem cycleResume_rx (s : Firmware F) : s.cycleResume.rx = s.rx := by
  unfold cycleResume
  split <;> rfl

omit [PyFloat F] in
theorem softReset_rx (s : Firmware F) :
    s.softReset.rx = { rxOverrun := s.rx.rxOverrun } := by
  unfold softReset
  dsimp only
  split <;> rfl

/-- The newline of a line that is queued. -/
def EndsLine (byte : UInt8) (s : Firmware F) : Prop :=
  s.silent = false ∧ (byte = 0x0A ∨ byte = 0x0D) ∧ s.rx.lineOverflow = false ∧ s.rx.line ≠ []

instance (byte : UInt8) (s : Firmware F) : Decidable (EndsLine byte s) :=
  inferInstanceAs (Decidable (_ ∧ _ ∧ _ ∧ _))

/-- The byte is not part of a line: it is handled as soon as it is received. -/
def isRealtime (byte : UInt8) : Bool :=
  byte = 0x18 || byte = 0x3F || byte = 0x7E || byte = 0x21 || (0x84 ≤ byte && byte ≤ 0x8B)

/-- A character that finds a place in the line. -/
def StoresChar (byte : UInt8) (s : Firmware F) : Prop :=
  s.silent = false ∧ isRealtime byte = false ∧ ¬(byte = 0x0A ∨ byte = 0x0D) ∧
    s.rx.line.length < lineBufferSize - 1

instance (byte : UInt8) (s : Firmware F) : Decidable (StoresChar byte s) :=
  inferInstanceAs (Decidable (_ ∧ _ ∧ _ ∧ _))

/-- What one byte does to the buffer. -/
inductive Received (byte : UInt8) (s t : Firmware F) : Prop
  | lowers (h : Lowers s t) (hbyte : ¬EndsLine byte s)
  /-- A character takes a byte, and the flag is looked at. -/
  | char (hcount : s.rx.rxUsed = s.waiting → t.rx.rxUsed = t.waiting)
      (hwaiting : t.waiting = s.waiting + 1)
      (hoverrun : t.rx.rxOverrun = (s.rx.rxOverrun || s.rx.rxUsed + 1 > rxBufferSize))
      (hbyte : ¬EndsLine byte s) (hstores : StoresChar byte s)
  /-- A newline takes a byte, and the flag is not looked at. -/
  | newline (hcount : s.rx.rxUsed = s.waiting → t.rx.rxUsed = t.waiting)
      (hwaiting : t.waiting = s.waiting + 1) (hoverrun : t.rx.rxOverrun = s.rx.rxOverrun)
      (hbyte : EndsLine byte s)

omit [PyFloat F] in
theorem endLine_received {byte : UInt8} (hbyte : byte = 0x0A ∨ byte = 0x0D) {s : Firmware F}
    (hsilent : s.silent = false) : Received byte s s.endLine := by
  unfold endLine
  dsimp only
  split
  · rename_i hoverflow
    refine .lowers ⟨fun hs => ?_, ?_, rfl⟩ fun h => ?_
    · simp only [Firmware.waiting] at hs
      simp [Firmware.waiting, write, hs]
    · simp [Firmware.waiting, write]
    · rw [h.2.2.1] at hoverflow
      cases hoverflow
  · rename_i hoverflow
    split
    · rename_i hline
      have hnil : s.rx.line = [] := List.isEmpty_iff.mp hline
      refine .lowers ⟨fun hs => ?_, ?_, rfl⟩ fun h => h.2.2.2 hnil
      · simpa [Firmware.waiting, hnil] using hs
      · simp [Firmware.waiting, hnil]
    · rename_i hline
      have hends : EndsLine byte s :=
        ⟨hsilent, hbyte, Bool.eq_false_iff.mpr hoverflow, fun h => hline (List.isEmpty_iff.mpr h)⟩
      refine .newline (fun hs => ?_) ?_ rfl hends
      · simp only [Firmware.waiting] at hs
        simp [Firmware.waiting, hs]
      · simp [Firmware.waiting]
        omega

omit [PyFloat F] in
theorem takeChar_received {byte : UInt8} (hrealtime : isRealtime byte = false)
    (hbyte : ¬(byte = 0x0A ∨ byte = 0x0D)) (char : Char) {s : Firmware F}
    (hsilent : s.silent = false) : Received byte s (s.takeChar char) := by
  have hends : ¬EndsLine byte s := fun h => hbyte h.2.1
  unfold takeChar
  split
  · exact .lowers ⟨id, Nat.le_refl _, rfl⟩ hends
  · rename_i hroom
    have hstores : StoresChar byte s := ⟨hsilent, hrealtime, hbyte, Nat.lt_of_not_le hroom⟩
    dsimp only
    by_cases hfull : s.rx.rxUsed + 1 > rxBufferSize
    · rw [if_pos hfull]
      refine .char (fun hs => ?_) ?_ ?_ hends hstores
      · simp only [Firmware.waiting, List.length_append, List.length_singleton] at hs ⊢
        omega
      · simp only [Firmware.waiting, List.length_append, List.length_singleton]
        omega
      · simp [hfull]
    · rw [if_neg hfull]
      refine .char (fun hs => ?_) ?_ ?_ hends hstores
      · simp only [Firmware.waiting, List.length_append, List.length_singleton] at hs ⊢
        omega
      · simp only [Firmware.waiting, List.length_append, List.length_singleton]
        omega
      · simp [hfull]

omit [PyFloat F] in
/-- The greeting does not change what a byte does. -/
theorem Received.of_greet {byte : UInt8} {s t : Firmware F} (h : Received byte s.greet t) :
    Received byte s t := by
  have hrx := greet_rx s
  have hwaiting : s.greet.waiting = s.waiting := by
    unfold Firmware.waiting
    rw [hrx]
  have hends : EndsLine byte s.greet ↔ EndsLine byte s := by
    unfold EndsLine
    rw [hrx]
    unfold greet
    split <;> rfl
  have hstored : StoresChar byte s.greet ↔ StoresChar byte s := by
    unfold StoresChar
    rw [hrx]
    unfold greet
    split <;> rfl
  cases h with
  | lowers h hbyte => exact .lowers ((Lowers.of_rx hrx).trans h) (hends.not.mp hbyte)
  | char hcount hw hoverrun hbyte hstores =>
    rw [hrx, hwaiting] at hcount
    rw [hwaiting] at hw
    rw [hrx] at hoverrun
    exact .char hcount hw hoverrun (hends.not.mp hbyte) (hstored.mp hstores)
  | newline hcount hw hoverrun hbyte =>
    rw [hrx, hwaiting] at hcount
    rw [hwaiting] at hw
    rw [hrx] at hoverrun
    exact .newline hcount hw hoverrun (hends.mp hbyte)

/-- **What one byte does to the buffer.** -/
theorem feedByte_received (byte : UInt8) (s : Firmware F) :
    Received byte s (s.feedByte byte) := by
  unfold feedByte
  split
  · rename_i hsilent
    exact .lowers (.of_rx rfl) fun h => by rw [h.1] at hsilent; cases hsilent
  · rename_i hsilent
    apply Received.of_greet
    have hsilent' : s.greet.silent = false := by
      unfold greet
      split <;> exact Bool.eq_false_iff.mpr hsilent
    -- none of the realtime commands is a newline
    have hrealtime : ∀ t : Firmware F, Lowers s.greet t → ¬(byte = 0x0A ∨ byte = 0x0D) →
        Received byte s.greet t := fun t h hbyte => .lowers h fun hends => hbyte hends.2.1
    dsimp only
    split_ifs with hreset hreport hresume hhold hoverride hnewline
    · refine hrealtime _ (.of_clear (softReset_rx _)) ?_
      rintro (rfl | rfl) <;> cases hreset
    · refine hrealtime _ (.of_rx (statusReport_rx _)) ?_
      rintro (rfl | rfl) <;> exact absurd hreport (by decide)
    · refine hrealtime _ (.of_rx (cycleResume_rx _)) ?_
      rintro (rfl | rfl) <;> exact absurd hresume (by decide)
    · refine hrealtime _ (.of_rx (feedHold_rx _)) ?_
      rintro (rfl | rfl) <;> exact absurd hhold (by decide)
    · refine hrealtime _ (.of_rx rfl) ?_
      rintro (rfl | rfl) <;> exact absurd hoverride.1 (by decide)
    · exact endLine_received hnewline hsilent'
    · refine takeChar_received ?_ hnewline _ hsilent'
      have hquery : byte ≠ 0x3F := by rintro rfl; exact hreport (by decide)
      have htilde : byte ≠ 0x7E := by rintro rfl; exact hresume (by decide)
      have hbang : byte ≠ 0x21 := by rintro rfl; exact hhold (by decide)
      have hrange : (decide (0x84 ≤ byte) && decide (byte ≤ 0x8B)) = false := by
        rw [← Bool.decide_and, decide_eq_false_iff_not]
        exact hoverride
      simp only [isRealtime, hreset, hquery, htilde, hbang, hrange, decide_false, Bool.or_self]

/-- Whatever is not a byte only frees bytes. -/
theorem step_lowers {e : Event F} (he : ∀ byte, e ≠ .feedByte byte) (s : Firmware F) :
    Lowers s (step e s) := by
  cases e with
  | feedByte byte => exact absurd rfl (he byte)
  | tick now => exact tick_lowers now s
  | drain => exact drainLoop_lowers _ s
  | setSetting key value => exact .of_rx rfl
  | setProbeTouch touch => exact .of_rx rfl
  | setSpeedFactor factor => exact .of_rx rfl
  | setSilent silent => exact .of_rx rfl

end Firmware

/-! ### The flag -/

/-- A byte that is fed. -/
def Firmware.Event.isByte : Event F → Bool
  | .feedByte _ => true
  | _ => false

/-- The emulator, and whether too many bytes have waited after some byte so far. -/
structure Watched (F : Type) where
  firmware : Firmware F
  exceeded : Bool := false

/-- One event, watched. -/
def watch (w : Watched F) (e : Event F) : Watched F where
  firmware := step e w.firmware
  exceeded := w.exceeded || (e.isByte && (step e w.firmware).waiting > rxBufferSize)

/-- A new emulator after these events. -/
def watched (speedFactor : F) (es : List (Event F)) : Watched F :=
  es.foldl watch ⟨.new speedFactor, false⟩

/-- The counter and the flag are right. -/
structure Exact (w : Watched F) : Prop where
  count : w.firmware.rx.rxUsed = w.firmware.waiting
  overrun : w.firmware.rx.rxOverrun = w.exceeded

/-- A newline that does not fit, in a buffer that was never overrun. -/
def Unseen (s : Firmware F) : Event F → Prop
  | .feedByte byte => EndsLine byte s ∧ s.rx.rxUsed = rxBufferSize ∧ s.rx.rxOverrun = false
  | _ => False

/-- As long as the buffer was never too full, it is not too full. -/
def Bounded (w : Watched F) : Prop := w.exceeded = false → w.firmware.waiting ≤ rxBufferSize

theorem watch_bounded {w : Watched F} (hw : Bounded w) (e : Event F) : Bounded (watch w e) := by
  intro hexceeded
  obtain ⟨hbefore, hnow⟩ := Bool.or_eq_false_iff.mp hexceeded
  by_cases he : ∀ byte, e ≠ .feedByte byte
  · have hlowers := (step_lowers he w.firmware).waiting
    exact (Int.ofNat_le.mpr hlowers).trans (hw hbefore)
  · push Not at he
    obtain ⟨byte, rfl⟩ := he
    exact not_lt.mp (of_decide_eq_false hnow)

/-- Where bytes are only freed, both stay right. -/
theorem watch_exact_of_lowers {w : Watched F} (hw : Exact w) (hb : Bounded w) {e : Event F}
    (h : Lowers w.firmware (step e w.firmware)) : Exact (watch w e) := by
  refine ⟨h.count hw.count, ?_⟩
  have hwaiting : (step e w.firmware).waiting ≤ w.firmware.waiting := h.waiting
  unfold watch
  rw [h.overrun, hw.overrun]
  cases hexceeded : w.exceeded with
  | true => rfl
  | false =>
    have hfits : ¬(step e w.firmware).waiting > rxBufferSize := by
      have hbefore := hb hexceeded
      omega
    simp [hfits]

/-- **One event keeps the flag right, but for an unseen newline.** -/
theorem watch_exact {w : Watched F} (hw : Exact w) (hb : Bounded w) (e : Event F) :
    Exact (watch w e) ↔ ¬Unseen w.firmware e := by
  by_cases he : ∀ byte, e ≠ .feedByte byte
  · have hseen : ¬Unseen w.firmware e := by
      cases e
      case feedByte byte => exact absurd rfl (he byte)
      all_goals exact id
    exact iff_of_true (watch_exact_of_lowers hw hb (step_lowers he _)) hseen
  · push Not at he
    obtain ⟨byte, rfl⟩ := he
    have hcounter := hw.count
    cases feedByte_received byte w.firmware with
    -- a byte that takes no room
    | lowers h hbyte =>
      exact iff_of_true (watch_exact_of_lowers hw hb h) fun hunseen => hbyte hunseen.1
    | char hcount hwaiting hoverrun hbyte _ =>
      refine iff_of_true ⟨hcount hw.count, ?_⟩ fun hunseen => hbyte hunseen.1
      have hbytes : ((step (.feedByte byte) w.firmware).waiting : ℤ) = w.firmware.rx.rxUsed + 1 := by
        rw [hcounter]
        exact_mod_cast hwaiting
      unfold watch
      rw [← hw.overrun]
      simp only [Event.isByte, Bool.true_and, hbytes]
      exact hoverrun
    -- the newline is counted like any byte, but never raises the flag
    | newline hcount hwaiting hoverrun hbyte =>
      have hbytes : ((step (.feedByte byte) w.firmware).waiting : ℤ) = w.firmware.rx.rxUsed + 1 := by
        rw [hcounter]
        exact_mod_cast hwaiting
      have hoverrun' : (watch w (.feedByte byte)).firmware.rx.rxOverrun = w.exceeded :=
        hoverrun.trans hw.overrun
      have hexceeded : (watch w (.feedByte byte)).exceeded =
          (w.exceeded || decide (w.firmware.rx.rxUsed + 1 > rxBufferSize)) := by
        simp only [watch, Event.isByte, Bool.true_and, hbytes]
      constructor
      · -- the newline was seen, so it fits or the flag is up already
        rintro hexact ⟨-, hfull, hdown⟩
        have hflag := hexact.overrun
        rw [hoverrun', hexceeded, ← hw.overrun, hdown, hfull] at hflag
        cases hflag
      · intro hseen
        refine ⟨hcount hw.count, ?_⟩
        rw [hoverrun', hexceeded]
        cases hdown : w.exceeded with
        | true => rfl
        | false =>
          have hle := hb hdown
          have hne : w.firmware.rx.rxUsed ≠ rxBufferSize := fun hfull =>
            hseen ⟨hbyte, hfull, hw.overrun.trans hdown⟩
          have hfits : ¬w.firmware.rx.rxUsed + 1 > rxBufferSize := by omega
          simp [hfits]

/-! ### Runs -/

theorem watched_append (speedFactor : F) (es : List (Event F)) (e : Event F) :
    watched speedFactor (es ++ [e]) = watch (watched speedFactor es) e := by
  unfold watched
  rw [List.foldl_append]
  rfl

theorem watched_bounded (speedFactor : F) (es : List (Event F)) :
    Bounded (watched speedFactor es) := by
  induction es using List.reverseRecOn with
  | nil => exact fun _ => by simp [watched, Firmware.new, Firmware.waiting, rxBufferSize]
  | append_singleton es e ih =>
    rw [watched_append]
    exact watch_bounded ih e

/-- **The flag is exact as long as no newline is the byte that does not fit.**  Whatever
happens to the emulator, the counter and the flag are right in every state of the run if and
only if no newline of a queued line is fed to a full buffer that was never overrun. -/
theorem exact_iff (speedFactor : F) (es : List (Event F)) :
    (∀ es', es' <+: es → Exact (watched speedFactor es')) ↔
      ∀ es' e, es' ++ [e] <+: es → ¬Unseen (watched speedFactor es').firmware e := by
  constructor
  · intro hexact es' e hprefix
    have hbefore := hexact es' ((List.prefix_append _ _).trans hprefix)
    have hafter := hexact (es' ++ [e]) hprefix
    rw [watched_append] at hafter
    exact (watch_exact hbefore (watched_bounded _ _) e).mp hafter
  · intro hseen es'
    induction es' using List.reverseRecOn with
    | nil => exact fun _ => ⟨rfl, rfl⟩
    | append_singleton es' e ih =>
      intro hprefix
      have hbefore := ih ((List.prefix_append _ _).trans hprefix)
      rw [watched_append]
      exact (watch_exact hbefore (watched_bounded _ _) e).mpr (hseen es' e hprefix)

/-- Two lines of 63 and 64 characters, in one piece. -/
def fullBytes : List (Event ℚ) :=
  (List.replicate 63 'X' ++ ['\n'] ++ List.replicate 64 'X' ++ ['\n']).map fun c =>
    .feedByte c.toUInt8

/-- The last newline is the byte 129, and the flag stays down. -/
theorem overrun_not_seen : ¬Exact (watched (2000 : ℚ) fullBytes) := by
  intro h
  have hflag := h.overrun
  revert hflag
  decide +kernel

end Raydriver.Emulator
