import Raydriver.Core.Text

/-!
# The plain line splitter

The ping-pong sessions (`SimpleCore`, `SmoothieCore`, `MarlinCore`) collect the
received bytes in a line buffer and cut complete lines off it.  The lines are
those of the stream, however it is cut into chunks.

## Main definitions

* `lineTexts` — the non-empty lines reported for one newline-terminated message.
* `rxLines`, `feedLines` — one and several calls of `handle_rx`.
* `unfinished`, `finished` — the line a stream leaves unfinished, and the lines handed
  on for those it finishes (`messagesOf`).

## Main results

* `rxLines_eq` — one call hands on what the stream finishes.
* `feedLines_eq` — **the same for several calls, whatever the cutting**.
-/

namespace Raydriver

/-- The lines handed on for a line of the buffer: the text up to the LF is decoded,
trimmed and split; undecodable bytes are dropped. -/
def lineTexts (x : Bytes) : List Text :=
  match fromUtf8 (x ++ [LF]) with
  | none => []
  | some message => (lines (trim message)).filter fun l => !l.isEmpty

theorem fromUtf8_CRs_LF (k : ℕ) :
    fromUtf8 (List.replicate k CR ++ [LF]) = some (List.replicate k '\r' ++ ['\n']) := by
  induction k with
  | zero => rfl
  | succ k ih =>
    rw [List.replicate_succ, List.cons_append,
      ← List.singleton_append, fromUtf8_append (t := ['\r']) (by decide), ih]
    rfl

/-- A decodable line is one text, trimmed. -/
theorem lineTexts_eq {x : Bytes} {t : Text} (h : fromUtf8 x = some t) (hx : LF ∉ x)
    (hne : trim t ≠ []) (k : ℕ) : lineTexts (x ++ List.replicate k CR) = [trim t] := by
  have hw : ∀ c ∈ List.replicate k '\r' ++ ['\n'], isWhitespace c = true := by
    intro c hc
    simp only [List.mem_append, List.mem_replicate, List.mem_singleton] at hc
    rcases hc with ⟨-, rfl⟩ | rfl <;> decide
  have hnl : '\n' ∉ trim t := fun hm => newline_notMem h hx (mem_of_mem_trim hm)
  rw [lineTexts, List.append_assoc, fromUtf8_append h, fromUtf8_CRs_LF, Option.map_some]
  simp only [trim_append t hw, lines_of_notMem hnl hne]
  simp [hne]

/-- The loop of `handle_rx`: as long as the buffer holds a newline, cut off the bytes
up to it.  Every iteration drains at least one byte. -/
def drainLines : ℕ → Bytes → Bytes × List Text
  | 0, buffer => (buffer, [])
  | n + 1, buffer =>
    match buffer.idxOf? LF with
    | none => (buffer, [])
    | some nl =>
      let newLines := lineTexts (buffer.take nl)
      let (buffer, rest) := drainLines n (buffer.drop (nl + 1))
      (buffer, newLines ++ rest)

/-- One call of `handle_rx`: the line buffer and the new lines. -/
def rxLines (data buffer : Bytes) : Bytes × List Text :=
  drainLines (buffer ++ data).length (buffer ++ data)

/-- Successive calls of `handle_rx`. -/
def feedLines : List Bytes → Bytes → Bytes × List (List Text)
  | [], buffer => (buffer, [])
  | c :: cs, buffer =>
    let (buffer, newLines) := rxLines c buffer
    let (buffer, rest) := feedLines cs buffer
    (buffer, newLines :: rest)

/-- The same loop, with the messages cut off instead of their lines. -/
def drainMessages : ℕ → Bytes → Bytes × List Bytes
  | 0, buffer => (buffer, [])
  | n + 1, buffer =>
    match buffer.idxOf? LF with
    | none => (buffer, [])
    | some nl =>
      let (rest, messages) := drainMessages n (buffer.drop (nl + 1))
      (rest, buffer.take nl :: messages)

/-- One call of `handle_rx`: the line buffer and the messages it completes. -/
def cutMessages (data buffer : Bytes) : Bytes × List Bytes :=
  drainMessages (buffer ++ data).length (buffer ++ data)

/-- The lines of a call are those of its messages. -/
theorem drainLines_eq_messages : ∀ (n : ℕ) (buffer : Bytes),
    drainLines n buffer
      = ((drainMessages n buffer).1, (drainMessages n buffer).2.flatMap lineTexts) := by
  intro n
  induction n with
  | zero => exact fun buffer => rfl
  | succ n ih =>
    intro buffer
    simp only [drainLines, drainMessages]
    split
    · rfl
    · rw [ih]
      rfl

/-! ### The lines of a stream -/

/-- The unfinished line after the bytes, entered with `x`. -/
def unfinished : Bytes → Bytes → Bytes
  | x, [] => x
  | x, b :: l => if b = LF then unfinished [] l else unfinished (x ++ [b]) l

/-- The lines handed on for what the bytes finish, entered with `x`. -/
def finished : Bytes → Bytes → List Text
  | _, [] => []
  | x, b :: l => if b = LF then lineTexts x ++ finished [] l else finished (x ++ [b]) l

/-- The messages the bytes finish, entered with `x`. -/
def messagesOf : Bytes → Bytes → List Bytes
  | _, [] => []
  | x, b :: l => if b = LF then x :: messagesOf [] l else messagesOf (x ++ [b]) l

section

-- the equations of these recursions, made once for the lemmas below
attribute [local simp] drainLines drainMessages unfinished finished messagesOf

end

theorem finished_eq_messages : ∀ (l x : Bytes),
    finished x l = (messagesOf x l).flatMap lineTexts := by
  intro l
  induction l with
  | nil => intro x; rfl
  | cons b l ih =>
    intro x
    simp only [finished, messagesOf]
    split_ifs
    · rw [ih, List.flatMap_cons]
    · exact ih _

theorem messagesOf_append (m : Bytes) : ∀ (l x : Bytes),
    messagesOf x (l ++ m) = messagesOf x l ++ messagesOf (unfinished x l) m := by
  intro l
  induction l with
  | nil => intro x; rfl
  | cons b l ih =>
    intro x
    simp only [List.cons_append, messagesOf, unfinished, ih]
    split <;> simp

theorem unfinished_append (m : Bytes) : ∀ (l x : Bytes),
    unfinished x (l ++ m) = unfinished (unfinished x l) m := by
  intro l
  induction l with
  | nil => intro x; rfl
  | cons b l ih =>
    intro x
    simp only [List.cons_append, unfinished, ih]
    split <;> rfl

theorem finished_append (m : Bytes) : ∀ (l x : Bytes),
    finished x (l ++ m) = finished x l ++ finished (unfinished x l) m := by
  intro l
  induction l with
  | nil => intro x; rfl
  | cons b l ih =>
    intro x
    simp only [List.cons_append, finished, unfinished, ih]
    split <;> simp

theorem LF_notMem_unfinished : ∀ (l x : Bytes), LF ∉ x → LF ∉ unfinished x l := by
  intro l
  induction l with
  | nil => intro x hx; exact hx
  | cons b l ih =>
    intro x hx
    simp only [unfinished]
    split_ifs with hb
    · exact ih [] List.not_mem_nil
    · exact ih _ (by simp [hx, Ne.symm hb])

theorem unfinished_of_notMem : ∀ (l x : Bytes), LF ∉ l → unfinished x l = x ++ l := by
  intro l
  induction l with
  | nil => intro x _; simp [unfinished]
  | cons b l ih =>
    intro x hl
    rw [List.mem_cons, not_or] at hl
    simp only [unfinished, if_neg (Ne.symm hl.1), ih _ hl.2, List.append_assoc,
      List.singleton_append]

theorem finished_of_notMem : ∀ (l x : Bytes), LF ∉ l → finished x l = [] := by
  intro l
  induction l with
  | nil => intro x _; rfl
  | cons b l ih =>
    intro x hl
    rw [List.mem_cons, not_or] at hl
    simp only [finished, if_neg (Ne.symm hl.1), ih _ hl.2]

theorem idxOf?_LF {x : Bytes} (hx : LF ∉ x) (r : Bytes) :
    (x ++ LF :: r).idxOf? LF = some x.length := by
  induction x with
  | nil => simp [List.idxOf?_cons]
  | cons a x ih =>
    have ha : (a == LF) = false := beq_false_of_ne fun h => hx (by simp [h])
    rw [List.cons_append, List.idxOf?_cons, ha, ih fun h => hx (List.mem_cons_of_mem a h)]
    rfl

/-- The loop on the unfinished line `x` and new bytes `l`. -/
theorem drainMessages_eq : ∀ (l x : Bytes) (n : ℕ), LF ∉ x → l.countP (· == LF) ≤ n →
    drainMessages n (x ++ l) = (unfinished x l, messagesOf x l) := by
  intro l
  induction l with
  | nil =>
    intro x n hx _
    have hnone : x.idxOf? LF = none := List.idxOf?_eq_none_iff.mpr hx
    cases n with
    | zero => simp [drainMessages, unfinished, messagesOf]
    | succ n => simp [drainMessages, unfinished, messagesOf, hnone]
  | cons b l ih =>
    intro x n hx hn
    simp only [unfinished, messagesOf]
    split_ifs with hb
    · subst hb
      obtain ⟨n, rfl⟩ : ∃ k, n = k + 1 := by
        refine Nat.exists_eq_succ_of_ne_zero fun h0 => ?_
        simp [h0] at hn
      have hn' : l.countP (· == LF) ≤ n := by
        rw [List.countP_cons_of_pos (by simp)] at hn
        omega
      have htake : List.take x.length (x ++ LF :: l) = x := List.take_left
      have hdrop : List.drop (x.length + 1) (x ++ LF :: l) = l := by
        rw [List.drop_append]
        simp
      have h := ih [] n List.not_mem_nil hn'
      rw [List.nil_append] at h
      simp only [drainMessages, idxOf?_LF hx, htake, hdrop, h]
    · have hn' : l.countP (· == LF) ≤ n := by simpa [hb] using hn
      have hxb : LF ∉ x ++ [b] := by simp [hx, Ne.symm hb]
      simpa using ih (x ++ [b]) n hxb hn'

theorem drainLines_eq (l : Bytes) {x : Bytes} {n : ℕ} (hx : LF ∉ x)
    (hn : l.countP (· == LF) ≤ n) :
    drainLines n (x ++ l) = (unfinished x l, finished x l) := by
  rw [drainLines_eq_messages, drainMessages_eq l x n hx hn, finished_eq_messages]

/-- One call hands on the lines the new bytes finish and keeps the unfinished one. -/
theorem rxLines_eq {x : Bytes} (hx : LF ∉ x) (l : Bytes) :
    rxLines l x = (unfinished x l, finished x l) := by
  refine drainLines_eq l hx ?_
  rw [List.length_append]
  exact Nat.le_add_left_of_le List.countP_le_length

/-- **Several calls hand on the lines of the stream, whatever the cutting.** -/
theorem feedLines_eq : ∀ (cs : List Bytes) (x : Bytes), LF ∉ x →
    (feedLines cs x).1 = unfinished x cs.flatten ∧
      (feedLines cs x).2.flatten = finished x cs.flatten := by
  intro cs
  induction cs with
  | nil => intro x _; exact ⟨rfl, rfl⟩
  | cons c cs ih =>
    intro x hx
    obtain ⟨h1, h2⟩ := ih (unfinished x c) (LF_notMem_unfinished c x hx)
    simp only [feedLines, rxLines_eq hx, List.flatten_cons, unfinished_append, finished_append, h1,
      h2, and_self]

end Raydriver
