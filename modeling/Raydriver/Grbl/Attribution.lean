import Raydriver.Grbl.Chunks

/-!
# Attribution and wire order

Each acknowledgement the parser reads is attributed to the oldest pending command.  Which
acknowledgements stand in a byte stream is settled by reading it byte by byte: a line that ends
holds an `ok` at its end, or an `error:`, or it is an acknowledgement itself once it is decoded
and trimmed.  The parser makes its four passes over whole chunks, so it reads them in another
order where one chunk holds an `error:` before an `ok`, or an `ok` that only the fourth pass sees
before an `error:`, and it does not read an `error:` that is not valid UTF-8.

## Main definitions

* `Mark`, `scanMarks` — an acknowledgement that stands in a stream, and all of them, in wire order.
* `Attributed` — the calls read them in wire order, for every cutting.
* `Separate` — no acknowledgement shows only when another one is cut out.
* `InPassOrder` — the passes find them in wire order.

## Main results

* `scan_render` — what stands in a tidy stream.
* `parseChunks_marks` — **what the calls read of a tidy stream, for every cutting**.
* `attribution_in_wire_order` — **attribution follows wire order, for every cutting, exactly when
  the passes find the acknowledgements in wire order**.
-/

namespace Raydriver

open FlowInner

/-! ### The acknowledgements that stand in a stream -/

/-- An acknowledgement that stands in a stream. -/
inductive Mark where
  | ok
  /-- An error line, with the text that is reported. -/
  | error (text : Text)
  /-- An error line that is not valid UTF-8. -/
  | lost
  /-- A line that is an acknowledgement once it is trimmed. -/
  | late (rtype : GrblResponseType) (text : Text)
  deriving DecidableEq, Repr

namespace Mark

/-- The kind of the acknowledgement. -/
def kind : Mark → GrblResponseType
  | ok => .ok
  | error _ => .error
  | lost => .error
  | late rtype _ => rtype

/-- The pass that finds it; the two `ok` passes count as one. -/
def pass : Mark → ℕ
  | ok => 0
  | error _ => 1
  | lost => 1
  | late _ _ => 2

theorem pass_cases (m : Mark) : m.pass = 0 ∨ m.pass = 1 ∨ m.pass = 2 := by
  cases m <;> simp [pass]

/-- What is reported for it. -/
def ack : Mark → Option (GrblResponseType × Text)
  | ok => some (.ok, "ok".toList)
  | error text => some (.error, text)
  | lost => none
  | late rtype text => some (rtype, text)

end Mark

/-- A line that is an acknowledgement. -/
def lateMark (line : Text) : Option Mark :=
  if line = "ok".toList then some (.late .ok line)
  else if startsWith "error:".toList line then some (.late .error line)
  else none

/-- The error line `raw`. -/
def errorMark (raw : Bytes) : Mark :=
  match fromUtf8 raw with
  | some error => .error (trim error)
  | none => .lost

/-- The acknowledgement that stands at the end of the line `x`, and what is left of the line; the
lines themselves where there is none. -/
def readLine (x : Bytes) : List Mark × Bytes :=
  match findOkAck (x ++ [LF]) with
  | some (start, _) => ([.ok], x.take start)
  | none =>
    match findNullCorruptedOk (x ++ [LF]) with
    | some (start, _) => ([.ok], x.take start)
    | none =>
      match findSubslice x errorMarker with
      | some start => ([errorMark ((x ++ [LF]).drop start)], x.take start)
      | none => ((lineTexts x).filterMap lateMark, [])

/-- The acknowledgements that stand in a stream, entered with the unfinished line `x`. -/
def scanMarks : Bytes → Bytes → List Mark
  | _, [] => []
  | x, b :: l =>
    if b = LF then (readLine x).1 ++ scanMarks (readLine x).2 l else scanMarks (x ++ [b]) l

example : scanMarks [] (ascii "ok\nerror:1\nok \no") =
    [.ok, .error "error:1".toList, .late .ok "ok".toList] := by decide

example : scanMarks [] (ascii "<Iok\ndle>\n" ++ errAck [0xFF]) = [.ok, .lost] := by decide

/-- The acknowledgements of a token list, entered with the unfinished line `x`. -/
def marksOf : Bytes → List Token → List Mark
  | _, [] => []
  | x, .byte b :: ts =>
    if b = LF then (lineTexts x).filterMap lateMark ++ marksOf [] ts else marksOf (x ++ [b]) ts
  | x, .ok _ _ :: ts => .ok :: marksOf x ts
  | x, .err text :: ts => errorMark (errAck text) :: marksOf x ts

theorem marksOf_append (us : List Token) : ∀ (ts : List Token) (x : Bytes),
    marksOf x (ts ++ us) = marksOf x ts ++ marksOf (carry x ts) us := by
  intro ts
  induction ts with
  | nil => intro x; rfl
  | cons t ts ih =>
    intro x
    cases t with
    | byte b =>
      simp only [List.cons_append, marksOf, carry_byte]
      split_ifs
      · rw [ih, List.append_assoc]
      · exact ih _
    | ok nuls crs => rw [List.cons_append, marksOf, marksOf, ih, List.cons_append]; rfl
    | err text => rw [List.cons_append, marksOf, marksOf, ih, List.cons_append]; rfl

theorem marksOf_bytes : ∀ (l x : Bytes), LF ∉ l → marksOf x (l.map .byte) = [] := by
  intro l
  induction l with
  | nil => intro x _; rfl
  | cons b l ih =>
    intro x hl
    rw [List.mem_cons, not_or] at hl
    rw [List.map_cons, marksOf, if_neg (Ne.symm hl.1)]
    exact ih _ hl.2

/-- Bytes without an LF only make the line longer. -/
theorem scan_of_notMem (r : Bytes) : ∀ (l x : Bytes), LF ∉ l →
    scanMarks x (l ++ r) = scanMarks (x ++ l) r := by
  intro l
  induction l with
  | nil => intro x _; rw [List.nil_append, List.append_nil]
  | cons b l ih =>
    intro x hl
    rw [List.mem_cons, not_or] at hl
    rw [List.cons_append, scanMarks, if_neg (Ne.symm hl.1), ih _ hl.2, List.append_assoc]
    rfl

/-- A line that does not end in an `ok` of the kind has none. -/
theorem leftmost_line {m : Bytes → Option ℕ} {P : ℕ → Bool} (hm : OkMatcher m P) {x : Bytes}
    (hx : LF ∉ x) (h : ∀ nuls crs, P nuls = true → ¬ okAck nuls crs <:+ x ++ [LF]) :
    Search.leftmost m (x ++ [LF]) = none := by
  have hnone := Search.leftmost_append (hm.noMatchIn hx h [])
  rw [List.append_nil] at hnone
  rw [hnone]
  rfl

/-- An `ok` of the kind is found at the end of its line. -/
theorem leftmost_okAck {m : Bytes → Option ℕ} {P : ℕ → Bool} (hm : OkMatcher m P) {x : Bytes}
    (hx : LF ∉ x) {nuls : ℕ} (crs : ℕ) (hP : P nuls = true) :
    Search.leftmost m (x ++ okAck nuls crs)
      = some (x.length, x.length + (okAck nuls crs).length) := by
  have hhit := Search.leftmost_hit (hm.noMatchIn_okAck hx nuls crs []) (by simp [okAck])
    (hm.complete nuls crs [] hP)
  rwa [List.append_nil] at hhit

theorem readLine_ok {x : Bytes} (hx : LF ∉ x) (nuls crs : ℕ) :
    readLine (x ++ okHead nuls crs) = ([.ok], x) := by
  have hline : x ++ okHead nuls crs ++ [LF] = x ++ okAck nuls crs := by
    rw [List.append_assoc, ← okAck_eq]
  have htake : (x ++ okHead nuls crs).take x.length = x := List.take_left
  unfold readLine
  rw [hline]
  by_cases hn : nuls = 0
  · rw [findOkAck, leftmost_okAck okMatcher_okAckLen hx crs (by simpa using hn)]
    simp only [htake]
  · have hplain : findOkAck (x ++ okAck nuls crs) = none := by
      rw [findOkAck, ← hline]
      refine leftmost_line okMatcher_okAckLen ?_ fun nuls' crs' hP hsuffix => ?_
      · rw [List.mem_append, not_or]
        exact ⟨hx, LF_notMem_okHead nuls crs⟩
      · rw [hline] at hsuffix
        rw [nuls_eq_of_suffix hsuffix (List.suffix_append x _)] at hP
        exact hn (by simpa using hP)
    rw [hplain, findNullCorruptedOk,
      leftmost_okAck okMatcher_nullOkLen hx crs (by simpa using hn)]
    simp only [htake]

/-- A line that does not end in an `ok` is looked through for an error. -/
theorem readLine_of_not_okEnd {x : Bytes} (hx : LF ∉ x) (h : ¬ OkEnd x) :
    readLine x = match findSubslice x errorMarker with
      | some start => ([errorMark ((x ++ [LF]).drop start)], x.take start)
      | none => ((lineTexts x).filterMap lateMark, []) := by
  have hnone {m : Bytes → Option ℕ} {P : ℕ → Bool} (hm : OkMatcher m P) :
      Search.leftmost m (x ++ [LF]) = none :=
    leftmost_line hm hx fun _ _ _ hsuffix => h (okEnd_of_suffix hsuffix)
  unfold readLine
  rw [findOkAck, hnone okMatcher_okAckLen, findNullCorruptedOk, hnone okMatcher_nullOkLen]

theorem readLine_quiet {x : Bytes} (hx : LF ∉ x) (h : ¬ OkEnd x) (hmark : ¬ errorMarker <:+: x) :
    readLine x = ((lineTexts x).filterMap lateMark, []) := by
  have hnone : findSubslice x errorMarker = none := by
    rw [findSubslice_errorMarker, Search.leftmost_eq_none]
    · rfl
    · intro s hs _
      refine markerLen_eq_none fun hpre => hmark ?_
      rw [List.append_nil] at hpre
      exact hpre.isInfix.trans hs.isInfix
  rw [readLine_of_not_okEnd hx h, hnone]

theorem readLine_error {x text : Bytes} (hx : LF ∉ x) (hmark : ¬ errorMarker <:+: x)
    (hLF : LF ∉ text) (h : ¬ OkEnd text) :
    readLine (x ++ (errorMarker ++ text)) = ([errorMark (errAck text)], x) := by
  have hline : LF ∉ x ++ (errorMarker ++ text) := by
    simp only [List.mem_append, not_or]
    exact ⟨hx, by decide, hLF⟩
  have hfind : findSubslice (x ++ (errorMarker ++ text)) errorMarker = some x.length := by
    rw [findSubslice_errorMarker,
      Search.leftmost_hit (noMarker_marker hmark _) (by simp [errorMarker, ascii])
        (markerLen_append _)]
    rfl
  have hdrop : (x ++ (errorMarker ++ text) ++ [LF]).drop x.length = errAck text := by
    rw [List.append_assoc, List.drop_left]
    rfl
  have hend : ¬ OkEnd (x ++ (errorMarker ++ text)) := by
    rw [← List.append_assoc]
    exact not_okEnd_errAck h
  rw [readLine_of_not_okEnd hline hend, hfind]
  simp only [hdrop, List.take_left]

/-- **What stands in a tidy stream** are the acknowledgements of its tokens. -/
theorem scan_render {tail : Bytes} (htail : LF ∉ tail) : ∀ (ts : List Token) (x : Bytes),
    Tidy x ts → LF ∉ x → scanMarks x (render ts ++ tail) = marksOf x ts := by
  intro ts
  induction ts with
  | nil =>
    intro x _ _
    have hscan := scan_of_notMem [] tail x htail
    rw [List.append_nil] at hscan
    rw [render_nil, List.nil_append, hscan]
    rfl
  | cons t ts ih =>
    intro x hc hx
    cases t with
    | byte b =>
      simp only [Tidy] at hc
      simp only [render_cons, Token.render, List.cons_append, List.nil_append, scanMarks, marksOf]
      split_ifs at hc ⊢ with hb
      · rw [readLine_quiet hx hc.1.1 hc.1.2, ih [] hc.2 List.not_mem_nil]
      · exact ih _ hc (by simp [hx, Ne.symm hb])
    | ok nuls crs =>
      rw [render_cons, Token.render, okAck_eq, List.append_assoc, List.append_assoc,
        scan_of_notMem _ _ _ (LF_notMem_okHead nuls crs), List.singleton_append, scanMarks, if_pos rfl,
        readLine_ok hx, marksOf, ih x hc hx]
      rfl
    | err text =>
      have hLF : LF ∉ errorMarker ++ text := by
        rw [List.mem_append, not_or]
        exact ⟨by decide, hc.1.1⟩
      rw [render_cons, Token.render, errAck, List.append_assoc, List.append_assoc,
        scan_of_notMem _ _ _ hLF, List.singleton_append, scanMarks, if_pos rfl,
        readLine_error hx hc.2.no_marker hc.1.1 hc.1.2, marksOf, ih x hc.2 hx]
      rfl

/-! ### What one call reads -/

/-- The order in which one call reads the acknowledgements of its buffer. -/
def passAcks (ms : List Mark) : List (GrblResponseType × Text) :=
  (ms.filter fun m => m.pass == 0).filterMap Mark.ack ++
    (ms.filter fun m => m.pass == 1).filterMap Mark.ack ++
    (ms.filter fun m => m.pass == 2).filterMap Mark.ack

theorem lateMark_pass {line : Text} {m : Mark} (h : lateMark line = some m) : m.pass = 2 := by
  unfold lateMark at h
  split_ifs at h <;> cases h <;> rfl

theorem errorMark_pass (raw : Bytes) : (errorMark raw).pass = 1 := by
  unfold errorMark
  split <;> rfl

theorem errorMark_ack (text : Bytes) :
    (errorMark (errAck text)).ack = (Token.err text).readErr := by
  rw [Token.readErr_err]
  unfold errorMark
  cases fromUtf8 (errAck text) <;> rfl

/-- The acknowledgements among the lines that the bytes finish, entered with `x`. -/
def lateMarks (x l : Bytes) : List Mark := (finished x l).filterMap lateMark

/-- The first two passes read the `ok`s, the third the errors that decode, the fourth the lines
that are acknowledgements. -/
theorem passAcks_marksOf : ∀ (ts : List Token) (x : Bytes),
    passAcks (marksOf x ts) = readOrder ts ++ (lateMarks x (info ts)).filterMap Mark.ack := by
  -- the marks of one line are found by the last pass
  have hlates (n : ℕ) (hn : n ≠ 2) (ls : List Text) :
      (ls.filterMap lateMark).filter (fun m => m.pass == n) = [] := by
    refine List.filter_eq_nil_iff.mpr fun m hm => ?_
    obtain ⟨line, -, hline⟩ := List.mem_filterMap.mp hm
    rw [lateMark_pass hline]
    simpa using Ne.symm hn
  have hall (ls : List Text) :
      (ls.filterMap lateMark).filter (fun m => m.pass == 2) = ls.filterMap lateMark := by
    refine List.filter_eq_self.mpr fun m hm => ?_
    obtain ⟨line, -, hline⟩ := List.mem_filterMap.mp hm
    rw [lateMark_pass hline]
    rfl
  have hoks : ∀ (ts : List Token) (x : Bytes),
      ((marksOf x ts).filter fun m => m.pass == 0).filterMap Mark.ack
        = List.replicate (ts.countP (Token.isOk fun _ => true)) (.ok, "ok".toList) := by
    intro ts
    induction ts with
    | nil => intro x; rfl
    | cons t ts ih =>
      intro x
      cases t with
      | byte b =>
        simp only [marksOf]
        split_ifs
        · rw [List.filter_append, hlates 0 (by decide), List.nil_append, ih]
          rfl
        · rw [ih]
          rfl
      | ok nuls crs =>
        rw [marksOf, List.filter_cons_of_pos rfl, List.filterMap_cons, ih,
          List.countP_cons_of_pos rfl, List.replicate_succ]
        rfl
      | err text =>
        rw [marksOf, List.filter_cons_of_neg (by rw [errorMark_pass]; decide), ih]
        rfl
  have herrs : ∀ (ts : List Token) (x : Bytes),
      ((marksOf x ts).filter fun m => m.pass == 1).filterMap Mark.ack
        = ts.filterMap Token.readErr := by
    intro ts
    induction ts with
    | nil => intro x; rfl
    | cons t ts ih =>
      intro x
      cases t with
      | byte b =>
        simp only [marksOf]
        split_ifs
        · rw [List.filter_append, hlates 1 (by decide), List.nil_append, ih]
          rfl
        · rw [ih]
          rfl
      | ok nuls crs =>
        rw [marksOf, List.filter_cons_of_neg (by decide), ih]
        rfl
      | err text =>
        rw [marksOf, List.filter_cons_of_pos (by rw [errorMark_pass]; rfl), List.filterMap_cons,
          List.filterMap_cons, errorMark_ack, ih]
  have hlate : ∀ (ts : List Token) (x : Bytes),
      (marksOf x ts).filter (fun m => m.pass == 2) = lateMarks x (info ts) := by
    intro ts
    induction ts with
    | nil => intro x; rfl
    | cons t ts ih =>
      intro x
      cases t with
      | byte b =>
        rw [lateMarks, info]
        simp only [marksOf, finished]
        split_ifs
        · rw [List.filter_append, hall, ih, List.filterMap_append]
          rfl
        · exact ih _
      | ok nuls crs =>
        rw [marksOf, List.filter_cons_of_neg (by decide), ih]
        rfl
      | err text =>
        rw [marksOf, List.filter_cons_of_neg (by rw [errorMark_pass]; decide), ih]
        rfl
  intro ts x
  rw [passAcks, hoks, herrs, hlate, readOrder, acksOf_filter_isOk, acksOf_filter_isOk,
    ← List.replicate_add, countP_isOk]

/-- What a step of the parser leaves behind: the acknowledgements `as` are accounted for, `b` is
left in the buffer, and among what it hands on there are these acknowledgements. -/
def Reads (as : List (GrblResponseType × Text)) (b : Bytes) (f : FlowInner)
    (r : FlowInner × List Extracted) : Prop :=
  r.1 = (acked as b f).1 ∧ r.2.filter Extracted.isAck = (f.acknowledgeAll as).2

theorem Reads.append {as as' : List (GrblResponseType × Text)} {b b' : Bytes} {f : FlowInner}
    {r r' : FlowInner × List Extracted} (h : Reads as b f r) (h' : Reads as' b' r.1 r') :
    Reads (as ++ as') b' f (r'.1, r.2 ++ r'.2) := by
  obtain ⟨hstate, hacks⟩ := h
  obtain ⟨hstate', hacks'⟩ := h'
  have happ := acked_append as as' b b' f
  have hfst := congrArg Prod.fst happ
  have hsnd := congrArg Prod.snd happ
  refine ⟨?_, ?_⟩
  · rw [hstate', hstate]
    exact hfst.symm
  · rw [List.filter_append, hacks, hacks', hstate]
    exact hsnd.symm

/-- The lines of one message. -/
theorem handleMessage_reads : ∀ (ls : List Text) (f : FlowInner),
    Reads (((ls.filter fun l => !l.isEmpty).filterMap lateMark).filterMap Mark.ack)
      f.statusBuffer f (handleMessage ls f) := by
  intro ls
  induction ls with
  | nil => intro f; exact ⟨rfl, rfl⟩
  | cons l ls ih =>
    intro f
    rw [handleMessage]
    by_cases hempty : l.isEmpty = true
    · rw [if_pos hempty, List.filter_cons_of_neg (by simp [hempty])]
      exact ih f
    · rw [if_neg hempty, List.filter_cons_of_pos (by simp [hempty]), List.filterMap_cons]
      have hone (r : GrblResponseType) (t : Text) : Reads [(r, t)] f.statusBuffer f
          ((f.acknowledge r t).1, [(f.acknowledge r t).2]) := by
        have hbuffer : (f.acknowledge r t).1.withBuffer f.statusBuffer = (f.acknowledge r t).1 := by
          rw [← acknowledge_statusBuffer r t f, withBuffer_self]
        refine ⟨hbuffer.symm, ?_⟩
        rw [snd_acknowledge]
        simp only [acknowledgeAll, snd_acknowledge]
        rfl
      have hnext (r : GrblResponseType) (t : Text) := ih (f.acknowledge r t).1
      simp only [acknowledge_statusBuffer] at hnext
      by_cases hok : l = "ok".toList
      · subst hok
        rw [show lateMark "ok".toList = some (.late .ok "ok".toList) from rfl]
        exact (hone .ok _).append (hnext .ok _)
      · by_cases herror : startsWith "error:".toList l = true
        · rw [show lateMark l = some (.late .error l) by
            rw [lateMark, if_neg hok, if_pos herror], if_neg hok, if_pos herror]
          exact (hone .error l).append (hnext .error l)
        · rw [show lateMark l = none by rw [lateMark, if_neg hok, if_neg herror], if_neg hok,
            if_neg herror]
          have hrest := ih f
          exact ⟨hrest.1, hrest.2⟩

/-- **The line pass** over the unfinished line `x` and the bytes `l`. -/
theorem splitLines_reads {p : Bytes} (hp : LF ∉ p) : ∀ (l x : Bytes) (n : ℕ) (f : FlowInner),
    LF ∉ x → l.countP (· == LF) ≤ n →
      Reads ((lateMarks x l).filterMap Mark.ack) (unfinished x l ++ p) f
        (splitLines n (f.withBuffer (x ++ (l ++ p)))) := by
  intro l
  induction l with
  | nil =>
    intro x n f hx _
    have hnone : (x ++ p).idxOf? LF = none := by
      rw [List.idxOf?_eq_none_iff, List.mem_append, not_or]
      exact ⟨hx, hp⟩
    cases n with
    | zero => exact ⟨rfl, rfl⟩
    | succ n =>
      simp only [splitLines, withBuffer_statusBuffer, List.nil_append, hnone]
      exact ⟨rfl, rfl⟩
  | cons b l ih =>
    intro x n f hx hn
    simp only [lateMarks, unfinished, finished]
    split_ifs with hb
    · subst hb
      obtain ⟨n, rfl⟩ : ∃ k, n = k + 1 := by
        refine Nat.exists_eq_succ_of_ne_zero fun h0 => ?_
        simp [h0] at hn
      have hn' : l.countP (· == LF) ≤ n := by
        rw [List.countP_cons_of_pos (by simp)] at hn
        omega
      have htake : List.take (x.length + 1) (x ++ LF :: (l ++ p)) = x ++ [LF] := by
        rw [List.take_append]
        simp
      have hdrop : List.drop (x.length + 1) (x ++ LF :: (l ++ p)) = l ++ p := by
        rw [List.drop_append]
        simp
      have hrest (g : FlowInner) := ih [] n g List.not_mem_nil hn'
      simp only [List.nil_append] at hrest
      simp only [List.cons_append, splitLines, withBuffer_statusBuffer, idxOf?_LF hx, htake, hdrop,
        withBuffer_withBuffer]
      rw [List.filterMap_append, List.filterMap_append, lineTexts]
      cases fromUtf8 (x ++ [LF]) with
      | none => exact hrest f
      | some message =>
        have hmessage := handleMessage_reads (lines (trim message)) (f.withBuffer (l ++ p))
        have hnext := hrest (handleMessage (lines (trim message)) (f.withBuffer (l ++ p))).1
        -- the lines of the message leave the rest of the buffer to the next iteration
        have hbuffer : (handleMessage (lines (trim message)) (f.withBuffer (l ++ p))).1.withBuffer
            (l ++ p) = (handleMessage (lines (trim message)) (f.withBuffer (l ++ p))).1 := by
          rw [hmessage.1]
          rfl
        rw [hbuffer] at hnext
        have hboth := hmessage.append hnext
        rw [Reads, acked_withBuffer, acknowledgeAll_withBuffer] at hboth
        exact hboth
    · have hn' : l.countP (· == LF) ≤ n := by simpa [hb] using hn
      have hxb : LF ∉ x ++ [b] := by simp [hx, Ne.symm hb]
      simpa [lateMarks] using ih (x ++ [b]) n f hxb hn'

/-- **One call** on a buffer that holds a tidy token list and the start of the next token. -/
theorem parseExtracted_reads {data : Bytes} {f : FlowInner} {ts : List Token} {p : Bytes}
    (hb : f.statusBuffer ++ data = render ts ++ p) (hc : Tidy [] ts) (hp : LF ∉ p) :
    Reads (passAcks (marksOf [] ts)) (carry [] ts ++ p) f (f.parseExtracted data) := by
  have hacks : Reads (readOrder ts) (info ts ++ p) f (acked (readOrder ts) (info ts ++ p) f) :=
    ⟨rfl, List.filter_eq_self.mpr (isAck_acknowledgeAll _ _)⟩
  have hlines := splitLines_reads hp (info ts) [] (info ts ++ p).length
    (acked (readOrder ts) (info ts ++ p) f).1 List.not_mem_nil (by
      rw [List.length_append]
      exact Nat.le_add_right_of_le List.countP_le_length)
  rw [passAcks_marksOf]
  simp only [parseExtracted, hb, extractAcks_tidy hc hp]
  exact hacks.append hlines

theorem tidy_bytes {us : List Token} : ∀ (x y : Bytes), LF ∉ x → Tidy (y ++ x) us →
    Tidy y (x.map .byte ++ us) := by
  intro x
  induction x with
  | nil => intro y _ h; simpa using h
  | cons b x ih =>
    intro y hx h
    rw [List.mem_cons, not_or] at hx
    obtain ⟨hb, hx⟩ := hx
    simp only [List.map_cons, List.cons_append, Tidy, if_neg (Ne.symm hb)]
    exact ih (y ++ [b]) hx (by simpa using h)

/-- One call in the middle of a stream: `ts` is already read up to its unfinished line, `us`
completes in this chunk. -/
theorem parseExtracted_continues {f : FlowInner} {c p q : Bytes} {ts us : List Token}
    (hc : Tidy [] (ts ++ us)) (hf : f.statusBuffer = carry [] ts ++ p)
    (hpc : p ++ c = render us ++ q) (hq : LF ∉ q) :
    Reads (passAcks (marksOf (carry [] ts) us)) (carry [] (ts ++ us) ++ q) f
      (f.parseExtracted c) := by
  have hLF := LF_notMem_carry ts [] List.not_mem_nil
  have hb : f.statusBuffer ++ c = render ((carry [] ts).map .byte ++ us) ++ q := by
    rw [hf, List.append_assoc, hpc, render_append, render_bytes, List.append_assoc]
  have h := parseExtracted_reads hb (tidy_bytes _ [] hLF (tidy_append us hc)) hq
  rw [marksOf_append, marksOf_bytes _ [] hLF, carry_append, carry_bytes [] hLF] at h
  rw [carry_append]
  exact h

/-- **What the calls read of a tidy stream, for every cutting**: the marks of the stream, chunk by
chunk in the order of the passes. -/
theorem parseChunks_marks {tail : Bytes} (htail : LF ∉ tail) :
    ∀ (cs : List Bytes) (ts us : List Token) (p : Bytes) (f : FlowInner), Tidy [] (ts ++ us) →
      f.statusBuffer = carry [] ts ++ p → p ++ cs.flatten = render us ++ tail →
      (cs = [] → us = []) →
      ∃ mss : List (List Mark), mss.flatten = marksOf (carry [] ts) us ∧
        mss.length = cs.length ∧
        Reads (mss.flatMap passAcks) (carry [] (ts ++ us) ++ tail) f (f.parseChunks cs) := by
  intro cs
  induction cs with
  | nil =>
    intro ts us p f hc hf hp hus
    obtain rfl := hus rfl
    obtain rfl : p = tail := by simpa using hp
    refine ⟨[], rfl, rfl, ?_, rfl⟩
    rw [List.append_nil, ← hf]
    rfl
  | cons c cs ih =>
    intro ts us p f hc hf hp _
    rw [List.flatten_cons, ← List.append_assoc] at hp
    -- the chunk ends in the middle of a line: its complete part, and the rest
    obtain ⟨us, vs, q, rfl, hpc, hq, hqLF, hnil⟩ :=
      render_split htail us _ _ (tidy_append us hc) hp
    rw [← List.append_assoc] at hc
    have hstep := parseExtracted_continues hc.left hf hpc hqLF
    obtain ⟨mss, hmss, hlen, hreads⟩ := ih (ts ++ us) vs q (f.parseExtracted c).1 hc
      (by rw [hstep.1]; rfl) hq (fun h => hnil (by rw [h]; rfl))
    refine ⟨marksOf (carry [] ts) us :: mss, ?_, by rw [List.length_cons, hlen, List.length_cons],
      ?_⟩
    · rw [List.flatten_cons, hmss, marksOf_append, carry_append]
    · rw [parseChunks_cons, List.flatMap_cons, ← List.append_assoc ts]
      exact hstep.append hreads

/-! ### Attribution -/

/-- Kind and popped command of the acknowledgements the calls report, in order. -/
def attributions (cs : List Bytes) (f : FlowInner) :
    List (GrblResponseType × Option PendingCommand) :=
  (f.parseChunks cs).2.filterMap Extracted.attribution

/-- The attribution in wire order: the `n`-th acknowledgement that stands in the stream, behind
the bytes that are buffered, pops the `n`-th oldest pending command. -/
def wireOrder (stream : Bytes) (f : FlowInner) :
    List (GrblResponseType × Option PendingCommand) :=
  (scanMarks [] (f.statusBuffer ++ stream)).mapIdx fun n m => (m.kind, f.pending[n]?)

/-- Attribution follows wire order, whatever the cutting. -/
def Attributed (f : FlowInner) (stream : Bytes) : Prop :=
  ∀ cs cs' : List Bytes, cs ≠ [] → cs' ≠ [] → cs.flatten = stream → cs'.flatten = stream →
    attributions cs f = attributions cs' f ∧ attributions cs f = wireOrder stream f

/-- No acknowledgement shows only when another one is cut out: the bytes are informational text,
acknowledgements and the start of a next line, and what stands on both sides of an
acknowledgement does not join into another one. -/
def Separate (b : Bytes) : Prop := ∃ ts tail, b = render ts ++ tail ∧ LF ∉ tail ∧ Tidy [] ts

/-- The acknowledgements are all read, and none is read in a later pass than one of the other kind
behind it. -/
structure InPassOrder (ms : List Mark) : Prop where
  read : ∀ m ∈ ms, m ≠ .lost
  sorted : ms.Pairwise fun m m' => m'.pass < m.pass → m.kind = m'.kind

/-- The kinds of the marks that one pass finds. -/
def kindsOf (n : ℕ) (ms : List Mark) : List GrblResponseType :=
  ((ms.filter fun m => m.pass == n).filterMap Mark.ack).map Prod.fst

theorem kindsOf_concat (n : ℕ) (ms : List Mark) {m : Mark} (hm : m ≠ .lost) :
    kindsOf n (ms ++ [m]) = kindsOf n ms ++ if m.pass = n then [m.kind] else [] := by
  have hack : [m].filterMap Mark.ack = m.ack.toList := by cases m <;> rfl
  have hkind : m.ack.toList.map Prod.fst = [m.kind] := by
    cases m with
    | lost => exact absurd rfl hm
    | ok => rfl
    | error text => rfl
    | late r t => rfl
  unfold kindsOf
  rw [List.filter_append, List.filterMap_append, List.map_append]
  split_ifs with hn
  · rw [List.filter_cons_of_pos (by simpa using hn), List.filter_nil, hack, hkind]
  · rw [List.filter_cons_of_neg (by simpa using hn), List.filter_nil]
    rfl

/-- The kinds in the order of the passes. -/
theorem map_fst_passAcks (ms : List Mark) :
    (passAcks ms).map Prod.fst = kindsOf 0 ms ++ kindsOf 1 ms ++ kindsOf 2 ms := by
  rw [passAcks, List.map_append, List.map_append]
  rfl

theorem mem_kindsOf {n : ℕ} {ms : List Mark} (hread : ∀ m ∈ ms, m ≠ .lost)
    {k : GrblResponseType} : k ∈ kindsOf n ms ↔ ∃ m ∈ ms, m.pass = n ∧ m.kind = k := by
  unfold kindsOf
  simp only [List.mem_map, List.mem_filterMap, List.mem_filter, beq_iff_eq]
  constructor
  · rintro ⟨a, ⟨m, ⟨hm, hpass⟩, hack⟩, rfl⟩
    refine ⟨m, hm, hpass, ?_⟩
    cases m <;> cases hack <;> rfl
  · rintro ⟨m, hm, hpass, rfl⟩
    cases m with
    | lost => exact absurd rfl (hread _ hm)
    | ok => exact ⟨_, ⟨_, ⟨hm, hpass⟩, rfl⟩, rfl⟩
    | error text => exact ⟨_, ⟨_, ⟨hm, hpass⟩, rfl⟩, rfl⟩
    | late r t => exact ⟨_, ⟨_, ⟨hm, hpass⟩, rfl⟩, rfl⟩

/-- An item goes to the other end of a list exactly when the list holds nothing else. -/
theorem cons_eq_concat_iff {α : Type} {a : α} : ∀ {l : List α}, a :: l = l ++ [a] ↔ ∀ b ∈ l, b = a
  | [] => by simp
  | b :: l => by
    rw [List.cons_append, List.cons.injEq, List.forall_mem_cons]
    constructor
    · rintro ⟨rfl, h⟩
      exact ⟨rfl, cons_eq_concat_iff.mp h⟩
    · rintro ⟨rfl, h⟩
      exact ⟨rfl, cons_eq_concat_iff.mpr h⟩

/-- One more acknowledgement keeps the two orders the same exactly when no acknowledgement of
the other kind is found in a later pass. -/
theorem passAcks_concat_iff {ms : List Mark} {m : Mark} (hread : ∀ m ∈ ms, m ≠ .lost)
    (hm : m ≠ .lost) (h : (passAcks ms).map Prod.fst = ms.map Mark.kind) :
    (passAcks (ms ++ [m])).map Prod.fst = (ms ++ [m]).map Mark.kind ↔
      ∀ a ∈ ms, m.pass < a.pass → a.kind = m.kind := by
  -- what is found before it, and what is found behind it
  obtain ⟨low, high, hlow, hall, hhigh⟩ : ∃ low high : List GrblResponseType,
      (passAcks ms).map Prod.fst = low ++ high ∧
      (passAcks (ms ++ [m])).map Prod.fst = low ++ m.kind :: high ∧
      ∀ k, k ∈ high ↔ ∃ a ∈ ms, m.pass < a.pass ∧ a.kind = k := by
    simp only [map_fst_passAcks, kindsOf_concat _ _ hm]
    rcases m.pass_cases with hpass | hpass | hpass
    · refine ⟨kindsOf 0 ms, kindsOf 1 ms ++ kindsOf 2 ms, by simp, by simp [hpass], fun k => ?_⟩
      rw [List.mem_append, mem_kindsOf hread, mem_kindsOf hread, hpass]
      constructor
      · rintro (⟨a, ha, hp, hk⟩ | ⟨a, ha, hp, hk⟩)
        · exact ⟨a, ha, by omega, hk⟩
        · exact ⟨a, ha, by omega, hk⟩
      · rintro ⟨a, ha, hp, hk⟩
        rcases a.pass_cases with h0 | h1 | h2
        · omega
        · exact .inl ⟨a, ha, h1, hk⟩
        · exact .inr ⟨a, ha, h2, hk⟩
    · refine ⟨kindsOf 0 ms ++ kindsOf 1 ms, kindsOf 2 ms, rfl, by simp [hpass], fun k => ?_⟩
      rw [mem_kindsOf hread, hpass]
      constructor
      · rintro ⟨a, ha, hp, hk⟩
        exact ⟨a, ha, by omega, hk⟩
      · rintro ⟨a, ha, hp, hk⟩
        exact ⟨a, ha, by rcases a.pass_cases with h0 | h1 | h2 <;> omega, hk⟩
    · refine ⟨kindsOf 0 ms ++ kindsOf 1 ms ++ kindsOf 2 ms, [], by simp, by simp [hpass],
        fun k => ?_⟩
      constructor
      · nofun
      · rintro ⟨a, -, hp, -⟩
        rcases a.pass_cases with h0 | h1 | h2 <;> omega
  rw [hall, List.map_append, ← h, hlow, List.map_singleton, List.append_assoc,
    List.append_cancel_left_eq, cons_eq_concat_iff]
  constructor
  · intro hk a ha hp
    exact hk _ ((hhigh _).mpr ⟨a, ha, hp, rfl⟩)
  · intro hsame k hk
    obtain ⟨a, ha, hp, rfl⟩ := (hhigh k).mp hk
    exact hsame a ha hp

theorem inPassOrder_concat {ms : List Mark} {m : Mark} : InPassOrder (ms ++ [m]) ↔
    InPassOrder ms ∧ m ≠ .lost ∧ ∀ a ∈ ms, m.pass < a.pass → a.kind = m.kind := by
  constructor
  · rintro ⟨hread, hsorted⟩
    rw [List.pairwise_append] at hsorted
    exact ⟨⟨fun a ha => hread a (List.mem_append_left _ ha), hsorted.1⟩,
      hread m (by simp), fun a ha => hsorted.2.2 a ha m (by simp)⟩
  · rintro ⟨⟨hread, hsorted⟩, hm, hlast⟩
    refine ⟨fun a ha => ?_, List.pairwise_append.mpr ⟨hsorted, List.pairwise_singleton _ _, ?_⟩⟩
    · rcases List.mem_append.mp ha with ha | ha
      · exact hread a ha
      · exact List.mem_singleton.mp ha ▸ hm
    · intro a ha b hb
      exact List.mem_singleton.mp hb ▸ hlast a ha

/-- Marks in pass order are read in wire order. -/
theorem InPassOrder.map_passAcks {ms : List Mark} (h : InPassOrder ms) :
    (passAcks ms).map Prod.fst = ms.map Mark.kind := by
  induction ms using List.reverseRecOn with
  | nil => rfl
  | append_singleton ms m ih =>
    obtain ⟨hbefore, hm, hlast⟩ := inPassOrder_concat.mp h
    exact (passAcks_concat_iff hbefore.read hm (ih hbefore)).mpr hlast

/-- The parts of what is in pass order are. -/
theorem InPassOrder.of_append {ms ms' : List Mark} (h : InPassOrder (ms ++ ms')) :
    InPassOrder ms ∧ InPassOrder ms' := by
  obtain ⟨hread, hsorted⟩ := h
  rw [List.pairwise_append] at hsorted
  exact ⟨⟨fun m hm => hread m (List.mem_append_left _ hm), hsorted.1⟩,
    ⟨fun m hm => hread m (List.mem_append_right _ hm), hsorted.2.1⟩⟩

/-- Whatever the cutting, marks in pass order are read in wire order. -/
theorem InPassOrder.flatMap_passAcks : ∀ {mss : List (List Mark)}, InPassOrder mss.flatten →
    (mss.flatMap passAcks).map Prod.fst = mss.flatten.map Mark.kind := by
  intro mss
  induction mss with
  | nil => intro _; rfl
  | cons ms mss ih =>
    intro h
    obtain ⟨hhead, htail⟩ := h.of_append
    rw [List.flatMap_cons, List.flatten_cons, List.map_append, List.map_append,
      hhead.map_passAcks, ih htail]

/-- The lines of a message are found last. -/
theorem InPassOrder.lates {ms : List Mark} (h : InPassOrder ms) (ls : List Text) :
    InPassOrder (ms ++ ls.filterMap lateMark) := by
  induction ls using List.reverseRecOn with
  | nil => simpa using h
  | append_singleton ls l ih =>
    rw [List.filterMap_append]
    cases hl : lateMark l with
    | none => simpa [hl] using ih
    | some m =>
      have hone : [l].filterMap lateMark = [m] := by
        rw [List.filterMap_cons, hl]
        rfl
      rw [hone, ← List.append_assoc]
      refine inPassOrder_concat.mpr ⟨ih, ?_, fun a _ hp => ?_⟩
      · rintro rfl
        exact absurd (lateMark_pass hl) (by decide)
      · rw [lateMark_pass hl] at hp
        cases a <;> simp [Mark.pass] at hp

/-- A call reads each mark once at most. -/
theorem length_passAcks_le (ms : List Mark) : (passAcks ms).length ≤ ms.length := by
  have hcount : ms.countP (fun m => m.pass == 0) + ms.countP (fun m => m.pass == 1) +
      ms.countP (fun m => m.pass == 2) = ms.length := by
    induction ms with
    | nil => rfl
    | cons m ms ih =>
      simp only [List.countP_cons, List.length_cons]
      rcases m.pass_cases with hpass | hpass | hpass
      · simp [hpass]; omega
      · simp [hpass]; omega
      · simp [hpass]; omega
  have hle (n : ℕ) : ((ms.filter fun m => m.pass == n).filterMap Mark.ack).length
      ≤ ms.countP fun m => m.pass == n := by
    rw [List.countP_eq_length_filter]
    exact List.length_filterMap_le _ _
  have h0 := hle 0
  have h1 := hle 1
  have h2 := hle 2
  rw [passAcks, List.length_append, List.length_append]
  omega

/-- **Marks that are read in wire order in one call, up to any of their tokens, are in pass
order.** -/
theorem inPassOrder_of_prefixes {ts : List Token}
    (h : ∀ us, us <+: ts →
      (passAcks (marksOf [] us)).map Prod.fst = (marksOf [] us).map Mark.kind) :
    InPassOrder (marksOf [] ts) := by
  induction ts using List.reverseRecOn with
  | nil => exact ⟨nofun, List.Pairwise.nil⟩
  | append_singleton ts t ih =>
    have hbefore := ih fun us hus => h us (hus.trans (List.prefix_append _ _))
    have hkinds := hbefore.map_passAcks
    have hafter := h (ts ++ [t]) (List.prefix_refl _)
    rw [marksOf_append] at hafter ⊢
    -- an acknowledgement that is one mark
    have hone (m : Mark) (hm : m ≠ .lost)
        (hmark : (passAcks (marksOf [] ts ++ [m])).map Prod.fst =
          (marksOf [] ts ++ [m]).map Mark.kind) : InPassOrder (marksOf [] ts ++ [m]) :=
      inPassOrder_concat.mpr
        ⟨hbefore, hm, (passAcks_concat_iff hbefore.read hm hkinds).mp hmark⟩
    cases t with
    | byte b =>
      by_cases hb : b = LF
      · rw [show marksOf (carry [] ts) [Token.byte b]
          = (lineTexts (carry [] ts)).filterMap lateMark by simp [marksOf, hb]]
        exact hbefore.lates _
      · rwa [show marksOf (carry [] ts) [Token.byte b] = [] by simp [marksOf, hb],
          List.append_nil]
    | ok nuls crs => exact hone .ok (by decide) hafter
    | err text =>
      change InPassOrder (marksOf [] ts ++ [errorMark (errAck text)])
      change (passAcks (marksOf [] ts ++ [errorMark (errAck text)])).map Prod.fst =
        (marksOf [] ts ++ [errorMark (errAck text)]).map Mark.kind at hafter
      refine hone _ (fun hlost => ?_) hafter
      -- an error that is not read is missing
      have hlen := congrArg List.length hafter
      have hle := length_passAcks_le (marksOf [] ts)
      have hsame : passAcks (marksOf [] ts ++ [.lost]) = passAcks (marksOf [] ts) := by
        simp [passAcks, Mark.pass, Mark.ack]
      rw [hlost, List.length_map, List.length_map, hsame, List.length_append,
        List.length_singleton] at hlen
      omega

/-- What the calls report, by what they read. -/
theorem attributions_reads {cs : List Bytes} {f : FlowInner}
    {as : List (GrblResponseType × Text)} {b : Bytes} (h : Reads as b f (f.parseChunks cs)) :
    attributions cs f = as.mapIdx fun n a => (a.1, f.pending[n]?) := by
  rw [attributions, ← attribution_filter, h.2, attribution_acknowledgeAll]

/-- Numbered entries are the same when their kinds are. -/
theorem mapIdx_eq_iff {α β : Type} {k : α → GrblResponseType} {k' : β → GrblResponseType}
    {as : List α} {bs : List β} {pending : List PendingCommand} :
    (as.mapIdx fun n a => (k a, pending[n]?)) = (bs.mapIdx fun n b => (k' b, pending[n]?)) ↔
      as.map k = bs.map k' := by
  have hfst {γ : Type} (g : γ → GrblResponseType) (cs : List γ) :
      (cs.mapIdx fun n c => (g c, pending[n]?)).map Prod.fst = cs.map g := by
    rw [List.mapIdx_eq_zipIdx_map, List.map_map]
    conv_rhs => rw [← List.zipIdx_map_fst 0 cs, List.map_map]
    rfl
  have hsnd {γ : Type} (g : γ → GrblResponseType) (cs : List γ) :
      (cs.mapIdx fun n c => (g c, pending[n]?))
        = (cs.map g).mapIdx fun n c => (c, pending[n]?) := by
    rw [List.mapIdx_eq_zipIdx_map, List.mapIdx_eq_zipIdx_map, List.zipIdx_map, List.map_map]
    rfl
  constructor
  · intro h
    have hmap := congrArg (List.map Prod.fst) h
    rwa [hfst, hfst] at hmap
  · intro h
    rw [hsnd k, hsnd k', h]

/-- A token list whose bytes hold no LF holds no acknowledgement. -/
theorem marksOf_of_notMem : ∀ {us : List Token} {x : Bytes}, LF ∉ render us →
    marksOf x us = [] := by
  intro us
  induction us with
  | nil => intro x _; rfl
  | cons t us ih =>
    intro x h
    rw [render_cons, List.mem_append, not_or] at h
    cases t with
    | byte b =>
      have hb : b ≠ LF := fun hb => h.1 (by rw [hb]; simp [Token.render])
      rw [marksOf, if_neg hb]
      exact ih h.2
    | ok nuls crs => exact absurd (by simp [Token.render, okAck]) h.1
    | err text => exact absurd (by simp [Token.render, errAck]) h.1

/-- Where attribution follows wire order, one call on the bytes up to any token does. -/
theorem Attributed.prefix {f : FlowInner} {stream tail : Bytes} {us vs : List Token}
    (h : Attributed f stream) (hbuffer : LF ∉ f.statusBuffer)
    (hb : f.statusBuffer ++ stream = render (us ++ vs) ++ tail) (hc : Tidy [] (us ++ vs))
    (htail : LF ∉ tail) :
    (passAcks (marksOf [] us)).map Prod.fst = (marksOf [] us).map Mark.kind := by
  rw [render_append, List.append_assoc, List.append_eq_append_iff] at hb
  rcases hb with ⟨a, ha, hstream⟩ | ⟨a, ha, -⟩
  · -- the stream is cut behind these tokens
    have hfirst : Reads (passAcks (marksOf [] us)) (carry [] us ++ []) f (f.parseExtracted a) :=
      parseExtracted_reads (by rw [ha, List.append_nil]) hc.left List.not_mem_nil
    have hsecond := parseExtracted_continues (f := (f.parseExtracted a).1) (p := [])
      (c := render vs ++ tail) hc (by rw [hfirst.1]; rfl) rfl htail
    have hreads : Reads (passAcks (marksOf [] us) ++ passAcks (marksOf (carry [] us) vs))
        (carry [] (us ++ vs) ++ tail) f (f.parseChunks [a, render vs ++ tail]) := by
      rw [parseChunks_cons, parseChunks_cons]
      simpa [FlowInner.parseChunks] using hfirst.append hsecond
    -- attribution does not depend on the cutting, so the first part has its acknowledgements
    have hcut := (h [a, render vs ++ tail] [stream] (by simp) (by simp) (by simp [hstream])
      (by simp)).2
    have hwhole : f.statusBuffer ++ stream = render (us ++ vs) ++ tail := by
      rw [hstream, ← List.append_assoc, ← ha, render_append, List.append_assoc]
    rw [attributions_reads hreads, wireOrder, hwhole,
      scan_render htail _ _ hc List.not_mem_nil, mapIdx_eq_iff, marksOf_append, List.map_append,
      List.map_append] at hcut
    have hlen := congrArg List.length hcut
    simp only [List.length_append, List.length_map] at hlen
    have hus := length_passAcks_le (marksOf [] us)
    have hvs := length_passAcks_le (marksOf (carry [] us) vs)
    exact (List.append_inj hcut (by simp only [List.length_map]; omega)).1
  · -- they are all buffered, and none of them is an acknowledgement
    have hLF : LF ∉ render us := by
      rw [ha] at hbuffer
      exact fun hmem => hbuffer (List.mem_append_left _ hmem)
    rw [marksOf_of_notMem hLF]
    rfl

/-- **Attribution follows wire order, whatever the chunking, exactly when the passes find the
acknowledgements in wire order**, on the streams in which cutting out an acknowledgement does not
make another one. -/
theorem attribution_in_wire_order (f : FlowInner) (stream : Bytes) :
    (Separate (f.statusBuffer ++ stream) → InPassOrder (scanMarks [] (f.statusBuffer ++ stream)) →
      Attributed f stream) ∧
    (LF ∉ f.statusBuffer → Separate (f.statusBuffer ++ stream) → Attributed f stream →
      InPassOrder (scanMarks [] (f.statusBuffer ++ stream))) := by
  constructor
  · rintro ⟨ts, tail, hb, htail, hc⟩ horder
    have hwire (cs : List Bytes) (hne : cs ≠ []) (hcs : cs.flatten = stream) :
        attributions cs f = wireOrder stream f := by
      obtain ⟨mss, hmss, -, hreads⟩ := parseChunks_marks htail cs [] ts f.statusBuffer f hc rfl
        (by rw [hcs]; exact hb) (fun h => absurd h hne)
      have hscan : scanMarks [] (f.statusBuffer ++ stream) = mss.flatten := by
        rw [hb, scan_render htail ts [] hc List.not_mem_nil, hmss]
        rfl
      rw [hscan] at horder
      rw [attributions_reads hreads, wireOrder, hscan, mapIdx_eq_iff]
      exact horder.flatMap_passAcks
    intro cs cs' hne hne' hcs hcs'
    rw [hwire cs hne hcs, hwire cs' hne' hcs']
    exact ⟨rfl, rfl⟩
  · rintro hbuffer ⟨ts, tail, hb, htail, hc⟩ hattributed
    rw [hb, scan_render htail ts [] hc List.not_mem_nil]
    refine inPassOrder_of_prefixes fun us hus => ?_
    obtain ⟨vs, rfl⟩ := hus
    exact hattributed.prefix hbuffer hb hc htail

/-- Two commands are outstanding. -/
def twoPending : FlowInner :=
  { rxCount := 9, pending := [⟨3, none, "M3".toList⟩, ⟨6, some 1, "G1 X1".toList⟩] }

/-- An error and an `ok` in one chunk are attributed the other way round than in two
chunks, and not in wire order. -/
theorem attribution_depends_on_chunking :
    attributions [ascii "error:1\nok\n"] twoPending
        ≠ attributions [ascii "error:1\n", ascii "ok\n"] twoPending ∧
      attributions [ascii "error:1\nok\n"] twoPending
        ≠ wireOrder (ascii "error:1\nok\n") twoPending := by
  decide

/-- An `ok` before an error is attributed in wire order. -/
theorem attribution_in_wire_order_twoPending :
    Attributed twoPending (ascii "ok\nerror:1\n") := by
  refine (attribution_in_wire_order twoPending (ascii "ok\nerror:1\n")).1 ?_ ?_
  · refine ⟨[.ok 0 0, .err (ascii "1")], [], by decide, List.not_mem_nil, ?_⟩
    exact ⟨⟨by decide, not_okEnd_of_notMem (by decide)⟩, show ¬ errorMarker <:+: [] by decide⟩
  · exact ⟨by decide, by decide⟩

end Raydriver
