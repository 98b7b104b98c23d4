import Raydriver.Grbl.Chunks

/-!
# Demultiplexing interleaved acknowledgements

GRBL acknowledges while a status report is half sent, so acknowledgements stand
at any byte of the informational text, also inside a line.  For informational
lines that hold no acknowledgement themselves the parser hands the lines on
unharmed and counts every acknowledgement once.

## Main definitions

* `InfoLine`, `infoStream` — informational lines and their bytes.
* `InsertedAck`, `insertedErrors` — the acknowledgements put into the stream.
* `parseIncomingAll` — the responses of successive calls of `parse_incoming`.
* `plainResponses` — the same stream through the plain splitter of `SimpleCore`.

## Main results

* `demux_interleaved` — **lines and acknowledgements are told apart for every
  insertion and every cutting**, and as the plain splitter does where it can.
-/

namespace Raydriver

open FlowInner

/-! ### Informational lines -/

/-- An informational line as it stands on the wire, with its line ending. -/
structure InfoLine where
  bytes : Bytes
  text : Text
  crlf : Bool
  decoded : fromUtf8 bytes = some text
  nonempty : text ≠ []
  trimmed : trim text = text
  no_CR : CR ∉ bytes
  no_LF : LF ∉ bytes
  no_NUL : 0 ∉ bytes
  no_ok : ¬ ascii "ok" <:+: bytes
  no_error : ¬ errorMarker <:+: bytes

/-- The line and its ending but for the LF. -/
def InfoLine.body (l : InfoLine) : Bytes := l.bytes ++ if l.crlf then [CR] else []

/-- The bytes of informational lines. -/
def infoStream (ls : List InfoLine) : Bytes := ls.flatMap fun l => l.body ++ [LF]

/-- An acknowledgement that may stand in the stream: `ok`, CRs, LF, or `error:`, a
text free of CR, LF, NUL and `ok`, LF. -/
def InsertedAck : Token → Prop
  | .byte _ => True
  | .ok nuls _ => nuls = 0
  | .err text => CR ∉ text ∧ LF ∉ text ∧ 0 ∉ text ∧ ¬ ascii "ok" <:+: text ∧
      (fromUtf8 text).isSome = true

/-- The errors of the stream as they were inserted. -/
def insertedErrors : List Token → List Text
  | [] => []
  | .byte _ :: ts => insertedErrors ts
  | .ok _ _ :: ts => insertedErrors ts
  | .err text :: ts => ("error:".toList ++ (fromUtf8 text).getD []) :: insertedErrors ts

/-! ### Infixes across a line ending -/

/-- A needle that ends in a byte the appended bytes do not hold stands before them. -/
theorem infix_of_infix_append {n x t : Bytes} {z : UInt8} (h : n ++ [z] <:+: x ++ t)
    (hz : z ∉ t) : n ++ [z] <:+: x := by
  obtain ⟨u, v, he⟩ := h
  rw [List.append_eq_append_iff] at he
  rcases he with ⟨w, hx, -⟩ | ⟨w, hx, ht⟩
  · exact ⟨u, w, hx.symm⟩
  · rcases List.eq_nil_or_concat w with rfl | ⟨w, c, rfl⟩
    · exact ⟨u, [], by rw [hx]; simp⟩
    · rw [List.concat_eq_append, ← List.append_assoc, ← List.append_assoc] at hx
      obtain ⟨-, hc⟩ := List.append_inj' hx rfl
      obtain rfl : z = c := List.head_eq_of_cons_eq hc
      exact absurd (by rw [ht]; simp) hz

/-- Bytes without `ok` and NUL do not end in an acknowledgement, whatever CRs follow. -/
theorem not_okEnd_of_no_ok {x : Bytes} (hok : ¬ ascii "ok" <:+: x) (hnul : 0 ∉ x) (k : ℕ) :
    ¬ OkEnd (x ++ List.replicate k CR) := by
  rintro ⟨y, nuls, crs, he⟩
  have hzero : nuls = 0 := by
    by_contra hne
    have hmem : (0 : UInt8) ∈ x ++ List.replicate k CR ++ [LF] := by
      rw [he, okAck]
      simp [hne]
    simp only [List.mem_append, List.mem_replicate, List.mem_singleton] at hmem
    rcases hmem with (h | ⟨-, h⟩) | h
    · exact hnul h
    · exact absurd h (by decide)
    · exact absurd h (by decide)
  subst hzero
  rw [List.append_assoc] at he
  refine hok (infix_of_infix_append (n := ['o'.toUInt8]) (z := 'k'.toUInt8)
    (t := List.replicate k CR ++ [LF]) ⟨y, List.replicate crs CR ++ [LF], ?_⟩ ?_)
  · rw [he]
    simp [okAck]
  · simp only [List.mem_append, List.mem_replicate, List.mem_singleton, not_or, not_and]
    exact ⟨fun _ => by decide, by decide⟩

/-- An ASCII start of the decoded text is there in the bytes. -/
theorem prefix_of_fromUtf8 : ∀ (s t : Text) (x : Bytes), (∀ c ∈ s, c.toNat < 0x80) →
    fromUtf8 x = some (s ++ t) → s.map Char.toUInt8 <+: x := by
  intro s
  induction s with
  | nil => intro t x _ _; exact List.nil_prefix
  | cons c s ih =>
    intro t x hs h
    obtain ⟨x', rfl, hx'⟩ := fromUtf8_cons_ascii (hs c List.mem_cons_self) h
    obtain ⟨v, hv⟩ := ih t x' (fun d hd => hs d (List.mem_cons_of_mem c hd)) hx'
    exact ⟨v, by rw [List.map_cons, List.cons_append, hv]⟩

namespace InfoLine

variable (l : InfoLine)

theorem body_eq : ∃ k, l.body = l.bytes ++ List.replicate k CR := by
  rw [body]
  cases l.crlf with
  | false => exact ⟨0, rfl⟩
  | true => exact ⟨1, rfl⟩

theorem LF_notMem_body : LF ∉ l.body := by
  obtain ⟨k, hk⟩ := l.body_eq
  rw [hk, List.mem_append, List.mem_replicate, not_or, not_and]
  exact ⟨l.no_LF, fun _ => by decide⟩

theorem lineTexts_body : lineTexts l.body = [l.text] := by
  obtain ⟨k, hk⟩ := l.body_eq
  rw [hk, lineTexts_eq l.decoded l.no_LF (by rw [l.trimmed]; exact l.nonempty), l.trimmed]

theorem quiet_body : Quiet l.body := by
  obtain ⟨k, hk⟩ := l.body_eq
  refine ⟨?_, ?_, ?_⟩
  · rw [hk]
    exact not_okEnd_of_no_ok l.no_ok l.no_NUL k
  · rw [hk]
    intro h
    refine l.no_error (infix_of_infix_append (n := ascii "error") (z := ':'.toUInt8) h ?_)
    rw [List.mem_replicate, not_and]
    exact fun _ => by decide
  · intro t ht
    rw [lineTexts_body, List.mem_singleton] at ht
    subst ht
    refine ⟨?_, ?_⟩
    · intro he
      refine l.no_ok (prefix_of_fromUtf8 "ok".toList [] _ (by simp) ?_).isInfix
      rw [l.decoded, he, List.append_nil]
    · by_contra hstart
      rw [Bool.not_eq_false, startsWith, List.isPrefixOf_iff_prefix] at hstart
      obtain ⟨t, ht⟩ := hstart
      refine l.no_error (prefix_of_fromUtf8 "error:".toList t _ (by simp) ?_).isInfix
      rw [l.decoded, ht]

end InfoLine

/-! ### The stream is clean -/

theorem finished_infoStream (ls : List InfoLine) :
    finished [] (infoStream ls) = ls.map InfoLine.text ∧ unfinished [] (infoStream ls) = [] := by
  induction ls with
  | nil => exact ⟨rfl, rfl⟩
  | cons l ls ih =>
    have hline : finished [] (l.body ++ [LF]) = [l.text] ∧ unfinished [] (l.body ++ [LF]) = [] := by
      rw [finished_append, unfinished_append, finished_of_notMem _ _ l.LF_notMem_body,
        unfinished_of_notMem _ _ l.LF_notMem_body]
      simp [finished, unfinished, l.lineTexts_body]
    rw [show infoStream (l :: ls) = l.body ++ [LF] ++ infoStream ls from rfl,
      finished_append _ (l.body ++ [LF]), unfinished_append _ (l.body ++ [LF]), hline.1, hline.2]
    exact ⟨congrArg (l.text :: ·) ih.1, ih.2⟩

theorem errText_of_insertedAck {text : Bytes} (h : InsertedAck (.err text)) : ErrText text := by
  obtain ⟨-, hLF, hnul, hok, hsome⟩ := h
  obtain ⟨t, ht⟩ := Option.isSome_iff_exists.mp hsome
  refine ⟨hLF, by simpa using not_okEnd_of_no_ok hok hnul 0, ?_⟩
  rw [errAck, List.append_assoc, fromUtf8_append (t := "error:".toList) (by decide),
    fromUtf8_append ht]
  rfl

/-- Acknowledgements inserted into informational lines leave a clean stream. -/
theorem clean_of_infoStream : ∀ {ts : List Token} {x : Bytes} {ls : List InfoLine}, LF ∉ x →
    x ++ info ts = infoStream ls → (∀ t ∈ ts, InsertedAck t) → Clean x ts := by
  intro ts
  induction ts with
  | nil =>
    intro x ls hx h _
    cases ls with
    | nil =>
      obtain rfl : x = [] := by simpa [infoStream, info] using h
      exact (by decide : ¬ errorMarker <:+: [])
    | cons l ls =>
      refine absurd ?_ hx
      rw [info, List.append_nil, infoStream, List.flatMap_cons] at h
      rw [h]
      simp
  | cons t ts ih =>
    intro x ls hx h hack
    have hack' : ∀ u ∈ ts, InsertedAck u := fun u hu => hack u (List.mem_cons_of_mem t hu)
    cases t with
    | byte b =>
      simp only [Clean]
      split_ifs with hb
      -- the newline ends one of the lines, which is quiet
      · subst hb
        cases ls with
        | nil => simp [infoStream, info] at h
        | cons l ls =>
          rw [info, infoStream, List.flatMap_cons, List.append_assoc, List.singleton_append] at h
          obtain rfl := eq_of_append_LF hx l.LF_notMem_body h
          have hrest : [] ++ info ts = infoStream ls :=
            (List.cons.inj (List.append_cancel_left h)).2
          exact ⟨l.quiet_body, ih List.not_mem_nil hrest hack'⟩
      · have hrest : (x ++ [b]) ++ info ts = infoStream ls := by simpa [info] using h
        exact ih (by simp [hx, Ne.symm hb]) hrest hack'
    | ok nuls crs => exact ih hx h hack'
    | err text => exact ⟨errText_of_insertedAck (hack _ List.mem_cons_self), ih hx h hack'⟩

/-! ### Responses by kind -/

/-- Successive calls of `parse_incoming`. -/
def FlowInner.parseIncomingAll : List Bytes → FlowInner → FlowInner × List GrblResponse
  | [], f => (f, [])
  | c :: cs, f =>
    let (g, rs) := f.parseIncoming c
    let (h, rs') := parseIncomingAll cs g
    (h, rs ++ rs')

/-- The texts of the responses of one kind. -/
def textsOf (k : GrblResponseType) (rs : List GrblResponse) : List Text :=
  (rs.filter fun r => r.rtype = k).map GrblResponse.text

theorem parseIncomingAll_eq : ∀ (cs : List Bytes) (f : FlowInner),
    f.parseIncomingAll cs
      = ((f.parseChunks cs).1, (f.parseChunks cs).2.map Extracted.toResponse) := by
  intro cs
  induction cs with
  | nil => intro f; rfl
  | cons c cs ih =>
    intro f
    simp only [FlowInner.parseIncomingAll, FlowInner.parseIncoming, ih, parseChunks_cons,
      List.map_append]

theorem filterMap_ackText_ack (r : GrblResponseType) (t : Text) (p : Option PendingCommand)
    (es : List Extracted) : (Extracted.ack r t p :: es).filterMap Extracted.ackText
      = (r, t) :: es.filterMap Extracted.ackText := rfl

theorem filterMap_ackText_line (t : Text) (es : List Extracted) :
    (Extracted.line t :: es).filterMap Extracted.ackText = es.filterMap Extracted.ackText := rfl

theorem filterMap_lineText_ack (r : GrblResponseType) (t : Text) (p : Option PendingCommand)
    (es : List Extracted) : (Extracted.ack r t p :: es).filterMap Extracted.lineText
      = es.filterMap Extracted.lineText := rfl

theorem filterMap_lineText_line (t : Text) (es : List Extracted) :
    (Extracted.line t :: es).filterMap Extracted.lineText
      = t :: es.filterMap Extracted.lineText := rfl

theorem textsOf_ack {k : GrblResponseType} (hk : k ≠ .line) (es : List Extracted) :
    textsOf k (es.map Extracted.toResponse)
      = ((es.filterMap Extracted.ackText).filter fun a => a.1 = k).map Prod.snd := by
  induction es with
  | nil => rfl
  | cons e es ih =>
    rw [textsOf, List.map_cons, List.filter_cons] at *
    cases e with
    | ack r t p =>
      have htype : (Extracted.ack r t p).toResponse.rtype = r := by cases r <;> rfl
      have htext : (Extracted.ack r t p).toResponse.text = t := by cases r <;> rfl
      rw [filterMap_ackText_ack, List.filter_cons, htype]
      split_ifs
      · rw [List.map_cons, List.map_cons, ih, htext]
      · exact ih
    | line t =>
      rw [filterMap_ackText_line, ← ih]
      simp [Extracted.toResponse, Ne.symm hk]

theorem textsOf_line {es : List Extracted}
    (hes : ∀ a ∈ es.filterMap Extracted.ackText, a.1 ≠ .line) :
    textsOf .line (es.map Extracted.toResponse) = es.filterMap Extracted.lineText := by
  induction es with
  | nil => rfl
  | cons e es ih =>
    cases e with
    | ack r t p =>
      rw [filterMap_ackText_ack, List.forall_mem_cons] at hes
      rw [filterMap_lineText_ack, ← ih hes.2, textsOf, List.map_cons, List.filter_cons_of_neg]
      · rfl
      · cases r <;> simp [Extracted.toResponse] at hes ⊢
    | line t =>
      rw [filterMap_ackText_line] at hes
      rw [filterMap_lineText_line, ← ih hes, textsOf, List.map_cons, List.filter_cons_of_pos]
      · rfl
      · rfl

theorem filter_ok_acksOf (ts : List Token) :
    (acksOf ts).filter (fun a => a.1 = .ok)
      = List.replicate (ts.countP (Token.isOk fun _ => true)) (.ok, "ok".toList) := by
  induction ts with
  | nil => rfl
  | cons t ts ih =>
    rw [List.countP_cons]
    cases t with
    | byte b => simpa [acksOf] using ih
    | ok nuls crs => simp [acksOf, ih, List.replicate_succ]
    | err text => simpa [acksOf] using ih

theorem filter_error_acksOf (ts : List Token) :
    (acksOf ts).filter (fun a => a.1 = .error) = acksOf (ts.filter Token.isErr) := by
  induction ts with
  | nil => rfl
  | cons t ts ih =>
    rw [List.filter_cons (p := Token.isErr)]
    cases t with
    | byte b => simpa [acksOf] using ih
    | ok nuls crs => simpa [acksOf] using ih
    | err text => simpa [acksOf] using ih

/-- Pass order and wire order agree on each kind. -/
theorem filter_passOrder {k : GrblResponseType} (hk : k ≠ .line) (ts : List Token) :
    (passOrder ts).filter (fun a => a.1 = k) = (acksOf ts).filter fun a => a.1 = k := by
  have herr : ∀ a ∈ acksOf (ts.filter Token.isErr), a.1 = .error := fun a ha =>
    fst_acksOf_filter_isErr ts a.1 (List.mem_map_of_mem ha)
  have hnil : (acksOf (ts.filter Token.isErr)).filter (fun a => a.1 = .ok) = [] :=
    List.filter_eq_nil_iff.mpr fun a ha => by simp [herr a ha]
  have hself : (acksOf (ts.filter Token.isErr)).filter (fun a => a.1 = .error)
      = acksOf (ts.filter Token.isErr) :=
    List.filter_eq_self.mpr fun a ha => by simp [herr a ha]
  rw [passOrder_eq, List.filter_append, List.filter_replicate]
  cases k with
  | ok => simp [filter_ok_acksOf, hnil]
  | error => simp [filter_error_acksOf, hself]
  | line => exact absurd rfl hk

/-! ### The plain splitter -/

/-- How `SimpleCore::handle_line` tells acknowledgements from other lines. -/
def plainKind (line : Text) : GrblResponseType × Text :=
  if line = "ok".toList then (.ok, line)
  else if startsWith "error:".toList line then (.error, line)
  else (.line, line)

/-- The texts of one kind among the lines of the plain splitter. -/
def plainTextsOf (k : GrblResponseType) (ls : List Text) : List Text :=
  ((ls.map plainKind).filter fun a => a.1 = k).map Prod.snd

/-- Acknowledgements stand only between lines. -/
def AcksBetweenLines : Bytes → List Token → Prop
  | _, [] => True
  | x, .byte b :: ts => AcksBetweenLines (unfinished x [b]) ts
  | x, .ok _ _ :: ts => x = [] ∧ AcksBetweenLines x ts
  | x, .err _ :: ts => x = [] ∧ AcksBetweenLines x ts

theorem plainTextsOf_append (k : GrblResponseType) (ls ms : List Text) :
    plainTextsOf k (ls ++ ms) = plainTextsOf k ls ++ plainTextsOf k ms := by
  simp [plainTextsOf]

/-- The text of an error acknowledgement, trimmed. -/
theorem errText_eq {text : Bytes} {t : Text} (h : fromUtf8 text = some t) :
    errText text = trim ("error:".toList ++ t) := by
  have hutf : fromUtf8 (errAck text) = some ("error:".toList ++ t ++ ['\n']) := by
    rw [errAck, List.append_assoc, fromUtf8_append (t := "error:".toList) (by decide),
      fromUtf8_append h]
    rfl
  rw [errText, hutf, Option.getD_some, trim_append _ (by simp [isWhitespace])]

/-- The marker survives the trimming of an error line. -/
theorem prefix_trim_error (t : Text) : "error:".toList <+: trim ("error:".toList ++ t) := by
  have hdrop : ("error:".toList ++ t).dropWhile isWhitespace = "error:".toList ++ t := rfl
  rw [trim, hdrop]
  exact prefix_trimEnd (s := "error".toList) (by decide) t

theorem lineTexts_okHead (crs : ℕ) : lineTexts (okHead 0 crs) = ["ok".toList] :=
  lineTexts_eq (x := ascii "ok") (t := "ok".toList) (by decide) (by decide) (by decide) crs

theorem lineTexts_error {text : Bytes} {t : Text} (h : fromUtf8 text = some t) (hLF : LF ∉ text) :
    lineTexts (errorMarker ++ text) = [trim ("error:".toList ++ t)] := by
  have hutf : fromUtf8 (errorMarker ++ text) = some ("error:".toList ++ t) := by
    rw [fromUtf8_append (t := "error:".toList) (by decide), h]
    rfl
  have hLF' : LF ∉ errorMarker ++ text := by
    rw [List.mem_append, not_or]
    exact ⟨by decide, hLF⟩
  have hne : trim ("error:".toList ++ t) ≠ [] := by
    intro he
    have h6 := (prefix_trim_error t).length_le
    rw [he] at h6
    exact absurd h6 (by decide)
  simpa using lineTexts_eq hutf hLF' hne 0

theorem plainTextsOf_ok (k : GrblResponseType) :
    plainTextsOf k ["ok".toList] = if k = .ok then ["ok".toList] else [] := by
  cases k <;> rfl

theorem plainTextsOf_error {t : Text} (h : "error:".toList <+: t) (k : GrblResponseType) :
    plainTextsOf k [t] = if k = .error then [t] else [] := by
  have hok : t ≠ "ok".toList := by
    rintro rfl
    exact absurd h (by decide)
  have hkind : plainKind t = (.error, t) := by
    rw [plainKind, if_neg hok, if_pos]
    exact List.isPrefixOf_iff_prefix.mpr h
  cases k <;> simp [plainTextsOf, hkind]

theorem plainTextsOf_line {ls : List Text}
    (h : ∀ t ∈ ls, t ≠ "ok".toList ∧ startsWith "error:".toList t = false) (k : GrblResponseType) :
    plainTextsOf k ls = if k = .line then ls else [] := by
  have hkind : ls.map plainKind = ls.map fun t => (.line, t) := by
    refine List.map_congr_left fun t ht => ?_
    rw [plainKind, if_neg (h t ht).1, (h t ht).2]
    rfl
  rw [plainTextsOf, hkind]
  cases k <;> simp [List.filter_map, Function.comp_def]

/-- What the plain splitter hands on for a stream with acknowledgements between its
lines, by kind. -/
theorem plainTextsOf_finished (k : GrblResponseType) : ∀ {ts : List Token} {x : Bytes},
    Clean x ts → (∀ t ∈ ts, InsertedAck t) → AcksBetweenLines x ts → LF ∉ x →
    plainTextsOf k (finished x (render ts))
      = if k = .line then lineEvents x ts
        else ((acksOf ts).filter fun a => a.1 = k).map Prod.snd := by
  intro ts
  induction ts with
  | nil => intro x _ _ _ _; cases k <;> rfl
  | cons t ts ih =>
    intro x hc hack hb hx
    have hack' : ∀ u ∈ ts, InsertedAck u := fun u hu => hack u (List.mem_cons_of_mem t hu)
    -- an acknowledgement is a line of its own
    have line (y : Bytes) (txt : Text) (hy : LF ∉ y) (hl : lineTexts y = [txt]) :
        finished [] (y ++ [LF] ++ render ts) = txt :: finished [] (render ts) := by
      rw [finished_append, finished_append, unfinished_append, finished_of_notMem _ _ hy,
        unfinished_of_notMem _ _ hy]
      simp [finished, unfinished, hl]
    cases t with
    | byte b =>
      simp only [Clean] at hc
      rw [render_cons, Token.render, List.singleton_append, finished, lineEvents, info, finished]
      simp only [AcksBetweenLines, unfinished] at hb
      by_cases hLF : b = LF
      · rw [if_pos hLF] at hc hb ⊢
        rw [plainTextsOf_append, plainTextsOf_line hc.1.not_ack,
          ih hc.2 hack' hb List.not_mem_nil, if_pos hLF, acksOf]
        split_ifs <;> rfl
      · rw [if_neg hLF] at hc hb ⊢
        rw [ih hc hack' hb (by simp [hx, Ne.symm hLF]), if_neg hLF, acksOf]
        rfl
    | ok nuls crs =>
      obtain rfl : nuls = 0 := hack _ List.mem_cons_self
      obtain ⟨rfl, hb⟩ := hb
      rw [render_cons, Token.render, okAck_eq,
        line _ _ (LF_notMem_okHead 0 crs) (lineTexts_okHead crs), ← List.singleton_append,
        plainTextsOf_append, plainTextsOf_ok, ih hc hack' hb List.not_mem_nil]
      cases k <;> rfl
    | err text =>
      obtain ⟨rfl, hb⟩ := hb
      obtain ⟨-, hLF, -, -, hsome⟩ := hack _ List.mem_cons_self
      obtain ⟨t, ht⟩ := Option.isSome_iff_exists.mp hsome
      have hLF' : LF ∉ errorMarker ++ text := by
        rw [List.mem_append, not_or]
        exact ⟨by decide, hLF⟩
      rw [render_cons, Token.render, errAck, line _ _ hLF' (lineTexts_error ht hLF),
        ← List.singleton_append, plainTextsOf_append, plainTextsOf_error (prefix_trim_error t),
        ih hc.2 hack' hb List.not_mem_nil]
      cases k <;> simp [acksOf, errText_eq ht, lineEvents, info]

theorem filter_flatMap_passOrder {k : GrblResponseType} (hk : k ≠ .line)
    (vss : List (List Token)) : (vss.flatMap passOrder).filter (fun a => a.1 = k)
      = (acksOf vss.flatten).filter fun a => a.1 = k := by
  induction vss with
  | nil => rfl
  | cons vs vss ih =>
    rw [List.flatMap_cons, List.flatten_cons, acksOf_append, List.filter_append,
      List.filter_append, filter_passOrder hk, ih]

theorem ne_line_of_mem_passOrder {a : GrblResponseType × Text} {ts : List Token}
    (h : a ∈ passOrder ts) : a.1 ≠ .line := by
  rw [passOrder_eq, List.mem_append, List.mem_replicate] at h
  rcases h with ⟨-, rfl⟩ | h
  · decide
  · rw [fst_acksOf_filter_isErr ts a.1 (List.mem_map_of_mem h)]
    decide

theorem snd_acksOf_error : ∀ {ts : List Token}, (∀ t ∈ ts, InsertedAck t) →
    ((acksOf ts).filter fun a => a.1 = .error).map Prod.snd = (insertedErrors ts).map trim := by
  intro ts
  induction ts with
  | nil => intro _; rfl
  | cons t ts ih =>
    intro hack
    have ih := ih fun u hu => hack u (List.mem_cons_of_mem t hu)
    cases t with
    | byte b => exact ih
    | ok nuls crs => simpa [acksOf, insertedErrors] using ih
    | err text =>
      obtain ⟨t, ht⟩ := Option.isSome_iff_exists.mp (hack _ List.mem_cons_self).2.2.2.2
      simpa [acksOf, insertedErrors, errText_eq ht, ht] using ih

/-- **Interleaved acknowledgements are told apart from the lines they stand in**, for
every insertion and every cutting: the lines come out unharmed, every `ok` and every
error is reported once, in order, the errors without surrounding whitespace, and
nothing is left over.  With acknowledgements between lines only, this is what the plain
splitter hands on. -/
theorem demux_interleaved (ls : List InfoLine) (ts : List Token) (cs : List Bytes)
    (f : FlowInner) (hf : f.statusBuffer = []) (hinfo : info ts = infoStream ls)
    (hack : ∀ t ∈ ts, InsertedAck t) (hcs : cs.flatten = render ts) :
    textsOf .line (f.parseIncomingAll cs).2 = ls.map InfoLine.text ∧
      (textsOf .ok (f.parseIncomingAll cs).2).length = ts.countP (Token.isOk fun _ => true) ∧
      textsOf .error (f.parseIncomingAll cs).2 = (insertedErrors ts).map trim ∧
      (f.parseIncomingAll cs).1.statusBuffer = [] ∧
      (AcksBetweenLines [] ts → ∀ k, textsOf k (f.parseIncomingAll cs).2
        = plainTextsOf k (feedLines cs []).2.flatten) := by
  have hc : Clean [] ts := clean_of_infoStream List.not_mem_nil hinfo hack
  obtain ⟨hlines, hcarry⟩ := finished_infoStream ls
  have hnil : cs = [] → ts = [] := by
    rintro rfl
    have hlen := length_le_render ts
    rw [← hcs] at hlen
    exact List.length_eq_zero_iff.mp (Nat.le_zero.mp hlen)
  obtain ⟨vss, rfl, -, hfst, hacks, hline⟩ :=
    parseChunks_tokens List.not_mem_nil cs [] ts [] f hc (by rw [hf]; rfl)
      (by rw [hcs]; simp) hnil
  have hacktexts : (f.parseChunks cs).2.filterMap Extracted.ackText = vss.flatMap passOrder := by
    rw [← ackText_filter, hacks, ackText_acknowledgeAll]
  -- within each kind the passes keep the order of the stream
  have hkind (k : GrblResponseType) (hk : k ≠ .line) :
      textsOf k (f.parseIncomingAll cs).2
        = ((acksOf vss.flatten).filter fun a => a.1 = k).map Prod.snd := by
    rw [parseIncomingAll_eq, textsOf_ack hk, hacktexts, filter_flatMap_passOrder hk]
  have hline' : textsOf .line (f.parseIncomingAll cs).2 = lineEvents [] vss.flatten := by
    rw [parseIncomingAll_eq, textsOf_line, hline]
    · rfl
    · intro a ha
      rw [hacktexts, List.mem_flatMap] at ha
      obtain ⟨vs, -, ha⟩ := ha
      exact ne_line_of_mem_passOrder ha
  refine ⟨?_, ?_, ?_, ?_, ?_⟩
  · rw [hline', lineEvents, hinfo, hlines]
  · rw [hkind .ok (by decide), filter_ok_acksOf]
    simp
  · rw [hkind .error (by decide), snd_acksOf_error hack]
  · rw [parseIncomingAll_eq, hfst]
    simp [acked, carry, hinfo, hcarry]
  · intro hb k
    rw [(feedLines_eq cs [] List.not_mem_nil).2, hcs, plainTextsOf_finished k hc hack hb
      List.not_mem_nil]
    split_ifs with hk
    · rw [hk, hline']
    · exact hkind k hk

/-- An error text with a space behind it is not reported as it was inserted. -/
theorem error_text_trimmed :
    ¬ ∀ (ls : List InfoLine) (ts : List Token) (cs : List Bytes) (f : FlowInner),
      f.statusBuffer = [] → info ts = infoStream ls → (∀ t ∈ ts, InsertedAck t) →
      cs.flatten = render ts →
      textsOf .error (f.parseIncomingAll cs).2 = insertedErrors ts := by
  intro h
  have herr : ∀ t ∈ [Token.err (ascii "20 ")], InsertedAck t := by
    intro t ht
    rw [List.mem_singleton] at ht
    subst ht
    exact ⟨by decide, by decide, by decide, by decide, by decide⟩
  exact absurd (h [] [.err (ascii "20 ")] [ascii "error:20 \n"] {} rfl rfl herr (by decide))
    (by decide)

/-- A status report. -/
def idleReport : InfoLine where
  bytes := ascii "<Idle>"
  text := "<Idle>".toList
  crlf := true
  decoded := by decide
  nonempty := by decide
  trimmed := by decide
  no_CR := by decide
  no_LF := by decide
  no_NUL := by decide
  no_ok := by decide
  no_error := by decide

/-- An `ok` in the middle of a status report and an error behind it. -/
def interleavedReport : List Token :=
  (ascii "<Id").map .byte ++ .ok 0 1 :: (ascii "le>\r\n").map .byte ++ [.err (ascii "20")]

theorem demux_interleavedReport :
    textsOf .line (FlowInner.parseIncomingAll [ascii "<Idok\r", ascii "\nle>\r\nerr",
      ascii "or:20\n"] {}).2 = ["<Idle>".toList] := by
  refine (demux_interleaved [idleReport] interleavedReport _ {} rfl (by decide) ?_ (by decide)).1
  have hbytes (l : Bytes) : ∀ t ∈ l.map Token.byte, InsertedAck t := by
    intro t ht
    obtain ⟨b, -, rfl⟩ := List.mem_map.mp ht
    trivial
  intro t ht
  rw [interleavedReport, List.mem_append, List.mem_append, List.mem_cons,
    List.mem_singleton] at ht
  rcases ht with (ht | rfl | ht) | rfl
  · exact hbytes _ t ht
  · rfl
  · exact hbytes _ t ht
  · exact ⟨by decide, by decide, by decide, by decide, by decide⟩

end Raydriver
