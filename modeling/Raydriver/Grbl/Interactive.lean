import Raydriver.Grbl.Lock
import Raydriver.Grbl.Requests
import Raydriver.Grbl.Effects
import Raydriver.Grbl.Conservation
import Raydriver.Grbl.Demux
import Raydriver.Grbl.OneRun

/-!
# The response of an interactive command

`execute_interactive_command` keeps `cmd_lock` from before it sends its command until the
response is there, so nobody else talks to the device in between.  The response is every
line that `handle_rx` collects until it sees the acknowledgement.  The parser cuts the
acknowledgement out of a chunk before it splits the lines, and `handle_rx` takes all lines
of a chunk before its acknowledgements: lines behind the acknowledgement that arrive with
it are collected too.

## Main definitions

* `Listener` — the session and the chunks received.
* `answerTokens` — the device's output: text, the acknowledgement, more text.
* `behindAck` — what arrives behind the acknowledgement in its chunk.
* `Separate` — what makes the response the command's own.
* `Asking`, `Answered` — the request before and behind the acknowledgement.

## Main results

* `handleRx_hears` — one chunk and the responding request.
* `Talk.step` — the invariant of a command under way.
* `interactive_returns_own_response` — **the command returns the informational lines
  before its acknowledgement, and the acknowledgement**, when the text holds no further
  acknowledgement, no such line looks like a torn status report and none is completed behind
  the acknowledgement in its chunk.
-/

namespace Raydriver

open Lts FlowInner

/-! ### The device's output -/

/-- The device's output around one acknowledgement. -/
def answerTokens (before : Bytes) (ack : Token) (after : Bytes) : List Token :=
  before.map .byte ++ ack :: after.map .byte

/-- The text of an acknowledgement, as it is added to the response. -/
def Token.answer (t : Token) : List Text := (acksOf [t]).map Prod.snd

/-- What arrives behind the first `n` bytes, but in the same chunk as the last of them. -/
def behindAck : ℕ → List Bytes → Bytes
  | _, [] => []
  | n, c :: cs => if n ≤ c.length then c.drop n else behindAck (n - c.length) cs

/-- The chunks behind that one do not matter. -/
theorem behindAck_append (ds : List Bytes) : ∀ (cs : List Bytes) (n : ℕ), 0 < n →
    n ≤ cs.flatten.length → behindAck n (cs ++ ds) = behindAck n cs := by
  intro cs
  induction cs with
  | nil => intro n hpos hn; exact absurd hn (Nat.not_le.mpr hpos)
  | cons c cs ih =>
    intro n hpos hn
    rw [List.cons_append, behindAck, behindAck]
    split_ifs with hc
    · rfl
    · rw [List.flatten_cons, List.length_append] at hn
      exact ih _ (by omega) (by omega)

/-- The chunk that brings the last of the bytes. -/
theorem behindAck_concat (c : Bytes) : ∀ (cs : List Bytes) (n : ℕ), cs.flatten.length < n →
    n ≤ cs.flatten.length + c.length →
    behindAck n (cs ++ [c]) = c.drop (n - cs.flatten.length) := by
  intro cs
  induction cs with
  | nil =>
    intro n _ hn
    rw [List.flatten_nil, List.length_nil, Nat.zero_add] at hn
    rw [List.nil_append, behindAck, if_pos hn]
    rfl
  | cons d cs ih =>
    intro n hlt hn
    rw [List.flatten_cons, List.length_append] at hlt hn ⊢
    rw [List.cons_append, behindAck, if_neg (by omega), ih _ (by omega) (by omega), Nat.sub_sub]

/-- Before the last of the bytes there is nothing behind them. -/
theorem behindAck_of_lt : ∀ (cs : List Bytes) (n : ℕ), cs.flatten.length < n →
    behindAck n cs = [] := by
  intro cs
  induction cs with
  | nil => intro n _; rfl
  | cons c cs ih =>
    intro n hlt
    rw [List.flatten_cons, List.length_append] at hlt
    rw [behindAck, if_neg (by omega)]
    exact ih _ (by omega)

theorem render_answerTokens (before : Bytes) (ack : Token) (after : Bytes) :
    render (answerTokens before ack after) = before ++ (ack.render ++ after) := by
  rw [answerTokens, render_append, render_bytes, render_cons, render_bytes]

theorem info_answerTokens {ack : Token} (before : Bytes) (hack : ack.isAck = true)
    (after : Bytes) : info (answerTokens before ack after) = before ++ after := by
  rw [answerTokens, info_append, info_bytes]
  cases ack with
  | byte b => cases hack
  | ok nuls crs => rw [info, info_bytes]
  | err text => rw [info, info_bytes]

/-- The tokens read so far are text before the acknowledgement, or include it. -/
theorem answerTokens_prefix {before after : Bytes} {ack : Token} {us vs : List Token}
    (h : answerTokens before ack after = us ++ vs) :
    (∃ d d', before = d ++ d' ∧ us = d.map .byte ∧ vs = answerTokens d' ack after) ∨
      ∃ e e', after = e ++ e' ∧ us = answerTokens before ack e ∧ vs = e'.map .byte := by
  rw [answerTokens, List.append_eq_append_iff] at h
  rcases h with ⟨ts, rfl, hts⟩ | ⟨ts, hbefore, rfl⟩
  · rcases List.cons_eq_append_iff.mp hts with ⟨rfl, rfl⟩ | ⟨ts, rfl, hafter⟩
    · exact .inl ⟨before, [], (List.append_nil _).symm, List.append_nil _, rfl⟩
    · obtain ⟨e, e', rfl, rfl, rfl⟩ := List.map_eq_append_iff.mp hafter
      exact .inr ⟨e, e', rfl, rfl, rfl⟩
  · obtain ⟨d, d', rfl, rfl, rfl⟩ := List.map_eq_append_iff.mp hbefore
    exact .inl ⟨d, d', rfl, rfl, rfl⟩

/-! ### One chunk and the responding request -/

/-- A collected line is added to an unfinished request. -/
theorem foldl_hear_lines (ls : List Text) : ∀ q : Request, q.finished = false →
    (ls.map fun t => Extracted.toResponse (.line t)).foldl Request.hear q
      = { q with responseLines := q.responseLines ++ ls.filter isCollected } := by
  induction ls with
  | nil => intro q _; simp
  | cons t ls ih =>
    intro q hq
    rw [List.map_cons, List.foldl_cons]
    by_cases ht : isCollected t = true
    · have hhear : q.hear (Extracted.toResponse (.line t))
          = { q with responseLines := q.responseLines ++ [t] } := by
        simp [Request.hear, Extracted.toResponse, ht, Request.collect, hq]
      rw [hhear, ih { q with responseLines := q.responseLines ++ [t] } hq,
        List.filter_cons_of_pos ht]
      simp
    · have hhear : q.hear (Extracted.toResponse (.line t)) = q := by
        simp [Request.hear, Extracted.toResponse, ht]
      rw [hhear, ih _ hq, List.filter_cons_of_neg ht]

/-- A finished request hears no more. -/
theorem foldl_hear_finished (rs : List GrblResponse) : ∀ q : Request, q.finished = true →
    rs.foldl Request.hear q = q := by
  induction rs with
  | nil => intro q _; rfl
  | cons r rs ih =>
    intro q hq
    have hhear : q.hear r = q := by
      have hcollect (line : Text) (finish : Bool) : q.collect line finish = q := by
        rw [Request.collect, if_pos hq]
      unfold Request.hear
      split
      · exact hcollect _ _
      · exact hcollect _ _
      · rw [hcollect]
        exact ite_self _
    rw [List.foldl_cons, hhear, ih q hq]

/-- The first acknowledgement finishes the request. -/
theorem hear_ack {q : Request} (hq : q.finished = false) {k : GrblResponseType} {t : Text}
    (hk : (k = .ok ∧ t = "ok".toList) ∨ k = .error) (p : Option PendingCommand) :
    q.hear (Extracted.toResponse (.ack k t p))
      = { q with responseLines := q.responseLines ++ [t], finished := true } := by
  rcases hk with ⟨rfl, rfl⟩ | rfl <;>
    simp [Request.hear, Extracted.toResponse, Request.collect, hq]

/-- **One chunk and the responding request**: it hears the lines, then the
acknowledgements. -/
theorem handleRx_hears {c : Core} {data : Bytes} {q : ℕ} {acks : List Extracted} {ls : List Text}
    (hparse : (c.flow.parseExtracted data).2 = acks ++ ls.map .line)
    (hacks : ∀ e ∈ acks, e.toResponse.rtype ≠ .line) (hq : c.respondingRequest = some q) :
    (c.handleRx data).requests[q]? = c.requests[q]?.map fun q =>
      (acks.map Extracted.toResponse).foldl Request.hear
        ((ls.map fun t => Extracted.toResponse (.line t)).foldl Request.hear q) := by
  have hlines : ((acks ++ ls.map Extracted.line).map Extracted.toResponse).filter
      (fun r => r.rtype == .line) = ls.map fun t => Extracted.toResponse (.line t) := by
    rw [List.map_append, List.filter_append, List.filter_eq_nil_iff.mpr, List.nil_append,
      List.map_map, List.filter_eq_self.mpr]
    · rfl
    · intro r hr
      obtain ⟨t, -, rfl⟩ := List.mem_map.mp hr
      rfl
    · intro r hr
      obtain ⟨e, he, rfl⟩ := List.mem_map.mp hr
      simpa using hacks e he
  have hrest : ((acks ++ ls.map Extracted.line).map Extracted.toResponse).filter
      (fun r => !(r.rtype == .line)) = acks.map Extracted.toResponse := by
    rw [List.map_append, List.filter_append, List.filter_eq_self.mpr, List.map_map,
      List.filter_eq_nil_iff.mpr, List.append_nil]
    · intro r hr
      obtain ⟨t, -, rfl⟩ := List.mem_map.mp hr
      exact Bool.false_ne_true
    · intro r hr
      obtain ⟨e, he, rfl⟩ := List.mem_map.mp hr
      simpa using hacks e he
  rw [handleRx_heard hq]
  unfold Core.arrivals
  dsimp only
  rw [hparse, hlines, hrest]
  simp only [List.foldl_append]

/-! ### An exchange -/

/-- The device's output around the acknowledgement of an interactive command: `buffer` is
the line the parser was left with, and `before` and `after` are the informational text. -/
structure Exchange where
  task : ℕ
  request : ℕ
  command : Text
  buffer : Bytes
  before : Bytes
  ack : Token
  after : Bytes
  is_ack : ack.isAck = true

/-- The session and the chunks it received. -/
structure Listener where
  sys : Sys
  chunks : List Bytes := []
  deriving DecidableEq, Repr

/-- The chunk a step receives. -/
def Label.chunks : Label → List Bytes
  | .rx data => [data]
  | _ => []

/-- One step of the session, heard by the listener. -/
def Listener.step (l : Label) (w : Listener) : Option Listener :=
  (Sys.step l w.sys).map fun u => { sys := u, chunks := w.chunks ++ l.chunks }

/-- Nothing but received bytes touches the parse buffer: nobody cancels, reconnects or
recovers a job from a deadlock while a line is half received. -/
def Listener.keepsBuffer (w : Listener) (l : Label) (v : Listener) : Bool :=
  !l.chunks.isEmpty || v.sys.core.flow.statusBuffer == w.sys.core.flow.statusBuffer

namespace Exchange

variable (e : Exchange)

/-- All the device sends. -/
def output : Bytes := e.before ++ (e.ack.render ++ e.after)

/-- The number of bytes up to the end of the acknowledgement. -/
def asked : ℕ := (e.before ++ e.ack.render).length

/-- The lines completed before the acknowledgement. -/
def linesBefore : List Text := finished e.buffer e.before

/-- The lines completed behind the acknowledgement in the chunk that completes it. -/
def linesBatched (cs : List Bytes) : List Text :=
  finished (unfinished e.buffer e.before) (behindAck e.asked cs)

/-- The informational text before the acknowledgement, and behind it in its chunk, holds no
further acknowledgement. -/
def Plain (cs : List Bytes) : Prop :=
  Clean e.buffer (answerTokens e.before e.ack (behindAck e.asked cs))

/-- What makes the response collected for the chunks `cs` the command's own: the text is
plain, no line before the acknowledgement looks like a torn status report, and no line is
completed behind it in its chunk. -/
structure Separate (cs : List Bytes) : Prop where
  plain : e.Plain cs
  whole : ∀ line ∈ e.linesBefore, Core.isFragment line = false
  apart : ∀ line ∈ e.linesBatched cs, isCollected line = false

/-- The response collected for the chunks `cs`. -/
def response (cs : List Bytes) : List Text :=
  (e.linesBefore ++ e.linesBatched cs).filter isCollected ++ e.ack.answer

/-- The acknowledgement is not complete yet: the chunks are text before it, up to the
start `p` of the next token. -/
def Asking (w : Listener) : Prop :=
  ∃ d d' p, e.before = d ++ d' ∧ w.chunks.flatten = d ++ p ∧ LF ∉ p ∧
    w.sys.core.flow.statusBuffer = unfinished e.buffer d ++ p ∧
    w.sys.core.requests[e.request]? = some
      { command := e.command, responseLines := (finished e.buffer d).filter isCollected }

/-- The acknowledgement is complete. -/
structure Answered (w : Listener) : Prop where
  complete : e.asked ≤ w.chunks.flatten.length
  request : w.sys.core.requests[e.request]? = some
    { command := e.command, responseLines := e.response w.chunks, finished := true }

theorem render_ack_ends : ∃ y, e.ack.render = y ++ [LF] := by
  have hack := e.is_ack
  cases hk : e.ack with
  | byte b => rw [hk] at hack; cases hack
  | ok nuls crs => exact ⟨okHead nuls crs, okAck_eq nuls crs⟩
  | err text => exact ⟨errorMarker ++ text, rfl⟩

theorem asked_pos : 0 < e.asked := by
  obtain ⟨y, hy⟩ := e.render_ack_ends
  rw [asked, hy, List.length_append, List.length_append]
  exact Nat.lt_of_lt_of_le Nat.one_pos (by simp only [List.length_singleton]; omega)

/-- The kind and the text of the acknowledgement. -/
theorem ack_answer : ∃ k t, acksOf [e.ack] = [(k, t)] ∧ e.ack.answer = [t] ∧
    passOrder [e.ack] = [(k, t)] ∧ ((k = .ok ∧ t = "ok".toList) ∨ k = .error) := by
  have hack := e.is_ack
  unfold Token.answer
  cases hk : e.ack with
  | byte b => rw [hk] at hack; cases hack
  | ok nuls crs =>
    refine ⟨.ok, "ok".toList, rfl, rfl, ?_, .inl ⟨rfl, rfl⟩⟩
    rw [passOrder_eq]
    rfl
  | err text =>
    refine ⟨.error, errText text, rfl, rfl, ?_, .inr rfl⟩
    rw [passOrder_eq]
    rfl

/-- The response for more chunks is the same once the acknowledgement is complete. -/
theorem response_append {cs : List Bytes} (hcs : e.asked ≤ cs.flatten.length) (ds : List Bytes) :
    e.response (cs ++ ds) = e.response cs := by
  rw [response, response, linesBatched, linesBatched, behindAck_append ds cs _ e.asked_pos hcs]

/-- What was plain is plain without the last chunks. -/
theorem Plain.left {e : Exchange} {cs ds : List Bytes} (h : e.Plain (cs ++ ds)) :
    e.Plain cs := by
  unfold Plain at h ⊢
  rcases Nat.lt_or_ge cs.flatten.length e.asked with hlt | hle
  · rw [behindAck_of_lt cs _ hlt]
    have hsplit : Clean e.buffer (answerTokens e.before e.ack [] ++
        (behindAck e.asked (cs ++ ds)).map .byte) := by
      simpa [answerTokens] using h
    exact hsplit.left
  · rwa [behindAck_append ds cs _ e.asked_pos hle] at h

/-- While the acknowledgement is not complete its bytes are not all there. -/
theorem length_lt_asked {d d' p : Bytes} {cs : List Bytes} (hbefore : e.before = d ++ d')
    (hcs : cs.flatten = d ++ p) (hp : LF ∉ p) (hout : cs.flatten <+: e.output) :
    cs.flatten.length < e.asked := by
  by_contra hle
  obtain ⟨y, hy⟩ := e.render_ack_ends
  have hpre : e.before ++ e.ack.render <+: cs.flatten := by
    refine List.prefix_of_prefix_length_le ?_ hout (Nat.not_lt.mp hle)
    exact ⟨e.after, by rw [output, List.append_assoc]⟩
  -- the LF of the acknowledgement would be among the bytes of `p`
  rw [hcs, hbefore, List.append_assoc, List.prefix_append_right_inj] at hpre
  refine hp (hpre.subset ?_)
  rw [hy]
  simp

/-! ### One chunk -/

/-- The unfinished line and the text before the acknowledgement that was read. -/
theorem carry_bytes_append (x d : Bytes) (hx : LF ∉ x) :
    carry [] ((x ++ d).map .byte) = unfinished x d := by
  rw [carry, info_bytes, unfinished_append, unfinished_of_notMem x [] hx, List.nil_append]

/-- **A chunk while the acknowledgement is not complete**: it is more text before it, or it
completes it. -/
theorem Asking.rx {e : Exchange} {w : Listener} {data : Bytes} (hx : LF ∉ e.buffer)
    (hplain : Clean e.buffer (answerTokens e.before e.ack e.after)) (h : e.Asking w) (hslot : w.sys.core.respondingRequest = some e.request)
    (hout : (w.chunks ++ [data]).flatten <+: e.output) {u : Sys}
    (hu : u.core = w.sys.core.handleRx data) :
    e.Asking ⟨u, w.chunks ++ [data]⟩ ∨ e.Answered ⟨u, w.chunks ++ [data]⟩ := by
  obtain ⟨d, d', p, hbefore, hcs, hp, hbuffer, hrequest⟩ := h
  have hflat : (w.chunks ++ [data]).flatten = d ++ (p ++ data) := by
    rw [List.flatten_append, List.flatten_singleton, hcs, List.append_assoc]
  have hlt : w.chunks.flatten.length < e.asked :=
    e.length_lt_asked hbefore hcs hp
      ((List.prefix_append _ _).trans (by rw [← List.flatten_append]; exact hout))
  -- the tokens this chunk completes
  obtain ⟨rest, hrest⟩ := hout
  have hbytes : (p ++ data) ++ rest = render (answerTokens d' e.ack e.after) ++ [] := by
    rw [hflat, Exchange.output, hbefore, List.append_assoc, List.append_assoc d] at hrest
    rw [List.append_nil, render_answerTokens]
    exact List.append_cancel_left hrest
  have hall : (e.buffer ++ d).map .byte ++ answerTokens d' e.ack e.after
      = e.buffer.map .byte ++ answerTokens e.before e.ack e.after := by
    simp [answerTokens, hbefore]
  have hclean : Clean [] ((e.buffer ++ d).map .byte ++ answerTokens d' e.ack e.after) := by
    rw [hall]
    exact clean_bytes e.buffer [] hx hplain
  obtain ⟨us, vs, q, htokens, hpc, -, hq, -⟩ :=
    render_split List.not_mem_nil _ _ _ (clean_append _ hclean).tidy hbytes
  rw [htokens, ← List.append_assoc] at hclean
  have hcarry := carry_bytes_append e.buffer d hx
  have hstep := parseExtracted_step hclean.left (by rw [hcarry]; exact hbuffer) hpc hq
  have hbuf : u.core.flow.statusBuffer = carry [] ((e.buffer ++ d).map .byte ++ us) ++ q := by
    rw [hu, (handleRx_flow _ _).1.statusBuffer, hstep]
    rfl
  have hacks : ∀ (as : List (GrblResponseType × Text)) (f : FlowInner),
      (∀ a ∈ as, a.1 ≠ .line) → ∀ x ∈ (acked as [] f).2, x.toResponse.rtype ≠ .line := by
    intro as f has x hmem
    obtain ⟨k, t, pop, rfl⟩ : ∃ k t pop, x = .ack k t pop := by
      have hack := isAck_acknowledgeAll as f x hmem
      cases x with
      | ack k t pop => exact ⟨k, t, pop, rfl⟩
      | line t => cases hack
    have hk : (k, t) ∈ (f.acknowledgeAll as).2.filterMap Extracted.ackText :=
      List.mem_filterMap.mpr ⟨_, hmem, rfl⟩
    rw [ackText_acknowledgeAll] at hk
    have hne := has _ hk
    cases k with
    | line => exact absurd rfl hne
    | ok => exact nofun
    | error => exact nofun
  have hparse : (w.sys.core.flow.parseExtracted data).2
      = (acked (passOrder us) [] w.sys.core.flow).2 ++
        (lineEvents (unfinished e.buffer d) us).map .line := by
    rw [hstep, hcarry]
    rfl
  have hkinds : ∀ a ∈ passOrder us, a.1 ≠ .line := by
    intro a ha
    rw [passOrder_eq, List.mem_append, List.mem_replicate] at ha
    rcases ha with ⟨-, rfl⟩ | ha
    · exact nofun
    · rw [fst_acksOf_filter_isErr us a.1 (List.mem_map_of_mem ha)]
      exact nofun
  have hhears := handleRx_hears hparse (hacks _ _ hkinds) hslot
  rw [hrequest, Option.map_some, foldl_hear_lines _ _ rfl, ← hu] at hhears
  rcases answerTokens_prefix htokens with ⟨d₁, d₂, hd', rfl, -⟩ | ⟨a₁, a₂, hafter, rfl, -⟩
  · -- more text
    refine .inl ⟨d ++ d₁, d₂, q, by rw [hbefore, hd', List.append_assoc], ?_, hq, ?_, ?_⟩
    · change (w.chunks ++ [data]).flatten = _
      rw [hflat, hpc, render_bytes, List.append_assoc]
    · change u.core.flow.statusBuffer = _
      rw [hbuf, ← List.map_append, List.append_assoc, carry_bytes_append _ _ hx]
    · change u.core.requests[e.request]? = _
      have hnone : passOrder (d₁.map Token.byte) = [] := by
        have h := passOrder_bytes_append d₁ []
        rwa [List.append_nil] at h
      rw [hhears, hnone, lineEvents, info_bytes, finished_append, List.filter_append]
      rfl
  · -- the acknowledgement
    obtain ⟨k, t, hack, hanswer, hpass, hkind⟩ := e.ack_answer
    have hlen : (w.chunks ++ [data]).flatten.length
        = (d ++ (d' ++ (e.ack.render ++ (a₁ ++ q)))).length := by
      rw [hflat, hpc, render_answerTokens]
      simp only [List.append_assoc]
    have hasked : e.asked = (d ++ (d' ++ e.ack.render)).length := by
      rw [Exchange.asked, hbefore, List.append_assoc]
    have hcomplete : e.asked ≤ (w.chunks ++ [data]).flatten.length := by
      rw [hlen, hasked]
      simp only [List.length_append]
      omega
    -- what the chunk brings behind the acknowledgement
    have hbehind : behindAck e.asked (w.chunks ++ [data]) = a₁ ++ q := by
      rw [behindAck_concat data w.chunks _ hlt
        (by rwa [List.flatten_append, List.flatten_singleton, List.length_append] at hcomplete)]
      have hple : (d ++ p).length ≤ e.asked := by rw [← hcs]; exact hlt.le
      have hdrop : data.drop (e.asked - w.chunks.flatten.length)
          = (d ++ (p ++ data)).drop e.asked := by
        rw [← List.append_assoc, List.drop_append, List.drop_of_length_le hple, List.nil_append,
          hcs]
      have hsplit : d ++ (d' ++ (e.ack.render ++ a₁) ++ q)
          = (d ++ (d' ++ e.ack.render)) ++ (a₁ ++ q) := by
        simp only [List.append_assoc]
      rw [hdrop, hpc, render_answerTokens, hasked, hsplit, List.drop_left]
    refine .inr ⟨hcomplete, ?_⟩
    change u.core.requests[e.request]? = _
    have hlines : (finished e.buffer d).filter isCollected ++
        (lineEvents (unfinished e.buffer d) (answerTokens d' e.ack a₁)).filter isCollected
        = (e.linesBefore ++ e.linesBatched (w.chunks ++ [data])).filter isCollected := by
      rw [Exchange.linesBefore, Exchange.linesBatched, hbehind, hbefore, lineEvents,
        info_answerTokens _ e.is_ack, finished_append d', finished_append a₁, finished_append q,
        unfinished_append, finished_of_notMem q _ hq, List.append_nil, ← List.filter_append,
        List.append_assoc]
    have hone : passOrder (answerTokens d' e.ack a₁) = [(k, t)] := by
      have hacks : acksOf (answerTokens d' e.ack a₁) = [(k, t)] := by
        rw [answerTokens, acksOf_append, acksOf_bytes, List.nil_append, ← List.singleton_append,
          acksOf_append, acksOf_bytes, hack, List.append_nil]
      rw [passOrder_of_oksFirst, hacks]
      rw [OksFirst, hacks]
      exact List.pairwise_singleton _ _
    have hsingle : (acked [(k, t)] [] w.sys.core.flow).2
        = [.ack k t w.sys.core.flow.pending.head?] := by
      rw [acked_cons, snd_acknowledge]
      rfl
    rw [hhears, hone, hsingle, List.map_singleton, List.foldl_cons, List.foldl_nil,
      hear_ack rfl hkind, Exchange.response, ← hlines, hanswer]

/-- The same, where only the text up to the end of this chunk is known to be plain. -/
theorem Asking.rx_plain {e : Exchange} {w : Listener} {data : Bytes} (hx : LF ∉ e.buffer)
    (h : e.Asking w) (hplain : e.Plain (w.chunks ++ [data]))
    (hslot : w.sys.core.respondingRequest = some e.request)
    (hout : (w.chunks ++ [data]).flatten <+: e.output) {u : Sys}
    (hu : u.core = w.sys.core.handleRx data) :
    e.Asking ⟨u, w.chunks ++ [data]⟩ ∨ e.Answered ⟨u, w.chunks ++ [data]⟩ := by
  -- the exchange that ends with this chunk
  let behind := behindAck e.asked (w.chunks ++ [data])
  have hended : (w.chunks ++ [data]).flatten <+: e.before ++ e.ack.render ++ behind →
      e.Asking ⟨u, w.chunks ++ [data]⟩ ∨ e.Answered ⟨u, w.chunks ++ [data]⟩ := by
    intro hpre
    rw [List.append_assoc] at hpre
    exact (Asking.rx (e := { e with after := behind }) hx hplain h hslot hpre hu).imp id
      fun hanswered => ⟨hanswered.complete, hanswered.request⟩
  apply hended
  rw [Exchange.output, ← List.append_assoc] at hout
  rcases Nat.lt_or_ge (w.chunks ++ [data]).flatten.length e.asked with hlt | hle
  · rw [show behind = [] from behindAck_of_lt _ _ hlt, List.append_nil]
    exact List.prefix_of_prefix_length_le hout (List.prefix_append _ _) hlt.le
  · obtain ⟨r, hr⟩ := List.prefix_of_prefix_length_le (List.prefix_append _ _) hout hle
    obtain ⟨d, d', p, hbefore, hcs, hp, -⟩ := h
    have hlt : w.chunks.flatten.length < e.asked := by
      refine e.length_lt_asked hbefore hcs hp ?_
      rw [Exchange.output, ← List.append_assoc]
      refine List.IsPrefix.trans ?_ hout
      rw [List.flatten_append]
      exact List.prefix_append _ _
    have hbehind : behind = r := by
      have hlen := hle
      rw [List.flatten_append, List.flatten_singleton, List.length_append] at hlen
      show behindAck e.asked (w.chunks ++ [data]) = r
      rw [behindAck_concat data w.chunks _ hlt hlen]
      have hdrop : (w.chunks ++ [data]).flatten.drop e.asked
          = data.drop (e.asked - w.chunks.flatten.length) := by
        rw [List.flatten_append, List.flatten_singleton, List.drop_append,
          List.drop_of_length_le hlt.le, List.nil_append]
      rw [← hdrop, ← hr]
      exact List.drop_left
    rw [hbehind, hr]

/-- Behind the acknowledgement nothing is added to the request. -/
theorem Answered.rx {e : Exchange} {w : Listener} {data : Bytes} (h : e.Answered w) {u : Sys}
    (hslot : w.sys.core.respondingRequest = some e.request)
    (hu : u.core = w.sys.core.handleRx data) : e.Answered ⟨u, w.chunks ++ [data]⟩ := by
  refine ⟨?_, ?_⟩
  · change e.asked ≤ (w.chunks ++ [data]).flatten.length
    rw [List.flatten_append, List.length_append]
    exact Nat.le_add_right_of_le h.complete
  · change u.core.requests[e.request]? = some
      { command := e.command, responseLines := e.response (w.chunks ++ [data]), finished := true }
    rw [e.response_append h.complete, hu]
    rw [handleRx_heard hslot, h.request, Option.map_some, foldl_hear_finished _ _ rfl]

/-! ### The command under way -/

/-- The request while its command waits for the response. -/
def UnderWay (w : Listener) : Prop :=
  e.task ∉ w.sys.core.ended → w.sys.core.interactiveRequest = some e.request ∧
    (e.Asking w ∨ e.Answered w)

/-- What holds of the response at the counters of the task. -/
def Talk (w : Listener) : InteractivePc → Prop
  | .begin r => r = e.request ∧ w.sys.active = some e.task ∧ e.Asking w
  | .space r | .send r | .writing r _ | .wait r => r = e.request ∧ e.UnderWay w
  | .finish _ (some lines) | .returned (some lines) =>
    e.asked ≤ w.chunks.flatten.length ∧ lines = e.response w.chunks
  | .finish _ none | .returned none => True
  | _ => False

theorem Asking.congr {e : Exchange} {w v : Listener} (h : e.Asking w)
    (hchunks : v.chunks = w.chunks)
    (hbuffer : v.sys.core.flow.statusBuffer = w.sys.core.flow.statusBuffer)
    (hrequest : v.sys.core.requests[e.request]? = w.sys.core.requests[e.request]?) :
    e.Asking v := by
  obtain ⟨d, d', p, hbefore, hcs, hp, hbuf, hreq⟩ := h
  exact ⟨d, d', p, hbefore, by rw [hchunks, hcs], hp, by rw [hbuffer, hbuf], by rw [hrequest, hreq]⟩

theorem Answered.congr {e : Exchange} {w v : Listener} (h : e.Answered w)
    (hchunks : v.chunks = w.chunks)
    (hrequest : v.sys.core.requests[e.request]? = w.sys.core.requests[e.request]?) :
    e.Answered v :=
  ⟨by rw [hchunks]; exact h.complete, by rw [hchunks, hrequest]; exact h.request⟩

theorem UnderWay.congr {e : Exchange} {w v : Listener} (h : e.UnderWay w)
    (hchunks : v.chunks = w.chunks)
    (hended : w.sys.core.ended ⊆ v.sys.core.ended)
    (hslot : e.task ∉ v.sys.core.ended →
      v.sys.core.interactiveRequest = w.sys.core.interactiveRequest)
    (hbuffer : v.sys.core.flow.statusBuffer = w.sys.core.flow.statusBuffer)
    (hrequest : v.sys.core.requests[e.request]? = w.sys.core.requests[e.request]?) :
    e.UnderWay v := by
  intro hv
  obtain ⟨hs, hr⟩ := h fun hmem => hv (hended hmem)
  exact ⟨(hslot hv).trans hs, hr.imp (fun h => h.congr hchunks hbuffer hrequest)
    fun h => h.congr hchunks hrequest⟩

variable {e : Exchange} {w v : Listener} {pc pc' : InteractivePc}

theorem Talk.holdsLock {r : ℕ} (h : e.Talk w pc) (hr : pc.request = some r) :
    pc.holdsLock = true := by
  cases pc <;> first | rfl | exact h.elim | cases hr

/-- A step of another task or of the environment. -/
theorem Talk.aside (h : e.Talk w pc) (hidle : w.sys.active ≠ some e.task) {ds : List Bytes}
    (hchunks : v.chunks = w.chunks ++ ds)
    (hunder : pc.request = some e.request → e.UnderWay w → e.UnderWay v) : e.Talk v pc := by
  -- the response of a command that has it stays
  have hdone (lines : List Text) (h : e.asked ≤ w.chunks.flatten.length ∧
      lines = e.response w.chunks) : e.asked ≤ v.chunks.flatten.length ∧
        lines = e.response v.chunks := by
    rw [hchunks, e.response_append h.1, List.flatten_append, List.length_append]
    exact ⟨Nat.le_add_right_of_le h.1, h.2⟩
  cases pc with
  | begin r => exact absurd h.2.1 hidle
  | space r => exact ⟨h.1, hunder (congrArg some h.1) h.2⟩
  | send r => exact ⟨h.1, hunder (congrArg some h.1) h.2⟩
  | writing r err => exact ⟨h.1, hunder (congrArg some h.1) h.2⟩
  | wait r => exact ⟨h.1, hunder (congrArg some h.1) h.2⟩
  | finish r result =>
    cases result with
    | none => trivial
    | some lines => exact hdone lines h
  | returned result =>
    cases result with
    | none => trivial
    | some lines => exact hdone lines h
  | start => exact h.elim
  | lockWait r => exact h.elim
  | locked r => exact h.elim
  | drainWait r => exact h.elim

/-- The step of the task itself. -/
theorem Talk.own {ch : Choice} (h : e.Talk w pc)
    (hadv : advanceInteractive e.task e.command ch w.sys.core pc = some (v.sys.core, pc'))
    (hended : e.task ∉ w.sys.core.ended) (hchunks : v.chunks = w.chunks) : e.Talk v pc' := by
  -- before the response is there the request stays as it is
  have hunder (hu : e.UnderWay w) (hc : v.sys.core.flow.statusBuffer = w.sys.core.flow.statusBuffer)
      (hr : v.sys.core.requests = w.sys.core.requests)
      (hs : v.sys.core.interactiveRequest = w.sys.core.interactiveRequest) : e.UnderWay v := by
    obtain ⟨hslot, hreq⟩ := hu hended
    exact fun _ => ⟨hs.trans hslot, hreq.imp (fun h => h.congr hchunks hc (by rw [hr]))
      fun h => h.congr hchunks (by rw [hr])⟩
  cases pc with
  | begin r =>
    obtain ⟨rfl, -, hasking⟩ := h
    obtain ⟨hcore, hpc⟩ := Prod.mk.inj (Option.some.inj hadv)
    have hunder' : e.UnderWay v := fun _ => by
      refine ⟨by rw [← hcore], .inl (hasking.congr hchunks ?_ ?_)⟩
      · rw [← hcore]
      · rw [← hcore]
    rw [← hpc]
    split_ifs
    · exact ⟨rfl, hunder'⟩
    · exact ⟨rfl, hunder'⟩
  | space r =>
    simp only [advanceInteractive] at hadv
    split_ifs at hadv
    obtain ⟨hcore, rfl⟩ := Prod.mk.inj (Option.some.inj hadv)
    exact ⟨h.1, hunder h.2 (by rw [hcore]) (by rw [hcore]) (by rw [hcore])⟩
  | send r =>
    obtain ⟨hcore, rfl⟩ := Prod.mk.inj (Option.some.inj hadv)
    exact ⟨h.1, hunder h.2 (by rw [← hcore]; rfl) (by rw [← hcore]; rfl) (by rw [← hcore]; rfl)⟩
  | writing r err =>
    obtain ⟨hcore, rfl⟩ := Prod.mk.inj (Option.some.inj hadv)
    split_ifs
    · exact ⟨h.1, hunder h.2 (by rw [hcore]) (by rw [hcore]) (by rw [hcore])⟩
    · trivial
  | wait r =>
    obtain ⟨rfl, hu⟩ := h
    simp only [advanceInteractive] at hadv
    split_ifs at hadv with hfinished
    · obtain ⟨hcore, rfl⟩ := Prod.mk.inj (Option.some.inj hadv)
      -- the request is finished by its acknowledgement only
      rcases (hu hended).2 with ⟨d, d', p, -, -, -, -, hreq⟩ | hans
      · rw [Core.isFinished, hreq] at hfinished
        cases hfinished
      · have hlines : w.sys.core.linesOf e.request = e.response w.chunks := by
          rw [Core.linesOf, hans.request]
          rfl
        change _ ≤ v.chunks.flatten.length ∧ _ = e.response v.chunks
        rw [hchunks]
        exact ⟨hans.complete, hlines⟩
    · obtain ⟨-, rfl⟩ := Prod.mk.inj (Option.some.inj hadv)
      trivial
  | finish r result =>
    obtain ⟨-, rfl⟩ := Prod.mk.inj (Option.some.inj hadv)
    cases result with
    | none => trivial
    | some lines =>
      change _ ≤ v.chunks.flatten.length ∧ lines = e.response v.chunks
      rw [hchunks]
      exact h
  | returned result => cases hadv
  | start => exact h.elim
  | lockWait r => exact h.elim
  | locked r => exact h.elim
  | drainWait r => exact h.elim

end Exchange

/-! ### Runs -/

/-- The parse buffer holds no newline. -/
theorem noNewline_step {s u : Sys} {l : Label} (h : LF ∉ s.core.flow.statusBuffer)
    (hs : Sys.step l s = some u) : LF ∉ u.core.flow.statusBuffer := by
  by_cases hl : ∃ i ch, l = .task i ch
  · obtain ⟨i, ch, rfl⟩ := hl
    obtain ⟨b, c', b', spawned, -, -, -, hadv, rfl⟩ := Sys.step_task hs
    change LF ∉ c'.flow.statusBuffer
    rcases advance_ledger hadv with ⟨-, -, hsame⟩ | ⟨_, _, -, hsame⟩ | ⟨-, hsame | hsame⟩
    · rwa [hsame.books.statusBuffer]
    · rw [hsame.books.statusBuffer]
      exact h
    · rw [hsame.books.statusBuffer]
      exact h
    · rw [hsame.books.statusBuffer]
      exact List.not_mem_nil
  · rcases step_ledger hs fun i ch hi => hl ⟨i, ch, hi⟩ with hsame | ⟨data, -, hcore⟩
    · rwa [hsame.books.statusBuffer]
    · rw [hcore, (handleRx_flow _ _).1.statusBuffer]
      exact (parseExtracted_parses data _).noNewline

/-- A session in which nobody has asked for anything. -/
structure Sys.Unasked (s : Sys) : Prop where
  tasks : s.tasks = []
  channel : s.core.channel = []
  queuedRequests : s.core.queuedRequests = []
  currentRequest : s.core.currentRequest = none
  interactiveRequest : s.core.interactiveRequest = none
  statusBuffer : LF ∉ s.core.flow.statusBuffer

theorem Sys.Unasked.registered {s : Sys} (h : s.Unasked) : Registered s where
  channel q hq := by rw [h.channel] at hq; cases hq
  queued q hq := by rw [h.queuedRequests] at hq; cases hq
  current q hq := by rw [h.currentRequest] at hq; cases hq
  slot q hq := by rw [h.interactiveRequest] at hq; cases hq
  tasks i b q hb := by rw [h.tasks] at hb; cases hb
  apart i b q hb := by rw [h.tasks] at hb; cases hb
  fresh i command pc q hb := by rw [h.tasks] at hb; cases hb

theorem registered_of_run {s₀ s : Sys} (h0 : s₀.Unasked) (hr : Run Sys.step AnyStep s₀ s) :
    Registered s ∧ Locked s ∧ LF ∉ s.core.flow.statusBuffer :=
  ⟨hr.invariant (fun _ _ _ h hs _ => h.step hs) h0.registered, locked_of_run h0.tasks hr,
    hr.invariant (I := fun s => LF ∉ s.core.flow.statusBuffer)
      (fun _ _ _ h hs _ => noNewline_step h hs) h0.statusBuffer⟩

/-- **The invariant of a command under way.** -/
structure Conversing (e : Exchange) (w : Listener) : Prop where
  registered : Registered w.sys
  locked : Locked w.sys
  talk : w.chunks.flatten <+: e.output → e.Plain w.chunks →
    ∃ pc, w.sys.tasks[e.task]? = some (.interactive e.command pc) ∧ e.Talk w pc

section Session

variable {e : Exchange} {w v : Listener} {l : Label}

/-- The request of a command under way is not that of the responding queue. -/
theorem responding_of_slot {c : Core} {r : ℕ} (h : c.interactiveRequest = some r) :
    c.respondingRequest = some r := by
  rw [Core.respondingRequest, h]

/-- The step of another task leaves the request and its slot alone. -/
theorem Conversing.other (h : Conversing e w) {k : ℕ} {ch : Choice} {u : Sys}
    (hs : Sys.step (.task k ch) w.sys = some u) (hk : k ≠ e.task) {pc : InteractivePc}
    (hpc : w.sys.tasks[e.task]? = some (.interactive e.command pc))
    (hreq : pc.request = some e.request) (hlock : pc.holdsLock = true) :
    u.core.requests[e.request]? = w.sys.core.requests[e.request]? ∧
      (e.task ∉ u.core.ended → u.core.interactiveRequest = w.sys.core.interactiveRequest) := by
  have hgrows := (Sys.step_grows hs).2
  obtain ⟨b, c', b', spawned, hb, halive, -, hadv, rfl⟩ := Sys.step_task hs
  obtain ⟨hch, hqu, -, hother⟩ := h.registered.apart e.task _ e.request hpc rfl hreq
  obtain ⟨hstep, -⟩ := advance_requests hadv
  refine ⟨hstep.keep _ (h.registered.tasks e.task _ _ hpc hreq)
    (fun hbr => hk (hother k b hb hbr)) hch hqu, fun hended => ?_⟩
  by_cases hint : b.isInteractive = true
  · -- another interactive command waits for the lock, or has given it back
    have hfree : b.holdsLock = false := by
      by_contra hheld
      refine hk (h.locked.unique hb (by simpa using hheld) (fun hmem => ?_) hpc hlock
        fun hmem => hended (hgrows hmem))
      rw [Sys.alive_eq_false.mpr (.inr hmem)] at halive
      cases halive
    cases b with
    | interactive command pc₀ =>
      obtain ⟨⟨c1, pc1⟩, h1, h2⟩ := Option.map_eq_some_iff.mp hadv
      cases h2
      cases pc₀ with
      | start =>
        simp only [advanceInteractive] at h1
        split_ifs at h1 <;> cases h1 <;> rfl
      | lockWait r =>
        simp only [advanceInteractive] at h1
        split_ifs at h1
        cases h1
        rfl
      | returned result => cases h1
      | _ => cases hfree
    | _ => cases hint
  · exact hstep.aside (by simpa using hint)

/-- **The invariant is kept by every step that leaves the parse buffer to the received
bytes.** -/
theorem Conversing.step (h : Conversing e w) (hx : LF ∉ e.buffer) (hs : Listener.step l w = some v)
    (hok : w.keepsBuffer l v = true) : Conversing e v := by
  obtain ⟨u, hu, rfl⟩ := Option.map_eq_some_iff.mp hs
  refine ⟨h.registered.step hu, h.locked.step hu, fun hout hplain => ?_⟩
  obtain ⟨pc, hpc, htalk⟩ := h.talk ((List.prefix_append w.chunks.flatten l.chunks.flatten).trans
    (by rw [← List.flatten_append]; exact hout)) hplain.left
  have hended := (Sys.step_grows hu).2
  have hbuffer : l.chunks = [] → u.core.flow.statusBuffer = w.sys.core.flow.statusBuffer := by
    intro hl
    rw [Listener.keepsBuffer, hl] at hok
    simpa using hok
  by_cases hown : ∃ ch, l = .task e.task ch
  · -- the task itself
    obtain ⟨ch, rfl⟩ := hown
    obtain ⟨b, c', b', spawned, hb, halive, -, hadv, rfl⟩ := Sys.step_task hu
    have hlt : e.task < w.sys.tasks.length := (List.getElem?_eq_some_iff.mp hb).1
    obtain rfl := Option.some.inj (hpc.symm.trans hb)
    obtain ⟨⟨c1, pc'⟩, h1, h2⟩ := Option.map_eq_some_iff.mp hadv
    cases h2
    refine ⟨pc', ?_, htalk.own h1 (fun hmem => ?_) (List.append_nil _)⟩
    · change (w.sys.tasks.set e.task _ ++ [])[e.task]? = _
      rw [List.append_nil, List.getElem?_set_self hlt]
    · rw [Sys.alive_eq_false.mpr (.inr hmem)] at halive
      cases halive
  · have hstay := Sys.step_tasks hu hpc fun ch hl => hown ⟨ch, hl⟩
    refine ⟨pc, hstay, ?_⟩
    by_cases htask : ∃ k ch, l = .task k ch
    · -- another task
      obtain ⟨k, ch, rfl⟩ := htask
      have hk : k ≠ e.task := fun hk => hown ⟨ch, by rw [hk]⟩
      -- one task at a time runs between two await points
      have hidle : w.sys.active ≠ some e.task := by
        intro hactive
        obtain ⟨b, c', b', spawned, -, -, hen, -, -⟩ := Sys.step_task hu
        rcases hen with hen | ⟨hen, -⟩ <;> rw [hactive] at hen
        · exact hk (Option.some.inj hen).symm
        · cases hen
      refine htalk.aside hidle rfl fun hreq hunder => ?_
      obtain ⟨hkeep, hslot⟩ := h.other hu hk hpc hreq (htalk.holdsLock hreq)
      exact hunder.congr (List.append_nil _) hended hslot (hbuffer rfl) hkeep
    · obtain ⟨hnone, -⟩ := Sys.step_other hu fun k ch hl => htask ⟨k, ch, hl⟩
      have hidle : w.sys.active ≠ some e.task := by
        rw [hnone]
        exact nofun
      refine htalk.aside hidle rfl fun _ hunder => ?_
      cases l with
      | task k ch => exact absurd ⟨k, ch, rfl⟩ htask
      -- the received bytes: the response grows by its next lines, or is complete
      | rx data =>
        simp only [Sys.step, Sys.outside] at hu
        split_ifs at hu
        cases hu
        have hf := handleRx_frame data w.sys.core
        intro hlive
        obtain ⟨hslot, hreq⟩ := hunder fun hmem => hlive (hended hmem)
        have hresp := responding_of_slot hslot
        exact ⟨hf.interactiveRequest.trans hslot, hreq.elim (fun hr => hr.rx_plain hx hplain hresp hout rfl)
          fun hr => .inr (hr.rx hresp rfl)⟩
      | call op =>
        simp only [Sys.step] at hu
        split_ifs at hu
        cases hu
        exact hunder.congr (List.append_nil _) hended (fun _ => rfl) rfl rfl
      | drop i =>
        simp only [Sys.step, Sys.dropTask] at hu
        split at hu
        case isFalse => cases hu
        cases hu
        exact hunder.congr (List.append_nil _) hended (fun _ => rfl) rfl rfl
      | poll err =>
        simp only [Sys.step, Sys.outside] at hu
        split_ifs at hu
        cases hu
        -- a polled report touches neither the request nor its slot
        have hpoll : ∀ c : Core, (Sys.pollStatus err c).requests = c.requests ∧
            (Sys.pollStatus err c).interactiveRequest = c.interactiveRequest := by
          intro c
          unfold Sys.pollStatus
          split_ifs <;> exact ⟨rfl, rfl⟩
        exact hunder.congr (List.append_nil _) hended (fun _ => (hpoll _).2) (hbuffer rfl)
          (congrArg (fun qs : List Request => qs[e.request]?) (hpoll _).1)
      | _ =>
        simp only [Sys.step, Sys.outside] at hu
        split_ifs at hu
        cases hu
        exact hunder.congr (List.append_nil _) hended (fun _ => rfl) (hbuffer rfl) rfl

end Session

/-! ### The response -/

/-- A torn status report is no status report. -/
theorem isStatus_of_isFragment {line : Text} (h : Core.isFragment line = true) :
    isStatus line = false := by
  unfold Core.isFragment at h
  unfold isStatus
  cases hstart : startsWith "<".toList line with
  | false => rfl
  | true =>
    rw [hstart] at h
    simpa using h

/-- The lines collected are the informational lines before the acknowledgement exactly
when none of them is ignored and no other is collected. -/
theorem collected_eq_iff (before batched ack : List Text) :
    (before ++ batched).filter isCollected ++ ack = before.filter (fun t => !isStatus t) ++ ack ↔
      (∀ line ∈ before, Core.isFragment line = false) ∧
        ∀ line ∈ batched, isCollected line = false := by
  rw [List.append_left_inj, List.filter_append]
  have hkept (h : ∀ line ∈ before, Core.isFragment line = false) :
      before.filter isCollected = before.filter fun t => !isStatus t := by
    refine List.filter_congr fun line hline => ?_
    rw [isCollected, h line hline]
    rfl
  constructor
  · intro h
    have hwhole : ∀ line ∈ before, Core.isFragment line = false := by
      intro line hline
      by_contra hfragment
      rw [Bool.not_eq_false] at hfragment
      -- a torn report would be expected, and is not collected
      have hmem : line ∈ before.filter fun t => !isStatus t :=
        List.mem_filter.mpr ⟨hline, by rw [isStatus_of_isFragment hfragment]; rfl⟩
      rw [← h, ← List.filter_append] at hmem
      have hcollected := (List.mem_filter.mp hmem).2
      rw [isCollected, hfragment] at hcollected
      cases hcollected
    refine ⟨hwhole, fun line hline => ?_⟩
    rw [hkept hwhole, List.append_right_eq_self, List.filter_eq_nil_iff] at h
    simpa using h line hline
  · rintro ⟨hwhole, hnone⟩
    have hempty : batched.filter isCollected = [] :=
      List.filter_eq_nil_iff.mpr fun line hline => by simp [hnone line hline]
    rw [hempty, List.append_nil, hkept hwhole]

/-- **An interactive command returns its own response** when the informational text up to the
end of the chunk that completes its acknowledgement holds no further acknowledgement, no line
before the acknowledgement looks like a torn status report and no line is completed behind it in
that chunk.  Where the text holds no further acknowledgement, it does so only then. -/
theorem interactive_returns_own_response {s₀ s : Sys} {w : Listener} {e : Exchange}
    {lines : List Text} (h0 : s₀.Unasked) (hreach : Run Sys.step AnyStep s₀ s)
    (hbegin : s.tasks[e.task]? = some (.interactive e.command (.begin e.request)))
    (hbuffer : s.core.flow.statusBuffer = e.buffer)
    (hrun : Run Listener.step (fun a l b => a.keepsBuffer l b = true) { sys := s } w)
    (hout : w.chunks.flatten <+: e.output)
    (hret : w.sys.tasks[e.task]? = some (.interactive e.command (.returned (some lines)))) :
    (e.Separate w.chunks →
        lines = e.linesBefore.filter (fun t => !isStatus t) ++ e.ack.answer) ∧
      (e.Plain w.chunks → lines = e.linesBefore.filter (fun t => !isStatus t) ++ e.ack.answer →
        e.Separate w.chunks) := by
  obtain ⟨hreg, hlock, hLF⟩ := registered_of_run h0 hreach
  have hwaits : s.Waits := hreach.invariant (fun _ _ _ h hs _ => h.step hs) fun i b hb => by
    rw [h0.tasks] at hb
    cases hb
  rw [hbuffer] at hLF
  have hfresh := (hreg.fresh e.task e.command (.begin e.request) e.request hbegin rfl rfl).2
  have hstart : Conversing e { sys := s } := by
    refine ⟨hreg, hlock, fun _ _ => ⟨_, hbegin, rfl, hwaits _ _ hbegin rfl, ?_⟩⟩
    exact ⟨[], e.before, [], rfl, rfl, List.not_mem_nil,
      by rw [List.append_nil]; exact hbuffer, hfresh⟩
  have hend : Conversing e w :=
    hrun.invariant (fun _ _ _ h hs hok => h.step hLF hs hok) hstart
  have hresponse : e.Plain w.chunks → lines = e.response w.chunks := by
    intro hplain
    obtain ⟨pc, hpc, htalk⟩ := hend.talk hout hplain
    cases hret.symm.trans hpc
    exact htalk.2
  have hiff := collected_eq_iff e.linesBefore (e.linesBatched w.chunks) e.ack.answer
  constructor
  · intro h
    rw [hresponse h.plain]
    exact hiff.mpr ⟨h.whole, h.apart⟩
  · intro hplain hown
    rw [hresponse hplain] at hown
    obtain ⟨hwhole, hapart⟩ := hiff.mp hown
    exact ⟨hplain, hwhole, hapart⟩

/-! ### Two devices -/

/-- The version a device reports. -/
def versionLine : InfoLine where
  bytes := ascii "[VER:1.1h]"
  text := "[VER:1.1h]".toList
  crlf := true
  decoded := by decide
  nonempty := by decide
  trimmed := by decide
  no_CR := by decide
  no_LF := by decide
  no_NUL := by decide
  no_ok := by decide
  no_error := by decide

/-- `$I` is answered by the version, with a status report in between. -/
def buildInfo : Exchange where
  task := 0
  request := 0
  command := "$I".toList
  buffer := []
  before := infoStream [versionLine, idleReport]
  ack := .ok 0 1
  after := []
  is_ack := rfl

/-- `$H` is answered at once, and a message follows. -/
def homing : Exchange where
  task := 0
  request := 0
  command := "$H".toList
  buffer := []
  before := []
  ack := .ok 0 0
  after := infoStream [versionLine]
  is_ack := rfl

/-- The command is about to be sent. -/
def aboutToSend (command : Text) : Sys :=
  reach Sys.step (.call (.interactive command) :: turns 0 3) { core := {}, tasks := [] }

/-- The command is sent, the chunks arrive, and it returns. -/
def answered (command : Text) (chunks : List Bytes) : Listener :=
  reach Listener.step (turns 0 3 ++ chunks.map .rx ++ turns 0 2) { sys := aboutToSend command }

/-- An acknowledgement between informational lines is the only one. -/
theorem plain_of_infoStream {e : Exchange} {cs : List Bytes} (ls : List InfoLine)
    (hbuffer : e.buffer = []) (hinfo : e.before ++ behindAck e.asked cs = infoStream ls)
    (hack : InsertedAck e.ack) : e.Plain cs := by
  unfold Exchange.Plain
  rw [hbuffer]
  refine @clean_of_infoStream _ _ ls List.not_mem_nil ?_ ?_
  · rw [List.nil_append, info_answerTokens _ e.is_ack, hinfo]
  · intro t ht
    rw [answerTokens, List.mem_append, List.mem_cons] at ht
    rcases ht with ht | rfl | ht
    · obtain ⟨b, -, rfl⟩ := List.mem_map.mp ht
      trivial
    · exact hack
    · obtain ⟨b, -, rfl⟩ := List.mem_map.mp ht
      trivial

theorem unasked_new : Sys.Unasked { core := {}, tasks := [] } :=
  ⟨rfl, rfl, rfl, rfl, rfl, List.not_mem_nil⟩

theorem interactive_returns_own_response_buildInfo :
    ["[VER:1.1h]".toList, "ok".toList]
      = buildInfo.linesBefore.filter (fun t => !isStatus t) ++ buildInfo.ack.answer :=
  (interactive_returns_own_response (e := buildInfo)
    (w := answered "$I".toList [ascii "[VER:1", ascii ".1h]\r\n<Id", ascii "le>\r\nok\r\n"])
    unasked_new (s := aboutToSend "$I".toList) (run_reach (by decide)) (by decide) (by decide)
    (run_reach_guarded (by decide)) (by decide) (by decide)).1
    ⟨plain_of_infoStream [versionLine, idleReport] rfl (by decide) rfl, by decide,
      by decide⟩

/-- **A message that arrives with the acknowledgement becomes part of the response**, in
front of it. -/
theorem message_joins_response :
    ¬ ∀ (s₀ s : Sys) (w : Listener) (e : Exchange) (lines : List Text), s₀.Unasked →
      Run Sys.step AnyStep s₀ s →
      s.tasks[e.task]? = some (.interactive e.command (.begin e.request)) →
      s.core.flow.pending = [] → s.core.flow.statusBuffer = e.buffer →
      Run Listener.step (fun a l b => a.keepsBuffer l b = true) { sys := s } w →
      w.chunks.flatten <+: e.output → e.Plain w.chunks →
      w.sys.tasks[e.task]? = some (.interactive e.command (.returned (some lines))) →
      lines = e.linesBefore.filter (fun t => !isStatus t) ++ e.ack.answer := by
  intro h
  refine absurd (h _ (aboutToSend "$H".toList) (answered "$H".toList [ascii "ok\n[VER:1.1h]\r\n"])
    homing ["[VER:1.1h]".toList, "ok".toList] unasked_new (run_reach (by decide)) (by decide)
    (by decide) (by decide) (run_reach_guarded (by decide)) (by decide) ?_ (by decide))
    (by decide)
  exact plain_of_infoStream [versionLine] rfl (by decide) rfl

end Raydriver
