import Raydriver.Analyzer.PyText
import Raydriver.Lib.Run

/-!
# The endpoints of the analyzer

A listener is started if its configuration is safe, and lets a client through to its handler once
the client has answered the challenge with the token.  A connection is modelled with the bytes in
flight between the two sides, which arrive in pieces of any size, and with the two time-outs.  An
established TLS session carries the same bytes.

What `ipaddress` and the certificate loader answer is a parameter.

## Main definitions

* `validateBindPolicy`, `serve` — which configurations are accepted.
* `readline` — `StreamReader.readline` of asyncio.
* `Visit`, `Visit.step` — a connection, from its acceptance on.
* `Gated` — the handler runs for an authorized client only.

## Main results

* `serve_policy` — an endpoint that is started is on a loopback address, or has a token and TLS.
* `Visit.GateSound`, `Visit.gateSound_step` — what the server has made of the bytes sent so far,
  kept by every step.
* `Visit.settled_running_iff` — a token that has arrived gets to the handler if it is the one asked
  for, up to blanks.
* `gated_iff` — **when the gate does what it is for**: the token has no blanks at its ends, fits
  into the reader, and is not what the client's answer is without its blanks.
-/

namespace Raydriver

open Lts

/-! ### The policy -/

/-- `_WILDCARD_HOSTS`. -/
def wildcardHosts : List Text := ["".toList, "*".toList, "0.0.0.0".toList, "::".toList]

/-- The parameters of `serve` that concern who may connect. -/
structure ListenerConfig where
  host : Text := "127.0.0.1".toList
  token : Option Text := none
  tlsCert : Option Text := none
  tlsKey : Option Text := none
  deriving DecidableEq, Repr

/-- Why a listener is not started. -/
inductive ListenerError where
  | insecure (message : Text)
  /-- The loader of certificates raised. -/
  | certificate
  deriving DecidableEq, Repr

/-- A running server: the token it asks for, and its certificate and key. -/
structure Endpoint where
  host : Text
  token : Option Text
  ssl : Option (Text × Text)
  deriving DecidableEq, Repr

/-- `bool` of an optional text. -/
def truthy (t : Option Text) : Bool := t.any fun t => !t.isEmpty

section Policy

variable (ipIsLoopback : Text → Bool) (loads : Text → Text → Bool)

/-- `is_loopback`; what is no address is not loopback. -/
def isLoopback (host : Text) : Bool := host == "localhost".toList || ipIsLoopback host

/-- `validate_bind_policy`. -/
def validateBindPolicy (host : Text) (token tlsCert : Option Text) : Except ListenerError Unit :=
  let exposed := wildcardHosts.contains host || !isLoopback ipIsLoopback host
  if exposed && (!truthy token || !truthy tlsCert) then
    .error (.insecure ("refusing to listen on ".toList ++
      (if host.isEmpty then "0.0.0.0".toList else host) ++
      " without authentication: non-loopback listeners require ".toList ++
      "BOTH a token (--token) and TLS (--tls-cert/--tls-key)".toList))
  else .ok ()

/-- `serve`, up to the start of the server. -/
def serve (cfg : ListenerConfig) : Except ListenerError Endpoint :=
  (validateBindPolicy ipIsLoopback cfg.host cfg.token cfg.tlsCert).bind fun _ =>
    match cfg.tlsCert, cfg.tlsKey with
    | none, _ => .ok ⟨cfg.host, cfg.token, none⟩
    | some _, none => .error (.insecure "--tls-cert also requires --tls-key".toList)
    | some cert, some key =>
      if loads cert key then .ok ⟨cfg.host, cfg.token, some (cert, key)⟩ else .error .certificate

/-- The host is loopback, or there are both a token and TLS. -/
def Endpoint.Secure (e : Endpoint) : Prop :=
  isLoopback ipIsLoopback e.host = true ∨ truthy e.token = true ∧ e.ssl.isSome = true

variable {ipIsLoopback loads}

/-- An endpoint that is started is secure. -/
theorem serve_policy {cfg : ListenerConfig} {e : Endpoint}
    (h : serve ipIsLoopback loads cfg = .ok e) : e.Secure ipIsLoopback := by
  obtain ⟨host, token, tlsCert, tlsKey⟩ := cfg
  unfold serve at h
  cases hpolicy : validateBindPolicy ipIsLoopback host token tlsCert with
  | error message =>
    rw [hpolicy] at h
    cases h
  | ok u =>
    rw [hpolicy] at h
    unfold validateBindPolicy at hpolicy
    simp only [Bool.and_eq_true, Bool.or_eq_true, Bool.not_eq_true'] at hpolicy
    split_ifs at hpolicy with hexposed
    cases tlsCert with
    -- without a certificate the policy lets only a loopback host through
    | none =>
      obtain rfl := (Except.ok.inj h).symm
      refine .inl ?_
      by_contra hhost
      exact hexposed ⟨.inr (Bool.eq_false_iff.mpr hhost), .inr rfl⟩
    | some cert =>
      cases tlsKey with
      | none => cases h
      | some key =>
        have hloads : (if loads cert key then Except.ok (Endpoint.mk host token (some (cert, key)))
            else Except.error ListenerError.certificate) = .ok e := h
        split_ifs at hloads
        obtain rfl := (Except.ok.inj hloads).symm
        by_cases hhost : isLoopback ipIsLoopback host = true
        · exact .inl hhost
        · refine .inr ⟨?_, rfl⟩
          by_contra htoken
          exact hexposed ⟨.inr (Bool.eq_false_iff.mpr hhost), .inl (Bool.eq_false_iff.mpr htoken)⟩

end Policy

/-! ### Reading a line -/

/-- `TOKEN_CHALLENGE`. -/
def tokenChallenge : Bytes := toUtf8 "raydriver-analyzer: send token\n".toList

/-- `TOKEN_REJECTED`. -/
def tokenRejected : Bytes := toUtf8 "raydriver-analyzer: unauthorized\n".toList

/-- The limit of a `StreamReader`. -/
def readerLimit : ℕ := 2 ^ 16

/-- What `readline` comes to with what has arrived. -/
inductive LineRead where
  | waits
  | line (l : Bytes)
  /-- A `ValueError`: the line does not fit. -/
  | raises
  deriving DecidableEq, Repr

/-- What is before the first newline. -/
def headLine (b : Bytes) : Bytes := b.takeWhile fun c => c != LF

/-- `StreamReader.readline`: up to the newline, or to the end of the stream. -/
def readline (eof : Bool) (buffer : Bytes) : LineRead :=
  if LF ∈ buffer then
    if (headLine buffer).length ≤ readerLimit then .line (headLine buffer ++ [LF]) else .raises
  else if readerLimit < buffer.length then .raises
  else if eof then .line buffer
  else .waits

/-- ASCII whitespace, for `bytes.strip`. -/
def isBlankByte (b : UInt8) : Bool := [9, 10, 11, 12, 13, 32].contains b

/-- `bytes.strip`. -/
def stripBytes (b : Bytes) : Bytes := (b.dropWhile isBlankByte).rdropWhile isBlankByte

/-! ### Connections -/

/-- The server's side of a connection. -/
inductive Gate where
  /-- The connection is there, its task not yet. -/
  | accepted
  /-- In `_check_token`. -/
  | reading (buffer : Bytes)
  /-- In `client_handler`. -/
  | running
  | rejected
  /-- `readline` raised. -/
  | failed
  | timedOut
  | lost
  deriving DecidableEq, Repr

/-- Who connects. -/
inductive Client where
  /-- `connect_authenticated` with this token, and then what its caller sends. -/
  | authenticated (token : Text) (oneLine : '\n' ∉ token)
  /-- Someone who sends these bytes. -/
  | other (bytes : Bytes)
  deriving DecidableEq, Repr

/-- The client's side. -/
inductive ClientState where
  /-- In `connect_authenticated`, before the challenge. -/
  | expecting (buffer : Bytes)
  /-- The token is sent. -/
  | connected
  /-- There was no challenge. -/
  | refused
  /-- What is to be sent. -/
  | sending (bytes : Bytes)
  deriving DecidableEq, Repr

/-- A connection.  `sent` is the history of all bytes the client has written. -/
structure Visit where
  gate : Gate := .accepted
  client : ClientState
  toClient : Bytes := []
  toServer : Bytes := []
  sent : Bytes := []
  closed : Bool := false
  deriving DecidableEq, Repr

/-- What happens in a visit. -/
inductive VisitLabel where
  /-- The task of the connection starts. -/
  | start
  /-- That many bytes get to the server, or to the client. -/
  | serverReads (n : ℕ)
  | clientReads (n : ℕ)
  /-- The end of the client's stream gets to the server. -/
  | serverSeesEnd
  | serverTimesOut
  | serverLosesConnection
  | handlerSends (data : Bytes)
  /-- No challenge comes, in time or at all. -/
  | clientGivesUp
  | clientSends (data : Bytes)
  | clientCloses
  deriving DecidableEq, Repr

namespace Visit

/-- The client writes. -/
def send (data : Bytes) (x : Visit) : Visit :=
  { x with toServer := x.toServer ++ data, sent := x.sent ++ data }

/-- `_check_token` behind `readline`, and `handle_client` behind `_check_token`. -/
def check (token : Text) (r : LineRead) (buffer : Bytes) (x : Visit) : Visit :=
  match r with
  | .waits => { x with gate := .reading buffer }
  | .raises => { x with gate := .failed }
  | .line answer =>
    if stripBytes answer = toUtf8 token then { x with gate := .running }
    else { x with gate := .rejected, toClient := x.toClient ++ tokenRejected }

/-- The end of `connect_authenticated`, for what the first line is. -/
def answer (token : Text) (r : LineRead) (buffer : Bytes) (x : Visit) : Visit :=
  match r with
  | .waits => { x with client := .expecting buffer }
  | .raises => { x with client := .refused }
  | .line challenge =>
    if challenge = tokenChallenge then { x with client := .connected }.send (toUtf8 token ++ [LF])
    else { x with client := .refused, closed := true }

/-- One step of a connection to the endpoint. -/
def step (e : Endpoint) (c : Client) : VisitLabel → Visit → Option Visit
  | .start, x =>
    match x.gate, e.token with
    | .accepted, none => some { x with gate := .running }
    | .accepted, some _ =>
      some { x with gate := .reading [], toClient := x.toClient ++ tokenChallenge }
    | _, _ => none
  | .serverReads n, x =>
    if n ≤ x.toServer.length ∧ x.gate ≠ .accepted then
      let y := { x with toServer := x.toServer.drop n }
      match x.gate, e.token with
      | .reading buffer, some token =>
        let buffer := buffer ++ x.toServer.take n
        some (y.check token (readline false buffer) buffer)
      | _, _ => some y
    else none
  | .clientReads n, x =>
    if n ≤ x.toClient.length then
      let y := { x with toClient := x.toClient.drop n }
      match x.client, c with
      | .expecting buffer, .authenticated token _ =>
        let buffer := buffer ++ x.toClient.take n
        some (y.answer token (readline false buffer) buffer)
      | _, _ => some y
    else none
  | .serverSeesEnd, x =>
    match x.gate, e.token with
    | .reading buffer, some token =>
      if x.closed ∧ x.toServer = [] then some (x.check token (readline true buffer) buffer)
      else none
    | _, _ => none
  | .serverTimesOut, x =>
    match x.gate with
    | .reading _ => some { x with gate := .timedOut, toClient := x.toClient ++ tokenRejected }
    | _ => none
  | .serverLosesConnection, x =>
    match x.gate with
    | .reading _ => some { x with gate := .lost }
    | _ => none
  | .handlerSends data, x =>
    if x.gate = .running then some { x with toClient := x.toClient ++ data } else none
  | .clientGivesUp, x =>
    match x.client with
    | .expecting _ => some { x with client := .refused, closed := true }
    | _ => none
  | .clientSends data, x =>
    if x.closed then none
    else
      match x.client with
      | .connected => some (x.send data)
      | .sending bytes =>
        if data <+: bytes then
          some ({ x with client := .sending (bytes.drop data.length) }.send data)
        else none
      | _ => none
  | .clientCloses, x =>
    match x.client with
    | .connected => some { x with closed := true }
    | .sending [] => some { x with closed := true }
    | _ => none

/-- A connection that has just been accepted. -/
def init : Client → Visit
  | .authenticated _ _ => { client := .expecting [] }
  | .other bytes => { client := .sending bytes }

end Visit

/-- What was sent has arrived at a server that was left the time to read it. -/
def Visit.Settled (x : Visit) : Prop :=
  x.client = .connected ∧ x.toServer = [] ∧ x.gate ≠ .accepted ∧ x.gate ≠ .timedOut ∧ x.gate ≠ .lost

/-- The handler runs behind a secure endpoint only, and if that asks for a token, exactly for the
clients that have sent it, and never for one that has sent no line. -/
def Gated (ipIsLoopback : Text → Bool) (e : Endpoint) (c : Client) : Prop :=
  ∀ x, Run (Visit.step e c) AnyStep (Visit.init c) x →
    (x.gate = .running → e.Secure ipIsLoopback) ∧
    ∀ s, e.token = some s →
      (LF ∉ x.sent → x.gate ≠ .running) ∧
      ∀ t h, c = .authenticated t h →
        (x.client = .connected → x.gate = .running → t = s) ∧
        (x.Settled → t = s → x.gate = .running)

/-- The client is dealt with as intended if `s` is the token asked for: there is one, it has no
blanks at its ends and fits into the reader, and it is not a different answer without its blanks. -/
def Client.Fits (s : Text) : Client → Prop
  | .authenticated t _ => s ≠ [] ∧
      (t = s → stripBytes (toUtf8 s) = toUtf8 s ∧ (toUtf8 s).length ≤ readerLimit) ∧
      (t ≠ s → stripBytes (toUtf8 t) = toUtf8 s → readerLimit < (toUtf8 t).length)
  | .other b => LF ∉ b → stripBytes b = toUtf8 s → readerLimit < b.length

/-! ### Lines -/

section Lines

variable {b d buffer : Bytes}

theorem ne_newline (h : LF ∉ b) : ∀ c ∈ b, (c != LF) = true :=
  fun _ hc => bne_iff_ne.mpr fun hlf => h (hlf ▸ hc)

theorem headLine_of_not_mem (h : LF ∉ b) : headLine b = b :=
  List.takeWhile_eq_self_iff.mpr (ne_newline h)

theorem headLine_append_newline (h : LF ∉ b) (d : Bytes) : headLine (b ++ LF :: d) = b := by
  unfold headLine
  rw [List.takeWhile_append_of_pos (ne_newline h), List.takeWhile_cons_of_neg (by simp),
    List.append_nil]

/-- What is sent behind the first newline is not part of the first line. -/
theorem headLine_append (h : LF ∈ b) : headLine (b ++ d) = headLine b := by
  obtain ⟨a, r, rfl, ha⟩ := List.eq_append_cons_of_mem h
  rw [List.append_assoc, List.cons_append, headLine_append_newline ha,
    headLine_append_newline ha]

theorem length_headLine_append : (headLine b).length ≤ (headLine (b ++ d)).length := by
  by_cases h : LF ∈ b
  · rw [headLine_append h]
  · rw [headLine_of_not_mem h, headLine, List.takeWhile_append_of_pos (ne_newline h),
      List.length_append]
    exact Nat.le_add_right _ _

theorem stripBytes_newline : stripBytes (b ++ [LF]) = stripBytes b := by
  have hlf : isBlankByte LF = true := by decide
  unfold stripBytes
  rw [List.dropWhile_append]
  split_ifs with hblank
  · rw [List.isEmpty_iff.mp hblank]
    decide
  · exact List.rdropWhile_concat_pos _ _ _ hlf

/-- **The reader**: it waits for a newline as long as there is room, and else decides on the first
line, whatever follows. -/
theorem readline_spec (eof : Bool) (buffer : Bytes) :
    match readline eof buffer with
    | .waits => LF ∉ buffer ∧ buffer.length ≤ readerLimit
    | .line l => (LF ∈ buffer ∨ eof = true) ∧ (headLine buffer).length ≤ readerLimit ∧
        stripBytes l = stripBytes (headLine buffer)
    | .raises => readerLimit < (headLine buffer).length := by
  unfold readline
  by_cases hmem : LF ∈ buffer
  · rw [if_pos hmem]
    split_ifs with hfits
    · exact ⟨.inl hmem, hfits, stripBytes_newline⟩
    · exact Nat.lt_of_not_le hfits
  · rw [if_neg hmem]
    by_cases hlong : readerLimit < buffer.length
    · rw [if_pos hlong]
      rwa [← headLine_of_not_mem hmem] at hlong
    · rw [if_neg hlong]
      cases eof with
      | false => exact ⟨hmem, Nat.le_of_not_lt hlong⟩
      | true =>
        rw [if_pos rfl]
        refine ⟨.inr rfl, ?_, by rw [headLine_of_not_mem hmem]⟩
        rw [headLine_of_not_mem hmem]
        exact Nat.le_of_not_lt hlong

end Lines

/-- Only the newline has a newline among its bytes. -/
theorem lf_mem_charBytes {c : Char} (h : LF ∈ charBytes c) : c = '\n' := by
  have hbyte {n : ℕ} (hn : LF = UInt8.ofNat n) (hlt : n < 256) : n = 10 := by
    rw [← toNat_ofNat_byte hlt, ← hn]
    rfl
  have hmax : c.toNat < 0x110000 := by
    have := c.valid
    simp only [UInt32.isValidChar, Nat.isValidChar] at this
    simp only [Char.toNat]
    omega
  unfold charBytes at h
  dsimp only at h
  split_ifs at h with h1 h2 h3
  · have hc : c.toNat = 10 := hbyte (List.mem_singleton.mp h) (by omega)
    exact Char.toNat_inj.mp hc
  · simp only [List.mem_cons, List.not_mem_nil, or_false] at h
    rcases h with h | h <;> have := hbyte h (by omega) <;> omega
  · simp only [List.mem_cons, List.not_mem_nil, or_false] at h
    rcases h with h | h | h <;> have := hbyte h (by omega) <;> omega
  · simp only [List.mem_cons, List.not_mem_nil, or_false] at h
    rcases h with h | h | h | h <;> have := hbyte h (by omega) <;> omega

theorem lf_not_mem_toUtf8 {t : Text} (h : '\n' ∉ t) : LF ∉ toUtf8 t := by
  intro hmem
  obtain ⟨c, hc, hlf⟩ := List.mem_flatMap.mp hmem
  exact h (lf_mem_charBytes hlf ▸ hc)

/-! ### What the server has made of the bytes sent -/

/-- There is a first line, or there will be none. -/
def Visit.Answered (x : Visit) : Prop := LF ∈ x.sent ∨ x.closed = true

/-- What the server knows of the bytes sent so far. -/
def Visit.GateSound (s : Text) (x : Visit) : Prop :=
  match x.gate with
  | .accepted => x.toServer = x.sent
  | .reading buffer => buffer ++ x.toServer = x.sent ∧ LF ∉ buffer ∧ buffer.length ≤ readerLimit
  | .running => x.Answered ∧ (headLine x.sent).length ≤ readerLimit ∧
      stripBytes (headLine x.sent) = toUtf8 s
  | .rejected => x.Answered ∧ (headLine x.sent).length ≤ readerLimit ∧
      stripBytes (headLine x.sent) ≠ toUtf8 s
  | .failed => readerLimit < (headLine x.sent).length
  | .timedOut | .lost => True

/-- What the client has sent. -/
def Visit.ClientSound (x : Visit) : Client → Prop
  | .authenticated t _ =>
    (∃ buffer, x.client = .expecting buffer ∧ x.sent = [] ∧ x.closed = false) ∨
      (x.client = .refused ∧ x.sent = []) ∨
      (x.client = .connected ∧ ∃ d, x.sent = toUtf8 t ++ LF :: d)
  | .other b =>
    ∃ bytes, x.client = .sending bytes ∧ x.sent ++ bytes = b ∧ (x.closed = true → bytes = [])

namespace Visit

variable {e : Endpoint} {c : Client} {s : Text} {x y : Visit} {l : VisitLabel} {d buffer : Bytes}

theorem ClientSound.expecting (h : x.ClientSound c) (hx : x.client = .expecting buffer) :
    ∃ t ht, c = .authenticated t ht ∧ x.sent = [] ∧ x.closed = false := by
  cases c with
  | authenticated t ht =>
    obtain ⟨-, -, hsent⟩ | ⟨hrefused, -⟩ | ⟨hconnected, -⟩ := h
    · exact ⟨t, ht, rfl, hsent⟩
    · cases hx.symm.trans hrefused
    · cases hx.symm.trans hconnected
  | other b =>
    obtain ⟨bytes, hsending, -⟩ := h
    cases hx.symm.trans hsending

theorem ClientSound.connected (h : x.ClientSound c) (hx : x.client = .connected) :
    ∃ t ht d, c = .authenticated t ht ∧ x.sent = toUtf8 t ++ LF :: d := by
  cases c with
  | authenticated t ht =>
    obtain ⟨_, hexpecting, -⟩ | ⟨hrefused, -⟩ | ⟨-, d, hsent⟩ := h
    · cases hx.symm.trans hexpecting
    · cases hx.symm.trans hrefused
    · exact ⟨t, ht, d, rfl, hsent⟩
  | other b =>
    obtain ⟨bytes, hsending, -⟩ := h
    cases hx.symm.trans hsending

theorem ClientSound.sending {bytes : Bytes} (h : x.ClientSound c)
    (hx : x.client = .sending bytes) :
    c = .other (x.sent ++ bytes) ∧ (x.closed = true → bytes = []) := by
  cases c with
  | authenticated t ht =>
    obtain ⟨_, hexpecting, -⟩ | ⟨hrefused, -⟩ | ⟨hconnected, -⟩ := h
    · cases hx.symm.trans hexpecting
    · cases hx.symm.trans hrefused
    · cases hx.symm.trans hconnected
  | other b =>
    obtain ⟨_, hsending, rfl, hclosed⟩ := h
    cases hx.symm.trans hsending
    exact ⟨rfl, hclosed⟩

/-- What has been sent so far decides, as long as the client has not closed. -/
theorem gateSound_send (h : x.GateSound s) (hopen : x.closed = false) : (x.send d).GateSound s := by
  have hmem (hans : x.Answered) : LF ∈ x.sent := hans.resolve_right (by simp [hopen])
  have hline (hans : x.Answered) : headLine (x.sent ++ d) = headLine x.sent :=
    headLine_append (hmem hans)
  unfold GateSound at h ⊢
  cases hgate : x.gate with
  | accepted =>
    rw [hgate] at h
    simp only [send, hgate]
    rw [h]
  | reading buffer =>
    rw [hgate] at h
    simp only [send, hgate]
    rw [← List.append_assoc, h.1]
    exact ⟨rfl, h.2⟩
  | running =>
    rw [hgate] at h
    simp only [send, hgate]
    rw [hline h.1]
    exact ⟨.inl (List.mem_append_left _ (hmem h.1)), h.2⟩
  | rejected =>
    rw [hgate] at h
    simp only [send, hgate]
    rw [hline h.1]
    exact ⟨.inl (List.mem_append_left _ (hmem h.1)), h.2⟩
  | failed =>
    rw [hgate] at h
    simp only [send, hgate]
    exact h.trans_le length_headLine_append
  | timedOut => simp only [send, hgate]
  | lost => simp only [send, hgate]

/-- The check decides by the first line of what was sent. -/
theorem gateSound_check {eof : Bool} (hsent : buffer ++ x.toServer = x.sent)
    (heof : eof = true → x.closed = true ∧ x.toServer = []) :
    (x.check s (readline eof buffer) buffer).GateSound s := by
  have hspec := readline_spec eof buffer
  unfold check
  cases hread : readline eof buffer with
  | waits =>
    rw [hread] at hspec
    exact ⟨hsent, hspec⟩
  | raises =>
    rw [hread] at hspec
    show readerLimit < (headLine x.sent).length
    rw [← hsent]
    exact hspec.trans_le length_headLine_append
  | line answer =>
    rw [hread] at hspec
    obtain ⟨hend, hfits, hstrip⟩ := hspec
    have hfirst : x.Answered ∧ headLine x.sent = headLine buffer := by
      rw [← hsent]
      rcases hend with hmem | hend
      · exact ⟨.inl (hsent ▸ List.mem_append_left _ hmem), headLine_append hmem⟩
      · obtain ⟨hclosed, hnil⟩ := heof hend
        exact ⟨.inr hclosed, by rw [hnil, List.append_nil]⟩
    rw [← hfirst.2] at hfits hstrip
    show GateSound s (if stripBytes answer = toUtf8 s then _ else _)
    split_ifs with hok
    · exact ⟨hfirst.1, hfits, hstrip ▸ hok⟩
    · exact ⟨hfirst.1, hfits, hstrip ▸ hok⟩

/-- What the server knows does not depend on what the client does but send. -/
theorem gateSound_frame (h : x.GateSound s) (hgate : y.gate = x.gate)
    (hserver : y.toServer = x.toServer) (hsent : y.sent = x.sent)
    (hclosed : x.closed = true → y.closed = true) : y.GateSound s := by
  have hans (ha : x.Answered) : y.Answered := ha.imp (fun hmem => hsent ▸ hmem) hclosed
  unfold GateSound at h ⊢
  rw [hgate, hsent, hserver]
  cases hx : x.gate with
  | running =>
    rw [hx] at h
    exact ⟨hans h.1, h.2⟩
  | rejected =>
    rw [hx] at h
    exact ⟨hans h.1, h.2⟩
  | accepted | reading buffer | failed | timedOut | lost =>
    rw [hx] at h
    exact h

theorem gateSound_answer {t : Text} {r : LineRead} (hopen : x.closed = false)
    (h : x.GateSound s) : (x.answer t r buffer).GateSound s := by
  unfold answer
  cases r with
  | waits => exact gateSound_frame h rfl rfl rfl id
  | raises => exact gateSound_frame h rfl rfl rfl id
  | line challenge =>
    dsimp only
    split_ifs
    · exact gateSound_send (x := { x with client := .connected })
        (gateSound_frame h rfl rfl rfl id) hopen
    · exact gateSound_frame h rfl rfl rfl fun _ => rfl

/-- What the server knows stays right in every step. -/
theorem gateSound_step (htoken : e.token = some s) (hclient : x.ClientSound c) (h : x.GateSound s)
    (hstep : step e c l x = some y) : y.GateSound s := by
  cases l with
  | start =>
    simp only [step, htoken] at hstep
    split at hstep
    · cases ‹some s = none›
    · obtain rfl := Option.some.inj hstep
      rename_i hgate _
      rw [GateSound, hgate] at h
      exact ⟨h, by simp, Nat.zero_le _⟩
    · cases hstep
  | serverReads n =>
    simp only [step, htoken] at hstep
    split_ifs at hstep with hn
    cases hgate : x.gate with
    | reading buffer =>
      rw [hgate] at hstep
      obtain rfl := Option.some.inj hstep
      rw [GateSound, hgate] at h
      -- the bytes read so far and those still in flight are what the client sent
      refine gateSound_check (x := { x with toServer := x.toServer.drop n }) ?_ (by simp)
      rw [List.append_assoc, List.take_append_drop]
      exact h.1
    | accepted => exact absurd hgate hn.2
    | running | rejected | failed =>
      rw [hgate] at hstep
      obtain rfl := Option.some.inj hstep
      rw [GateSound, hgate] at h
      rw [GateSound]
      exact h
    | timedOut | lost =>
      rw [hgate] at hstep
      obtain rfl := Option.some.inj hstep
      trivial
  | clientReads n =>
    simp only [step] at hstep
    split_ifs at hstep with hn
    have hread : ({ x with toClient := x.toClient.drop n } : Visit).GateSound s :=
      gateSound_frame h rfl rfl rfl id
    split at hstep
    · obtain rfl := Option.some.inj hstep
      rename_i hexpecting
      -- the client answers the challenge, and has not closed yet
      obtain ⟨-, -, -, -, hopen⟩ := hclient.expecting hexpecting
      exact gateSound_answer hopen hread
    · obtain rfl := Option.some.inj hstep
      exact hread
  | serverSeesEnd =>
    simp only [step, htoken] at hstep
    split at hstep
    · rename_i buffer _ hgate htok
      split_ifs at hstep with hend
      obtain rfl := Option.some.inj hstep
      obtain rfl := Option.some.inj htok
      rw [GateSound, hgate] at h
      -- the end of the stream: what the buffer holds is the whole answer
      exact gateSound_check h.1 fun _ => hend
    · cases hstep
  | serverTimesOut | serverLosesConnection =>
    simp only [step] at hstep
    split at hstep
    · obtain rfl := Option.some.inj hstep
      trivial
    · cases hstep
  | handlerSends data =>
    simp only [step] at hstep
    split_ifs at hstep
    obtain rfl := Option.some.inj hstep
    exact gateSound_frame h rfl rfl rfl id
  | clientGivesUp =>
    simp only [step] at hstep
    split at hstep
    · obtain rfl := Option.some.inj hstep
      exact gateSound_frame h rfl rfl rfl fun _ => rfl
    · cases hstep
  | clientSends data =>
    simp only [step] at hstep
    split_ifs at hstep with hclosed
    have hopen : x.closed = false := by simpa using hclosed
    split at hstep
    · obtain rfl := Option.some.inj hstep
      exact gateSound_send h hopen
    · rename_i bytes _
      split_ifs at hstep
      obtain rfl := Option.some.inj hstep
      exact gateSound_send (x := { x with client := .sending (bytes.drop data.length) })
        (gateSound_frame h rfl rfl rfl id) hopen
    · cases hstep
  | clientCloses =>
    simp only [step] at hstep
    split at hstep
    · obtain rfl := Option.some.inj hstep
      exact gateSound_frame h rfl rfl rfl fun _ => rfl
    · obtain rfl := Option.some.inj hstep
      exact gateSound_frame h rfl rfl rfl fun _ => rfl
    · cases hstep

theorem clientSound_check {t : Text} {r : LineRead} (h : x.ClientSound c) :
    (x.check t r buffer).ClientSound c := by
  unfold check
  cases r with
  | waits | raises => exact h
  | line answer =>
    dsimp only
    split_ifs
    · exact h
    · exact h

theorem clientSound_answer {t : Text} {ht : '\n' ∉ t} {r : LineRead}
    (h : x.sent = []) (hopen : x.closed = false) :
    (x.answer t r buffer).ClientSound (.authenticated t ht) := by
  unfold answer
  cases r with
  | waits => exact .inl ⟨buffer, rfl, h, hopen⟩
  | raises => exact .inr (.inl ⟨rfl, h⟩)
  | line challenge =>
    dsimp only
    split_ifs
    · refine .inr (.inr ⟨rfl, [], ?_⟩)
      show x.sent ++ (toUtf8 t ++ [LF]) = toUtf8 t ++ [LF]
      rw [h, List.nil_append]
    · exact .inr (.inl ⟨rfl, h⟩)

theorem clientSound_step (h : x.ClientSound c) (hstep : step e c l x = some y) :
    y.ClientSound c := by
  cases l with
  | start =>
    simp only [step] at hstep
    split at hstep
    · obtain rfl := Option.some.inj hstep
      exact h
    · obtain rfl := Option.some.inj hstep
      exact h
    · cases hstep
  | serverReads n =>
    simp only [step] at hstep
    split_ifs at hstep
    split at hstep
    · obtain rfl := Option.some.inj hstep
      exact clientSound_check h
    · obtain rfl := Option.some.inj hstep
      exact h
  -- the challenge: the client writes its token, and only then is it connected
  | clientReads n =>
    simp only [step] at hstep
    split_ifs at hstep
    split at hstep
    · obtain rfl := Option.some.inj hstep
      rename_i hexpecting
      obtain ⟨-, -, -, hsent, hopen⟩ := h.expecting hexpecting
      exact clientSound_answer hsent hopen
    · obtain rfl := Option.some.inj hstep
      exact h
  | serverSeesEnd =>
    simp only [step] at hstep
    split at hstep
    · split_ifs at hstep
      obtain rfl := Option.some.inj hstep
      exact clientSound_check h
    · cases hstep
  | serverTimesOut | serverLosesConnection =>
    simp only [step] at hstep
    split at hstep
    · obtain rfl := Option.some.inj hstep
      exact h
    · cases hstep
  | handlerSends data =>
    simp only [step] at hstep
    split_ifs at hstep
    obtain rfl := Option.some.inj hstep
    exact h
  | clientGivesUp =>
    simp only [step] at hstep
    split at hstep
    · obtain rfl := Option.some.inj hstep
      rename_i hexpecting
      obtain ⟨t, ht, rfl, hsent, -⟩ := h.expecting hexpecting
      exact .inr (.inl ⟨rfl, hsent⟩)
    · cases hstep
  | clientSends data =>
    simp only [step] at hstep
    split_ifs at hstep with hclosed
    split at hstep
    · obtain rfl := Option.some.inj hstep
      rename_i hconnected
      obtain ⟨t, ht, d, rfl, hsent⟩ := h.connected hconnected
      -- after the token the client sends what it likes
      refine .inr (.inr ⟨hconnected, d ++ data, ?_⟩)
      show x.sent ++ data = _
      rw [hsent, List.append_assoc, List.cons_append]
    · rename_i bytes hsending
      split_ifs at hstep with hprefix
      obtain rfl := Option.some.inj hstep
      obtain ⟨rfl, -⟩ := h.sending hsending
      -- a part of the token is on its way, the rest is still to be written
      obtain ⟨later, rfl⟩ := hprefix
      refine ⟨later, by simp [send], ?_, fun hclose => absurd hclose hclosed⟩
      show x.sent ++ data ++ later = _
      rw [List.append_assoc]
    · cases hstep
  | clientCloses =>
    simp only [step] at hstep
    split at hstep
    · obtain rfl := Option.some.inj hstep
      rename_i hconnected
      obtain ⟨t, ht, d, rfl, hsent⟩ := h.connected hconnected
      exact .inr (.inr ⟨hconnected, d, hsent⟩)
    · obtain rfl := Option.some.inj hstep
      rename_i hsending
      obtain ⟨rfl, -⟩ := h.sending hsending
      exact ⟨[], hsending, rfl, fun _ => rfl⟩
    · cases hstep

/-- What is known at both ends of every reachable connection. -/
theorem sound_of_run (htoken : e.token = some s) (h : Run (step e c) AnyStep (init c) x) :
    x.GateSound s ∧ x.ClientSound c := by
  refine h.invariant (I := fun x => x.GateSound s ∧ x.ClientSound c) ?_ ?_
  · rintro x l y ⟨hgate, hclient⟩ hstep -
    exact ⟨gateSound_step htoken hclient hgate hstep, clientSound_step hclient hstep⟩
  · cases c with
    | authenticated t ht => exact ⟨rfl, .inl ⟨[], rfl, rfl, rfl⟩⟩
    | other b => exact ⟨rfl, b, rfl, rfl, nofun⟩

/-! ### What the server decides -/

/-- A token that was sent is the first line. -/
theorem headLine_of_connected {t : Text} {ht : '\n' ∉ t}
    (h : x.ClientSound (.authenticated t ht)) (hx : x.client = .connected) :
    LF ∈ x.sent ∧ headLine x.sent = toUtf8 t := by
  obtain ⟨t', ht', d, heq, hsent⟩ := h.connected hx
  cases heq
  rw [hsent]
  exact ⟨List.mem_append_right _ List.mem_cons_self,
    headLine_append_newline (lf_not_mem_toUtf8 ht) d⟩

/-- **A token that was sent and has arrived**: the handler runs if the token fits into the reader
and is, without its blanks, the one asked for. -/
theorem settled_running_iff {t : Text} {ht : '\n' ∉ t} (hgate : x.GateSound s)
    (hclient : x.ClientSound (.authenticated t ht)) (hx : x.Settled) :
    x.gate = .running ↔
      (toUtf8 t).length ≤ readerLimit ∧ stripBytes (toUtf8 t) = toUtf8 s := by
  obtain ⟨hconnected, harrived, haccepted, htimely, hkept⟩ := hx
  obtain ⟨hmem, hfirst⟩ := headLine_of_connected hclient hconnected
  rw [GateSound, hfirst] at hgate
  cases hg : x.gate with
  | accepted => exact absurd hg haccepted
  | timedOut => exact absurd hg htimely
  | lost => exact absurd hg hkept
  | reading buffer =>
    rw [hg, harrived] at hgate
    obtain ⟨hbuffer, hno, -⟩ := hgate
    rw [List.append_nil] at hbuffer
    exact absurd (hbuffer ▸ hmem) hno
  | running =>
    rw [hg] at hgate
    exact ⟨fun _ => hgate.2, fun _ => rfl⟩
  | rejected =>
    rw [hg] at hgate
    exact ⟨nofun, fun h => absurd h.2 hgate.2.2⟩
  | failed =>
    rw [hg] at hgate
    exact ⟨nofun, fun h => absurd h.1 (Nat.not_le.mpr hgate)⟩

/-- The handler runs for a client that has sent no line only if that has closed, and what it has
sent is the token up to blanks. -/
theorem running_without_line (hgate : x.GateSound s) (hline : LF ∉ x.sent)
    (hx : x.gate = .running) :
    x.closed = true ∧ x.sent.length ≤ readerLimit ∧ stripBytes x.sent = toUtf8 s := by
  rw [GateSound, hx, headLine_of_not_mem hline] at hgate
  exact ⟨hgate.1.resolve_left hline, hgate.2⟩

/-! ### Runs -/

section Runs

variable {t : Text} {ht : '\n' ∉ t} {b : Bytes} (htoken : e.token = some s)

include htoken

theorem step_start {client : ClientState} : step e c .start { client := client } =
    some ⟨.reading [], client, tokenChallenge, [], [], false⟩ := by
  simp only [step, htoken]
  rfl

/-- The token is asked for, sent, and read. -/
theorem exists_settled :
    ∃ x, Run (step e (.authenticated t ht)) AnyStep (init (.authenticated t ht)) x ∧ x.Settled := by
  have hread : readline false tokenChallenge = .line tokenChallenge := by decide
  have hanswer : step e (.authenticated t ht) (.clientReads tokenChallenge.length)
      ⟨.reading [], .expecting [], tokenChallenge, [], [], false⟩ =
      some ⟨.reading [], .connected, [], toUtf8 t ++ [LF], toUtf8 t ++ [LF], false⟩ := by
    simp only [step, le_refl, if_true, List.take_length, List.drop_length, List.nil_append, hread,
      answer, send]
  have hcheck : step e (.authenticated t ht) (.serverReads (toUtf8 t ++ [LF]).length)
      ⟨.reading [], .connected, [], toUtf8 t ++ [LF], toUtf8 t ++ [LF], false⟩ =
      some (check s (readline false (toUtf8 t ++ [LF])) (toUtf8 t ++ [LF])
        ⟨.reading [], .connected, [], [], toUtf8 t ++ [LF], false⟩) := by
    simp only [step, htoken, le_refl, true_and, ne_eq, reduceCtorEq, not_false_eq_true, if_true,
      List.take_length, List.drop_length, List.nil_append]
  refine ⟨_, .tail (.tail (.single (step_start htoken) trivial) hanswer trivial) hcheck trivial, ?_⟩
  unfold check
  cases readline false (toUtf8 t ++ [LF]) with
  | waits | raises => exact ⟨rfl, rfl, nofun, nofun, nofun⟩
  | line answer =>
    dsimp only
    split_ifs
    · exact ⟨rfl, rfl, nofun, nofun, nofun⟩
    · exact ⟨rfl, rfl, nofun, nofun, nofun⟩

/-- A client without an answer closes the connection; what it has sent counts as its line. -/
theorem exists_running_of_blank (hs : s = []) :
    ∃ x, Run (step e (.authenticated t ht)) AnyStep (init (.authenticated t ht)) x ∧
      x.sent = [] ∧ x.gate = .running := by
  subst hs
  have hend : step e (.authenticated t ht) .serverSeesEnd
      ⟨.reading [], .refused, tokenChallenge, [], [], true⟩ =
      some ⟨.running, .refused, tokenChallenge, [], [], true⟩ := by
    simp only [step, htoken]
    decide
  exact ⟨_, .tail (.tail (.single (step_start htoken) trivial) (l := .clientGivesUp) rfl trivial)
    hend trivial, rfl, rfl⟩

/-- So does what someone sends who closes the connection after it. -/
theorem exists_running_of_end (hline : LF ∉ b) (hfits : b.length ≤ readerLimit)
    (hstrip : stripBytes b = toUtf8 s) :
    ∃ x, Run (step e (.other b)) AnyStep (init (.other b)) x ∧ x.sent = b ∧
      x.gate = .running := by
  have hsend : step e (.other b) (.clientSends b)
      ⟨.reading [], .sending b, tokenChallenge, [], [], false⟩ =
      some ⟨.reading [], .sending [], tokenChallenge, b, b, false⟩ := by
    simp [step, send]
  have hwaits : readline false b = .waits := by
    rw [readline, if_neg hline, if_neg (Nat.not_lt.mpr hfits)]
    rfl
  have hread : step e (.other b) (.serverReads b.length)
      ⟨.reading [], .sending [], tokenChallenge, b, b, false⟩ =
      some ⟨.reading b, .sending [], tokenChallenge, [], b, false⟩ := by
    simp only [step, htoken, le_refl, true_and, ne_eq, reduceCtorEq, not_false_eq_true, if_true,
      List.take_length, List.drop_length, List.nil_append, hwaits, check]
  have hlast : readline true b = .line b := by
    rw [readline, if_neg hline, if_neg (Nat.not_lt.mpr hfits)]
    rfl
  have hend : step e (.other b) .serverSeesEnd
      ⟨.reading b, .sending [], tokenChallenge, [], b, true⟩ =
      some ⟨.running, .sending [], tokenChallenge, [], b, true⟩ := by
    simp only [step, htoken, and_self, if_true, hlast, check, hstrip]
  exact ⟨_, .tail (.tail (.tail (.tail (.single (step_start htoken) trivial) hsend trivial) hread
    trivial) (l := .clientCloses) rfl trivial) hend trivial, rfl, rfl⟩

end Runs

end Visit

/-! ### The gate -/

section Gate

variable {ipIsLoopback : Text → Bool} {e : Endpoint} {s t : Text} {ht : '\n' ∉ t} {b : Bytes}

/-- A connected client whose token gets it to the handler has the right one. -/
theorem Gated.fits_authenticated (h : Gated ipIsLoopback e (.authenticated t ht))
    (htoken : e.token = some s) : (Client.authenticated t ht).Fits s := by
  obtain ⟨x, hrun, hsettled⟩ := @Visit.exists_settled e s t ht htoken
  obtain ⟨hgate, hclient⟩ := Visit.sound_of_run htoken hrun
  have hiff := Visit.settled_running_iff hgate hclient hsettled
  obtain ⟨-, hright⟩ := (h x hrun).2 s htoken
  obtain ⟨honly, hall⟩ := hright t ht rfl
  refine ⟨fun hnil => ?_, fun heq => ?_, fun hne hstrip => ?_⟩
  · obtain ⟨y, hrun', hsent, hy⟩ := @Visit.exists_running_of_blank e s t ht htoken hnil
    exact ((h y hrun').2 s htoken).1 (by simp [hsent]) hy
  · obtain ⟨hfits, hstrip⟩ := hiff.mp (hall hsettled heq)
    rw [heq] at hfits hstrip
    exact ⟨hstrip, hfits⟩
  · by_contra hlong
    exact hne (honly hsettled.1 (hiff.mpr ⟨Nat.not_lt.mp hlong, hstrip⟩))

theorem Gated.fits_other (h : Gated ipIsLoopback e (.other b)) (htoken : e.token = some s) :
    (Client.other b).Fits s := by
  intro hline hstrip
  by_contra hlong
  obtain ⟨x, hrun, hsent, hx⟩ :=
    Visit.exists_running_of_end htoken hline (Nat.not_lt.mp hlong) hstrip
  exact ((h x hrun).2 s htoken).1 (hsent ▸ hline) hx

/-- A client that is dealt with as intended does not get through without a line. -/
theorem Client.Fits.not_running {c : Client} {x : Visit} (h : c.Fits s) (hgate : x.GateSound s)
    (hclient : x.ClientSound c) (hline : LF ∉ x.sent) : x.gate ≠ .running := by
  intro hx
  obtain ⟨hclosed, hfits, hstrip⟩ := Visit.running_without_line hgate hline hx
  cases c with
  | authenticated t ht =>
    obtain ⟨_, -, -, hopen⟩ | ⟨-, hsent⟩ | ⟨-, d, hsent⟩ := hclient
    · exact absurd hclosed (by simp [hopen])
    · rw [hsent] at hstrip
      exact h.1 (toUtf8_injective (t := s) (u := []) hstrip.symm)
    · exact hline (hsent ▸ List.mem_append_right _ List.mem_cons_self)
  | other b =>
    obtain ⟨bytes, -, hb, hend⟩ := hclient
    rw [hend hclosed, List.append_nil] at hb
    rw [hb] at hline hstrip hfits
    exact Nat.not_lt.mpr hfits (h hline hstrip)

end Gate

/-- **When the gate does what it is for.** -/
theorem gated_iff {ipIsLoopback : Text → Bool} {loads : Text → Text → Bool} {cfg : ListenerConfig}
    {e : Endpoint} (he : serve ipIsLoopback loads cfg = .ok e) (c : Client) :
    Gated ipIsLoopback e c ↔ ∀ s, e.token = some s → c.Fits s := by
  constructor
  · intro h s htoken
    cases c with
    | authenticated t ht => exact h.fits_authenticated htoken
    | other b => exact h.fits_other htoken
  · intro h x hrun
    refine ⟨fun _ => serve_policy he, fun s htoken => ?_⟩
    obtain ⟨hgate, hclient⟩ := Visit.sound_of_run htoken hrun
    refine ⟨(h s htoken).not_running hgate hclient, ?_⟩
    rintro t ht rfl
    obtain ⟨-, hsame, hother⟩ := h s htoken
    refine ⟨fun hconnected hx => ?_, fun hsettled heq => ?_⟩
    · obtain ⟨-, hfirst⟩ := Visit.headLine_of_connected hclient hconnected
      rw [Visit.GateSound, hx, hfirst] at hgate
      by_contra hne
      exact Nat.not_lt.mpr hgate.2.1 (hother hne hgate.2.2)
    · obtain ⟨hstrip, hfits⟩ := hsame heq
      subst heq
      exact (Visit.settled_running_iff hgate hclient hsettled).mpr ⟨hfits, hstrip⟩

/-- The gate in front of a listener on loopback with the token `secret`: the right token, and a
client that sends nothing and closes, are dealt with as intended. -/
theorem gated_secret :
    Gated (fun host => host == "127.0.0.1".toList)
      ⟨"127.0.0.1".toList, some "secret".toList, none⟩
      (.authenticated "secret".toList (by decide)) ∧
    Gated (fun host => host == "127.0.0.1".toList)
      ⟨"127.0.0.1".toList, some "secret".toList, none⟩ (.other []) := by
  have he : serve (fun host => host == "127.0.0.1".toList) (fun _ _ => true)
      { token := some "secret".toList } =
        .ok ⟨"127.0.0.1".toList, some "secret".toList, none⟩ := rfl
  constructor
  · refine (gated_iff he _).mpr fun s hs => ?_
    cases hs
    exact ⟨by decide, fun _ => by decide, fun h => absurd rfl h⟩
  · refine (gated_iff he _).mpr fun s hs => ?_
    cases hs
    exact fun _ hstrip => absurd hstrip (by decide)

/-- A token with a blank in front of it is configured and sent, and the client is turned away; a
token with a blank behind it gets through; and an empty token lets a client in that sends
nothing. -/
theorem blank_token_not_gated :
    (serve (fun host => host == "127.0.0.1".toList) (fun _ _ => true)
        { token := some " secret".toList } =
          .ok ⟨"127.0.0.1".toList, some " secret".toList, none⟩ ∧
      ¬ Gated (fun host => host == "127.0.0.1".toList)
        ⟨"127.0.0.1".toList, some " secret".toList, none⟩
        (.authenticated " secret".toList (by decide))) ∧
    (¬ Gated (fun host => host == "127.0.0.1".toList)
      ⟨"127.0.0.1".toList, some "secret".toList, none⟩
      (.authenticated "secret ".toList (by decide))) ∧
    (serve (fun host => host == "127.0.0.1".toList) (fun _ _ => true) { token := some [] } =
        .ok ⟨"127.0.0.1".toList, some [], none⟩ ∧
      ¬ Gated (fun host => host == "127.0.0.1".toList)
        ⟨"127.0.0.1".toList, some [], none⟩ (.other [])) := by
  refine ⟨⟨rfl, fun h => ?_⟩, fun h => ?_, rfl, fun h => ?_⟩
  · obtain ⟨-, hsame, -⟩ := h.fits_authenticated rfl
    exact absurd (hsame rfl).1 (by decide)
  · obtain ⟨-, -, hother⟩ := h.fits_authenticated rfl
    exact absurd (hother (by decide) (by decide)) (by decide)
  · exact absurd (h.fits_other rfl (by decide) (by decide)) (by decide)

end Raydriver
