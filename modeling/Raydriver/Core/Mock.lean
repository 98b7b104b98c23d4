import Raydriver.Core.Text

/-!
# The mock link

The transport of the dry runs and of the tests.  It records every chunk the session writes,
and a device emulator reads the record through a cursor that marks what it has taken.

## Main definitions

* `SentLog` — the record and its cursor, which stays inside the record.
* `MockInner` — the link.
* `LinkCall`, `MockInner.run` — the calls of the session, the emulator and the tests on it.

## Main results

* `MockInner.Healthy.length_delivered` — no chunk is invented.
* `MockInner.Healthy.delivered_eq_iff` — what comes out of a link in any state.
* `taken_eq_written_iff` — nothing is lost exactly when each clear finds nothing untaken.
-/

namespace Raydriver

/-- `Mutex<(Vec<Vec<u8>>, usize)>`: the chunks written and how many of them are taken. -/
structure SentLog where
  chunks : List Bytes
  cursor : ℕ
  cursor_le : cursor ≤ chunks.length

namespace SentLog

/-- Nothing sent. -/
def empty : SentLog := ⟨[], 0, le_rfl⟩

/-- A chunk is sent. -/
def push (l : SentLog) (data : Bytes) : SentLog where
  chunks := l.chunks ++ [data]
  cursor := l.cursor
  cursor_le := by
    have := l.cursor_le
    rw [List.length_append]
    omega

/-- The chunks past the cursor, `guard.0[guard.1..]`. -/
def untaken (l : SentLog) : List Bytes := l.chunks.drop l.cursor

/-- All chunks are taken. -/
def takeAll (l : SentLog) : SentLog := ⟨l.chunks, l.chunks.length, le_rfl⟩

@[simp] theorem untaken_empty : empty.untaken = [] := rfl

@[simp] theorem untaken_push (l : SentLog) (data : Bytes) :
    (l.push data).untaken = l.untaken ++ [data] := List.drop_append_of_le_length l.cursor_le

@[simp] theorem untaken_takeAll (l : SentLog) : l.takeAll.untaken = [] :=
  List.drop_length

end SentLog

/-- `TransportError`. -/
inductive TransportError where
  | notConnected
  | connection (message : String)
  deriving DecidableEq, Repr

/-- The state of a mock transport. -/
structure MockInner where
  isOpen : Bool
  /-- `tx`, with the chunks it has carried to the session. -/
  tx : Option (List Bytes)
  sent : SentLog
  writeError : Option String

namespace MockInner

/-- A mock transport, closed. -/
def new : MockInner := ⟨false, none, .empty, none⟩

/-- Deliver bytes to the session as if the device had sent them. -/
def push (m : MockInner) (data : Bytes) : MockInner := { m with tx := m.tx.map (· ++ [data]) }

/-- Writes recorded since the previous call (or the last `clear_sent`). -/
def takeNewSent (m : MockInner) : List Bytes × MockInner :=
  (m.sent.untaken, { m with sent := m.sent.takeAll })

/-- Clear the recorded sent bytes. -/
def clearSent (m : MockInner) : MockInner := { m with sent := .empty }

/-- `set_open`. -/
def setOpen (m : MockInner) (isOpen : Bool) : MockInner := { m with isOpen := isOpen }

/-- `set_write_error`. -/
def setWriteError (m : MockInner) (message : Option String) : MockInner :=
  { m with writeError := message }

/-- `open`. -/
def openLink (m : MockInner) : MockInner := { m with tx := some [], isOpen := true }

/-- `close`. -/
def close (m : MockInner) : MockInner := { m with isOpen := false, tx := none }

/-- `write`: the chunk is logged, unless the transport is closed or an error is set. -/
def write (m : MockInner) (data : Bytes) : Except TransportError Unit × MockInner :=
  if m.isOpen = false then (.error .notConnected, m)
  else
    match m.writeError with
    | some message => (.error (.connection message), { m with isOpen := false })
    | none => (.ok (), { m with sent := m.sent.push data })

end MockInner

/-! ### Calls on an open link -/

/-- What the session, the emulator and a test do to a link that is open. -/
inductive LinkCall where
  | write (data : Bytes)
  | takeNewSent
  | clearSent
  deriving DecidableEq, Repr

/-- The chunks the calls write. -/
def chunksWritten (calls : List LinkCall) : List Bytes :=
  calls.filterMap fun
    | .write data => some data
    | _ => none

namespace MockInner

/-- One call, and the chunks it returns. -/
def call (m : MockInner) : LinkCall → List Bytes × MockInner
  | .write data => ([], (m.write data).2)
  | .takeNewSent => m.takeNewSent
  | .clearSent => ([], m.clearSent)

/-- The calls in turn, and the chunks they return, one result behind the other. -/
def run (m : MockInner) : List LinkCall → List Bytes × MockInner
  | [] => ([], m)
  | c :: cs => ((m.call c).1 ++ ((m.call c).2.run cs).1, ((m.call c).2.run cs).2)

/-- The link is open and its cable is plugged in. -/
structure Healthy (m : MockInner) : Prop where
  isOpen : m.isOpen = true
  noError : m.writeError = none

theorem healthy_new : new.openLink.Healthy := ⟨rfl, rfl⟩

/-- On a healthy link every write is accepted. -/
theorem Healthy.write {m : MockInner} (h : m.Healthy) (data : Bytes) :
    m.write data = (.ok (), { m with sent := m.sent.push data }) := by
  rw [MockInner.write, if_neg (by simp [h.isOpen]), h.noError]

theorem Healthy.call {m : MockInner} (h : m.Healthy) (c : LinkCall) : (m.call c).2.Healthy := by
  cases c with
  | write data =>
    rw [MockInner.call, h.write]
    exact ⟨h.isOpen, h.noError⟩
  | takeNewSent => exact ⟨h.isOpen, h.noError⟩
  | clearSent => exact ⟨h.isOpen, h.noError⟩

/-- What the calls take from the link, and what a final `take_new_sent` adds to it. -/
def delivered (m : MockInner) (calls : List LinkCall) : List Bytes :=
  (m.run calls).1 ++ (m.run calls).2.takeNewSent.1

theorem delivered_nil (m : MockInner) : m.delivered [] = m.sent.untaken := rfl

theorem delivered_cons (m : MockInner) (c : LinkCall) (cs : List LinkCall) :
    m.delivered (c :: cs) = (m.call c).1 ++ (m.call c).2.delivered cs :=
  List.append_assoc _ _ _

end MockInner

theorem chunksWritten_cons (c : LinkCall) (cs : List LinkCall) :
    chunksWritten (c :: cs) = chunksWritten [c] ++ chunksWritten cs := List.filterMap_append (l := [c])

/-! ### What a clear cuts off -/

/-- No chunk is invented: what comes out is at most what was there and what is written. -/
theorem MockInner.Healthy.length_delivered : ∀ (calls : List LinkCall) {m : MockInner}, m.Healthy →
    (m.delivered calls).length ≤ m.sent.untaken.length + (chunksWritten calls).length := by
  intro calls
  induction calls with
  | nil => exact fun _ => le_rfl
  | cons c cs ih =>
    intro m h
    have hrest := ih (h.call c)
    rw [m.delivered_cons, chunksWritten_cons, List.length_append, List.length_append]
    cases c with
    | write data =>
      simp only [MockInner.call, h.write, SentLog.untaken_push, List.length_append] at hrest ⊢
      simp only [chunksWritten, List.filterMap_cons, List.filterMap_nil, List.length_nil,
        List.length_cons] at hrest ⊢
      omega
    | takeNewSent =>
      simp only [MockInner.call, MockInner.takeNewSent, SentLog.untaken_takeAll,
        List.length_nil] at hrest ⊢
      omega
    | clearSent =>
      simp only [MockInner.call, MockInner.clearSent, SentLog.untaken_empty,
        List.length_nil] at hrest ⊢
      omega

/-- A pair of calls sits in a list where the list starts with it, or in the rest. -/
theorem pair_infix_cons {a b c : LinkCall} {cs : List LinkCall} :
    [a, b] <:+: c :: cs ↔ (a = c ∧ cs.head? = some b) ∨ [a, b] <:+: cs := by
  rw [List.infix_cons_iff, List.cons_prefix_cons, List.singleton_prefix_iff_head?_eq_some]

/-- On a link in any healthy state, everything comes out exactly when no clear follows a write
directly and the first call is not a clear that cuts off what is already there. -/
theorem MockInner.Healthy.delivered_eq_iff : ∀ (calls : List LinkCall) {m : MockInner}, m.Healthy →
    (m.delivered calls = m.sent.untaken ++ chunksWritten calls ↔
      (calls.head? = some .clearSent → m.sent.untaken = []) ∧
        ∀ data, ¬ [.write data, .clearSent] <:+: calls) := by
  intro calls
  induction calls with
  | nil => simp [MockInner.delivered_nil, chunksWritten]
  | cons c cs ih =>
    intro m h
    have hrest := ih (h.call c)
    rw [m.delivered_cons, chunksWritten_cons]
    cases c with
    | write data =>
      -- the chunk joins what is untaken, so the next call must not be a clear
      simp only [MockInner.call, h.write, SentLog.untaken_push, List.append_assoc] at hrest
      have hw : chunksWritten [.write data] = [data] := rfl
      rw [MockInner.call, h.write, List.nil_append, hw, hrest]
      constructor
      · rintro ⟨hhead, hcs⟩
        refine ⟨fun hw => by simp at hw, fun d hpair => ?_⟩
        rcases pair_infix_cons.mp hpair with ⟨-, hclear⟩ | hpair
        · simpa using hhead hclear
        · exact hcs d hpair
      · rintro ⟨-, hcs⟩
        refine ⟨fun hclear => ?_, fun d hpair => hcs d (pair_infix_cons.mpr (.inr hpair))⟩
        exact absurd (pair_infix_cons.mpr (.inl ⟨rfl, hclear⟩)) (hcs data)
    | takeNewSent =>
      simp only [MockInner.call, MockInner.takeNewSent, SentLog.untaken_takeAll] at hrest ⊢
      have hw : chunksWritten [.takeNewSent] = [] := rfl
      rw [List.append_right_inj, hw, hrest]
      simp [pair_infix_cons]
    | clearSent =>
      have hlen := Healthy.length_delivered cs (h.call .clearSent)
      simp only [MockInner.call, MockInner.clearSent, SentLog.untaken_empty] at hrest hlen ⊢
      have hw : chunksWritten [.clearSent] = [] := rfl
      have hpairs (d : Bytes) : ¬ [.write d, .clearSent] <:+: LinkCall.clearSent :: cs ↔
          ¬ [.write d, .clearSent] <:+: cs := by simp [pair_infix_cons]
      simp only [hw, List.nil_append, List.head?_cons, forall_const, hpairs]
      constructor
      · intro hall
        -- nothing is invented, so nothing can have been cut off
        have hq : m.sent.untaken = [] := by
          rw [hall, List.length_append, List.length_nil] at hlen
          exact List.length_eq_zero_iff.mp (by omega)
        rw [hq] at hall
        exact ⟨hq, (hrest.mp hall).2⟩
      · rintro ⟨hq, hcs⟩
        rw [hq]
        exact hrest.mpr ⟨fun _ => trivial, hcs⟩

/-- **What the link hands over.**  On a link just opened, the chunks that every interleaving of
writes, takes and clears hands over, with a final take, are the chunks written, each once and
in order, exactly when no clear comes directly after a write. -/
theorem taken_eq_written_iff (calls : List LinkCall) :
    MockInner.new.openLink.delivered calls = chunksWritten calls ↔
      ∀ data, ¬ [.write data, .clearSent] <:+: calls := by
  have h := MockInner.healthy_new.delivered_eq_iff calls
  have hempty : MockInner.new.openLink.sent.untaken = [] := rfl
  rw [hempty, List.nil_append] at h
  rw [h]
  exact and_iff_right fun _ => rfl

/-- A line is written and the log cleared before the emulator has looked at it: the emulator
never sees the line. -/
theorem clear_skips_chunk :
    MockInner.new.openLink.delivered [.write (ascii "G0 X1\n"), .clearSent, .takeNewSent] ≠
      chunksWritten [.write (ascii "G0 X1\n"), .clearSent, .takeNewSent] := by
  decide

end Raydriver
