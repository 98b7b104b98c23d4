import Raydriver.Grbl.Device

/-!
# The ledger of the lines written

As long as nothing is reset, the pending commands of the flow control are the lines
written whose acknowledgement the session has not heard: the same number, with the same
lengths, for the same owners; and `rx_count` is their total.

## Main definitions

* `Books c out` — the flow control accounts for the lines `out`.
* `StreamPc.touches` — the steps of the streaming task that change the books.
* `Quietly c c'` — the books and the lines are as before.

## Main results

* `Books.sendTracked`, `Books.handleRx` — tracking a line, and a delivery.
* `advanceStream_quietly` — **all other steps of the streaming task leave the books alone**.
-/

namespace Raydriver

/-- The bytes of a line. -/
def Sent.size (e : Sent) : ℕ := utf8Len e.payload

/-- The flow control accounts for the lines `out`. -/
structure Books (c : Core) (out : List Sent) : Prop where
  owners : c.owners = out.map Sent.origin
  pending : lengths c.flow.pending = out.map Sent.size
  rxCount : c.flow.rxCount = (lengths c.flow.pending).sum

namespace Books

variable {c c' : Core} {out : List Sent}

theorem nil (ho : c.owners = []) (hp : c.flow.pending = []) (hr : c.flow.rxCount = 0) :
    Books c [] where
  owners := ho
  pending := by rw [hp]; rfl
  rxCount := by rw [hp, hr]; rfl

theorem congr (h : Books c out) (hb : SameBooks c.flow c'.flow) (ho : c'.owners = c.owners) :
    Books c' out where
  owners := ho.trans h.owners
  pending := by rw [hb.pending]; exact h.pending
  rxCount := by rw [hb.rxCount, hb.pending]; exact h.rxCount

/-- A line is tracked and written. -/
theorem sendTracked (h : Books c out) (o : Origin) (t : Text) (op : Option ℤ)
    (err : Option String) : Books (c.sendTracked o t op err) (out ++ [⟨o, t⟩]) where
  owners := by
    show c.owners ++ [o] = _
    rw [h.owners, List.map_append]
    rfl
  pending := by
    show lengths (c.flow.pending ++ [_]) = _
    rw [lengths, List.map_append, List.map_append, ← h.pending]
    rfl
  rxCount := by
    show c.flow.rxCount + utf8Len t = (lengths (c.flow.pending ++ [_])).sum
    rw [h.rxCount, lengths, lengths, List.map_append, List.sum_append]
    simp

/-- The acknowledgements of a delivery strike out the oldest lines. -/
theorem handleRx (h : Books c out) (data : Bytes) :
    Books (c.handleRx data) (out.drop (ackCount (c.flow.parseExtracted data).2)) := by
  obtain ⟨hbooks, howners⟩ := handleRx_flow data c
  have hacc := parseExtracted_accounted data c.flow
  have hpending := hbooks.pending.trans hacc.pending
  have hrxCount := hbooks.rxCount.trans hacc.rxCount
  generalize ackCount (c.flow.parseExtracted data).2 = n at howners hpending hrxCount ⊢
  refine ⟨?_, ?_, ?_⟩
  · rw [howners, h.owners, List.map_drop]
  · rw [hpending, lengths, List.map_drop, List.map_drop]
    exact congrArg (List.drop n) h.pending
  · have hsplit : (lengths c.flow.pending).sum
        = (lengths (c.flow.pending.take n)).sum + (lengths (c.flow.pending.drop n)).sum := by
      rw [← List.sum_append, lengths, lengths, lengths, ← List.map_append, List.take_append_drop]
    rw [hrxCount, h.rxCount, hsplit, hpending]
    omega

theorem total (h : Books c out) : Window.total Sent.size out = c.flow.rxCount := by
  rw [Window.total, ← h.pending, h.rxCount]

/-- With nothing pending, every line written has been acknowledged. -/
theorem out_eq_nil (h : Books c out) (hp : c.flow.pending = []) : out = [] := by
  have hmap := h.pending
  rw [hp] at hmap
  exact List.map_eq_nil_iff.mp hmap.symm

end Books

/-! ### The streaming task -/

/-- The steps of the streaming task that change the books: sending a line, and those of
the deadlock recovery and of the shutdown on the failure path. -/
def StreamPc.touches : StreamPc → Bool
  | .send _ | .recoverStart _ | .recoverSend _ | .recoverReset _ | .cancelling _ _ => true
  | _ => false

/-- The counters of the failure path and of those on the way there. -/
def StreamPc.stopped : StreamPc → Bool
  | .writing _ (some _) | .outcome (some _) | .cancelling _ _ | .final (some _)
  | .finished (some _) => true
  | _ => false

/-- The books and the lines are as before. -/
structure Quietly (c c' : Core) : Prop where
  books : SameBooks c.flow c'.flow
  owners : c'.owners = c.owners
  dropped : c'.dropped = c.dropped
  lines : c'.sent.filter Sent.isLine = c.sent.filter Sent.isLine
  isCancelled : c.isCancelled = false → c'.isCancelled = false

theorem Quietly.refl (c : Core) : Quietly c c := ⟨.refl _, rfl, rfl, rfl, id⟩

theorem Aside.quietly {c c' : Core} (h : Aside c c') : Quietly c c' :=
  ⟨h.books, h.owners, h.dropped, h.lines, h.isCancelled⟩

/-- **All other steps of the streaming task leave the books alone**; a line is about to
be sent only where it fits; and the failure path is not left. -/
theorem advanceStream_quietly {t : ℕ} {job : Job} {ch : Choice} {c c' : Core} {pc pc' : StreamPc}
    (h : advanceStream t job ch c pc = some (c', pc')) (ht : pc.touches = false) :
    Quietly c c' ∧ (∀ s, pc' = .send s → c'.needsSpace s.payload = false) ∧
      (pc.stopped = true → pc'.stopped = true) := by
  have hq : SameBooks c.flow c.flow := .refl _
  cases pc with
  | loopTop idx rest =>
    cases rest <;> simp only [advanceStream] at h <;> (try split_ifs at h) <;> cases h <;>
      exact ⟨⟨hq, rfl, rfl, rfl, id⟩, (fun _ h => by cases h), fun h => by cases h⟩
  -- the line is handed on to be sent only when it fits
  | spaceCheck s =>
    simp only [advanceStream] at h
    split_ifs at h with hneeds <;> cases h
    · exact ⟨.refl c, (fun _ h => by cases h), fun h => by cases h⟩
    · refine ⟨.refl c, fun s' h => ?_, fun h => by cases h⟩
      cases h
      simpa using hneeds
  | spaceWait s =>
    simp only [advanceStream] at h
    split_ifs at h with hneeds <;> cases h
    · refine ⟨.refl c, fun s' h => ?_, fun h => by cases h⟩
      cases h
      simpa using hneeds
    · exact ⟨.refl c, (fun _ h => by cases h), fun h => by cases h⟩
  -- a failed write starts the failure path
  | writing s err =>
    cases err <;> cases h
    · exact ⟨⟨hq, rfl, rfl, rfl, id⟩, (fun _ h => by cases h), fun h => by cases h⟩
    · exact ⟨⟨hq, rfl, rfl, rfl, id⟩, (fun _ h => by cases h), fun _ => rfl⟩
  | stall s =>
    cases h
    refine ⟨.refl c, ?_, fun h => by cases h⟩
    intro s' h
    split at h <;> cases h
  | poll w =>
    cases w <;> cases h <;>
      exact ⟨⟨hq, rfl, rfl, rfl, id⟩, (fun _ h => by cases h), fun h => by cases h⟩
  | pollSend w before =>
    simp only [advanceStream] at h
    split_ifs at h <;> cases h
    · exact ⟨⟨hq, rfl, rfl, lines_write_realtime _ _ _, id⟩, (fun _ h => by cases h),
        fun h => by cases h⟩
    · exact ⟨.refl c, (fun _ h => by cases h), fun h => by cases h⟩
  | pollWriting w before err =>
    cases err <;> cases h <;>
      exact ⟨⟨hq, rfl, rfl, rfl, id⟩, (fun _ h => by cases h), fun h => by cases h⟩
  | pollAwait w before left =>
    cases left <;> cases h <;>
      exact ⟨⟨hq, rfl, rfl, rfl, id⟩, (fun _ h => by cases h), fun h => by cases h⟩
  | pollEnd w idle =>
    cases w <;> simp only [advanceStream] at h <;> split_ifs at h <;> cases h <;>
      exact ⟨⟨hq, rfl, rfl, rfl, id⟩, (fun _ h => by cases h), fun h => by cases h⟩
  | recover w =>
    cases w <;> simp only [advanceStream] at h <;> split_ifs at h <;> cases h <;>
      exact ⟨⟨hq, rfl, rfl, rfl, id⟩, (fun _ h => by cases h), fun h => by cases h⟩
  | recoverSent w =>
    cases h
    refine ⟨⟨hq, rfl, rfl, rfl, id⟩, ?_, fun h => by cases h⟩
    intro s h
    split at h <;> cases h
  | recoverEnd w =>
    cases w <;> cases h <;>
      exact ⟨⟨hq, rfl, rfl, rfl, id⟩, (fun _ h => by cases h), fun h => by cases h⟩
  | outcome err =>
    cases err <;> simp only [advanceStream] at h <;> (try split_ifs at h) <;> cases h
    · exact ⟨.refl c, (fun _ h => by cases h), fun h => by cases h⟩
    · exact ⟨.refl c, (fun _ h => by cases h), fun _ => rfl⟩
    · exact ⟨⟨hq, rfl, rfl, rfl, id⟩, (fun _ h => by cases h), fun _ => rfl⟩
  | final err =>
    cases h
    refine ⟨⟨hq, rfl, rfl, rfl, id⟩, (fun _ h => by cases h), fun h => ?_⟩
    cases err
    · cases h
    · rfl
  -- the counters that do touch the books
  | send s => cases ht
  | recoverStart w => cases ht
  | recoverSend w => cases ht
  | recoverReset w => cases ht
  | cancelling pc e => cases ht
  | _ =>
    simp only [advanceStream] at h
    try split_ifs at h
    all_goals cases h
    all_goals exact ⟨⟨hq, rfl, rfl, rfl, id⟩, (fun _ h => by cases h), fun h => by cases h⟩

end Raydriver
