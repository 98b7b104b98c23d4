import Raydriver.Grbl.Overflow

/-!
# What is acknowledged when a job ends

At the end of its job the streaming task waits until nothing is pending.  As long as
nothing is thrown away the books are in order, and an empty queue says that every line has
been acknowledged.

A deadlock recovery resets the accounting, and has the planner drained by a dwell.  In the
stall callback of a send that is harmless where nothing is pending.  In the drain it is
where no line of the job is pending any more, or where whatever is to be shown of the end of
the job holds already.

## Main definitions

* `Acked t w` — the device has answered every line of the job.
* `Lasting t S` — `S` follows from that, and lasts while no line of a job is written.
* `Aligned pc w` — the books are in order, but for a dwell that could not be written.
* `StreamPc.spares t S w` — the next step throws nothing away that matters.
* `Sound S pc w` — the invariant.

## Main results

* `Sound.stream` — **what a step of the streaming task keeps**, by the stage it is in.
* `Sound.beside` — what happens beside it keeps.
-/

namespace Raydriver

open Lts FlowInner

/-- The device has answered every line that the streaming task `t` has written. -/
def Acked (t : ℕ) (w : World) : Prop :=
  ∀ k e, w.lines[k]? = some e → e.origin = .job t → k < answers w.emitted

/-- No line of a job is written. -/
def NoJobLine (w w' : World) : Prop :=
  ∃ ext, w'.lines = w.lines ++ ext ∧ ∀ e ∈ ext, e.isJobLine = false

/-- What follows from the acknowledgement of all lines of the job, and lasts while no line of a
job is written. -/
structure Lasting (t : ℕ) (S : World → Prop) : Prop where
  of_acked : ∀ w, Acked t w → S w
  keep : ∀ w w', S w → (w.idle = true → w'.idle = true) → NoJobLine w w' →
    answers w.emitted ≤ answers w'.emitted → S w'

theorem NoJobLine.of_eq {w w' : World} (h : w'.lines = w.lines) : NoJobLine w w' :=
  ⟨[], h.trans (List.append_nil _).symm, by simp⟩

/-- Acknowledged lines stay acknowledged. -/
theorem Acked.keep {t : ℕ} {w w' : World} (h : Acked t w) (hlines : NoJobLine w w')
    (hans : answers w.emitted ≤ answers w'.emitted) : Acked t w' := by
  intro k e hk he
  refine Nat.lt_of_lt_of_le ?_ hans
  obtain ⟨ext, hext, hno⟩ := hlines
  rw [hext] at hk
  by_cases hlt : k < w.lines.length
  · rw [List.getElem?_append_left hlt] at hk
    exact h k e hk he
  · rw [List.getElem?_append_right (Nat.le_of_not_lt hlt)] at hk
    have hjob := hno e (List.mem_of_getElem? hk)
    rw [Sent.isJobLine, he] at hjob
    cases hjob

theorem lasting_acked (t : ℕ) : Lasting t (Acked t) where
  of_acked := fun _ h => h
  keep := fun _ _ h _ hlines hans => h.keep hlines hans

/-! ### The counters at the end of a job -/

/-- The poll or recovery is that of the drain. -/
def Site.isDrain : Site → Bool
  | .stall _ => false
  | .drain => true

/-- Behind the send loop: no line of the job is sent any more. -/
def StreamPc.draining : StreamPc → Bool
  | .poll w | .pollSend w _ | .pollWriting w _ _ | .pollFailed w | .pollAwait w _ _
  | .pollSleep w _ _ | .pollDone w _ | .pollEnd w _ | .recover w | .recoverStart w
  | .recoverSpace w | .recoverSend w | .recoverWriting w | .recoverSent w | .recoverDrain w
  | .recoverReset w | .recoverEnd w => w.isDrain
  | .pollLock _ | .recoverLock | .drainTop | .drainWait | .innerEnd | .outcome none
  | .final none | .finished none => true
  | _ => false

/-- The end of `stream_gcode_inner` and what follows it without an error. -/
def StreamPc.closing : StreamPc → Bool
  | .innerEnd | .outcome none | .final none | .finished none => true
  | _ => false

/-- A dwell may be tracked that could not be written. -/
def StreamPc.dwelling : StreamPc → Bool
  | .recoverWriting _ | .recoverSent _ | .recoverDrain _ | .recoverReset _ => true
  | _ => false

/-! ### The condition -/

/-- A reset of the accounting here throws nothing away that matters. -/
def Site.spares (t : ℕ) (S : World → Prop) (w : World) : Site → Prop
  | .stall _ => w.core.flow.pending = [] ∧ w.core.flow.statusBuffer = []
  | .drain => .job t ∉ w.core.owners ∨ S w

/-- The next step of the streaming task `t` throws nothing away that matters: no reset of the
recovery does, and the drain is not left with something pending because of an alarm. -/
def StreamPc.spares (t : ℕ) (S : World → Prop) (w : World) : StreamPc → Prop
  | .recoverStart site | .recoverReset site => site.spares t S w
  | .drainTop =>
    w.core.isAlarm = true → w.core.jobException.isSome = true ∨ w.core.flow.pending = []
  | _ => True

/-! ### The invariant -/

/-- The books are in order, but for a dwell that could not be written. -/
structure Aligned (pc : StreamPc) (w : World) : Prop where
  heard : ∃ ts us p win, Heard w ts us p ∧ Tracks w win
  books : ∃ extra, Books w.core (w.unheard ++ extra) ∧ (pc.dwelling = false → extra = [])

/-- The invariant: the task is on its failure path; or the books are in order; or it is
behind the send loop and `S` holds; or it is about to return an exception. -/
def Sound (S : World → Prop) (pc : StreamPc) (w : World) : Prop :=
  pc.stopped = true ∨ (pc.closing = false ∧ Aligned pc w) ∨ (pc.draining = true ∧ S w) ∨
    (pc = .innerEnd ∧ w.core.jobException.isSome = true)

/-- With no line of the job pending, an aligned job is acknowledged. -/
theorem Aligned.acked {t : ℕ} {pc : StreamPc} {w : World} (h : Aligned pc w)
    (hno : .job t ∉ w.core.owners) : Acked t w := by
  obtain ⟨ts, us, p, win, hheard, htracks⟩ := h.heard
  obtain ⟨extra, hbooks, -⟩ := h.books
  refine fun k e hk he => Nat.lt_of_lt_of_le ?_ hheard.le
  by_contra hlt
  refine hno ?_
  rw [hbooks.owners, List.mem_map]
  refine ⟨e, List.mem_append_left _ ?_, he⟩
  have hdrop : w.unheard[k - w.heard]? = some e := by
    unfold World.unheard
    rw [List.getElem?_drop, Nat.add_sub_cancel' (Nat.le_of_not_lt hlt)]
    exact hk
  exact List.mem_of_getElem? hdrop

/-- With nothing pending, no line of the job is. -/
theorem Aligned.notMem_owners {t : ℕ} {pc : StreamPc} {w : World} (h : Aligned pc w)
    (hp : w.core.flow.pending = []) : .job t ∉ w.core.owners := by
  obtain ⟨extra, hbooks, -⟩ := h.books
  rw [hbooks.owners, hbooks.out_eq_nil hp]
  exact List.not_mem_nil

/-! ### A step of the session -/

section Host

variable {l : Label} {t : ℕ} {S : World → Prop} {pc pc' : StreamPc} {w w' : World} {job : Job}
  {ch : Choice} {c' : Core}

/-- No line of a job is written: a report of Idle stands. -/
theorem HostStep.idle_of_lines (h : HostStep l w w') (hlines : NoJobLine w w') :
    w.idle = true → w'.idle = true := by
  intro hidle
  obtain ⟨ext, hext, hno⟩ := hlines
  have hjob : w'.jobLines = w.jobLines := by
    have hnil : ext.filter Sent.isJobLine = [] :=
      List.filter_eq_nil_iff.mpr fun e he => by simp [hno e he]
    unfold World.jobLines
    rw [hext, List.filter_append, hnil, List.append_nil]
  rw [h.idle, hidle, hjob, Bool.true_and, beq_self_eq_true]

theorem Lasting.host (hS : Lasting t S) (h : S w) (hh : HostStep l w w')
    (hlines : NoJobLine w w') : S w' :=
  hS.keep w w' h (hh.idle_of_lines hlines) hlines (by rw [hh.emitted])

theorem Aligned.hear (h : Aligned pc w) (hh : HostStep l w w')
    (hb : w'.core.flow.statusBuffer = w.core.flow.statusBuffer)
    (hlines : ∃ ext : Option Sent, w'.lines = w.lines ++ ext.toList) :
    ∃ ts us p win, Heard w' ts us p ∧ Tracks w' win := by
  obtain ⟨ts, us, p, win, hheard, htracks⟩ := h.heard
  have hheard' := hheard.host hh.emitted hh.pipe hh.heard hb
  obtain ⟨ext, hext⟩ := hlines
  have hremoved := htracks.removed.trans hh.removed.symm
  have hanswered := htracks.answered.trans (congrArg answers hh.emitted.symm)
  have hheardEq := htracks.heard.trans hh.heard.symm
  cases ext with
  | none =>
    exact ⟨ts, us, p, win, hheard', htracks.written.trans (hext.trans (List.append_nil _)).symm,
      hremoved, hanswered, hheardEq⟩
  | some e =>
    refine ⟨ts, us, p, win.write e, hheard', ?_, hremoved, hanswered, hheardEq⟩
    rw [hext, ← htracks.written]
    rfl

theorem Aligned.heard_le (h : Aligned pc w) : w.heard ≤ w.lines.length := by
  obtain ⟨-, -, -, win, -, htracks⟩ := h.heard
  rw [← htracks.heard, ← htracks.written]
  exact win.heard_le_length

/-- The books are left alone. -/
theorem Aligned.quietly (h : Aligned pc w) (hh : HostStep l w w') (hq : Quietly w.core w'.core)
    (hdwell : pc.dwelling = true → pc'.dwelling = true) : Aligned pc' w' where
  heard := h.hear hh hq.books.statusBuffer ⟨none, hq.lines.trans (List.append_nil _).symm⟩
  books := by
    obtain ⟨extra, hbooks, hextra⟩ := h.books
    rw [unheard_eq hq.lines hh.heard]
    refine ⟨extra, hbooks.congr hq.books hq.owners, fun hdw => hextra ?_⟩
    by_contra hne
    rw [hdwell (by simpa using hne)] at hdw
    cases hdw

/-- A step that leaves the books alone, and does not end the job. -/
theorem Sound.neutral (h : Sound S pc w) (hS : Lasting t S) (hh : HostStep l w w')
    (hq : Quietly w.core w'.core) (hstop : pc.stopped = false) (hclose : pc ≠ .innerEnd)
    (hclose' : pc'.closing = false) (hdrain : pc.draining = true → pc'.draining = true)
    (hdwell : pc.dwelling = true → pc'.dwelling = true) : Sound S pc' w' := by
  rcases h with h | ⟨-, h⟩ | ⟨hd, h⟩ | ⟨h, -⟩
  · rw [hstop] at h
    cases h
  · exact .inr (.inl ⟨hclose', h.quietly hh hq hdwell⟩)
  · exact .inr (.inr (.inl ⟨hdrain hd, hS.host h hh (.of_eq hq.lines)⟩))
  · exact absurd h hclose

/-- The end of `stream_gcode_inner`, reached with an exception or with nothing pending. -/
theorem Sound.toEnd (h : Sound S pc w) (hS : Lasting t S) (hh : HostStep l w w')
    (hq : Quietly w.core w'.core) (hstop : pc.stopped = false) (hclose : pc ≠ .innerEnd)
    (hend : w'.core.jobException.isSome = true ∨ w.core.flow.pending = []) :
    Sound S .innerEnd w' := by
  have hlines : NoJobLine w w' := .of_eq hq.lines
  rcases h with h | ⟨-, h⟩ | ⟨-, h⟩ | ⟨h, -⟩
  · rw [hstop] at h
    cases h
  · rcases hend with hend | hend
    · exact .inr (.inr (.inr ⟨rfl, hend⟩))
    · have hacked : Acked t w := h.acked (h.notMem_owners hend)
      exact .inr (.inr (.inl ⟨rfl, hS.host (hS.of_acked w hacked) hh hlines⟩))
  · exact .inr (.inr (.inl ⟨rfl, hS.host h hh hlines⟩))
  · exact absurd h hclose

/-- The last steps of a job without an error. -/
theorem Sound.close (h : Sound S pc w) (hS : Lasting t S) (hh : HostStep l w w')
    (hq : Quietly w.core w'.core) (hstop : pc.stopped = false) (hclose : pc.closing = true)
    (hexc : pc = .innerEnd → w.core.jobException = none) (hdrain : pc'.draining = true) :
    Sound S pc' w' := by
  rcases h with h | ⟨h, -⟩ | ⟨-, h⟩ | ⟨h, hsome⟩
  · rw [hstop] at h
    cases h
  · rw [hclose] at h
    cases h
  · exact .inr (.inr (.inl ⟨hdrain, hS.host h hh (.of_eq hq.lines)⟩))
  · rw [hexc h] at hsome
    cases hsome

/-! ### The steps that touch the books -/

/-- A line of the job is tracked and written. -/
theorem Sound.send {s : Send} (h : Sound S (.send s) w) (hh : HostStep l w w')
    (hcore : w'.core = w.core.sendTracked (.job t) s.payload s.opIndex ch.writeError) :
    Sound S (.writing s ch.writeError) w' := by
  cases herr : ch.writeError with
  | some e => exact .inl rfl
  | none =>
    rw [herr] at hcore
    have hlines : w'.lines = w.lines ++ [⟨.job t, s.payload⟩] :=
      lines_sendTracked (by simp) hcore
    rcases h with h | ⟨-, h⟩ | ⟨hd, -⟩ | ⟨h, -⟩
    · cases h
    · refine .inr (.inl ⟨rfl, ?_, ?_⟩)
      · exact h.hear hh (by rw [hcore]; rfl) ⟨some ⟨.job t, s.payload⟩, hlines⟩
      · obtain ⟨extra, hbooks, hextra⟩ := h.books
        rw [hextra rfl, List.append_nil] at hbooks
        rw [unheard_append hh hlines h.heard_le, hcore]
        exact ⟨[], by rw [List.append_nil]; exact hbooks.sendTracked _ _ _ _, fun _ => rfl⟩
    · cases hd
    · cases h

/-- The dwell of the recovery is tracked and written, or only tracked. -/
theorem Sound.dwell {site : Site} (h : Sound S (.recoverSend site) w) (hS : Lasting t S)
    (hh : HostStep l w w')
    (hcore : w'.core = w.core.sendTracked (.recovery t) dwellLine none ch.writeError) :
    Sound S (.recoverWriting site) w' := by
  have hlines : w'.lines
      = w.lines ++ if ch.writeError.isNone then [⟨.recovery t, dwellLine⟩] else [] :=
    lines_sendTracked (by simp) hcore
  have hext : NoJobLine w w' := by
    refine ⟨_, hlines, fun e he => ?_⟩
    split_ifs at he
    · rw [List.mem_singleton.mp he]
      rfl
    · cases he
  rcases h with h | ⟨-, h⟩ | ⟨hd, h⟩ | ⟨h, -⟩
  · cases h
  · refine .inr (.inl ⟨rfl, ?_, ?_⟩)
    · refine h.hear hh (by rw [hcore]; rfl)
        ⟨if ch.writeError.isNone then some ⟨.recovery t, dwellLine⟩ else none, ?_⟩
      rw [hlines]
      cases ch.writeError <;> rfl
    · obtain ⟨extra, hbooks, hextra⟩ := h.books
      rw [hextra rfl, List.append_nil] at hbooks
      have htracked := hbooks.sendTracked (.recovery t) dwellLine none ch.writeError
      rw [← hcore] at htracked
      cases herr : ch.writeError with
      | none =>
        rw [herr] at hlines
        rw [unheard_append hh hlines h.heard_le]
        exact ⟨[], by rw [List.append_nil]; exact htracked, fun _ => rfl⟩
      | some e =>
        -- the entry stays behind until the reset that follows
        rw [herr] at hlines
        rw [unheard_eq (hlines.trans (List.append_nil _)) hh.heard]
        exact ⟨_, htracked, fun h => by cases h⟩
  · exact .inr (.inr (.inl ⟨hd, hS.host h hh hext⟩))
  · cases h

/-- A reset of the recovery that throws nothing away that matters. -/
theorem Sound.reset {site : Site} (h : Sound S pc w) (hS : Lasting t S) (hh : HostStep l w w')
    (hspares : site.spares t S w) (hstop : pc.stopped = false) (hclose : pc ≠ .innerEnd)
    (hclose' : pc'.closing = false) (hdrain : pc.draining = site.isDrain)
    (hdrain' : pc'.draining = site.isDrain) (hsent : w'.core.sent = w.core.sent)
    (howners : w'.core.owners = []) (hpending : w'.core.flow.pending = [])
    (hrxCount : w'.core.flow.rxCount = 0)
    (hbuffer : w'.core.flow.statusBuffer = w.core.flow.statusBuffer ∨
      w'.core.flow.statusBuffer = []) : Sound S pc' w' := by
  have hlines : w'.lines = w.lines := by
    unfold World.lines
    rw [hsent]
  have hext : NoJobLine w w' := .of_eq hlines
  rcases h with h | ⟨-, h⟩ | ⟨hd, h⟩ | ⟨h, -⟩
  · rw [hstop] at h
    cases h
  · cases site with
    | drain =>
      -- nothing of the job is lost, or what is to be shown holds already
      refine .inr (.inr (.inl ⟨hdrain', hS.host ?_ hh hext⟩))
      exact hspares.elim (fun hno => hS.of_acked w (h.acked hno)) id
    | stall s =>
      -- nothing is pending, and nothing is in the parse buffer
      obtain ⟨hp, hb⟩ := hspares
      obtain ⟨extra, hbooks, -⟩ := h.books
      obtain ⟨hnil, -⟩ := List.append_eq_nil_iff.mp (hbooks.out_eq_nil hp)
      refine .inr (.inl ⟨hclose', ?_, [], ?_, fun _ => rfl⟩)
      · refine h.hear hh ?_ ⟨none, hlines.trans (List.append_nil _).symm⟩
        exact hbuffer.elim id fun hb' => hb'.trans hb.symm
      · rw [unheard_eq hlines hh.heard, hnil, List.append_nil]
        exact .nil howners hpending hrxCount
  · rw [hdrain] at hd
    exact .inr (.inr (.inl ⟨hdrain'.trans hd, hS.host h hh hext⟩))
  · exact absurd h hclose

/-! ### The steps of the streaming task -/

/-- The failure path is not left. -/
theorem stopped_step (hstop : pc.stopped = true)
    (hadv : advanceStream t job ch w.core pc = some (c', pc')) : pc'.stopped = true := by
  by_cases ht : pc.touches = true
  · cases pc with
    | cancelling x e =>
      simp only [advanceStream] at hadv
      split at hadv
      · cases hadv
        rfl
      · obtain ⟨⟨c₁, pc₁⟩, -, heq⟩ := Option.map_eq_some_iff.mp hadv
        cases heq
        rfl
    | writing s err => cases ht
    | outcome err => cases ht
    | final err => cases ht
    | finished err => cases ht
    | _ => cases hstop
  · exact (advanceStream_quietly hadv (by simpa using ht)).2.2 hstop

/-- In the send loop the books are kept, or a line is sent, or the task is about to fail. -/
theorem Sound.sending (h : Sound S pc w) (hS : Lasting t S) (hh : HostStep l w w')
    (hstage : pc.stage = .sending) (hstop : pc.stopped = false)
    (hadv : advanceStream t job ch w.core pc = some (c', pc')) (hcore : w'.core = c') :
    Sound S pc' w' := by
  have hq : pc.touches = false → Quietly w.core w'.core := fun ht =>
    hcore ▸ (advanceStream_quietly hadv ht).1
  cases pc with
  -- the one counter that writes
  | send s =>
    obtain ⟨hc, rfl⟩ := Prod.mk.inj (Option.some.inj hadv)
    exact h.send hh (hcore.trans hc.symm)
  | loopTop idx rest =>
    have hq' := hq rfl
    cases rest <;> simp only [advanceStream] at hadv <;> (try split_ifs at hadv) <;>
      cases hadv <;> exact h.neutral hS hh hq' rfl (by simp) rfl (fun h => by cases h)
        fun h => by cases h
  | locked s =>
    have hq' := hq rfl
    simp only [advanceStream] at hadv
    split_ifs at hadv <;> cases hadv
    · exact h.neutral hS hh hq' rfl (by simp) rfl (fun h => by cases h) fun h => by cases h
    -- the port is gone
    · exact .inl rfl
  | writing s err =>
    have hq' := hq rfl
    cases err with
    | none =>
      cases hadv
      exact h.neutral hS hh hq' rfl (by simp) rfl (fun h => by cases h) fun h => by cases h
    | some e => cases hstop
  | stall s =>
    have hq' := hq rfl
    obtain ⟨-, rfl⟩ := Prod.mk.inj (Option.some.inj hadv)
    split <;>
      exact h.neutral hS hh hq' rfl (by simp) rfl (fun h => by cases h) fun h => by cases h
  | stallEnd s handled =>
    have hq' := hq rfl
    cases handled <;> cases hadv <;>
      exact h.neutral hS hh hq' rfl (by simp) rfl (fun h => by cases h) fun h => by cases h
  | start | lockWait s | spaceCheck s | spaceWait s | afterSend s | yielded idx rest =>
    have hq' := hq rfl
    simp only [advanceStream] at hadv
    try split_ifs at hadv
    all_goals cases hadv
    all_goals
      exact h.neutral hS hh hq' rfl (by simp) rfl (fun h => by cases h) fun h => by cases h
  | _ => cases hstage

/-- A poll leaves the books alone; one in the drain ends the job if nothing is pending, or with
an exception if the device is dead. -/
theorem Sound.polling (h : Sound S pc w) (hS : Lasting t S) (hh : HostStep l w w')
    (hstage : pc.stage = .polling)
    (hadv : advanceStream t job ch w.core pc = some (c', pc')) (hcore : w'.core = c') :
    Sound S pc' w' := by
  have hq : Quietly w.core w'.core := by
    refine hcore ▸ (advanceStream_quietly hadv ?_).1
    cases pc <;> first | rfl | cases hstage
  cases pc with
  | poll site =>
    cases site <;> cases hadv <;>
      exact h.neutral hS hh hq rfl (by simp) rfl (fun h => h) fun h => by cases h
  | pollWriting site before err =>
    cases err <;> cases hadv <;>
      exact h.neutral hS hh hq rfl (by simp) rfl (fun h => h) fun h => by cases h
  | pollAwait site before left =>
    cases left <;> cases hadv <;>
      exact h.neutral hS hh hq rfl (by simp) rfl (fun h => h) fun h => by cases h
  | pollEnd site idle =>
    cases site with
    | stall s =>
      simp only [advanceStream] at hadv
      split_ifs at hadv <;> cases hadv <;>
        exact h.neutral hS hh hq rfl (by simp) rfl (fun h => by cases h) fun h => by cases h
    | drain =>
      simp only [advanceStream] at hadv
      split_ifs at hadv with hdead hidle hempty <;> cases hadv
      · exact h.toEnd hS hh hq rfl (by simp) (.inl (by rw [hcore]; rfl))
      · exact h.toEnd hS hh hq rfl (by simp) (.inr (List.isEmpty_iff.mp hempty))
      all_goals exact h.neutral hS hh hq rfl (by simp) rfl (fun h => h) fun h => by cases h
  | pollLock before | pollSend site before | pollFailed site | pollSleep site before left
  | pollDone site before =>
    simp only [advanceStream] at hadv
    try split_ifs at hadv
    all_goals cases hadv
    all_goals exact h.neutral hS hh hq rfl (by simp) rfl (fun h => h) fun h => by cases h
  | _ => cases hstage

/-- A recovery tracks its dwell, and resets the books before and after. -/
theorem Sound.recovering (h : Sound S pc w) (hS : Lasting t S) (hh : HostStep l w w')
    (hspares : pc.spares t S w) (hstage : pc.stage = .recovering)
    (hadv : advanceStream t job ch w.core pc = some (c', pc')) (hcore : w'.core = c') :
    Sound S pc' w' := by
  have hq : pc.touches = false → Quietly w.core w'.core := fun ht =>
    hcore ▸ (advanceStream_quietly hadv ht).1
  cases pc with
  -- the dwell: tracked like any line
  | recoverSend site =>
    obtain ⟨hc, rfl⟩ := Prod.mk.inj (Option.some.inj hadv)
    exact h.dwell hS hh (hcore.trans hc.symm)
  -- the two resets, which forget what is outstanding
  | recoverStart site =>
    obtain ⟨hc, rfl⟩ := Prod.mk.inj (Option.some.inj hadv)
    have hc' := hcore.trans hc.symm
    split <;> exact h.reset hS hh hspares rfl (by simp) rfl rfl rfl (by rw [hc']; rfl)
      (by rw [hc']; rfl) (by rw [hc']; rfl) (by rw [hc']; rfl) (.inl (by rw [hc']; rfl))
  | recoverReset site =>
    obtain ⟨hc, rfl⟩ := Prod.mk.inj (Option.some.inj hadv)
    have hc' := hcore.trans hc.symm
    exact h.reset hS hh hspares rfl (by simp) rfl rfl rfl (by rw [hc']; rfl)
      (by rw [hc']; rfl) (by rw [hc']; rfl) (by rw [hc']; rfl) (.inr (by rw [hc']; rfl))
  | recover site =>
    have hq' := hq rfl
    cases site <;> simp only [advanceStream] at hadv <;> split_ifs at hadv <;> cases hadv <;>
      exact h.neutral hS hh hq' rfl (by simp) rfl (fun h => h) fun h => by cases h
  | recoverSent site =>
    have hq' := hq rfl
    obtain ⟨-, rfl⟩ := Prod.mk.inj (Option.some.inj hadv)
    split <;> exact h.neutral hS hh hq' rfl (by simp) rfl (fun h => h) fun _ => rfl
  | recoverEnd site =>
    have hq' := hq rfl
    cases site <;> cases hadv
    · exact h.neutral hS hh hq' rfl (by simp) rfl (fun h => by cases h) fun h => by cases h
    · exact h.neutral hS hh hq' rfl (by simp) rfl (fun h => h) fun h => by cases h
  | recoverLock | recoverSpace site | recoverWriting site | recoverDrain site =>
    have hq' := hq rfl
    simp only [advanceStream] at hadv
    try split_ifs at hadv
    all_goals cases hadv
    all_goals
      exact h.neutral hS hh hq' rfl (by simp) rfl (fun h => h) fun h => by first | rfl | cases h
  | _ => cases hstage

/-- The drain ends with nothing pending, or with an exception. -/
theorem Sound.ending (h : Sound S pc w) (hS : Lasting t S) (hh : HostStep l w w')
    (hspares : pc.spares t S w) (hcan : w.core.isCancelled = false) (hstage : pc.stage = .ending)
    (hstop : pc.stopped = false)
    (hadv : advanceStream t job ch w.core pc = some (c', pc')) (hcore : w'.core = c') :
    Sound S pc' w' := by
  have hq : pc.touches = false → Quietly w.core w'.core := fun ht =>
    hcore ▸ (advanceStream_quietly hadv ht).1
  cases pc with
  | afterLoop =>
    have hq' := hq rfl
    simp only [advanceStream] at hadv
    split_ifs at hadv with hgo <;> cases hadv
    · exact h.neutral hS hh hq' rfl (by simp) rfl (fun h => by cases h) fun h => by cases h
    · refine h.toEnd hS hh hq' rfl (by simp) (.inl ?_)
      rw [hcore]
      simpa [hcan, Option.isSome_iff_ne_none] using hgo
  | drainTop =>
    have hq' := hq rfl
    simp only [advanceStream] at hadv
    split_ifs at hadv with hdone <;> cases hadv
    · refine h.toEnd hS hh hq' rfl (by simp) ?_
      rw [hcore]
      rw [hcan, Bool.or_false, Bool.or_eq_true, Bool.or_eq_true, List.isEmpty_iff] at hdone
      -- an Alarm comes with one of the other two, by assumption
      rcases hdone with (hp | hexc) | halarm
      · exact .inr hp
      · exact .inl hexc
      · exact hspares halarm
    · exact h.neutral hS hh hq' rfl (by simp) rfl (fun h => h) fun h => by cases h
  | drainWait =>
    have hq' := hq rfl
    simp only [advanceStream] at hadv
    split_ifs at hadv with hempty <;> cases hadv
    · exact h.toEnd hS hh hq' rfl (by simp) (.inr (List.isEmpty_iff.mp hempty))
    · exact h.neutral hS hh hq' rfl (by simp) rfl (fun _ => rfl) fun h => by cases h
  -- an exception is carried out of the loop, and fails the job
  | innerEnd =>
    have hq' := hq rfl
    obtain ⟨-, rfl⟩ := Prod.mk.inj (Option.some.inj hadv)
    cases hexc : w.core.jobException with
    | some e => exact .inl rfl
    | none => exact h.close hS hh hq' rfl rfl (fun _ => hexc) rfl
  | outcome err =>
    have hq' := hq rfl
    cases err with
    | none =>
      cases hadv
      exact h.close hS hh hq' rfl rfl (fun h => by cases h) rfl
    | some e => cases hstop
  | final err =>
    have hq' := hq rfl
    cases err with
    | none =>
      cases hadv
      exact h.close hS hh hq' rfl rfl (fun h => by cases h) rfl
    | some e => cases hstop
  | finished err => cases hadv
  | cancelling x e => cases hstop
  | _ => cases hstage

/-- **What a step of the streaming task keeps.** -/
theorem Sound.stream (h : Sound S pc w) (hS : Lasting t S) (hh : HostStep l w w')
    (hspares : pc.spares t S w) (hcan : pc.failed = false → w.core.isCancelled = false)
    (hadv : advanceStream t job ch w.core pc = some (c', pc')) (hcore : w'.core = c') :
    Sound S pc' w' := by
  by_cases hstop : pc.stopped = true
  · exact .inl (stopped_step hstop hadv)
  rw [Bool.not_eq_true] at hstop
  have hfailed : pc.failed = false := by
    cases pc with
    | cancelling x e => cases hstop
    | final err => cases err <;> first | rfl | cases hstop
    | finished err => cases err <;> first | rfl | cases hstop
    | _ => rfl
  cases hstage : pc.stage with
  | sending => exact h.sending hS hh hstage hstop hadv hcore
  | polling => exact h.polling hS hh hstage hadv hcore
  | recovering => exact h.recovering hS hh hspares hstage hadv hcore
  | ending => exact h.ending hS hh hspares (hcan hfailed) hstage hstop hadv hcore

end Host

/-! ### The other steps -/

section Beside

variable {t : ℕ} {S : World → Prop} {pc : StreamPc} {w w' : World} {l : WorldLabel}

/-- A delivery strikes out of the books what its acknowledgements answer. -/
theorem Aligned.deliver {n : ℕ} (h : Aligned pc w) (hs : World.step (.deliver n) w = some w')
    (hclean : Clean [] w.emitted) : Aligned pc w' := by
  obtain ⟨hcore, hlines⟩ := deliver_lines hs
  have hheard₀ : w'.heard = w.heard + ackCount (w.parsed n) := by
    obtain ⟨s, -, rfl⟩ := Option.map_eq_some_iff.mp hs
    rfl
  obtain ⟨ts, us, p, win, hheard, htracks⟩ := h.heard
  obtain ⟨vs, vs', q, -, hheard', -, -⟩ := hheard.deliver hclean hs
  obtain ⟨win', htracks', -⟩ := htracks.step (fun _ _ => True) hs hheard'.le (.inl hlines)
  refine ⟨⟨_, _, _, win', hheard', htracks'⟩, ?_⟩
  obtain ⟨extra, hbooks, hextra⟩ := h.books
  refine ⟨extra, ?_, hextra⟩
  -- no more is struck out than the device has been sent
  have hle : ackCount (w.parsed n) ≤ w.unheard.length := by
    have hle' := win'.heard_le_length
    rw [htracks'.heard, htracks'.written, hheard₀, hlines] at hle'
    unfold World.unheard
    rw [List.length_drop]
    omega
  have hunheard : w'.unheard ++ extra = (w.unheard ++ extra).drop (ackCount (w.parsed n)) := by
    rw [List.drop_append_of_le_length hle]
    unfold World.unheard
    rw [hlines, hheard₀, List.drop_drop]
  rw [hunheard, hcore]
  exact hbooks.handleRx (w.chunk n)

/-- A delivery. -/
theorem Sound.deliver {n : ℕ} (h : Sound S pc w) (hS : Lasting t S) (hclean : Clean [] w.emitted)
    (hs : World.step (.deliver n) w = some w') (hsusp : pc.suspended = true) : Sound S pc w' := by
  have hsame : w'.emitted = w.emitted ∧ w'.idle = w.idle := by
    obtain ⟨s, -, rfl⟩ := Option.map_eq_some_iff.mp hs
    exact ⟨rfl, rfl⟩
  rcases h with h | ⟨hclose, h⟩ | ⟨hd, h⟩ | ⟨h, -⟩
  · exact .inl h
  · exact .inr (.inl ⟨hclose, h.deliver hs hclean⟩)
  · refine .inr (.inr (.inl ⟨hd, hS.keep w w' h (fun hi => hsame.2.trans hi)
      (.of_eq (deliver_lines hs).2) ?_⟩))
    rw [hsame.1]
  · rw [h] at hsusp
    cases hsusp

/-- A step of the device. -/
theorem Sound.device (h : Sound S pc w) (hS : Lasting t S) (hs : World.step l w = some w')
    (hd : DeviceStep w w') : Sound S pc w' := by
  rcases h with h | ⟨hclose, h⟩ | ⟨hdr, h⟩ | ⟨h, hexc⟩
  · exact .inl h
  · refine .inr (.inl ⟨hclose, hd.tracks hs h.heard, ?_⟩)
    rw [unheard_eq hd.lines hd.heard, hd.core]
    exact h.books
  · refine .inr (.inr (.inl ⟨hdr, hS.keep w w' h hd.idle (.of_eq hd.lines) ?_⟩))
    obtain ⟨tail, htail⟩ := step_emitted hs
    rw [← htail, answers_append]
    exact Nat.le_add_right _ _
  · exact .inr (.inr (.inr ⟨h, by rw [hd.core]; exact hexc⟩))

/-- **What happens beside the streaming task keeps.** -/
theorem Sound.beside (h : Sound S pc w) (hS : Lasting t S) (hsusp : pc.suspended = true)
    (hb : Beside w w') : Sound S pc w' := by
  cases hb with
  | host l hh haside =>
    have hq := haside.quietly
    rcases h with h | ⟨hclose, h⟩ | ⟨hd, h⟩ | ⟨h, -⟩
    · exact .inl h
    · exact .inr (.inl ⟨hclose, h.quietly hh hq id⟩)
    · exact .inr (.inr (.inl ⟨hd, hS.host h hh (.of_eq hq.lines)⟩))
    · rw [h] at hsusp
      cases hsusp
  | deliver k hs hclean => exact h.deliver hS hclean hs hsusp
  | device l hs hd => exact h.device hS hs hd

end Beside

/-! ### The job as a whole -/

/-- The job has not been cancelled but by its own failure, and its end is sound. -/
structure Keeping (S : World → Prop) (pc : StreamPc) (w : World) : Prop where
  uncancelled : pc.failed = false → w.core.isCancelled = false
  sound : Sound S pc w

section Keeping

variable {t : ℕ} {S : World → Prop} {pc pc' : StreamPc} {w w' : World} {job : Job} {ch : Choice}

/-- The failure path is not left. -/
theorem failed_step {c c' : Core} (hpc : pc.failed = true)
    (hadv : advanceStream t job ch c pc = some (c', pc')) : pc'.failed = true := by
  cases pc with
  | cancelling x e =>
    simp only [advanceStream] at hadv
    split at hadv
    · cases hadv
      rfl
    · obtain ⟨⟨c₁, pc₁⟩, -, heq⟩ := Option.map_eq_some_iff.mp hadv
      cases heq
      rfl
  | final err =>
    cases err with
    | none => cases hpc
    | some e =>
      cases hadv
      rfl
  | finished err => cases hadv
  | _ => cases hpc

/-- The job has begun. -/
theorem Keeping.begin (h : Answered w') (hcore : w'.core = w.core.startJob) :
    Keeping S .start w' where
  uncancelled := fun _ => by rw [hcore]; rfl
  sound := by
    refine .inr (.inl ⟨rfl, h.hears, [], ?_, fun _ => rfl⟩)
    rw [List.append_nil]
    exact .startJob hcore h.unheard

theorem Keeping.stream {l : Label} (h : Keeping S pc w) (hS : Lasting t S) (hh : HostStep l w w')
    (hspares : pc.spares t S w) (hadv : advanceStream t job ch w.core pc = some (w'.core, pc')) :
    Keeping S pc' w' where
  uncancelled := fun hpc' => by
    have hpc : pc.failed = false := by
      by_contra hfailed
      rw [failed_step (by simpa using hfailed) hadv] at hpc'
      cases hpc'
    refine (advanceStream_flags hadv).cancelled ?_ (h.uncancelled hpc)
    cases pc <;> first | rfl | cases hpc
  sound := h.sound.stream hS hh hspares h.uncancelled hadv rfl

theorem Keeping.beside (h : Keeping S pc w) (hS : Lasting t S) (hsusp : pc.suspended = true)
    (hb : Beside w w') : Keeping S pc w' where
  uncancelled := fun hpc => by
    cases hb with
    | host l hh haside => exact haside.isCancelled (h.uncancelled hpc)
    | deliver k hs hclean =>
      rw [(deliver_lines hs).1, (handleRx_frame _ _).isCancelled]
      exact h.uncancelled hpc
    | device l hs hd =>
      rw [hd.core]
      exact h.uncancelled hpc
  sound := h.sound.beside hS hsusp hb

theorem Keeping.device {l : WorldLabel} (h : Keeping S pc w) (hS : Lasting t S)
    (hs : World.step l w = some w') (hd : DeviceStep w w') : Keeping S pc w' where
  uncancelled := fun hpc => by rw [hd.core]; exact h.uncancelled hpc
  sound := h.sound.device hS hs hd

end Keeping

end Raydriver
