import Raydriver.Emulator.Blocks

/-!
# The acknowledgements of the emulator

The driver matches each `ok` and `error:` it receives with the oldest line it has not seen
answered.  The emulator answers most lines at once, but a probe cycle only when it is over,
and goes on executing the lines behind it.  It answers every line once; and it answers them
in order as long as a line that is answered at once is never executed while a probe cycle
waits for its end.

## Main definitions

* `acks`, `outstanding` — the lines answered, and the probe cycles not answered yet.
* `CleanLine`, `fedBytes` — the lines `acks_in_order_iff` is about, and the bytes a run feeds.
* `overtakes` — a line that is answered ahead of one before it.
* `Serves` — a part of the protocol loop answers the lines it executes.

## Main results

* `executeLine_serves`, `drainLoop_serves`, `tick_serves` — one lemma for each part.
* `acks_in_order_iff` — **one answer for each line, and in order if and only if no line
  overtakes a probe cycle.**
-/

namespace Raydriver.Emulator

open PyFloat Firmware

variable {F : Type} [PyFloat F]

namespace Firmware

/-- The lines that were acknowledged, in the order of the acknowledgements. -/
def acks (s : Firmware F) : List ℕ := s.log.filterMap Output.line

/-- The lines whose blocks have still to acknowledge them. -/
def outstanding (s : Firmware F) : List ℕ := (s.blocks.filter Block.defers).map Block.line

/-- The lines in the order in which they are acknowledged, if none is executed any more. -/
def order (s : Firmware F) : List ℕ := s.acks ++ s.outstanding

/-- Every line executed is acknowledged or going to be, once; and the log says of each of its
entries whether it is an acknowledgement. -/
structure Orderly (s : Firmware F) : Prop where
  tagged : ∀ o ∈ s.log, isAck o.data = o.line.isSome
  perm : s.order.Perm (List.range s.executed.length)

/-- The acknowledgements come in the order of the lines. -/
def Ordered (s : Firmware F) : Prop := s.order.Pairwise (· < ·)

/-- From `s` to `t` the emulator serves its queue, and keeps the order just if `ok` holds. -/
structure Serves (ok : Prop) (s t : Firmware F) : Prop where
  queue : t.executed ++ t.rx.pendingLines = s.executed ++ s.rx.pendingLines
  line : t.rx.line = s.rx.line
  overflow : t.rx.lineOverflow = s.rx.lineOverflow
  silent : t.silent = s.silent
  orderly : Orderly s → Orderly t
  ordered : Orderly s → (Ordered t ↔ Ordered s ∧ ok)

section Serves

omit [PyFloat F]

variable {ok ok' : Prop} {s t u : Firmware F}

theorem Serves.trans (h : Serves ok s t) (h' : Serves ok' t u) : Serves (ok ∧ ok') s u where
  queue := h'.queue.trans h.queue
  line := h'.line.trans h.line
  overflow := h'.overflow.trans h.overflow
  silent := h'.silent.trans h.silent
  orderly hs := h'.orderly (h.orderly hs)
  ordered hs := by rw [h'.ordered (h.orderly hs), h.ordered hs, and_assoc]

/-- What is written besides acknowledgements does not count. -/
theorem acks_append_infos (log : List Output) (infos : List Text) :
    (log ++ infos.map (Output.mk · none)).filterMap Output.line = log.filterMap Output.line := by
  rw [List.filterMap_append]
  have hnone : (infos.map (Output.mk · none)).filterMap Output.line = [] := by
    rw [List.filterMap_map]
    exact List.filterMap_eq_nil_iff.mpr fun _ _ => rfl
  rw [hnone, List.append_nil]

/-- Blocks that acknowledge nothing leave nothing outstanding. -/
theorem filter_defers {bs : List (Block F)} (h : ∀ b ∈ bs, b.defers = false) :
    bs.filter Block.defers = [] :=
  List.filter_eq_nil_iff.mpr fun b hb => by rw [h b hb]; exact Bool.false_ne_true

/-- A line behind all others keeps the order. -/
theorem pairwise_concat {l : List ℕ} {n : ℕ} (h : ∀ k ∈ l, k < n) :
    (l ++ [n]).Pairwise (· < ·) ↔ l.Pairwise (· < ·) := by
  rw [List.pairwise_append]
  refine ⟨And.left, fun hl => ⟨hl, List.pairwise_singleton _ _, fun k hk m hm => ?_⟩⟩
  rw [List.mem_singleton.mp hm]
  exact h k hk

/-- The lines executed are numbered from zero on. -/
theorem Orderly.lt (h : Orderly s) : ∀ k ∈ s.order, k < s.executed.length :=
  fun _ hk => List.mem_range.mp (h.perm.mem_iff.mp hk)

/-- The lines of what a line plans, and of what was planned. -/
theorem outstanding_append {b : List (Block F)} (hcurrent : t.currentBlock = s.currentBlock)
    (hplanner : t.planner = s.planner ++ b) :
    t.outstanding = s.outstanding ++ (b.filter Block.defers).map Block.line := by
  unfold outstanding blocks
  rw [hcurrent, hplanner, ← List.append_assoc, List.filter_append, List.map_append]

/-- The line numbered next is acknowledged, ahead of what is outstanding. -/
theorem Orderly.answer {n : ℕ} (h : Orderly s) (hn : s.executed.length = n)
    (hexecuted : t.executed.length = n + 1) (hacks : t.acks = s.acks ++ [n])
    (houtstanding : t.outstanding = s.outstanding) (htagged : ∀ o ∈ t.log, isAck o.data = o.line.isSome) :
    Orderly t ∧ (Ordered t ↔ Ordered s ∧ s.outstanding = []) := by
  have horder : t.order = s.acks ++ n :: s.outstanding := by
    unfold order
    rw [hacks, houtstanding, List.append_assoc, List.singleton_append]
  refine ⟨⟨htagged, ?_⟩, ?_⟩
  · rw [horder, hexecuted, List.range_succ]
    have hperm : (s.acks ++ n :: s.outstanding).Perm (s.order ++ [n]) :=
      List.perm_middle.trans (List.perm_append_singleton n s.order).symm
    exact hperm.trans ((hn ▸ h.perm).append_right [n])
  · unfold Ordered
    rw [horder]
    cases hout : s.outstanding with
    | nil =>
      rw [pairwise_concat fun k hk => hn ▸ h.lt k (List.mem_append_left _ hk)]
      unfold order
      rw [hout, List.append_nil]
      exact (and_iff_left rfl).symm
    | cons m ms =>
      -- the line is behind one that is acknowledged later
      refine ⟨fun hpairs => ?_, fun hcontra => nomatch hcontra.2⟩
      have hafter : n < m := by
        have hright := (List.pairwise_append.mp hpairs).2.1
        exact (List.pairwise_cons.mp hright).1 m List.mem_cons_self
      have hbefore : m < n := by
        rw [← hn]
        refine h.lt m (List.mem_append_right _ ?_)
        rw [hout]
        exact List.mem_cons_self
      omega

/-- The line numbered next is outstanding, behind all others. -/
theorem Orderly.defer {n : ℕ} (h : Orderly s) (hn : s.executed.length = n)
    (hexecuted : t.executed.length = n + 1) (hlog : t.log = s.log)
    (houtstanding : t.outstanding = s.outstanding ++ [n]) :
    Orderly t ∧ (Ordered t ↔ Ordered s) := by
  have horder : t.order = s.order ++ [n] := by
    unfold order acks
    rw [hlog, houtstanding, List.append_assoc]
  refine ⟨⟨by rw [hlog]; exact h.tagged, ?_⟩, ?_⟩
  · rw [horder, hexecuted, List.range_succ]
    exact (hn ▸ h.perm).append_right [n]
  · unfold Ordered
    rw [horder]
    exact pairwise_concat fun k hk => hn ▸ h.lt k hk

end Serves

section Serves

omit [PyFloat F]

variable {ok ok' : Prop} {s t : Firmware F}

theorem Serves.congr (h : Serves ok s t) (hok : ok ↔ ok') : Serves ok' s t :=
  ⟨h.queue, h.line, h.overflow, h.silent, h.orderly, fun hs => by rw [h.ordered hs, hok]⟩

/-- Where the order stays as it is. -/
theorem Serves.of_order (h : Silently s t) (horder : t.order = s.order)
    (htagged : (∀ o ∈ s.log, isAck o.data = o.line.isSome) →
      ∀ o ∈ t.log, isAck o.data = o.line.isSome) : Serves True s t where
  queue := by rw [h.rx, h.executed]
  line := by rw [h.rx]
  overflow := by rw [h.rx]
  silent := h.silent
  orderly hs := ⟨htagged hs.tagged, by rw [horder, h.executed]; exact hs.perm⟩
  ordered _ := by
    unfold Ordered
    rw [horder, and_true]

/-- Where nothing is written and no block ends. -/
theorem Serves.of_blocks (h : Silently s t) (hlog : t.log = s.log) (hblocks : t.blocks = s.blocks) :
    Serves True s t := by
  refine .of_order h ?_ fun htagged => by rwa [hlog]
  unfold order acks outstanding
  rw [hlog, hblocks]

end Serves

/-! ### Lines -/

/-- The line is answered at once, while a probe cycle before it is not answered yet. -/
def overtakes (raw : Text) (s : Firmware F) : Bool :=
  !s.outstanding.isEmpty && !defersAck F raw

/-- **Executing a line answers it in order, or it overtakes a probe cycle.** -/
theorem executeLine_serves {s t : Firmware F} {line : Text} (hnext : s.nextLine = some (line, t))
    (hs : s.state ≠ .alarm) (hu : (t.executeLine s.executed.length line).state ≠ .alarm) :
    Serves (overtakes line t = false) s (t.executeLine s.executed.length line) := by
  obtain ⟨rest, hpending, -, rfl⟩ := nextLine_cases hnext
  have hqueue : s.executed ++ [line] ++ rest = s.executed ++ s.rx.pendingLines := by
    rw [hpending, List.append_assoc, List.singleton_append]
  have hlength : (s.executed ++ [line]).length = s.executed.length + 1 := List.length_append
  -- the state in which the line is executed: it has left the queue and its place in the buffer
  generalize ht : ({ s with
    rx.pendingLines := rest
    rx.rxUsed := s.rx.rxUsed - (line.length + 1)
    executed := s.executed ++ [line] } : Firmware F) = t at hu ⊢
  have hrx : t.rx = { s.rx with
      pendingLines := rest
      rxUsed := s.rx.rxUsed - (line.length + 1) } := by rw [← ht]
  have hexecuted : t.executed = s.executed ++ [line] := by rw [← ht]
  have hcurrent : t.currentBlock = s.currentBlock := by rw [← ht]
  have hplanner : t.planner = s.planner := by rw [← ht]
  have hlog : t.log = s.log := by rw [← ht]
  have hsilent : t.silent = s.silent := by rw [← ht]
  have hstate : t.state = s.state := by rw [← ht]
  have hout : t.outstanding = s.outstanding := by
    unfold outstanding blocks
    rw [hcurrent, hplanner]
  have hdone := executeLine_executed s.executed.length line t
  generalize t.executeLine s.executed.length line = u at hu hdone ⊢
  cases hdone with
  | @answered v bs hplans hlen hblocks ha hprobe =>
    -- answered at once: only an open probe cycle is overtaken
    have hprobe' : defersAck F line = false := hprobe.resolve_left fun h => hs (hstate ▸ h)
    have hovertakes : overtakes line t = false ↔ s.outstanding = [] := by
      unfold overtakes
      rw [hprobe', hout]
      cases s.outstanding <;> simp
    have hurx : u.rx = t.rx := ha.rx.trans hplans.rx
    have huexec : u.executed = s.executed ++ [line] :=
      ha.executed.trans (hplans.executed.trans hexecuted)
    have huout : u.outstanding = s.outstanding := by
      rw [outstanding_append (b := bs) ((ha.currentBlock.trans hplans.currentBlock).trans hcurrent)
        ((ha.planner.trans hplans.planner).trans (by rw [hplanner])), filter_defers hblocks]
      exact List.append_nil _
    obtain ⟨infos, data, hinfos, hdata, hulog⟩ := ha.log
    rw [hplans.log, hlog] at hulog
    have hacks : u.acks = s.acks ++ [s.executed.length] := by
      unfold acks
      rw [hulog, List.filterMap_append, acks_append_infos]
      rfl
    -- every output tagged with a line is an acknowledgement
    have htagged : Orderly s → ∀ o ∈ u.log, isAck o.data = o.line.isSome := by
      intro horderly o ho
      rw [hulog] at ho
      rcases List.mem_append.mp ho with ho | ho
      · rcases List.mem_append.mp ho with ho | ho
        · exact horderly.tagged o ho
        · obtain ⟨info, hinfo, rfl⟩ := List.mem_map.mp ho
          exact hinfos info hinfo
      · rw [List.mem_singleton.mp ho]
        exact hdata
    have hanswer := fun horderly : Orderly s => horderly.answer (t := u) rfl
      (by rw [huexec, hlength]) hacks huout (htagged horderly)
    refine ⟨?_, ?_, ?_, ?_, fun h => (hanswer h).1, fun h => ?_⟩
    · rw [huexec, hurx, hrx]
      exact hqueue
    · rw [hurx, hrx]
    · rw [hurx, hrx]
    · exact ha.silent.trans (hplans.silent.trans hsilent)
    · rw [(hanswer h).2, hovertakes]
  | @deferred bs block hplans hlen hblocks hdefers hline hprobe =>
    -- a probe cycle: its answer comes when its block is done, in its turn
    have hovertakes : overtakes line t = false := by
      unfold overtakes
      rw [hprobe]
      exact Bool.and_false _
    have huexec : u.executed = s.executed ++ [line] := hplans.executed.trans hexecuted
    have huout : u.outstanding = s.outstanding ++ [s.executed.length] := by
      rw [outstanding_append (b := bs ++ [block]) (hplans.currentBlock.trans hcurrent)
        (hplans.planner.trans (by rw [hplanner])), List.filter_append, filter_defers hblocks,
        List.nil_append, List.filter_singleton, hdefers]
      show s.outstanding ++ [block.line] = _
      rw [hline]
    have hdefer := fun horderly : Orderly s => horderly.defer (t := u) rfl
      (by rw [huexec, hlength]) (hplans.log.trans hlog) huout
    refine ⟨?_, ?_, ?_, ?_, fun h => (hdefer h).1, fun h => ?_⟩
    · rw [huexec, hplans.rx, hrx]
      exact hqueue
    · rw [hplans.rx, hrx]
    · rw [hplans.rx, hrx]
    · exact hplans.silent.trans hsilent
    · rw [(hdefer h).2]
      exact (and_iff_left hovertakes).symm
  | alarmed ha => exact absurd ha.state hu

/-- No line is executed that overtakes a probe cycle. -/
def inTurn (es : List (Text × Firmware F)) : Prop := ∀ x ∈ es, overtakes x.1 x.2 = false

theorem drainLoop_serves : ∀ (k : ℕ) (s : Firmware F), s.state ≠ .alarm →
    (drainLoop k s).state ≠ .alarm → Serves (inTurn (executions k s)) s (drainLoop k s) := by
  intro k
  induction k with
  | zero =>
    intro s _ _
    exact (Serves.of_blocks ⟨rfl, rfl, rfl⟩ rfl rfl).congr
      (iff_of_true trivial fun _ h => absurd h List.not_mem_nil)
  | succ k ih =>
    intro s hs
    simp only [drainLoop, executions]
    cases hnext : s.nextLine with
    | none =>
      exact fun _ => (Serves.of_blocks ⟨rfl, rfl, rfl⟩ rfl rfl).congr
        (iff_of_true trivial fun _ h => absurd h List.not_mem_nil)
    | some e =>
      obtain ⟨line, t⟩ := e
      simp only
      split
      · rename_i halarm
        exact fun h => absurd halarm h
      · rename_i hu
        intro hend
        refine ((executeLine_serves hnext hs hu).trans (ih _ hu hend)).congr ?_
        unfold inTurn
        rw [List.forall_mem_cons]

/-- An alarm leaves no block behind. -/
theorem drainLoop_alarm (k : ℕ) {s : Firmware F} (hs : s.state ≠ .alarm)
    (h : (drainLoop k s).state = .alarm) : (drainLoop k s).currentBlock = none := by
  refine drain_induction (P := fun s => s.state = .alarm → s.currentBlock = none)
    (C := fun _ _ => True) ?_ k s (fun h => absurd h hs) (fun _ _ => trivial) h
  intro s line t hP hnext _ halarm
  obtain ⟨rest, -, -, rfl⟩ := nextLine_cases hnext
  have hdone := executeLine_executed s.executed.length line ({ s with
    rx.pendingLines := rest
    rx.rxUsed := s.rx.rxUsed - (line.length + 1)
    executed := s.executed ++ [line] } : Firmware F)
  cases hdone with
  | answered hplans _ _ ha _ =>
    rw [ha.currentBlock, hplans.currentBlock]
    rcases ha.state with hstate | hstate
    · rw [hstate, hplans.state] at halarm
      exact hP halarm
    · rw [hstate] at halarm
      cases halarm
  | deferred hplans _ _ _ _ _ =>
    rw [hplans.state] at halarm
    rw [hplans.currentBlock]
    exact hP halarm
  | alarmed ha => exact ha.currentBlock

/-! ### Blocks -/

/-- **The end of a block answers its line, if it is a probe cycle.** -/
theorem advance_serves (elapsed : F) {s : Firmware F} (h : (s.advance elapsed).state ≠ .alarm) :
    Serves True s (s.advance elapsed) := by
  have hdone := advance_advanced elapsed s
  generalize s.advance elapsed = t at h hdone ⊢
  cases hdone with
  | onward hquiet hlog hcurrent hplanner _ =>
    refine .of_blocks hquiet hlog ?_
    unfold blocks
    rw [hcurrent, hplanner]
  | @finished u block hblock hu hlog hcurrent hplanner _ hfinished =>
    have hblocks : s.blocks = block :: u.blocks := by
      unfold blocks
      rw [hblock, hcurrent, hplanner]
      rfl
    cases hfinished with
    | quiet ht hdefers htlog htcurrent htplanner _ =>
      refine .of_order ⟨ht.rx.trans hu.rx, ht.executed.trans hu.executed,
        ht.silent.trans hu.silent⟩ ?_ fun htagged => by rwa [htlog, hlog]
      have htblocks : t.blocks = u.blocks := by
        unfold blocks
        rw [htcurrent, htplanner]
      unfold order acks outstanding
      rw [htlog, hlog, htblocks, hblocks, List.filter_cons, hdefers]
      rfl
    | acked ht hdefers info hinfo htlog htcurrent htplanner _ =>
      refine .of_order ⟨ht.rx.trans hu.rx, ht.executed.trans hu.executed,
        ht.silent.trans hu.silent⟩ ?_ ?_
      · have htblocks : t.blocks = u.blocks := by
          unfold blocks
          rw [htcurrent, htplanner]
        -- the line of the block goes from the head of what is outstanding to the log
        unfold order acks outstanding
        rw [htlog, hlog, htblocks, hblocks, List.filter_cons, hdefers, List.filterMap_append,
          if_pos rfl, List.map_cons, List.append_assoc]
        rfl
      · intro htagged o ho
        rw [htlog, hlog] at ho
        rcases List.mem_append.mp ho with ho | ho
        · exact htagged o ho
        · rcases List.mem_cons.mp ho with rfl | ho
          · exact hinfo
          · rw [List.mem_singleton.mp ho]
            rfl
    | alarmed ha => exact absurd ha.state h

/-- **A tick serves the queue.** -/
theorem tick_serves (now : F) {s : Firmware F} (hs : s.state ≠ .alarm)
    (h : (s.tick now).state ≠ .alarm) :
    Serves (inTurn (executionsOf (.tick now) s)) s (s.tick now) := by
  obtain ⟨elapsed, u, hu, htick⟩ := tick_cases now s
  have hstart := startBlock_starts u.drainPendingLines
  have hustate : u.state ≠ .alarm := by
    rw [hu]
    exact hs
  have hdrained : u.drainPendingLines.state ≠ .alarm := by
    intro halarm
    have hcurrent : u.drainPendingLines.currentBlock = none := drainLoop_alarm _ hustate halarm
    rw [htick] at h
    cases advance_advanced elapsed u.drainPendingLines.startBlock with
    | onward _ _ _ _ hstate => exact h (hstate.trans (hstart.state.mpr halarm))
    | finished hblock _ _ _ _ _ _ =>
      rw [hstart.rests halarm, hcurrent] at hblock
      cases hblock
  rw [htick] at h ⊢
  have hprepare : Serves True s u := .of_blocks ⟨by rw [hu], by rw [hu], by rw [hu]⟩ (by rw [hu])
    (by rw [hu]; rfl)
  have hdrain := drainLoop_serves u.rx.pendingLines.length u hustate hdrained
  have hbegin : Serves True u.drainPendingLines u.drainPendingLines.startBlock :=
    .of_blocks hstart.toSilently hstart.log hstart.blocks
  refine (((hprepare.trans hdrain).trans hbegin).trans (advance_serves elapsed h)).congr ?_
  rw [true_and, and_true, and_true, hu]
  rfl

end Firmware

/-! ### Bytes -/

/-- A byte that is part of a line: neither a newline nor a realtime character. -/
def plainByte (b : UInt8) : Bool :=
  !([0x0A, 0x0D, 0x18, '?'.toUInt8, '~'.toUInt8, '!'.toUInt8].contains b) &&
    !(0x84 ≤ b && b ≤ 0x8B)

/-- A non-empty line of at most 69 characters, free of newlines and realtime characters. -/
structure CleanLine (l : Bytes) : Prop where
  nonempty : l ≠ []
  length : l.length ≤ 69
  plain : ∀ b ∈ l, plainByte b = true

instance (l : Bytes) : Decidable (CleanLine l) :=
  decidable_of_iff (l ≠ [] ∧ l.length ≤ 69 ∧ l.all plainByte = true)
    ⟨fun h => ⟨h.1, h.2.1, List.all_eq_true.mp h.2.2⟩,
      fun h => ⟨h.nonempty, h.length, List.all_eq_true.mpr h.plain⟩⟩

/-- The characters of a line. -/
def chars (l : Bytes) : Text := l.map fun b => Char.ofNat b.toNat

/-- A byte other than that of a character is decoded to another character. -/
theorem ofNat_byte_ne {b : UInt8} {c : Char} (h : b ≠ c.toUInt8) : Char.ofNat b.toNat ≠ c := by
  rintro rfl
  apply h
  have hvalid : b.toNat.isValidChar := .inl (by have := b.toNat_lt; omega)
  apply UInt8.toNat_inj.mp
  show b.toNat = (Char.ofNat b.toNat).toNat % 256
  rw [toNat_ofNat_of_valid hvalid, Nat.mod_eq_of_lt b.toNat_lt]

/-- A plain byte is neither a newline nor a realtime command. -/
theorem plainByte_cases {b : UInt8} (h : plainByte b = true) :
    b ≠ 0x18 ∧ ¬(b = 0x0A ∨ b = 0x0D) ∧ ¬(0x84 ≤ b ∧ b ≤ 0x8B) ∧
      Char.ofNat b.toNat ≠ '?' ∧ Char.ofNat b.toNat ≠ '~' ∧ Char.ofNat b.toNat ≠ '!' := by
  simp only [plainByte, List.contains_cons, List.contains_nil, Bool.or_false, Bool.not_or,
    Bool.and_eq_true, Bool.not_eq_true', beq_eq_false_iff_ne, Bool.and_eq_false_iff,
    decide_eq_false_iff_not] at h
  obtain ⟨⟨hlf, hcr, hreset, hreport, hresume, hhold⟩, hoverride⟩ := h
  refine ⟨hreset, fun h => h.elim hlf hcr, fun h => ?_, ofNat_byte_ne hreport,
    ofNat_byte_ne hresume, ofNat_byte_ne hhold⟩
  exact hoverride.elim (fun hlow => hlow h.1) fun hhigh => hhigh h.2

namespace Firmware

omit [PyFloat F] in
/-- The greeting is no acknowledgement. -/
theorem greet_serves (s : Firmware F) : Serves True s s.greet ∧ s.greet.state = s.state := by
  unfold greet
  split
  · exact ⟨.of_blocks ⟨rfl, rfl, rfl⟩ rfl rfl, rfl⟩
  · refine ⟨.of_order ⟨rfl, rfl, rfl⟩ ?_ ?_, rfl⟩
    · unfold order acks
      rw [show (({ s with welcomed := true } : Firmware F).write welcomeText).log =
        s.log ++ [welcomeText].map (Output.mk · none) from rfl, acks_append_infos]
      rfl
    · intro htagged o ho
      rcases List.mem_append.mp ho with ho | ho
      · exact htagged o ho
      · rw [List.mem_singleton.mp ho]
        exact isAck_cons (by decide) (by decide) _

/-- What the emulator has received: the lines in the queue and the start of the next one. -/
structure Queued (s : Firmware F) (ls : List Text) (cur : Bytes) : Prop where
  silent : s.silent = false
  overflow : s.rx.lineOverflow = false
  line : s.rx.line = chars cur
  queue : s.executed ++ s.rx.pendingLines = ls

omit [PyFloat F] in
theorem Queued.serves {ok : Prop} {s t : Firmware F} {ls : List Text} {cur : Bytes}
    (hs : Queued s ls cur) (h : Serves ok s t) : Queued t ls cur :=
  ⟨h.silent.trans hs.silent, h.overflow.trans hs.overflow, h.line.trans hs.line,
    h.queue.trans hs.queue⟩

omit [PyFloat F] in
/-- A change of the buffer alone answers nothing. -/
theorem orderly_of_rx {s : Firmware F} (rx : RxBuffer) :
    (Orderly s → Orderly { s with rx := rx }) ∧ (Ordered { s with rx := rx } ↔ Ordered s) :=
  ⟨fun h => ⟨h.tagged, h.perm⟩, Iff.rfl⟩

/-- **A newline queues the line.** -/
theorem feedByte_newline {s : Firmware F} {ls : List Text} {cur : Bytes} (h : Queued s ls cur)
    (hcur : cur ≠ []) :
    Queued (s.feedByte LF) (ls ++ [chars cur]) [] ∧ (s.feedByte LF).state = s.state ∧
      (Orderly s → Orderly (s.feedByte LF) ∧ (Ordered (s.feedByte LF) ↔ Ordered s)) := by
  obtain ⟨hgreet, hstate⟩ := greet_serves s
  have hg := h.serves hgreet
  have hline : s.greet.rx.line.isEmpty = false := by
    rw [hg.line]
    cases cur with
    | nil => exact absurd rfl hcur
    | cons b cur => rfl
  have hfeed : s.feedByte LF = { s.greet with
      rx := { s.greet.rx with
        line := []
        pendingLines := s.greet.rx.pendingLines ++ [s.greet.rx.line]
        rxUsed := s.greet.rx.rxUsed - s.greet.rx.line.length +
          (s.greet.rx.line.length + 1) } } := by
    unfold feedByte endLine
    simp only [h.silent, hg.overflow, hline, Bool.false_eq_true, if_false]
    rfl
  rw [hfeed]
  refine ⟨⟨hg.silent, hg.overflow, rfl, ?_⟩, hstate, fun horderly => ?_⟩
  · rw [← hg.queue, hg.line, ← List.append_assoc]
  · have hrx := orderly_of_rx (s := s.greet) { s.greet.rx with
      line := []
      pendingLines := s.greet.rx.pendingLines ++ [s.greet.rx.line]
      rxUsed := s.greet.rx.rxUsed - s.greet.rx.line.length + (s.greet.rx.line.length + 1) }
    refine ⟨hrx.1 (hgreet.orderly horderly), hrx.2.trans ?_⟩
    rw [hgreet.ordered horderly, and_true]

/-- **A character is appended to the line.** -/
theorem feedByte_char {s : Firmware F} {ls : List Text} {cur : Bytes} {b : UInt8}
    (h : Queued s ls cur) (hb : plainByte b = true) (hcur : cur.length < 69) :
    Queued (s.feedByte b) ls (cur ++ [b]) ∧ (s.feedByte b).state = s.state ∧
      (Orderly s → Orderly (s.feedByte b) ∧ (Ordered (s.feedByte b) ↔ Ordered s)) := by
  obtain ⟨hgreet, hstate⟩ := greet_serves s
  have hg := h.serves hgreet
  obtain ⟨hreset, hnewline, hoverride, hreport, hresume, hhold⟩ := plainByte_cases hb
  have hshort : ¬s.greet.rx.line.length ≥ lineBufferSize - 1 := by
    rw [hg.line]
    unfold chars lineBufferSize
    rw [List.length_map]
    omega
  obtain ⟨overrun, hfeed⟩ : ∃ overrun, s.feedByte b = { s.greet with
      rx := { s.greet.rx with
        line := s.greet.rx.line ++ [Char.ofNat b.toNat]
        rxUsed := s.greet.rx.rxUsed + 1
        rxOverrun := overrun } } := by
    unfold feedByte takeChar
    simp only [h.silent, hreset, hreport, hresume, hhold, hoverride, hnewline, hshort,
      Bool.false_eq_true, if_false]
    split
    · exact ⟨true, rfl⟩
    · exact ⟨_, rfl⟩
  rw [hfeed]
  refine ⟨⟨hg.silent, hg.overflow, ?_, hg.queue⟩, hstate, fun horderly => ?_⟩
  · show s.greet.rx.line ++ [Char.ofNat b.toNat] = chars (cur ++ [b])
    rw [hg.line]
    unfold chars
    rw [List.map_append]
    rfl
  · have hrx := orderly_of_rx (s := s.greet) { s.greet.rx with
      line := s.greet.rx.line ++ [Char.ofNat b.toNat]
      rxUsed := s.greet.rx.rxUsed + 1
      rxOverrun := overrun }
    refine ⟨hrx.1 (hgreet.orderly horderly), hrx.2.trans ?_⟩
    rw [hgreet.ordered horderly, and_true]

end Firmware

/-! ### Runs -/

/-- The byte that an event feeds. -/
def byteOf : Event F → Option UInt8
  | .feedByte b => some b
  | _ => none

/-- The bytes that a run feeds. -/
def fedBytes (es : List (Event F)) : Bytes := es.filterMap byteOf

/-- The event switches the emulator off. -/
def silences : Event F → Bool
  | .setSilent silent => silent
  | _ => false

/-- The emulator after these events. -/
def after (es : List (Event F)) (s : Firmware F) : Firmware F := es.foldl (fun s e => step e s) s

/-- Each event of the run, with the state it happens in. -/
def throughout (p : Event F → Firmware F → Bool) : List (Event F) → Firmware F → Bool
  | [], _ => true
  | e :: es, s => p e s && throughout p es (step e s)

/-- The event raises no alarm. -/
def quiet (e : Event F) (s : Firmware F) : Bool := (step e s).state ≠ .alarm

/-- The event executes no line that overtakes a probe cycle. -/
def keepsTurn (e : Event F) (s : Firmware F) : Bool :=
  (executionsOf e s).all fun x => !overtakes x.1 x.2

theorem keepsTurn_iff (e : Event F) (s : Firmware F) :
    keepsTurn e s = true ↔ inTurn (executionsOf e s) := by
  unfold keepsTurn inTurn
  simp [List.all_eq_true]

/-- **Everything but a byte serves the queue.** -/
theorem step_serves {e : Event F} {s : Firmware F} (hbyte : byteOf e = none)
    (hsilent : silences e = false) (hquiet : s.silent = false) (hs : s.state ≠ .alarm)
    (h : (step e s).state ≠ .alarm) : Serves (inTurn (executionsOf e s)) s (step e s) := by
  have hnone : inTurn ([] : List (Text × Firmware F)) := fun _ hx => absurd hx List.not_mem_nil
  have hrest : ∀ t : Firmware F, Silently s t → t.log = s.log → t.blocks = s.blocks →
      Serves (inTurn ([] : List (Text × Firmware F))) s t :=
    fun t ht hlog hblocks => (Serves.of_blocks ht hlog hblocks).congr (iff_of_true trivial hnone)
  cases e with
  | feedByte b => cases hbyte
  | tick now => exact tick_serves now hs h
  | drain => exact drainLoop_serves _ s hs h
  | setSetting key value => exact hrest _ ⟨rfl, rfl, rfl⟩ rfl rfl
  | setProbeTouch touch => exact hrest _ ⟨rfl, rfl, rfl⟩ rfl rfl
  | setSpeedFactor factor => exact hrest _ ⟨rfl, rfl, rfl⟩ rfl rfl
  | setSilent silent => exact hrest _ ⟨rfl, rfl, hsilent.trans hquiet.symm⟩ rfl rfl

/-- The bytes of complete lines. -/
def render (lines : List Bytes) : Bytes := lines.flatMap fun l => l ++ [LF]

/-- What is in front of the first newline is the first line. -/
theorem eq_of_newline {cur l w r : Bytes} (hcur : LF ∉ cur) (hl : LF ∉ l)
    (h : cur ++ LF :: w = l ++ LF :: r) : cur = l ∧ w = r := by
  rcases List.append_eq_append_iff.mp h with ⟨x, hx, hrest⟩ | ⟨x, hx, hrest⟩
  · cases x with
    | nil => exact ⟨by rw [hx, List.append_nil], (List.cons.inj hrest).2⟩
    | cons c x =>
      have hc : LF = c := (List.cons.inj hrest).1
      exact absurd (hx ▸ List.mem_append_right cur (hc ▸ List.mem_cons_self)) hl
  · cases x with
    | nil => exact ⟨by rw [hx, List.append_nil], (List.cons.inj hrest).2.symm⟩
    | cons c x =>
      have hc : LF = c := (List.cons.inj hrest).1
      exact absurd (hx ▸ List.mem_append_right l (hc ▸ List.mem_cons_self)) hcur

/-- The next byte of complete lines ends the line that has begun, or goes on with it. -/
theorem next_byte {cur w : Bytes} {b : UInt8} {lines : List Bytes} (hcur : LF ∉ cur)
    (hlines : ∀ l ∈ lines, CleanLine l) (h : cur ++ b :: w = render lines) :
    (b = LF ∧ cur ≠ [] ∧ ∃ ls, lines = cur :: ls ∧ w = render ls) ∨
      (b ≠ LF ∧ plainByte b = true ∧ cur.length < 69) := by
  cases lines with
  | nil => exact absurd h (by simp [render])
  | cons l ls =>
    have hl := hlines l List.mem_cons_self
    have hlf : LF ∉ l := fun hmem => by
      have hplain := hl.plain LF hmem
      revert hplain
      decide
    have hrender : render (l :: ls) = l ++ LF :: render ls := by
      simp [render]
    rw [hrender] at h
    by_cases hb : b = LF
    · left
      rw [hb] at h
      obtain ⟨rfl, rfl⟩ := eq_of_newline hcur hlf h
      exact ⟨hb, hl.nonempty, ls, rfl, rfl⟩
    · right
      -- the line that has begun and the byte are the start of the next line
      have hlead : cur ++ [b] <+: l := by
        have hlfcur : LF ∉ cur ++ [b] := by
          rw [List.mem_append, List.mem_singleton]
          exact fun hmem => hmem.elim hcur fun heq => hb heq.symm
        have happend : (cur ++ [b]) ++ w = l ++ LF :: render ls := by
          rw [List.append_assoc, List.singleton_append, h]
        rcases List.append_eq_append_iff.mp happend with ⟨x, hx, -⟩ | ⟨x, hx, hrest⟩
        · exact ⟨x, hx.symm⟩
        · cases x with
          | nil => exact ⟨[], by rw [hx, List.append_nil, List.append_nil]⟩
          | cons c x =>
            have hc : LF = c := (List.cons.inj hrest).1
            exact absurd (hx ▸ List.mem_append_right l (hc ▸ List.mem_cons_self)) hlfcur
      refine ⟨hb, hl.plain b (hlead.subset (by simp)), ?_⟩
      have hle := hlead.length_le
      rw [List.length_append, List.length_singleton] at hle
      have hmax := hl.length
      omega

/-- **A run answers its lines once, and in order just if none overtakes a probe cycle.** -/
theorem run_serves : ∀ (es : List (Event F)) (s : Firmware F) (ls : List Text) (cur : Bytes)
    (lines : List Bytes), cur ++ fedBytes es = render lines → LF ∉ cur →
    (∀ l ∈ lines, CleanLine l) → (∀ e ∈ es, silences e = false) → Queued s ls cur →
    Orderly s → s.state ≠ .alarm → throughout quiet es s = true →
    Queued (after es s) (ls ++ lines.map chars) [] ∧ Orderly (after es s) ∧
      (Ordered (after es s) ↔ Ordered s ∧ throughout keepsTurn es s = true) := by
  intro es
  induction es with
  | nil =>
    intro s ls cur lines hbytes hcur hlines _ hqueued horderly _ _
    rw [show fedBytes ([] : List (Event F)) = [] from rfl, List.append_nil] at hbytes
    cases lines with
    | nil =>
      rw [show cur = [] from hbytes] at hqueued
      rw [List.map_nil, List.append_nil]
      exact ⟨hqueued, horderly, (and_iff_left rfl).symm⟩
    | cons l lines => exact absurd (hbytes ▸ by simp [render]) hcur
  | cons e es ih =>
    intro s ls cur lines hbytes hcur hlines hsilent hqueued horderly hs hquiet
    obtain ⟨hstep, hquiet⟩ := Bool.and_eq_true_iff.mp hquiet
    have hstate : (step e s).state ≠ .alarm := of_decide_eq_true hstep
    have hsilent' := fun e' he' => hsilent e' (List.mem_cons_of_mem _ he')
    -- what the first event does, and then the others
    have hgo : ∀ (ls' : List Text) (cur' : Bytes) (lines' : List Bytes),
        cur' ++ fedBytes es = render lines' → LF ∉ cur' → (∀ l ∈ lines', CleanLine l) →
        Queued (step e s) ls' cur' → Orderly (step e s) →
        (Ordered (step e s) ↔ Ordered s ∧ keepsTurn e s = true) →
        ls' ++ lines'.map chars = ls ++ lines.map chars →
        Queued (after (e :: es) s) (ls ++ lines.map chars) [] ∧ Orderly (after (e :: es) s) ∧
          (Ordered (after (e :: es) s) ↔ Ordered s ∧ throughout keepsTurn (e :: es) s = true) := by
      intro ls' cur' lines' hbytes' hcur' hlines' hqueued' horderly' hordered' heq
      obtain ⟨hq, ho, hiff⟩ := ih (step e s) ls' cur' lines' hbytes' hcur' hlines' hsilent'
        hqueued' horderly' hstate hquiet
      refine ⟨heq ▸ hq, ho, hiff.trans ?_⟩
      rw [hordered', throughout, Bool.and_eq_true, and_assoc]
    cases hbyte : byteOf e with
    | none =>
      have hserves := step_serves hbyte (hsilent e List.mem_cons_self) hqueued.silent hs hstate
      rw [show fedBytes (e :: es) = fedBytes es by simp [fedBytes, hbyte]] at hbytes
      refine hgo ls cur lines hbytes hcur hlines (hqueued.serves hserves)
        (hserves.orderly horderly) ?_ rfl
      rw [hserves.ordered horderly, keepsTurn_iff]
    | some b =>
      obtain rfl : e = .feedByte b := by
        cases e <;> cases hbyte
        rfl
      have hkeeps : keepsTurn (.feedByte b) s = true := rfl
      rw [show fedBytes (.feedByte b :: es) = b :: fedBytes es from rfl] at hbytes
      rcases next_byte hcur hlines hbytes with ⟨rfl, hne, lines', rfl, hrest⟩ | ⟨hne, hplain, hlen⟩
      · obtain ⟨hq, -, ho⟩ := feedByte_newline hqueued hne
        refine hgo (ls ++ [chars cur]) [] lines' hrest List.not_mem_nil
          (fun l hl => hlines l (List.mem_cons_of_mem _ hl)) hq (ho horderly).1 ?_ ?_
        · exact (ho horderly).2.trans (and_iff_left hkeeps).symm
        · rw [List.map_cons, List.append_assoc, List.singleton_append]
      · obtain ⟨hq, -, ho⟩ := feedByte_char hqueued hplain hlen
        refine hgo ls (cur ++ [b]) lines ?_ ?_ hlines hq (ho horderly).1 ?_ rfl
        · rw [List.append_assoc, List.singleton_append, hbytes]
        · rw [List.mem_append, List.mem_singleton]
          exact fun hmem => hmem.elim hcur fun heq => hne heq.symm
        · exact (ho horderly).2.trans (and_iff_left hkeeps).symm

/-! ### The main result -/

/-- Nothing waits, and the machine is at rest. -/
structure Quiescent (s : Firmware F) : Prop where
  pending : s.rx.pendingLines = []
  current : s.currentBlock = none
  planner : s.planner = []

/-- The lines were answered: there is one `ok` or `error:` for each, and the one in a place of
the log is for the line in that place. -/
structure Answered (lines : List Bytes) (s : Firmware F) : Prop where
  executed : s.executed = lines.map chars
  once : (s.log.filter fun o => isAck o.data).length = lines.length
  inOrder : s.acks = List.range lines.length

omit [PyFloat F] in
/-- The acknowledgements are the entries of the log that look like one. -/
theorem length_acks {s : Firmware F} (h : Orderly s) :
    (s.log.filter fun o => isAck o.data).length = s.acks.length := by
  rw [List.filter_congr h.tagged]
  unfold acks
  rw [List.length_filterMap_eq_countP, List.countP_eq_length_filter]

/-- **Every line is answered once, and in order if and only if none overtakes a probe cycle.**
Complete lines are fed in any pieces and between any ticks, without an alarm; once nothing is
left to do, they were answered one by one just if no line that is answered at once was
executed while a probe cycle before it had still to be answered. -/
theorem acks_in_order_iff (speedFactor : F) (es : List (Event F)) (lines : List Bytes)
    (hlines : ∀ l ∈ lines, CleanLine l) (hbytes : fedBytes es = render lines)
    (hsilent : ∀ e ∈ es, silences e = false)
    (hquiet : throughout quiet es (.new speedFactor) = true)
    (hend : Quiescent (after es (.new speedFactor))) :
    Answered lines (after es (.new speedFactor)) ↔
      throughout keepsTurn es (.new speedFactor) = true := by
  have hstart : Orderly (Firmware.new speedFactor) :=
    ⟨fun _ ho => absurd ho List.not_mem_nil, List.Perm.refl _⟩
  obtain ⟨hqueued, horderly, hordered⟩ := run_serves es (.new speedFactor) [] [] lines hbytes
    List.not_mem_nil hlines hsilent ⟨rfl, rfl, rfl, rfl⟩ hstart nofun hquiet
  generalize after es (.new speedFactor) = s at *
  have hexecuted : s.executed = lines.map chars := by
    have hqueue := hqueued.queue
    rwa [hend.pending, List.append_nil, List.nil_append] at hqueue
  -- nothing is left to do, so nothing is left to acknowledge
  have hacks : s.order = s.acks := by
    unfold order outstanding blocks
    rw [hend.current, hend.planner]
    exact List.append_nil _
  have hlength : s.executed.length = lines.length := by rw [hexecuted, List.length_map]
  -- each line is acknowledged once; what is left is the order
  have hperm : s.acks.Perm (List.range lines.length) := by
    rw [← hacks, ← hlength]
    exact horderly.perm
  have hstarted : Ordered (Firmware.new speedFactor) := List.Pairwise.nil
  rw [← and_iff_right hstarted (b := throughout keepsTurn es (.new speedFactor) = true), ← hordered]
  unfold Ordered
  rw [hacks]
  constructor
  · intro h
    rw [h.inOrder]
    exact List.pairwise_lt_range
  · intro hpairs
    refine ⟨hexecuted, ?_, ?_⟩
    · rw [length_acks horderly, hperm.length_eq, List.length_range]
    · exact hperm.eq_of_pairwise (fun a b _ _ hab hba => absurd hab (Nat.lt_asymm hba)) hpairs
        List.pairwise_lt_range

/-- Lines that are fed byte by byte, and some ticks. -/
def feedThenTick (lines : List String) (ticks : ℕ) : List (Event ℚ) :=
  .setProbeTouch (some ⟨0, 0, -1⟩) :: (render (lines.map ascii)).map .feedByte ++
    (List.range ticks).map fun i => .tick i

/-- A query and a probe cycle are answered in order. -/
theorem acks_in_order_probe : Answered (["$I", "G38.2 Z-2 F100"].map ascii)
    (after (feedThenTick ["$I", "G38.2 Z-2 F100"] 2) (.new (2000 : ℚ))) :=
  (acks_in_order_iff 2000 (feedThenTick ["$I", "G38.2 Z-2 F100"] 2)
    (["$I", "G38.2 Z-2 F100"].map ascii) (by decide +kernel) (by decide +kernel)
    (by decide +kernel) (by decide +kernel)
    ⟨by decide +kernel, by decide +kernel, by decide +kernel⟩).mpr (by decide +kernel)

/-- Behind a probe cycle, another line is answered first. -/
theorem probe_overtaken :
    (∀ l ∈ ["G38.2 Z-2 F100", "G21"].map ascii, CleanLine l) ∧
    fedBytes (feedThenTick ["G38.2 Z-2 F100", "G21"] 2) =
      render (["G38.2 Z-2 F100", "G21"].map ascii) ∧
    throughout quiet (feedThenTick ["G38.2 Z-2 F100", "G21"] 2) (.new (2000 : ℚ)) = true ∧
    Quiescent (after (feedThenTick ["G38.2 Z-2 F100", "G21"] 2) (.new (2000 : ℚ))) ∧
    ¬Answered (["G38.2 Z-2 F100", "G21"].map ascii)
      (after (feedThenTick ["G38.2 Z-2 F100", "G21"] 2) (.new (2000 : ℚ))) := by
  refine ⟨by decide +kernel, by decide +kernel, by decide +kernel,
    ⟨by decide +kernel, by decide +kernel, by decide +kernel⟩, fun h => ?_⟩
  have horder := h.inOrder
  revert horder
  decide +kernel

end Raydriver.Emulator
