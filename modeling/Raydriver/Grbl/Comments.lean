import Raydriver.Grbl.Parser

/-!
# G-code comments

The source takes comments out of a line in two passes: all groups in parentheses first, then
everything behind the first `;` that is left.  What a comment is can be said in one scan from
left to right.

## Main definitions

* `scanComments` — the scan, with a flag that is set inside a group.
* `Uncommented` — no `;`, and no `(` with a `)` behind it.

## Main results

* `stripGcodeComments_eq` — **the two passes are one scan**.
* `uncommented_stripGcodeComments` — stripping leaves no comment, and makes none.
* `stripGcodeComments_idem` — stripping twice is stripping once.
-/

namespace Raydriver

/-- One scan over a line: a `(` with a later `)` opens a group, which is skipped through the first
such `)`, and a `;` outside such a group ends the line. -/
def scanComments : Bool → Text → Text
  | _, [] => []
  | true, c :: t => scanComments (c != ')') t
  | false, c :: t =>
    if c = '(' ∧ ')' ∈ t then scanComments true t
    else if c = ';' then []
    else c :: scanComments false t

/-! ### The first pass -/

/-- The same scan without an end at a `;`. -/
def scanGroups : Bool → Text → Text
  | _, [] => []
  | true, c :: t => scanGroups (c != ')') t
  | false, c :: t =>
    if c = '(' ∧ ')' ∈ t then scanGroups true t else c :: scanGroups false t

/-- Inside a group the scan goes on behind the first `)`. -/
theorem scanGroups_inside : ∀ {t : Text} {i : ℕ}, t.idxOf? ')' = some i →
    scanGroups true t = scanGroups false (t.drop (i + 1)) := by
  intro t
  induction t with
  | nil => exact fun h => nomatch h
  | cons c t ih =>
    intro i h
    rw [List.idxOf?_cons] at h
    rw [scanGroups]
    by_cases hc : c = ')'
    · rw [if_pos (beq_iff_eq.mpr hc)] at h
      obtain rfl := Option.some.inj h
      rw [hc]
      rfl
    · rw [if_neg (mt beq_iff_eq.mp hc)] at h
      obtain ⟨j, hj, rfl⟩ := Option.map_eq_some_iff.mp h
      rw [bne_iff_ne.mpr hc, ih hj]
      rfl

/-- The groups that the first pass cuts out are those that the scan skips. -/
theorem cutGroups_eq : ∀ (n : ℕ) (t : Text), t.length ≤ n → cutGroups n t = scanGroups false t := by
  intro n
  induction n with
  | zero =>
    intro t h
    rw [List.length_eq_zero_iff.mp (Nat.le_zero.mp h)]
    rfl
  | succ n ih =>
    intro t h
    cases t with
    | nil => rfl
    | cons c t =>
      have hlen : t.length ≤ n := Nat.le_of_succ_le_succ h
      rw [cutGroups, scanGroups]
      by_cases hc : c = '('
      · rw [if_pos hc]
        cases hi : t.idxOf? ')' with
        | none =>
          have hnone : ')' ∉ t := List.idxOf?_eq_none_iff.mp hi
          rw [if_neg fun h => hnone h.2]
          exact congrArg (c :: ·) (ih t hlen)
        | some i =>
          have hmem : ')' ∈ t := by
            by_contra hnot
            rw [List.idxOf?_eq_none_iff.mpr hnot] at hi
            cases hi
          rw [if_pos ⟨hc, hmem⟩, scanGroups_inside hi]
          refine ih _ ?_
          rw [List.length_drop]
          omega
      · rw [if_neg hc, if_neg fun h => hc h.1]
        exact congrArg (c :: ·) (ih t hlen)

/-! ### The second pass -/

/-- A `;` that is left over was outside of all groups. -/
theorem takeWhile_scanGroups : ∀ (t : Text) (inside : Bool),
    (scanGroups inside t).takeWhile (fun c => c != ';') = scanComments inside t := by
  intro t
  induction t with
  | nil => intro inside; cases inside <;> rfl
  | cons c t ih =>
    intro inside
    cases inside with
    | true => exact ih _
    | false =>
      rw [scanGroups, scanComments]
      split_ifs with hgroup hend
      · exact ih true
      · rw [List.takeWhile_cons, hend]
        rfl
      · rw [List.takeWhile_cons, if_pos (bne_iff_ne.mpr hend), ih false]

/-- **The two passes are one scan.** -/
theorem stripGcodeComments_eq (line : Text) :
    stripGcodeComments line = trim (scanComments false line) := by
  rw [stripGcodeComments, cutGroups_eq _ _ le_rfl, takeWhile_scanGroups]

/-! ### What is left -/

/-- No `;`, and no `(` with a `)` behind it. -/
structure Uncommented (t : Text) : Prop where
  semicolon : ';' ∉ t
  groups : t.Pairwise fun a b => ¬ (a = '(' ∧ b = ')')

theorem Uncommented.sublist {t u : Text} (h : Uncommented t) (hu : u.Sublist t) : Uncommented u :=
  ⟨fun hmem => h.semicolon (hu.subset hmem), h.groups.sublist hu⟩

/-- The scan only leaves characters out. -/
theorem scanComments_sublist : ∀ (t : Text) (inside : Bool),
    (scanComments inside t).Sublist t := by
  intro t
  induction t with
  | nil => intro inside; cases inside <;> exact List.Sublist.refl _
  | cons c t ih =>
    intro inside
    cases inside with
    | true => exact (ih _).cons c
    | false =>
      rw [scanComments]
      split_ifs
      · exact (ih true).cons c
      · exact List.nil_sublist _
      · exact (ih false).cons_cons c

/-- A copied `(` has no `)` behind it in the line, hence none in what is copied. -/
theorem uncommented_scanComments : ∀ (t : Text) (inside : Bool),
    Uncommented (scanComments inside t) := by
  intro t
  induction t with
  | nil => intro inside; cases inside <;> exact ⟨List.not_mem_nil, .nil⟩
  | cons c t ih =>
    intro inside
    cases inside with
    | true => exact ih _
    | false =>
      rw [scanComments]
      split_ifs with hgroup hend
      · exact ih true
      · exact ⟨List.not_mem_nil, .nil⟩
      · obtain ⟨hsemi, hgroups⟩ := ih false
        refine ⟨fun hmem => ?_, List.pairwise_cons.mpr ⟨?_, hgroups⟩⟩
        · rcases List.mem_cons.mp hmem with he | hmem
          · exact hend he.symm
          · exact hsemi hmem
        · rintro b hb ⟨hc, rfl⟩
          exact hgroup ⟨hc, (scanComments_sublist t false).subset hb⟩

/-- The scan leaves a text without comments as it is. -/
theorem scanComments_of_uncommented : ∀ {t : Text}, Uncommented t → scanComments false t = t := by
  intro t
  induction t with
  | nil => exact fun _ => rfl
  | cons c t ih =>
    rintro ⟨hsemi, hgroups⟩
    obtain ⟨hhead, htail⟩ := List.pairwise_cons.mp hgroups
    rw [scanComments, if_neg fun h => hhead ')' h.2 ⟨h.1, rfl⟩,
      if_neg fun h => hsemi (List.mem_cons.mpr (.inl h.symm)),
      ih ⟨fun hmem => hsemi (List.mem_cons_of_mem c hmem), htail⟩]

theorem trim_sublist (t : Text) : (trim t).Sublist t :=
  (List.rdropWhile_prefix isWhitespace _).sublist.trans (List.dropWhile_suffix isWhitespace).sublist

/-- **Stripping leaves no comment, and makes none.** -/
theorem uncommented_stripGcodeComments (line : Text) : Uncommented (stripGcodeComments line) := by
  rw [stripGcodeComments_eq]
  exact (uncommented_scanComments line false).sublist (trim_sublist _)

/-- **Stripping twice is stripping once.** -/
theorem stripGcodeComments_idem (line : Text) :
    stripGcodeComments (stripGcodeComments line) = stripGcodeComments line := by
  rw [stripGcodeComments_eq (stripGcodeComments line),
    scanComments_of_uncommented (uncommented_stripGcodeComments line), stripGcodeComments_eq,
    trim_trim]

end Raydriver
