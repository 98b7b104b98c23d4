import Raydriver.Core.Operations
import Raydriver.Lib.Run

/-!
# Homing

`home` is written alike in the four sessions.  It executes its commands one after another,
gives up at the first of them that fails, and clears the error of the device state behind the
last.  The lines a command is answered with are dropped.  Here `home` runs on a session of
which only the calls, the answers and the recorded error are known, and everything else that
happens in the session happens between its steps.

A command can be answered by an `error:` line without failing: the call returns that line.

## Main definitions

* `Host` — a session as `home` sees it.
* `Home`, `Home.step` — `home` on a session.  `answers` is a history the source does not keep.
* `Host.Lawful` — the session keeps its error through the steps of a kind, and records that
  of a refused command.
* `KeepsErrors` — an error line leaves an error behind `home`, and its absence means success.

## Main results

* `Kept.step` — up to the end of `home`, the error of a refused command stays.
* `keepsErrors_iff` — **when `home` keeps the errors**: no command was refused, or it gave up.
-/

namespace Raydriver

open Lts

/-- What kind of line finished a command. -/
inductive Answer where
  | ok
  | error
  | alarm
  deriving DecidableEq, Repr

/-! ### The line that finishes a command -/

section Finisher

variable {C L : Type} (handle : C → L → C) (finished : C → Bool)

/-- The first of the lines that finishes what was not finished before it. -/
def finisher : C → List L → Option L
  | _, [] => none
  | c, l :: ls =>
    if !finished c && finished (handle c l) then some l else finisher (handle c l) ls

variable {handle finished} {P : C → Prop}

theorem foldl_keeps (hkeep : ∀ c l, P c → P (handle c l)) :
    ∀ (ls : List L) (c : C), P c → P (ls.foldl handle c) := by
  intro ls
  induction ls with
  | nil => exact fun _ h => h
  | cons l ls ih => exact fun c h => ih _ (hkeep c l h)

/-- What the line that finishes the command establishes holds behind all the lines. -/
theorem foldl_of_finisher {l : L} (hkeep : ∀ c l, P c → P (handle c l)) (hl : ∀ c, P (handle c l)) :
    ∀ (ls : List L) (c : C), finisher handle finished c ls = some l → P (ls.foldl handle c) := by
  intro ls
  induction ls with
  | nil => exact fun _ h => nomatch h
  | cons a ls ih =>
    intro c h
    rw [finisher] at h
    rw [List.foldl_cons]
    split_ifs at h
    · obtain rfl := Option.some.inj h
      exact foldl_keeps hkeep ls _ (hl c)
    · exact ih _ h

end Finisher

/-! ### `home` on a session -/

/-- A session as `home` sees it, with states `S` and labels `L`. -/
structure Host (S L : Type) where
  step : L → S → Option S
  /-- The call of `execute_command`. -/
  execute : Text → L
  /-- The error is cleared. -/
  homed : L
  /-- The task that the next call makes. -/
  nextTask : S → ℕ
  /-- Whether the call of a task has returned without an error, if it has returned. -/
  result : ℕ → S → Option Bool
  /-- The answer that the command of a task gets in a step. -/
  answer : L → ℕ → S → Option Answer
  error : S → Option DeviceError

/-- The awaits of `home`. -/
inductive HomePc where
  | start
  /-- Awaiting `execute_command`; the commands behind it. -/
  | wait (task : ℕ) (commands : List Text)
  | returned (ok : Bool)
  deriving DecidableEq, Repr

/-- `home` and the session it runs on.  With each answer stands the error that is recorded
behind it. -/
structure Home (S : Type) where
  session : S
  pc : HomePc := .start
  answers : List (Answer × Option DeviceError) := []
  deriving DecidableEq, Repr

/-- A step of `home`, or one of the session under it. -/
inductive HomeLabel (L : Type) where
  /-- The session takes a step. -/
  | session (l : L)
  /-- `home` goes on. -/
  | home

section Steps

variable {S L : Type} (host : Host S L) (script : Script)

namespace Home

/-- `home` up to its next await point. -/
def proceed (commands : List Text) (s : Home S) : Option (Home S) :=
  match commands with
  | [] =>
    if script.last = .ok () then
      (host.step host.homed s.session).map fun u => { s with session := u, pc := .returned true }
    else some { s with pc := .returned false }
  | command :: rest =>
    (host.step (host.execute command) s.session).map fun u =>
      { s with session := u, pc := .wait (host.nextTask s.session) rest }

/-- The answer to the command that `home` awaits. -/
def heard (l : L) (s : Home S) : Option Answer :=
  match s.pc with
  | .wait i _ => host.answer l i s.session
  | _ => none

/-- One step of `home` or of the session. -/
def step : HomeLabel L → Home S → Option (Home S)
  | .session l, s => (host.step l s.session).map fun u =>
    { s with
      session := u
      answers := s.answers ++ (s.heard host l).toList.map fun a => (a, host.error u) }
  | .home, s =>
    match s.pc with
    | .start => s.proceed host script script.commands
    | .wait i rest =>
      match host.result i s.session with
      | none => none
      | some true => s.proceed host script rest
      | some false => some { s with pc := .returned false }
    | .returned _ => none

/-- `home` has returned. -/
def returned (s : Home S) : Bool :=
  match s.pc with
  | .returned _ => true
  | _ => false

/-- The next step of `home` gives up: the command it awaits has failed, or the text of the
next one cannot be formatted. -/
def givesUp (s : Home S) : Bool :=
  match s.pc with
  | .start => script.commands.isEmpty && script.last != .ok ()
  | .wait i rest =>
    host.result i s.session == some false || (rest.isEmpty && script.last != .ok ())
  | .returned _ => false

/-- All commands were acknowledged with `ok`. -/
def Acked (s : Home S) : Prop :=
  s.answers.map Prod.fst = List.replicate script.commands.length .ok

/-- The steps of the session are of the given kind. -/
def Quietly (quiet : S → L → Prop) (s : Home S) (l : HomeLabel L) (_ : Home S) : Prop :=
  match l with
  | .session l => quiet s.session l
  | .home => True

end Home

instance {quiet : S → L → Prop} [∀ s l, Decidable (quiet s l)] (s : Home S) (l : HomeLabel L)
    (t : Home S) : Decidable (Home.Quietly quiet s l t) :=
  match l with
  | .session l => inferInstanceAs (Decidable (quiet s.session l))
  | .home => inferInstanceAs (Decidable True)

/-- The error recorded behind a refused command is still recorded. -/
def Kept (s : Home S) : Prop :=
  ∀ a ∈ s.answers, a.1 = .error → a.2 ≠ none ∧ host.error s.session = a.2

/-- **`home` clears an error only on success**: an error recorded behind a command that was
answered by an error line is still recorded, and none is recorded only if all commands were
acknowledged with `ok`. -/
structure KeepsErrors (s : Home S) : Prop where
  kept : Kept host s
  acked : host.error s.session = none → s.Acked script

/-- A session that keeps its error in the steps that are `quiet`, and records the error of a
command that is answered by an error line. -/
structure Host.Lawful (host : Host S L) (quiet : S → L → Prop) : Prop where
  kept : ∀ {l : L} {s u : S} {e : DeviceError}, host.step l s = some u → quiet s l →
    host.error s = some e → host.error u = some e
  execute : ∀ s command, quiet s (host.execute command)
  refused : ∀ {l : L} {i : ℕ} {s u : S}, host.step l s = some u →
    host.answer l i s = some .error → host.error u ≠ none
  homed : ∀ {s u : S}, host.step host.homed s = some u → host.error u = none

end Steps

/-! ### The errors of refused commands -/

section Errors

variable {S L : Type} {host : Host S L} {script : Script} {quiet : S → L → Prop}
  {s t : Home S} {l : HomeLabel L}

/-- A session that keeps the error keeps it in the errors of refused commands. -/
theorem Kept.of_error (h : Kept host s) (hanswers : t.answers = s.answers)
    (hkeep : ∀ e, host.error s.session = some e → host.error t.session = some e) :
    Kept host t := by
  intro a ha herror
  rw [hanswers] at ha
  obtain ⟨hsome, hrec⟩ := h a ha herror
  obtain ⟨e, he⟩ := Option.ne_none_iff_exists'.mp hsome
  exact ⟨hsome, (hkeep e (hrec.trans he)).trans he.symm⟩

/-- `home` goes on: it calls for its next command, or it has returned. -/
theorem Home.proceed_cases {commands : List Text}
    (h : s.proceed host script commands = some t) :
    (∃ command rest u, commands = command :: rest ∧
      host.step (host.execute command) s.session = some u ∧
      t = { s with session := u, pc := .wait (host.nextTask s.session) rest }) ∨
    (commands = [] ∧ script.last = .ok () ∧ ∃ u, host.step host.homed s.session = some u ∧
      t = { s with session := u, pc := .returned true }) ∨
    (commands = [] ∧ script.last ≠ .ok () ∧ t = { s with pc := .returned false }) := by
  unfold Home.proceed at h
  split at h
  · split_ifs at h with hlast
    · obtain ⟨u, hu, rfl⟩ := Option.map_eq_some_iff.mp h
      exact .inr (.inl ⟨rfl, hlast, u, hu, rfl⟩)
    · cases h
      exact .inr (.inr ⟨rfl, hlast, rfl⟩)
  · rename_i command rest
    obtain ⟨u, hu, rfl⟩ := Option.map_eq_some_iff.mp h
    exact .inl ⟨command, rest, u, rfl, hu, rfl⟩

theorem Kept.proceed (hlaw : host.Lawful quiet) (h : Kept host s) {commands : List Text}
    (hs : s.proceed host script commands = some t) : t.returned = true ∨ Kept host t := by
  rcases Home.proceed_cases hs with ⟨command, rest, u, -, hu, rfl⟩ | ⟨-, -, u, -, rfl⟩ |
    ⟨-, -, rfl⟩
  · exact .inr (h.of_error rfl fun e => hlaw.kept hu (hlaw.execute s.session command))
  · exact .inl rfl
  · exact .inl rfl

/-- **Up to the end of `home` the error of a refused command stays.** -/
theorem Kept.step (hlaw : host.Lawful quiet) (h : Kept host s)
    (hs : Home.step host script l s = some t) (hquiet : Home.Quietly quiet s l t) :
    t.returned = true ∨ Kept host t := by
  cases l with
  | session l =>
    obtain ⟨u, hu, rfl⟩ := Option.map_eq_some_iff.mp hs
    right
    intro a ha herror
    rcases List.mem_append.mp ha with ha | ha
    · have hkept : Kept host { s with session := u } :=
        h.of_error rfl fun e => hlaw.kept hu hquiet
      exact hkept a ha herror
    · obtain ⟨b, hb, rfl⟩ := List.mem_map.mp ha
      obtain rfl : b = .error := herror
      -- the line is handled in this step, which records its error
      have hheard : s.heard host l = some .error := Option.mem_toList.mp hb
      unfold Home.heard at hheard
      split at hheard
      · exact ⟨hlaw.refused hu hheard, rfl⟩
      · cases hheard
  | home =>
    simp only [Home.step] at hs
    split at hs
    · exact h.proceed hlaw hs
    · split at hs
      · cases hs
      · exact h.proceed hlaw hs
      · cases hs
        exact .inl rfl
    · cases hs

/-- What has returned stays so. -/
theorem Home.returned_step (h : s.returned = true) (hs : Home.step host script l s = some t) :
    t.returned = true := by
  cases l with
  | session l =>
    obtain ⟨u, -, rfl⟩ := Option.map_eq_some_iff.mp hs
    exact h
  | home =>
    unfold Home.returned at h
    simp only [Home.step] at hs
    split at hs
    · rename_i hpc
      rw [hpc] at h
      cases h
    · rename_i hpc
      rw [hpc] at h
      cases h
    · cases hs

theorem kept_of_run (hlaw : host.Lawful quiet) {s₀ : S}
    (hrun : Run (Home.step host script) (Home.Quietly quiet) { session := s₀ } s)
    (hs : s.returned = false) : Kept host s := by
  have hinv : s.returned = true ∨ Kept host s := by
    refine hrun.invariant (I := fun s => s.returned = true ∨ Kept host s) ?_ (.inr nofun)
    intro a l b h hst hquiet
    rcases h with h | h
    · exact .inl (Home.returned_step h hst)
    · exact h.step hlaw hst hquiet
  rcases hinv with h | h
  · rw [hs] at h
    cases h
  · exact h

/-- **The end of `home`**: it gives up and leaves the session alone, or it clears the
error. -/
theorem Home.ended (hlaw : host.Lawful quiet) (hs : Home.step host script .home s = some t)
    (ht : t.returned = true) : s.returned = false ∧ t.answers = s.answers ∧
      ((s.givesUp host script = true ∧ t.session = s.session) ∨
        (s.givesUp host script = false ∧ host.error t.session = none)) := by
  simp only [Home.step] at hs
  unfold Home.givesUp Home.returned
  split at hs
  · rename_i hpc
    simp only [hpc, true_and]
    rcases Home.proceed_cases hs with ⟨command, rest, u, -, -, rfl⟩ | ⟨hc, hlast, u, hu, rfl⟩ |
      ⟨hc, hlast, rfl⟩
    · cases ht
    · exact ⟨rfl, .inr ⟨by simp [hlast], hlaw.homed hu⟩⟩
    · exact ⟨rfl, .inl ⟨by simp [hc, hlast], rfl⟩⟩
  · rename_i i rest hpc
    simp only [hpc, true_and]
    split at hs
    · cases hs
    · rename_i hresult
      rcases Home.proceed_cases hs with ⟨command, rest, u, -, -, rfl⟩ |
        ⟨hc, hlast, u, hu, rfl⟩ | ⟨hc, hlast, rfl⟩
      · cases ht
      · exact ⟨rfl, .inr ⟨by simp [hresult, hlast], hlaw.homed hu⟩⟩
      · exact ⟨rfl, .inl ⟨by simp [hc, hlast], rfl⟩⟩
    · rename_i hresult
      cases hs
      exact ⟨rfl, .inl ⟨by simp [hresult], rfl⟩⟩
  · cases hs

/-- No refused command is among acknowledged ones. -/
theorem Home.Acked.not_error (h : s.Acked script) : ∀ a ∈ s.answers, a.1 ≠ .error := by
  intro a ha herror
  have hmem : a.1 ∈ s.answers.map Prod.fst := List.mem_map_of_mem ha
  rw [show s.answers.map Prod.fst = _ from h, herror] at hmem
  cases List.eq_of_mem_replicate hmem

/-- **When `home` keeps the errors**: all commands were acknowledged with `ok`, or it gives
up with an error recorded. -/
theorem keepsErrors_iff (hlaw : host.Lawful quiet) {s₀ : S}
    (hrun : Run (Home.step host script) (Home.Quietly quiet) { session := s₀ } s)
    (hs : Home.step host script .home s = some t) (ht : t.returned = true) :
    KeepsErrors host script t ↔
      s.Acked script ∨ (s.givesUp host script = true ∧ host.error s.session ≠ none) := by
  obtain ⟨hnot, hanswers, hend⟩ := Home.ended hlaw hs ht
  have hacked : t.Acked script ↔ s.Acked script := by rw [Home.Acked, Home.Acked, hanswers]
  -- it gives up with the errors it has, or clears them behind the last command
  rcases hend with ⟨hup, hsession⟩ | ⟨hup, hnone⟩
  · have hkept : Kept host t :=
      (kept_of_run hlaw hrun hnot).of_error hanswers fun e he => by rwa [hsession]
    rw [hup]
    constructor
    · intro h
      by_cases he : host.error s.session = none
      · exact .inl (hacked.mp (h.acked (hsession ▸ he)))
      · exact .inr ⟨rfl, he⟩
    · rintro (h | ⟨-, he⟩)
      · exact ⟨hkept, fun _ => hacked.mpr h⟩
      · exact ⟨hkept, fun h => absurd (hsession ▸ h) he⟩
  · rw [hup]
    constructor
    · exact fun h => .inl (hacked.mp (h.acked hnone))
    · rintro (h | ⟨h, -⟩)
      · exact ⟨fun a ha herror => absurd herror ((hacked.mpr h).not_error a ha),
          fun _ => hacked.mpr h⟩
      · cases h

/-- The steps of an executable label list can be checked. -/
theorem Home.run_quietly [∀ s l, Decidable (quiet s l)] {ls : List (HomeLabel L)}
    (h : (execWith (Home.step host script) (fun a l b => decide (Home.Quietly quiet a l b)) ls
      s).isSome = true) :
    Run (Home.step host script) (Home.Quietly quiet) s (reach (Home.step host script) ls s) :=
  (run_reach_guarded h).mono fun _ _ _ => of_decide_eq_true

end Errors

end Raydriver
