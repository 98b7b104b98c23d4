import Raydriver.Grbl.Home
import Raydriver.PingPong.FirstError

/-!
# Homing

The line that finishes a command is its answer, here as in `SessionCore`: an acknowledgement,
or an `ALARM:` line.  An error line is recorded when it is handled, and `home`, which gets it
as a response line of a call that succeeded, wipes the record out behind its last command.

## Main definitions

* `Core.answerOf` — the answer that a chunk has for a command.
* `Firmware.host` — a ping-pong session as `home` sees it.
* `homeScript`, `Firmware.homeScript` — the commands of the four versions of `home`.

## Main results

* `Firmware.host_lawful` — what `home` relies on.
* `home_keeps_errors_iff` — **when `home` clears an error only on success**, in all the
  sessions.
* `home_forgets_error` — a refused homing command is forgotten in each of them.
-/

namespace Raydriver.PingPong

open Lts

/-! ### Answers -/

/-- What a line that finishes a command says. -/
def Firmware.answer (fw : Firmware) (line : Text) : Answer :=
  if fw.isOk line then .ok else if fw.isError line then .error else .alarm

/-- The line of some messages that finishes command `id`. -/
def Core.finisherOf (fw : Firmware) (id : ℕ) : Core → List Bytes → Option Text
  | _, [] => none
  | c, message :: messages =>
    (finisher (Core.handleLine fw) (Core.isFinished id) c (lineTexts message)).or
      (finisherOf fw id (c.handleMessage fw message) messages)

/-- The answer that a chunk has for command `id`. -/
def Core.answerOf (fw : Firmware) (id : ℕ) (data : Bytes) (c : Core) : Option Answer :=
  let (buffer, messages) := cutMessages data c.lineBuffer
  ({ c with lineBuffer := buffer }.finisherOf fw id messages).map fw.answer

/-- The command that a call of `execute_command` has sent. -/
def ExecutePc.awaited : ExecutePc → Option ℕ
  | .ping (.writing cmd _) | .ping (.wait cmd) => some cmd
  | _ => none

/-- A ping-pong session as `home` sees it. -/
def Firmware.host (fw : Firmware) : Host Sys DriverLabel where
  step := driverStep fw
  execute command := .session (.call (.execute command))
  homed := .homed
  nextTask s := s.tasks.length
  result i s :=
    match s.tasks[i]? with
    | some (.execute _ (.ping (.returned _ _ err))) => some err.isNone
    | _ => none
  answer l i s :=
    match l, s.tasks[i]? with
    | .session (.rx data), some (.execute _ pc) =>
      pc.awaited.bind fun id => s.core.answerOf fw id data
    | _, _ => none
  error s := s.core.state.error

/-- No other `home` ends, and no status report states another error than the one recorded. -/
def undisturbed (fw : Firmware) (s : Sys) (l : DriverLabel) : Prop :=
  clearsError l = false ∧ restatesError fw s l = false

instance (fw : Firmware) (s : Sys) (l : DriverLabel) : Decidable (undisturbed fw s l) :=
  inferInstanceAs (Decidable (_ ∧ _))

/-! ### The error of a refused command -/

section Refused

variable {fw : Firmware}

/-- A line leaves an error where there is one. -/
theorem handleLine_error_ne_none (c : Core) (line : Text) (h : c.state.error ≠ none) :
    (c.handleLine fw line).state.error ≠ none := by
  obtain ⟨e, he⟩ := Option.ne_none_iff_exists'.mp h
  cases hr : replaces fw e line with
  | false =>
    rw [(handleLine_error_iff he).mpr hr]
    exact Option.some_ne_none e
  | true =>
    simp only [replaces, Bool.and_eq_true, bne_iff_ne] at hr
    obtain ⟨⟨hfw, hreport⟩, hstated⟩ := hr
    obtain ⟨e', he', -⟩ := (Option.any_eq_true _ _).mp hstated
    obtain ⟨hok, herror⟩ := not_ack_of_isReport hfw hreport
    unfold Core.handleLine
    rw [hok, herror, beq_false_of_ne hfw]
    simp only [Bool.false_eq_true, if_false]
    rw [handleGrblLine_error_of_report c hreport, he']
    exact Option.some_ne_none e'

theorem handleMessage_error_ne_none (c : Core) (message : Bytes) (h : c.state.error ≠ none) :
    (c.handleMessage fw message).state.error ≠ none :=
  foldl_keeps (P := fun c => c.state.error ≠ none) handleLine_error_ne_none _ c h

/-- A line that answers with an error records one. -/
theorem handleLine_refused {line : Text} (hline : fw.answer line = .error) (c : Core) :
    (c.handleLine fw line).state.error ≠ none := by
  unfold Firmware.answer at hline
  unfold Core.handleLine
  split_ifs at hline ⊢
  exact Option.some_ne_none _

theorem foldl_refused {id : ℕ} {line : Text} (hline : fw.answer line = .error) :
    ∀ (messages : List Bytes) (c : Core), c.finisherOf fw id messages = some line →
      (messages.foldl (Core.handleMessage fw) c).state.error ≠ none := by
  intro messages
  induction messages with
  | nil => exact fun _ h => nomatch h
  | cons message messages ih =>
    intro c h
    rw [Core.finisherOf, Option.or_eq_some_iff] at h
    rw [List.foldl_cons]
    rcases h with h | ⟨-, h⟩
    · have hmessage : (c.handleMessage fw message).state.error ≠ none :=
        foldl_of_finisher (P := fun c => c.state.error ≠ none) handleLine_error_ne_none
          (handleLine_refused hline) _ c h
      exact foldl_keeps (P := fun c : Core => c.state.error ≠ none) handleMessage_error_ne_none _ _
        hmessage
    · exact ih _ h

/-- **An error line that answers a command is recorded.** -/
theorem handleRx_refused {id : ℕ} {data : Bytes} {c : Core}
    (h : c.answerOf fw id data = some .error) : (c.handleRx fw data).state.error ≠ none := by
  obtain ⟨line, hfirst, hline⟩ := Option.map_eq_some_iff.mp h
  exact foldl_refused hline _ _ hfirst

theorem Firmware.host_lawful (fw : Firmware) : fw.host.Lawful (undisturbed fw) where
  kept hs hquiet he := step_error hs he hquiet.1 hquiet.2
  execute _ _ := ⟨rfl, rfl⟩
  refused := by
    intro l i s u hs h
    simp only [Firmware.host] at h hs ⊢
    split at h
    · obtain ⟨id, -, hanswer⟩ := Option.bind_eq_some_iff.mp h
      obtain ⟨-, rfl⟩ := Sys.outside_eq hs
      exact handleRx_refused hanswer
    · cases h
  homed := by
    intro s u hs
    obtain ⟨-, rfl⟩ := Sys.outside_eq (f := Core.clearError) hs
    rfl

end Refused

/-! ### `home` -/

section Scripts

variable {F : Type} (fmt : NumberFormat F) (d : Templates) (axes : Option (List Text))
  (activeWcs : Text)

/-- The commands of `SessionCore::home`. -/
def homeScript : Script := (Operation.home axes (some activeWcs)).script fmt d

/-- The commands of `SimpleCore::home`, `SmoothieCore::home` and `MarlinCore::home`; the latter
two know no work offset slot. -/
def Firmware.homeScript (fw : Firmware) : Script :=
  (Operation.home axes (if fw = .simple then some activeWcs else none)).script fmt d

/-- **When `home` clears an error only on success.**  In all the sessions, for every list of
axes and every dialect, in every run in which no job of `SessionCore` starts, no other `home`
ends and no status report states another error: it does if and only if all its commands are
acknowledged with `ok`, or it gives up with an error recorded. -/
theorem home_keeps_errors_iff :
    (∀ (s₀ : Raydriver.Sys) (s t : Home Raydriver.Sys),
      Run (Home.step sessionHost (PingPong.homeScript fmt d axes activeWcs))
        (Home.Quietly Raydriver.undisturbed) { session := s₀ } s →
      Home.step sessionHost (PingPong.homeScript fmt d axes activeWcs) .home s = some t →
      t.returned = true →
      (KeepsErrors sessionHost (PingPong.homeScript fmt d axes activeWcs) t ↔
        s.Acked (PingPong.homeScript fmt d axes activeWcs) ∨
          (s.givesUp sessionHost (PingPong.homeScript fmt d axes activeWcs) = true ∧
            s.session.core.state.error ≠ none))) ∧
    ∀ (fw : Firmware) (s₀ : Sys) (s t : Home Sys),
      Run (Home.step fw.host (fw.homeScript fmt d axes activeWcs))
        (Home.Quietly (undisturbed fw)) { session := s₀ } s →
      Home.step fw.host (fw.homeScript fmt d axes activeWcs) .home s = some t →
      t.returned = true →
      (KeepsErrors fw.host (fw.homeScript fmt d axes activeWcs) t ↔
        s.Acked (fw.homeScript fmt d axes activeWcs) ∨
          (s.givesUp fw.host (fw.homeScript fmt d axes activeWcs) = true ∧
            s.session.core.state.error ≠ none)) :=
  ⟨fun _ _ _ hrun hs ht => keepsErrors_iff sessionHost_lawful hrun hs ht,
    fun fw _ _ _ hrun hs ht => keepsErrors_iff fw.host_lawful hrun hs ht⟩

end Scripts

/-! ### A refused homing command -/

/-- Steps of `SessionCore` while `home` waits. -/
def meanwhile (ls : List Raydriver.Label) : List (HomeLabel Raydriver.DriverLabel) :=
  ls.map fun l => .session (.session l)

/-- A command of `home` in `SessionCore`, executed by task `i`, and its answer. -/
def sessionExchange (i : ℕ) (answer : String) : List (HomeLabel Raydriver.DriverLabel) :=
  .home :: meanwhile (.task i {} :: Raydriver.turns 1 5 ++ .rx (ascii answer) ::
    Raydriver.turns 1 4 ++ [.task i {}])

/-- Steps of a ping-pong session in which task `i` executes a command of `home`, and its
answer comes. -/
def exchange (i : ℕ) (answer : String) : List (HomeLabel DriverLabel) :=
  .home :: List.map (fun l => .session (.session l))
    (turns i 6 ++ [.rx (ascii answer), .task i {}])

/-- `home` in `SessionCore`, its first command answered as given, and the others with `ok`. -/
def sessionHoming (answer : String) : Home Raydriver.Sys :=
  reach (Home.step sessionHost (homeScript decimalFormat {} none "G54".toList))
    (meanwhile (.call .connect :: Raydriver.turns 0 2 ++ .link true :: Raydriver.turns 1 2) ++
      sessionExchange 2 answer ++ sessionExchange 3 "ok\n" ++
      sessionExchange 4 "ok\n" ++ sessionExchange 5 "ok\n")
    { session := { core := {}, tasks := [] } }

/-- The steps of `home` and its session, up to the end of its last command. -/
def Firmware.homingLabels (fw : Firmware) (answer : String) : List (HomeLabel DriverLabel) :=
  exchange 0 answer ++ if fw = .simple then
    exchange 1 "ok\n" ++ exchange 2 "ok\n" ++ exchange 3 "ok\n" else []

/-- `home` in a ping-pong session, its first command answered as given. -/
def Firmware.homing (fw : Firmware) (answer : String) : Home Sys :=
  reach (Home.step fw.host (fw.homeScript decimalFormat {} none "G54".toList))
    (fw.homingLabels answer) { session := { core := {} } }

/-- An error line of the device. -/
def Firmware.refusal : Firmware → String
  | .marlin => "Error:9\n"
  | _ => "error:9\n"

/-- A ping-pong session behind a `home` whose first command was refused. -/
def Firmware.homed (fw : Firmware) : Home Sys :=
  reach (Home.step fw.host (fw.homeScript decimalFormat {} none "G54".toList)) [.home]
    (fw.homing fw.refusal)

/-- A homing of two axes in `SmoothieCore`: the first is refused, the second not answered. -/
def halfHomed : Home Sys :=
  reach (Home.step Firmware.smoothie.host
      (Firmware.smoothie.homeScript decimalFormat {} (some [['X'], ['Y']]) "G54".toList))
    (exchange 0 "error:9\n" ++ .home :: List.map (fun l => .session (.session l))
      (turns 1 6 ++ [.task 1 { timedOut := true }]))
    { session := { core := {} } }

/-- A homing that is acknowledged keeps the errors, as does one that gives up: the general
result in `SessionCore` and in `SmoothieCore`. -/
theorem home_keeps_errors_iff_answered :
    (∃ t, Home.step sessionHost (homeScript decimalFormat {} none "G54".toList) .home
        (sessionHoming "ok\n") = some t ∧
      KeepsErrors sessionHost (homeScript decimalFormat {} none "G54".toList) t) ∧
    ∃ t, Home.step Firmware.smoothie.host
        (Firmware.smoothie.homeScript decimalFormat {} (some [['X'], ['Y']]) "G54".toList) .home
        halfHomed = some t ∧
      KeepsErrors Firmware.smoothie.host
        (Firmware.smoothie.homeScript decimalFormat {} (some [['X'], ['Y']]) "G54".toList) t := by
  have hsession := (home_keeps_errors_iff decimalFormat {} none "G54".toList).1
    { core := {}, tasks := [] } (sessionHoming "ok\n")
  have hhalf := (home_keeps_errors_iff decimalFormat {} (some [['X'], ['Y']]) "G54".toList).2
    .smoothie { core := {} } halfHomed
  refine ⟨⟨_, (Option.some_get (by decide)).symm, (hsession _ ?_ (Option.some_get (by decide)).symm
      (by decide)).mpr (.inl ?_)⟩,
    _, (Option.some_get (by decide)).symm, (hhalf _ ?_ (Option.some_get (by decide)).symm
      (by decide)).mpr (.inr ⟨by decide, by decide⟩)⟩
  · exact Home.run_quietly (by decide)
  · unfold Home.Acked
    decide
  · exact Home.run_quietly (by decide)

/-- **A refused homing command is forgotten**: in each of the sessions `home` ends with no
error recorded, though its first command was answered by an error line. -/
theorem home_forgets_error :
    (¬ ∀ (d : Templates) (axes : Option (List Text)) (activeWcs : Text) (s₀ : Raydriver.Sys)
      (s t : Home Raydriver.Sys), Raydriver.Fresh s₀ →
      Run (Home.step sessionHost (homeScript decimalFormat d axes activeWcs)) AnyStep
        { session := s₀ } s →
      Home.step sessionHost (homeScript decimalFormat d axes activeWcs) .home s = some t →
      t.returned = true →
      KeepsErrors sessionHost (homeScript decimalFormat d axes activeWcs) t) ∧
    ∀ fw : Firmware,
      ¬ ∀ (d : Templates) (axes : Option (List Text)) (activeWcs : Text) (s₀ : Sys)
        (s t : Home Sys), Fresh s₀ →
        Run (Home.step fw.host (fw.homeScript decimalFormat d axes activeWcs)) AnyStep
          { session := s₀ } s →
        Home.step fw.host (fw.homeScript decimalFormat d axes activeWcs) .home s = some t →
        t.returned = true →
        KeepsErrors fw.host (fw.homeScript decimalFormat d axes activeWcs) t := by
  refine ⟨fun h => ?_, fun fw h => ?_⟩
  · have hkeeps := h {} none "G54".toList _ (sessionHoming "error:9\n") _ ⟨rfl, rfl, rfl⟩
      (run_reach (by decide)) (Option.some_get (by decide)).symm (by decide)
    have hacked := hkeeps.acked (by decide)
    unfold Home.Acked at hacked
    exact absurd hacked (by decide)
  · have hrun : (exec (Home.step fw.host (fw.homeScript decimalFormat {} none "G54".toList))
        (fw.homingLabels fw.refusal) { session := { core := {} } }).isSome = true := by
      cases fw <;> decide
    have hend : Home.step fw.host (fw.homeScript decimalFormat {} none "G54".toList) .home
        (fw.homing fw.refusal) = some fw.homed := by cases fw <;> decide
    have hkeeps := h {} none "G54".toList _ _ _ ⟨rfl, rfl, rfl⟩ (run_reach hrun) hend
      (by cases fw <;> decide)
    have hacked := hkeeps.acked (by cases fw <;> decide)
    unfold Home.Acked at hacked
    exact absurd hacked (by cases fw <;> decide)

end Raydriver.PingPong
