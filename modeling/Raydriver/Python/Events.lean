import Mathlib.Data.List.Basic
import Mathlib.Algebra.BigOperators.Group.List.Basic
import Raydriver.Lib.Run

/-!
# Events for Python

`PyEvents` queues the events of a session and wakes the asyncio loop with one drainer for a
batch.  A drainer carries the callbacks that were there when it was made, and delivers
whatever is queued when it runs.

The calls of `schedule` and `schedule_progress` come from different threads, so they are
programs with counters, and so is the drainer that is running.  The loop is captured and
`call_soon_threadsafe` succeeds.  The event callback is installed and never changes; the
progress callback does.  Three fields are histories the source does not keep: `pushed` and
`delivered`, and with every queued event the progress callback installed when it was pushed.

## Main definitions

* `Events`, `Events.step` — the queue, the loop and the calls under way.
* `Events.misroutes` — the steps after which a report goes astray.

## Main results

* `Accounted` — everything pushed is delivered, in a batch or queued, in this order.
* `OneDrainer` — somebody is responsible for what is queued, and nobody else.
* `events_delivered_and_routed` — **delivery is lossless, ordered and routed**, unless a
  step misroutes.
-/

namespace Raydriver.Python

open Lts

/-- One queued event (`QueuedEvent`). -/
inductive QueuedEvent (ε : Type) where
  | session (event : ε)
  | progress (opIndex : ℤ)
  deriving DecidableEq, Repr

/-- A queued event, and the progress callback that was installed when it was pushed. -/
structure Pushed (ε κ : Type) where
  event : QueuedEvent ε
  installed : Option κ
  deriving DecidableEq, Repr

/-- `EventDrainer`; the event callback is always the same. -/
structure Drainer (κ : Type) where
  progress : Option κ
  deriving DecidableEq, Repr

/-- Who is called with an event. -/
inductive Target (κ : Type) where
  | eventCallback
  | progressCallback (cb : κ)
  | nobody
  deriving DecidableEq, Repr

/-- The counters of `schedule` and `schedule_progress`. -/
inductive CallPc (ε κ : Type) where
  /-- `schedule`, about to push. -/
  | schedule (event : ε)
  /-- `schedule` has flipped the flag and is about to make the drainer. -/
  | build
  /-- `call_soon_threadsafe`. -/
  | callSoon (d : Drainer κ)
  /-- `schedule_progress`: the first look at the callback. -/
  | check (opIndex : ℤ)
  /-- The second look, which keeps the callback. -/
  | read (opIndex : ℤ)
  /-- `schedule_progress`, about to push. -/
  | push (opIndex : ℤ) (cb : κ)
  | returned
  deriving DecidableEq, Repr

/-- The counters of a caller that flipped the flag and owes the loop a drainer. -/
def CallPc.owes {ε κ : Type} : CallPc ε κ → Bool
  | .build | .callSoon _ => true
  | _ => false

/-- The state of a `PyEvents`, its loop and the calls under way. -/
structure Events (ε κ : Type) where
  queue : List (Pushed ε κ) := []
  scheduled : Bool := false
  progressCallback : Option κ := none
  calls : List (CallPc ε κ) := []
  /-- The drainers the loop has still to run. -/
  ready : List (Drainer κ) := []
  /-- The drainer that is running, and what it has still to deliver. -/
  running : Option (Drainer κ × List (Pushed ε κ)) := none
  pushed : List (Pushed ε κ) := []
  delivered : List (Pushed ε κ × Target κ) := []
  deriving DecidableEq, Repr

/-- What happens to the event carrier. -/
inductive EventsLabel (ε κ : Type) where
  /-- A session event is reported. -/
  | schedule (event : ε)
  /-- A progress report. -/
  | scheduleProgress (opIndex : ℤ)
  /-- `set_progress_callback`. -/
  | setProgressCallback (cb : Option κ)
  /-- Call `j` goes on. -/
  | call (j : ℕ)
  /-- The loop starts a drainer, or the one running delivers its next event or returns. -/
  | loop
  deriving DecidableEq, Repr

/-- The callback a drainer hands an event to. -/
def Drainer.target {ε κ : Type} (d : Drainer κ) : QueuedEvent ε → Target κ
  | .session _ => .eventCallback
  | .progress _ => d.progress.elim .nobody .progressCallback

namespace Events

variable {ε κ : Type}

/-- `EventQueue::push`; whether the flag was flipped is seen in the state before. -/
def push (event : QueuedEvent ε) (s : Events ε κ) : Events ε κ :=
  { s with
    queue := s.queue ++ [⟨event, s.progressCallback⟩]
    pushed := s.pushed ++ [⟨event, s.progressCallback⟩]
    scheduled := true }

/-- The call of thread `j` is at `pc`. -/
def setCall (j : ℕ) (pc : CallPc ε κ) (s : Events ε κ) : Events ε κ :=
  { s with calls := s.calls.set j pc }

/-- Call `j` goes on to its next counter. -/
def advanceCall (j : ℕ) (s : Events ε κ) : CallPc ε κ → Option (Events ε κ)
  | .schedule event =>
    some ((s.push (.session event)).setCall j (if s.scheduled then .returned else .build))
  | .build => some (s.setCall j (.callSoon ⟨s.progressCallback⟩))
  | .callSoon d => some ({ s with ready := s.ready ++ [d] }.setCall j .returned)
  | .check op => some (s.setCall j (if s.progressCallback.isNone then .returned else .read op))
  | .read op =>
    match s.progressCallback with
    | none => some (s.setCall j .returned)
    | some cb => some (s.setCall j (.push op cb))
  | .push op cb =>
    some ((s.push (.progress op)).setCall j
      (if s.scheduled then .returned else .callSoon ⟨some cb⟩))
  | .returned => none

/-- The loop thread: `take_and_deliver`. -/
def advanceLoop (s : Events ε κ) : Option (Events ε κ) :=
  match s.running with
  | some (_, []) => some { s with running := none }
  | some (d, p :: batch) =>
    some { s with
      running := some (d, batch)
      delivered := s.delivered ++ [(p, d.target p.event)] }
  | none =>
    match s.ready with
    | [] => none
    | d :: ready =>
      some { s with running := some (d, s.queue), queue := [], scheduled := false, ready := ready }

/-- One step of a call or of the loop. -/
def step : EventsLabel ε κ → Events ε κ → Option (Events ε κ)
  | .schedule event, s => some { s with calls := s.calls ++ [.schedule event] }
  | .scheduleProgress op, s => some { s with calls := s.calls ++ [.check op] }
  | .setProgressCallback cb, s => some { s with progressCallback := cb }
  | .call j, s => s.calls[j]?.bind (s.advanceCall j)
  | .loop, s => s.advanceLoop

/-- What a drainer has taken and not yet delivered. -/
def batch (s : Events ε κ) : List (Pushed ε κ) := (s.running.map Prod.snd).getD []

/-- The drainers made and not yet started. -/
def carriers (s : Events ε κ) : List (Drainer κ) :=
  s.ready ++ s.calls.filterMap fun pc =>
    match pc with
    | .callSoon d => some d
    | _ => none

end Events

/-- The drainer is right for an event: a progress report finds the callback that was
installed when it was pushed. -/
def Fits {ε κ : Type} [DecidableEq κ] (cb : Option κ) (p : Pushed ε κ) : Bool :=
  match p.event, p.installed with
  | .progress _, some installed => decide (cb = some installed)
  | _, _ => true

namespace Events

variable {ε κ : Type} [DecidableEq κ]

/-- **The step lets a report go astray**: a progress report is pushed while the drainer
that will take it carries another callback than the one installed, or a drainer is made
with another callback than the one installed when a queued report was pushed. -/
def misroutes (s : Events ε κ) : EventsLabel ε κ → Bool
  | .call j =>
    match s.calls[j]? with
    | some (.push op cb) =>
      let p : Pushed ε κ := ⟨.progress op, s.progressCallback⟩
      if s.scheduled then s.carriers.any fun d => !Fits d.progress p else !Fits (some cb) p
    | some .build => s.queue.any fun p => !Fits s.progressCallback p
    | _ => false
  | _ => false

end Events

section Steps

variable {ε κ : Type} {s s' : Events ε κ} {l : EventsLabel ε κ} {j : ℕ} {pc : CallPc ε κ}

theorem Events.mem_carriers {d : Drainer κ} :
    d ∈ s.carriers ↔ d ∈ s.ready ∨ CallPc.callSoon d ∈ s.calls := by
  simp only [carriers, List.mem_append, List.mem_filterMap]
  refine or_congr_right ⟨?_, ?_⟩
  · rintro ⟨pc, hpc, hd⟩
    split at hd
    · cases hd
      exact hpc
    · cases hd
  · intro h
    exact ⟨_, h, rfl⟩

/-- What a step of a call or of the loop is. -/
theorem Events.step_call (h : Events.step (.call j) s = some s') :
    ∃ pc, s.calls[j]? = some pc ∧ s.advanceCall j pc = some s' :=
  Option.bind_eq_some_iff.mp h

/-! ### Nothing is lost -/

/-- Everything pushed is delivered, in a batch or queued, in this order. -/
def Accounted (s : Events ε κ) : Prop := s.delivered.map Prod.fst ++ s.batch ++ s.queue = s.pushed

theorem Accounted.push (h : Accounted s) (event : QueuedEvent ε) : Accounted (s.push event) := by
  unfold Accounted Events.push Events.batch at *
  rw [← List.append_assoc, h]

theorem Accounted.advanceCall (h : Accounted s) (hpc : s.advanceCall j pc = some s') :
    Accounted s' := by
  cases pc with
  | schedule event =>
    cases hpc
    exact h.push (.session event)
  | push op cb =>
    cases hpc
    exact h.push (.progress op)
  | read op =>
    unfold Events.advanceCall at hpc
    cases hcb : s.progressCallback <;> simp only [hcb] at hpc <;> cases hpc <;> exact h
  | build => cases hpc; exact h
  | callSoon d => cases hpc; exact h
  | check op => cases hpc; exact h
  | returned => cases hpc

theorem Accounted.advanceLoop (h : Accounted s) (hloop : s.advanceLoop = some s') :
    Accounted s' := by
  unfold Accounted Events.batch at h ⊢
  unfold Events.advanceLoop at hloop
  split at hloop
  · rename_i d hrunning
    cases hloop
    simpa [hrunning] using h
  · rename_i d p batch hrunning
    -- the event goes from the batch to the delivered ones
    cases hloop
    simpa [hrunning] using h
  · rename_i hrunning
    split at hloop
    · cases hloop
    · cases hloop
      simpa [hrunning] using h

/-- **Every step keeps account of what was pushed.** -/
theorem Accounted.step (h : Accounted s) (hst : Events.step l s = some s') : Accounted s' := by
  cases l with
  | schedule event => cases hst; exact h
  | scheduleProgress op => cases hst; exact h
  | setProgressCallback cb => cases hst; exact h
  | call j =>
    obtain ⟨pc, -, hpc⟩ := Events.step_call hst
    exact h.advanceCall hpc
  | loop => exact h.advanceLoop hst

/-! ### Somebody is responsible -/

/-- **Where the flag is set, one drainer is owed or ready**; otherwise nothing is queued. -/
structure OneDrainer (s : Events ε κ) : Prop where
  one : s.calls.countP CallPc.owes + s.ready.length = s.scheduled.toNat
  queued : s.scheduled = false → s.queue = []

/-- A call that goes on, seen by the number of calls that owe a drainer. -/
theorem countP_setCall (pc' : CallPc ε κ) (hget : s.calls[j]? = some pc) :
    (s.calls.set j pc').countP CallPc.owes + pc.owes.toNat
      = s.calls.countP CallPc.owes + pc'.owes.toNat := by
  obtain ⟨hj, hpc⟩ := List.getElem?_eq_some_iff.mp hget
  have hmem : pc ∈ s.calls := List.mem_of_getElem? hget
  have hcount := List.countP_set (p := CallPc.owes) (a := pc') hj
  have hpos : pc.owes = true → 0 < s.calls.countP CallPc.owes := fun hp =>
    List.countP_pos_iff.mpr ⟨pc, hmem, hp⟩
  rw [hcount, hpc]
  cases hp : pc.owes with
  | true =>
    have hpos := hpos hp
    cases pc'.owes <;> simp <;> omega
  | false => cases pc'.owes <;> simp

/-- A counter that changes nothing about what its call owes. -/
theorem OneDrainer.setCall {pc' : CallPc ε κ} (h : OneDrainer s) (hget : s.calls[j]? = some pc)
    (howes : pc'.owes = pc.owes) : OneDrainer (s.setCall j pc') := by
  have hcount := countP_setCall pc' hget
  have hone := h.one
  rw [howes] at hcount
  refine ⟨?_, h.queued⟩
  simp only [Events.setCall]
  omega

/-- A push: who finds the flag not set owes a drainer. -/
theorem OneDrainer.push {owing : CallPc ε κ} (h : OneDrainer s) (hget : s.calls[j]? = some pc)
    (hpc : pc.owes = false) (howing : owing.owes = true) (event : QueuedEvent ε) :
    OneDrainer ((s.push event).setCall j (if s.scheduled then .returned else owing)) := by
  have hcount := countP_setCall (if s.scheduled then .returned else owing) hget
  have hone := h.one
  rw [hpc] at hcount
  refine ⟨?_, nofun⟩
  simp only [Events.setCall, Events.push, Bool.toNat_true]
  cases hs : s.scheduled with
  | true =>
    simp only [hs, if_true, CallPc.owes, Bool.toNat_false, Bool.toNat_true] at hcount hone ⊢
    omega
  | false =>
    simp only [hs, if_false, Bool.false_eq_true, howing, Bool.toNat_false, Bool.toNat_true]
      at hcount hone ⊢
    omega

theorem OneDrainer.advanceCall (h : OneDrainer s) (hget : s.calls[j]? = some pc)
    (hpc : s.advanceCall j pc = some s') : OneDrainer s' := by
  cases pc with
  | schedule event =>
    cases hpc
    exact h.push hget rfl rfl (.session event)
  | build =>
    cases hpc
    exact h.setCall hget rfl
  | callSoon d =>
    -- the drainer passes from the call to the loop
    cases hpc
    have hcount := countP_setCall .returned hget
    have hone := h.one
    refine ⟨?_, h.queued⟩
    simp only [Events.setCall, CallPc.owes, Bool.toNat_true, Bool.toNat_false,
      List.length_append, List.length_singleton] at hcount ⊢
    omega
  | check op =>
    cases hpc
    refine h.setCall hget ?_
    split_ifs <;> rfl
  | read op =>
    unfold Events.advanceCall at hpc
    cases hcb : s.progressCallback <;> simp only [hcb] at hpc <;> cases hpc <;>
      exact h.setCall hget rfl
  | push op cb =>
    cases hpc
    exact h.push hget rfl rfl (.progress op)
  | returned => cases hpc

/-- A drainer that starts leaves nothing queued and nobody owing. -/
theorem OneDrainer.advanceLoop (h : OneDrainer s) (hloop : s.advanceLoop = some s') :
    OneDrainer s' := by
  have hone := h.one
  unfold Events.advanceLoop at hloop
  split at hloop
  · cases hloop
    exact ⟨h.one, h.queued⟩
  · cases hloop
    exact ⟨h.one, h.queued⟩
  · split at hloop
    · cases hloop
    · rename_i d ready hready
      cases hloop
      refine ⟨?_, fun _ => rfl⟩
      have htoNat := Bool.toNat_le s.scheduled
      rw [hready, List.length_cons] at hone
      simp only [Bool.toNat_false]
      omega

/-- **Every step keeps one responsible for what is queued.** -/
theorem OneDrainer.step (h : OneDrainer s) (hst : Events.step l s = some s') : OneDrainer s' := by
  have hone := h.one
  cases l with
  | schedule event =>
    cases hst
    refine ⟨?_, h.queued⟩
    simpa [List.countP_append, CallPc.owes] using hone
  | scheduleProgress op =>
    cases hst
    refine ⟨?_, h.queued⟩
    simpa [List.countP_append, CallPc.owes] using hone
  | setProgressCallback cb =>
    cases hst
    exact ⟨h.one, h.queued⟩
  | call j =>
    obtain ⟨pc, hget, hpc⟩ := Events.step_call hst
    exact h.advanceCall hget hpc
  | loop => exact h.advanceLoop hst

/-- Where the flag is not set, no drainer is made and not yet started. -/
theorem OneDrainer.no_carrier (h : OneDrainer s) (hs : s.scheduled = false) (d : Drainer κ) :
    d ∉ s.carriers := by
  have hone := h.one
  rw [hs, Bool.toNat_false] at hone
  rw [Events.mem_carriers, not_or]
  constructor
  · intro hd
    have hpos := List.length_pos_of_mem hd
    omega
  · intro hd
    have hpos : 0 < s.calls.countP CallPc.owes := List.countP_pos_iff.mpr ⟨_, hd, rfl⟩
    omega

end Steps

/-! ### Reports find their callback -/

section Routes

variable {ε κ : Type} [DecidableEq κ] {s s' : Events ε κ} {l : EventsLabel ε κ} {j : ℕ}
  {pc : CallPc ε κ}

/-- A session event went to the event callback, and a progress report to the callback that
was installed when it was pushed. -/
def Rightly (e : Pushed ε κ × Target κ) : Prop :=
  match e.1.event with
  | .session _ => e.2 = .eventCallback
  | .progress _ => ∀ cb, e.1.installed = some cb → e.2 = .progressCallback cb

theorem rightly_target {d : Drainer κ} {p : Pushed ε κ} (h : Fits d.progress p = true) :
    Rightly (p, d.target p.event) := by
  obtain ⟨event, installed⟩ := p
  cases event with
  | session event => exact rfl
  | progress op =>
    intro cb hcb
    have hinstalled : installed = some cb := hcb
    subst hinstalled
    have hd : d.progress = some cb := of_decide_eq_true h
    simp only [Drainer.target, hd, Option.elim]

theorem fits_session (cb : Option κ) (event : ε) (installed : Option κ) :
    Fits cb (⟨.session event, installed⟩ : Pushed ε κ) = true := rfl

/-- **Every drainer is right for what it will take and for what it has taken.** -/
structure Routed (s : Events ε κ) : Prop where
  ready : ∀ d ∈ s.carriers, ∀ p ∈ s.queue, Fits d.progress p = true
  running : ∀ d b, s.running = some (d, b) → ∀ p ∈ b, Fits d.progress p = true
  delivered : ∀ e ∈ s.delivered, Rightly e

/-- A counter that carries no new drainer. -/
theorem Routed.setCall {pc' : CallPc ε κ} (h : Routed s)
    (hpc : ∀ d, pc' = .callSoon d → ∀ p ∈ s.queue, Fits d.progress p = true) :
    Routed (s.setCall j pc') := by
  refine ⟨fun d hd => ?_, h.running, h.delivered⟩
  rcases Events.mem_carriers.mp hd with hd | hd
  · exact h.ready d (Events.mem_carriers.mpr (.inl hd))
  · rcases List.mem_or_eq_of_mem_set hd with hd | hd
    · exact h.ready d (Events.mem_carriers.mpr (.inr hd))
    · exact hpc d hd.symm

/-- A push of an event that the drainers made so far are right for. -/
theorem Routed.push (h : Routed s) {event : QueuedEvent ε}
    (hfits : ∀ d ∈ s.carriers, Fits d.progress ⟨event, s.progressCallback⟩ = true) :
    Routed (s.push event) := by
  refine ⟨fun d hd p hp => ?_, h.running, h.delivered⟩
  rcases List.mem_append.mp hp with hp | hp
  · exact h.ready d hd p hp
  · rw [List.mem_singleton.mp hp]
    exact hfits d hd

theorem Routed.advanceCall (h : Routed s) (hd : OneDrainer s) (hget : s.calls[j]? = some pc)
    (hok : s.misroutes (.call j) = false) (hpc : s.advanceCall j pc = some s') : Routed s' := by
  cases pc with
  | schedule event =>
    cases hpc
    refine Routed.setCall (h.push fun d _ => fits_session d.progress event _) ?_
    intro d hcall
    split_ifs at hcall
  | build =>
    cases hpc
    refine h.setCall ?_
    rintro d hcall p hp
    cases hcall
    simp only [Events.misroutes, hget, List.any_eq_false] at hok
    simpa using hok p hp
  | callSoon d =>
    -- the drainer passes from the call to the loop
    cases hpc
    refine ⟨fun d' hd' => ?_, h.running, h.delivered⟩
    refine h.ready d' (Events.mem_carriers.mpr ?_)
    rcases Events.mem_carriers.mp hd' with hd' | hd'
    · rcases List.mem_append.mp hd' with hd' | hd'
      · exact .inl hd'
      · rw [List.mem_singleton.mp hd']
        exact .inr (List.mem_of_getElem? hget)
    · rcases List.mem_or_eq_of_mem_set hd' with hd' | hd'
      · exact .inr hd'
      · cases hd'
  | check op =>
    cases hpc
    refine h.setCall fun d hcall => ?_
    split_ifs at hcall
  | read op =>
    unfold Events.advanceCall at hpc
    cases hcb : s.progressCallback <;> simp only [hcb] at hpc <;> cases hpc <;>
      exact h.setCall nofun
  | push op cb =>
    cases hpc
    simp only [Events.misroutes, hget] at hok
    cases hs : s.scheduled with
    | true =>
      -- the drainer under way carries the callback that is installed
      simp only [hs, if_true, List.any_eq_false] at hok
      refine Routed.setCall (h.push fun d hcarrier => by simpa using hok d hcarrier) ?_
      intro d hcall
      cases hcall
    | false =>
      -- nothing else is queued, and no other drainer is made
      simp only [hs, if_false, Bool.false_eq_true, Bool.not_eq_false'] at hok
      refine Routed.setCall (h.push fun d hcarrier => absurd hcarrier (hd.no_carrier hs d)) ?_
      intro d hcall p hp
      cases hcall
      rw [Events.push, hd.queued hs, List.nil_append] at hp
      rw [List.mem_singleton.mp hp]
      exact hok
  | returned => cases hpc

theorem Routed.advanceLoop (h : Routed s) (hloop : s.advanceLoop = some s') :
    Routed s' := by
  unfold Events.advanceLoop at hloop
  split at hloop
  · cases hloop
    exact ⟨h.ready, nofun, h.delivered⟩
  · rename_i d p batch hrunning
    cases hloop
    have hfits := h.running d (p :: batch) hrunning
    refine ⟨h.ready, ?_, ?_⟩
    · intro d' b hb q hq
      cases hb
      exact hfits q (List.mem_cons_of_mem _ hq)
    · intro e he
      rcases List.mem_append.mp he with he | he
      · exact h.delivered e he
      · rw [List.mem_singleton.mp he]
        exact rightly_target (hfits p (by simp))
  · split at hloop
    · cases hloop
    · rename_i d ready hready
      cases hloop
      refine ⟨fun d' _ p hp => absurd hp List.not_mem_nil, ?_, h.delivered⟩
      intro d' b hb
      cases hb
      exact h.ready d (Events.mem_carriers.mpr (.inl (by rw [hready]; simp)))

/-- **Every step that does not misroute keeps the routes.** -/
theorem Routed.step (h : Routed s) (hd : OneDrainer s) (hok : s.misroutes l = false)
    (hst : Events.step l s = some s') : Routed s' := by
  have hnew (pc : CallPc ε κ) (hpc : ∀ d, pc ≠ .callSoon d) {d : Drainer κ}
      (hd : CallPc.callSoon d ∈ s.calls ++ [pc]) : CallPc.callSoon d ∈ s.calls := by
    rcases List.mem_append.mp hd with hd | hd
    · exact hd
    · exact absurd (List.mem_singleton.mp hd).symm (hpc d)
  cases l with
  | schedule event =>
    cases hst
    refine ⟨fun d hd => h.ready d (Events.mem_carriers.mpr ?_), h.running, h.delivered⟩
    exact (Events.mem_carriers.mp hd).imp_right (hnew (.schedule event) nofun)
  | scheduleProgress op =>
    cases hst
    refine ⟨fun d hd => h.ready d (Events.mem_carriers.mpr ?_), h.running, h.delivered⟩
    exact (Events.mem_carriers.mp hd).imp_right (hnew (.check op) nofun)
  | setProgressCallback cb =>
    cases hst
    exact ⟨h.ready, h.running, h.delivered⟩
  | call j =>
    obtain ⟨pc, hget, hpc⟩ := Events.step_call hst
    exact h.advanceCall hd hget hok hpc
  | loop => exact h.advanceLoop hst

end Routes

/-! ### Delivery -/

/-- Nothing is under way: every call has returned and the loop has run all drainers. -/
def Events.Quiet {ε κ : Type} (s : Events ε κ) : Prop :=
  (∀ pc ∈ s.calls, pc = .returned) ∧ s.ready = [] ∧ s.running = none

section Delivery

variable {ε κ : Type} {s t : Events ε κ}

/-- When nothing is under way, everything pushed has been delivered. -/
theorem Events.Quiet.all_delivered (hq : s.Quiet) (ha : Accounted s) (hd : OneDrainer s) :
    s.delivered.map Prod.fst = s.pushed := by
  obtain ⟨hcalls, hready, hrunning⟩ := hq
  have hone := hd.one
  have howes : s.calls.countP CallPc.owes = 0 := by
    rw [List.countP_eq_zero]
    intro pc hpc
    rw [hcalls pc hpc]
    exact Bool.false_ne_true
  have hs : s.scheduled = false := by
    rw [howes, hready, List.length_nil] at hone
    cases hs : s.scheduled with
    | false => rfl
    | true => rw [hs] at hone; cases hone
  unfold Accounted Events.batch at ha
  rw [hrunning, hd.queued hs] at ha
  simpa using ha

/-- **Delivery is lossless, ordered and routed.**  In every run, whatever the order of
pushes, callback installations and drains, what was pushed is delivered, about to be, or
queued, once and in the order of the pushes; when nothing is under way all of it is
delivered.  If no step misroutes, session events went to the event callback and every
progress report to the callback that was installed when it was pushed. -/
theorem events_delivered_and_routed [DecidableEq κ] (t : Events ε κ)
    (hrun : Run Events.step (fun s l _ => s.misroutes l = false) {} t) :
    t.delivered.map Prod.fst ++ t.batch ++ t.queue = t.pushed ∧
      (∀ e ∈ t.delivered, Rightly e) ∧
      (t.Quiet → t.delivered.map Prod.fst = t.pushed) := by
  have hinv := hrun.invariant (I := fun s => Accounted s ∧ OneDrainer s ∧ Routed s)
    (fun a l b ha hst hok => ⟨ha.1.step hst, ha.2.1.step hst, ha.2.2.step ha.2.1 hok hst⟩)
    ⟨rfl, ⟨rfl, fun _ => rfl⟩, ⟨fun d _ p hp => absurd hp List.not_mem_nil, nofun, nofun⟩⟩
  obtain ⟨haccounted, hone, hrouted⟩ := hinv
  exact ⟨haccounted, hrouted.delivered, fun hq => hq.all_delivered haccounted hone⟩

end Delivery

/-- A state change is reported and scheduled, then the callback is installed, then a
progress report joins the batch. -/
def lateCallback : List (EventsLabel ℕ ℕ) :=
  [.schedule 0, .call 0, .call 0, .call 0, .setProgressCallback (some 7),
    .scheduleProgress 3, .call 1, .call 1, .call 1, .loop, .loop, .loop, .loop]

/-- The same with the drainer run before the report. -/
def earlyDrain : List (EventsLabel ℕ ℕ) :=
  [.schedule 0, .call 0, .call 0, .call 0, .setProgressCallback (some 7), .loop, .loop, .loop,
    .scheduleProgress 3, .call 1, .call 1, .call 1, .call 1, .loop, .loop, .loop]

theorem events_delivered_and_routed_earlyDrain :
    (reach Events.step earlyDrain ({} : Events ℕ ℕ)).delivered.map Prod.fst ++
        (reach Events.step earlyDrain ({} : Events ℕ ℕ)).batch ++
        (reach Events.step earlyDrain ({} : Events ℕ ℕ)).queue
          = (reach Events.step earlyDrain ({} : Events ℕ ℕ)).pushed ∧
      (∀ e ∈ (reach Events.step earlyDrain ({} : Events ℕ ℕ)).delivered, Rightly e) ∧
      ((reach Events.step earlyDrain ({} : Events ℕ ℕ)).Quiet →
        (reach Events.step earlyDrain ({} : Events ℕ ℕ)).delivered.map Prod.fst
          = (reach Events.step earlyDrain ({} : Events ℕ ℕ)).pushed) :=
  events_delivered_and_routed _
    ((run_reach_where (p := fun s l => !s.misroutes l) (by decide)).mono
      fun _ _ _ hok => by simpa using hok)

/-- **The report is dropped**: it was pushed while the callback 7 was installed, and nobody
is called. -/
theorem report_dropped :
    Run Events.step AnyStep ({} : Events ℕ ℕ) (reach Events.step lateCallback {}) ∧
      (⟨.progress 3, some 7⟩, .nobody)
        ∈ (reach Events.step lateCallback ({} : Events ℕ ℕ)).delivered ∧
      ¬ ∀ e ∈ (reach Events.step lateCallback ({} : Events ℕ ℕ)).delivered, Rightly e := by
  have hmem : ((⟨.progress 3, some 7⟩, .nobody) : Pushed ℕ ℕ × Target ℕ)
      ∈ (reach Events.step lateCallback ({} : Events ℕ ℕ)).delivered := by decide
  refine ⟨run_reach (by decide), hmem, fun h => ?_⟩
  exact absurd (h _ hmem 7 rfl) (by decide)

end Raydriver.Python
