import Raydriver.Grbl.Frames

/-!
# Who knows a request

A request is named by its number.  A queued one is known to the caller, the channel, the
list of queued requests and the command queue; an interactive one to its caller alone,
and to `handle_rx` while the slot of the interactive request names it.

## Main definitions

* `Body.request` — the request a task works on.
* `RequestStep` — what a step of a task does to the requests and the places that name them.
* `Registered` — the numbers in use, and who knows the request of an interactive command.

## Main results

* `advance_requests` — the requests under a step of any task.
* `Registered.step` — **an interactive request is its caller's own, and untouched until its
  command is about to be sent**.
-/

namespace Raydriver

open Lts

/-! ### The request of a task -/

/-- The request `execute_command` waits for. -/
def ExecutePc.request : ExecutePc → Option ℕ
  | .submit => none
  | .wait r | .returned r _ => some r

/-- The request the queue loop is about. -/
def QueuePc.request : QueuePc → Option ℕ
  | .lockWait r | .locked r | .space r | .send r | .writing r _ | .finishWait r => some r
  | _ => none

/-- The request of the interactive command. -/
def InteractivePc.request : InteractivePc → Option ℕ
  | .start | .returned _ => none
  | .lockWait r | .locked r | .drainWait r | .begin r | .space r | .send r | .writing r _
  | .wait r | .finish r _ => some r

/-- The request a task works on. -/
def Body.request : Body → Option ℕ
  | .execute _ pc => pc.request
  | .queue pc => pc.request
  | .interactive _ pc => pc.request
  | _ => none

/-- The task is an interactive command. -/
def Body.isInteractive : Body → Bool
  | .interactive _ _ => true
  | _ => false

/-- The request has not been named to `handle_rx` yet. -/
def InteractivePc.prepares : InteractivePc → Bool
  | .lockWait _ | .locked _ | .drainWait _ | .begin _ => true
  | _ => false

theorem Call.request_body (op : Call) : op.body.request = none := by cases op <;> rfl

/-! ### A step of a task -/

/-- The step makes request `q`. -/
def Makes (c c' : Core) (q : ℕ) : Prop :=
  q = c.requests.length ∧ c.requests.length < c'.requests.length

/-- What a step of a task does to the requests: those of others stay, a queued one moves
from its caller to the channel and on to the command queue, and an interactive one is
named in its slot. -/
structure RequestStep (b b' : Body) (c c' : Core) : Prop where
  length : c.requests.length ≤ c'.requests.length
  keep : ∀ r < c.requests.length, b.request ≠ some r → r ∉ c.channel → r ∉ c.queuedRequests →
    c'.requests[r]? = c.requests[r]?
  channel : ∀ q ∈ c'.channel, q ∈ c.channel ∨ (Makes c c' q ∧ b'.isInteractive = false)
  queued : ∀ q ∈ c'.queuedRequests,
    q ∈ c.queuedRequests ∨ (Makes c c' q ∧ b'.isInteractive = false)
  current : ∀ q, c'.currentRequest = some q → c.currentRequest = some q ∨ q ∈ c.channel
  request : ∀ q, b'.request = some q → b.request = some q ∨ Makes c c' q ∨
    (q ∈ c.channel ∧ b'.isInteractive = false)
  slot : ∀ q, c'.interactiveRequest = some q →
    c.interactiveRequest = some q ∨ b.request = some q
  aside : b.isInteractive = false → c'.interactiveRequest = c.interactiveRequest

section Steps

variable {n i : ℕ} {ch : Choice} {c c' : Core} {b b' : Body}

/-- The places stay, and the task keeps its request or forgets it. -/
theorem RequestStep.of_eq (hr : c'.requests = c.requests) (hc : c'.channel = c.channel)
    (hq : c'.queuedRequests = c.queuedRequests) (hcur : c'.currentRequest = c.currentRequest)
    (hslot : c'.interactiveRequest = c.interactiveRequest)
    (hb : ∀ q, b'.request = some q → b.request = some q) : RequestStep b b' c c' where
  length := by rw [hr]
  keep r _ _ _ _ := by rw [hr]
  channel q h := .inl (by rwa [hc] at h)
  queued q h := .inl (by rwa [hq] at h)
  current q h := .inl (by rwa [hcur] at h)
  request q h := .inl (hb q h)
  slot q h := .inl (by rwa [hslot] at h)
  aside _ := hslot

theorem foldl_finish_length (rs : List ℕ) : ∀ qs : List Request,
    (rs.foldl (fun qs r => qs.modify r Request.finish) qs).length = qs.length := by
  induction rs with
  | nil => intro qs; rfl
  | cons r rs ih => intro qs; rw [List.foldl_cons, ih, List.length_modify]

theorem foldl_finish_getElem? {r : ℕ} {rs : List ℕ} (hr : r ∉ rs) : ∀ qs : List Request,
    (rs.foldl (fun qs r => qs.modify r Request.finish) qs)[r]? = qs[r]? := by
  induction rs with
  | nil => intro qs; rfl
  | cons q rs ih =>
    intro qs
    rw [List.mem_cons, not_or] at hr
    rw [List.foldl_cons, ih hr.2, List.getElem?_modify_ne _ _ (Ne.symm hr.1)]

/-- `cancel` finishes the queued requests and empties their list. -/
theorem advanceCancel_requests {inStream em : Bool} {pc pc' : CancelPc}
    (h : advanceCancel i inStream em ch c pc = some (c', pc')) (hb : b'.request = none) :
    RequestStep b b' c c' := by
  have hnone : ∀ q, b'.request = some q → b.request = some q := fun q hq => by
    rw [hb] at hq
    cases hq
  cases pc with
  | clear was =>
    have hdrain : RequestStep b b' c c.drainQueue.resetFlow := by
      refine ⟨(foldl_finish_length _ _).ge, fun r _ _ _ hr => foldl_finish_getElem? hr _,
        fun q hq => .inl hq, fun q hq => absurd hq List.not_mem_nil, fun q hq => .inl hq,
        fun q hq => .inl (hnone q hq), fun q hq => .inl hq, fun _ => rfl⟩
    simp only [advanceCancel] at h
    split_ifs at h <;> cases h <;> exact hdrain
  | ctrlX was err =>
    cases err <;> cases h <;> exact .of_eq rfl rfl rfl rfl rfl hnone
  | abort was =>
    simp only [advanceCancel] at h
    split_ifs at h
    · cases h
      exact .of_eq rfl rfl rfl rfl rfl hnone
    · split at h
      · cases h
        exact .of_eq rfl rfl rfl rfl rfl hnone
      · split_ifs at h <;> cases h <;> exact .of_eq rfl rfl rfl rfl rfl hnone
  | next was commands =>
    cases commands <;> simp only [advanceCancel] at h <;> (try split_ifs at h) <;> cases h <;>
      exact .of_eq rfl rfl rfl rfl rfl hnone
  | _ =>
    simp only [advanceCancel] at h
    try split_ifs at h
    all_goals cases h
    all_goals exact .of_eq rfl rfl rfl rfl rfl hnone

theorem advanceStream_requests {job : Job} {pc pc' : StreamPc}
    (h : advanceStream i job ch c pc = some (c', pc')) :
    RequestStep (.stream job pc) (.stream job pc') c c' := by
  have hnone : ∀ q, (Body.stream job pc').request = some q →
      (Body.stream job pc).request = some q := fun q hq => by cases hq
  cases pc with
  | loopTop idx rest =>
    cases rest <;> simp only [advanceStream] at h <;> (try split_ifs at h) <;> cases h <;>
      exact .of_eq rfl rfl rfl rfl rfl hnone
  | writing s err =>
    cases err <;> cases h <;> exact .of_eq rfl rfl rfl rfl rfl hnone
  | poll w =>
    cases w <;> cases h <;> exact .of_eq rfl rfl rfl rfl rfl hnone
  | pollWriting w before err =>
    cases err <;> cases h <;> exact .of_eq rfl rfl rfl rfl rfl hnone
  | pollAwait w before left =>
    cases left <;> cases h <;> exact .of_eq rfl rfl rfl rfl rfl hnone
  | pollEnd w idle =>
    cases w <;> simp only [advanceStream] at h <;> split_ifs at h <;> cases h <;>
      exact .of_eq rfl rfl rfl rfl rfl hnone
  | recover w =>
    cases w <;> simp only [advanceStream] at h <;> split_ifs at h <;> cases h <;>
      exact .of_eq rfl rfl rfl rfl rfl hnone
  | recoverEnd w =>
    cases w <;> cases h <;> exact .of_eq rfl rfl rfl rfl rfl hnone
  | outcome err =>
    cases err <;> simp only [advanceStream] at h <;> (try split_ifs at h) <;> cases h <;>
      exact .of_eq rfl rfl rfl rfl rfl hnone
  | cancelling pc e =>
    simp only [advanceStream] at h
    split at h
    · cases h
      exact .of_eq rfl rfl rfl rfl rfl hnone
    · obtain ⟨⟨c1, pc1⟩, h1, h2⟩ := Option.map_eq_some_iff.mp h
      cases h2
      exact advanceCancel_requests h1 rfl
  | _ =>
    simp only [advanceStream] at h
    try split_ifs at h
    all_goals cases h
    all_goals exact .of_eq rfl rfl rfl rfl rfl hnone

theorem advanceRun_requests {job : Job} {pc pc' : RunPc} {spawns : Bool}
    (h : advanceRun n job ch c pc = some (c', pc', spawns)) :
    RequestStep (.run job pc) (.run job pc') c c' := by
  have hnone : ∀ q, (Body.run job pc').request = some q → (Body.run job pc).request = some q :=
    fun q hq => by cases hq
  cases pc with
  | rawNext realtime =>
    cases realtime <;> simp only [advanceRun] at h <;> (try split_ifs at h) <;> cases h <;>
      exact .of_eq rfl rfl rfl rfl rfl hnone
  | abort =>
    simp only [advanceRun] at h
    split at h
    · cases h
      exact .of_eq rfl rfl rfl rfl rfl hnone
    · split_ifs at h <;> cases h <;> exact .of_eq rfl rfl rfl rfl rfl hnone
  | _ =>
    simp only [advanceRun] at h
    try split_ifs at h
    all_goals cases h
    all_goals exact .of_eq rfl rfl rfl rfl rfl hnone

/-- A connection empties the channel. -/
theorem advanceLink_requests {connect spawns : Bool} {pc pc' : LinkPc}
    (h : advanceLink n connect c pc = some (c', pc', spawns)) :
    RequestStep (.link connect pc) (.link connect pc') c c' := by
  have hnone : ∀ q, (Body.link connect pc').request = some q →
      (Body.link connect pc).request = some q := fun q hq => by cases hq
  cases pc with
  | abort =>
    simp only [advanceLink] at h
    split at h
    · cases h
      exact .of_eq rfl rfl rfl rfl rfl hnone
    · split_ifs at h <;> cases h <;> exact .of_eq rfl rfl rfl rfl rfl hnone
  | stop =>
    simp only [advanceLink] at h
    split at h <;> cases h <;> exact .of_eq rfl rfl rfl rfl rfl hnone
  | closing =>
    simp only [advanceLink] at h
    split_ifs at h <;> cases h
    · exact ⟨Nat.le_refl _, fun r _ _ _ _ => rfl, fun q hq => absurd hq List.not_mem_nil,
        fun q hq => .inl hq, fun q hq => .inl hq, fun q hq => .inl (hnone q hq),
        fun q hq => .inl hq, fun _ => rfl⟩
    · exact .of_eq rfl rfl rfl rfl rfl hnone
  | _ =>
    simp only [advanceLink] at h
    try split_ifs at h
    all_goals cases h
    all_goals exact .of_eq rfl rfl rfl rfl rfl hnone

theorem newRequest_length (command : Text) (c : Core) :
    (c.newRequest command).requests.length = c.requests.length + 1 := by
  rw [Core.newRequest, List.length_append]
  rfl

theorem newRequest_getElem? (command : Text) {c : Core} {r : ℕ} (hr : r < c.requests.length) :
    (c.newRequest command).requests[r]? = c.requests[r]? :=
  List.getElem?_append_left hr

/-- `execute_command` makes a request and puts it into the queue. -/
theorem advanceExecute_requests {command : Text} {pc pc' : ExecutePc}
    (h : advanceExecute command ch c pc = some (c', pc')) :
    RequestStep (.execute command pc) (.execute command pc') c c' := by
  cases pc with
  | submit =>
    simp only [advanceExecute] at h
    have hmakes (c' : Core) (hc : c'.requests = (c.newRequest command).requests) :
        Makes c c' c.requests.length :=
      ⟨rfl, by rw [hc, newRequest_length]; exact Nat.lt_succ_self _⟩
    have hlen : c.requests.length ≤ (c.newRequest command).requests.length := by
      rw [newRequest_length]
      exact Nat.le_succ _
    have hmem {q : ℕ} {l : List ℕ} {c' : Core} (hc : c'.requests = (c.newRequest command).requests)
        (hq : q ∈ l ++ [c.requests.length]) : q ∈ l ∨ Makes c c' q := by
      rcases List.mem_append.mp hq with hq | hq
      · exact .inl hq
      · obtain rfl := List.mem_singleton.mp hq
        exact .inr (hmakes c' hc)
    split_ifs at h <;> cases h
    · refine ⟨hlen, fun r hr _ _ _ => newRequest_getElem? command hr, fun q hq => ?_,
        fun q hq => ?_, fun q hq => .inl hq, fun q hq => ?_, fun q hq => .inl hq, fun _ => rfl⟩
      · exact (hmem rfl hq).imp id fun hm => ⟨hm, rfl⟩
      · exact (hmem rfl hq).imp id fun hm => ⟨hm, rfl⟩
      · exact .inr (.inl (Option.some.inj hq ▸ hmakes _ rfl))
    · refine ⟨hlen, fun r hr _ _ _ => newRequest_getElem? command hr, fun q hq => .inl hq,
        fun q hq => ?_, fun q hq => .inl hq, fun q hq => ?_, fun q hq => .inl hq, fun _ => rfl⟩
      · exact (hmem rfl hq).imp id fun hm => ⟨hm, rfl⟩
      · exact .inr (.inl (Option.some.inj hq ▸ hmakes _ rfl))
  | wait r =>
    simp only [advanceExecute] at h
    split_ifs at h <;> cases h
    · exact .of_eq rfl rfl rfl rfl rfl fun q hq => hq
    · refine ⟨(List.length_modify _ _ _).ge, fun q _ hq _ _ => ?_, fun q hq => .inl hq,
        fun q hq => .inl hq, fun q hq => .inl hq, fun q hq => .inl hq, fun q hq => .inl hq,
        fun _ => rfl⟩
      exact List.getElem?_modify_ne _ _ fun he => hq (by rw [he]; rfl)
  | returned r result => cases h

/-- The command queue works on the requests of the channel. -/
theorem advanceQueue_requests {pc pc' : QueuePc} (h : advanceQueue i ch c pc = some (c', pc')) :
    RequestStep (.queue pc) (.queue pc') c c' := by
  cases pc with
  | top =>
    simp only [advanceQueue] at h
    split_ifs at h <;> cases h <;> exact .of_eq rfl rfl rfl rfl rfl fun q hq => by cases hq
  | recv =>
    simp only [advanceQueue] at h
    split at h
    · cases h
    · rename_i r channel hchannel
      have hmem : r ∈ c.channel := by
        rw [hchannel]
        exact List.mem_cons_self
      have hsub : ∀ q ∈ channel, q ∈ c.channel := fun q hq => by
        rw [hchannel]
        exact List.mem_cons_of_mem r hq
      split_ifs at h <;> cases h
      · refine ⟨(List.length_modify _ _ _).ge, fun q _ _ hq _ => ?_, fun q hq => .inl (hsub q hq),
          fun q hq => .inl (List.mem_of_mem_filter hq), fun q hq => .inl hq,
          fun q hq => (by cases hq), fun q hq => .inl hq, fun _ => rfl⟩
        refine List.getElem?_modify_ne _ _ ?_
        rintro rfl
        exact hq hmem
      · exact ⟨Nat.le_refl _, fun q _ _ _ _ => rfl, fun q hq => .inl (hsub q hq),
          fun q hq => .inl (List.mem_of_mem_filter hq),
          fun q hq => .inr (Option.some.inj hq ▸ hmem),
          fun q hq => .inr (.inr ⟨Option.some.inj hq ▸ hmem, rfl⟩), fun q hq => .inl hq,
          fun _ => rfl⟩
  | clear =>
    cases h
    exact ⟨Nat.le_refl _, fun q _ _ _ _ => rfl, fun q hq => .inl hq, fun q hq => .inl hq,
      fun q hq => (by cases hq), fun q hq => (by cases hq), fun q hq => .inl hq, fun _ => rfl⟩
  | writing r err =>
    cases h
    refine .of_eq rfl rfl rfl rfl rfl fun q hq => ?_
    cases err with
    | none => exact hq
    | some e => cases hq
  | locked r =>
    simp only [advanceQueue] at h
    split_ifs at h <;> cases h
    · exact .of_eq rfl rfl rfl rfl rfl fun q hq => by cases hq
    · exact .of_eq rfl rfl rfl rfl rfl fun q hq => hq
    · exact .of_eq rfl rfl rfl rfl rfl fun q hq => hq
  | _ =>
    simp only [advanceQueue] at h
    try split_ifs at h
    all_goals cases h
    all_goals exact .of_eq rfl rfl rfl rfl rfl fun q hq => by first | exact hq | cases hq

/-- `execute_interactive_command` makes a request and names it in the slot. -/
theorem advanceInteractive_requests {command : Text} {pc pc' : InteractivePc}
    (h : advanceInteractive i command ch c pc = some (c', pc')) :
    RequestStep (.interactive command pc) (.interactive command pc') c c' := by
  cases pc with
  | start =>
    simp only [advanceInteractive] at h
    split_ifs at h <;> cases h
    · refine ⟨?_, fun r hr _ _ _ => newRequest_getElem? command hr, fun q hq => .inl hq,
        fun q hq => .inl hq, fun q hq => .inl hq, fun q hq => ?_, fun q hq => .inl hq,
        fun h0 => (by cases h0)⟩
      · rw [newRequest_length]
        exact Nat.le_succ _
      · refine .inr (.inl ⟨(Option.some.inj hq).symm, ?_⟩)
        rw [newRequest_length]
        exact Nat.lt_succ_self _
    · exact .of_eq rfl rfl rfl rfl rfl fun q hq => hq
  | locked r =>
    cases h
    refine .of_eq rfl rfl rfl rfl rfl fun q hq => ?_
    split_ifs at hq <;> exact hq
  | begin r =>
    cases h
    refine ⟨Nat.le_refl _, fun q _ _ _ _ => rfl, fun q hq => .inl hq, fun q hq => .inl hq,
      fun q hq => .inl hq, fun q hq => .inl ?_, fun q hq => .inr hq,
      fun h0 => (by cases h0)⟩
    split_ifs at hq <;> exact hq
  | writing r err =>
    cases h
    refine .of_eq rfl rfl rfl rfl rfl fun q hq => ?_
    split_ifs at hq <;> exact hq
  | finish r result =>
    cases h
    exact ⟨Nat.le_refl _, fun q _ _ _ _ => rfl, fun q hq => .inl hq, fun q hq => .inl hq,
      fun q hq => .inl hq, fun q hq => (by cases hq), fun q hq => (by cases hq),
      fun h0 => (by cases h0)⟩
  | _ =>
    simp only [advanceInteractive] at h
    try split_ifs at h
    all_goals cases h
    all_goals exact .of_eq rfl rfl rfl rfl rfl fun q hq => hq

/-- **The requests under a step of any task.** -/
theorem advance_requests {spawned : List Body} (h : advance n i ch c b = some (c', b', spawned)) :
    RequestStep b b' c c' ∧ ∀ d ∈ spawned, d.request = none := by
  have hnil : ∀ d ∈ ([] : List Body), d.request = none := fun d hd => absurd hd List.not_mem_nil
  cases b with
  | stream job pc =>
    obtain ⟨⟨c1, pc1⟩, h1, h2⟩ := Option.map_eq_some_iff.mp h
    cases h2
    exact ⟨advanceStream_requests h1, hnil⟩
  | cancel em pc =>
    obtain ⟨⟨c1, pc1⟩, h1, h2⟩ := Option.map_eq_some_iff.mp h
    cases h2
    exact ⟨advanceCancel_requests h1 rfl, hnil⟩
  | run job pc =>
    obtain ⟨⟨c1, pc1, spawns⟩, h1, h2⟩ := Option.map_eq_some_iff.mp h
    cases h2
    refine ⟨advanceRun_requests h1, fun d hd => ?_⟩
    split_ifs at hd
    · obtain rfl := List.mem_singleton.mp hd
      rfl
    · exact hnil d hd
  | execute command pc =>
    obtain ⟨⟨c1, pc1⟩, h1, h2⟩ := Option.map_eq_some_iff.mp h
    cases h2
    exact ⟨advanceExecute_requests h1, hnil⟩
  | queue pc =>
    obtain ⟨⟨c1, pc1⟩, h1, h2⟩ := Option.map_eq_some_iff.mp h
    cases h2
    exact ⟨advanceQueue_requests h1, hnil⟩
  | interactive command pc =>
    obtain ⟨⟨c1, pc1⟩, h1, h2⟩ := Option.map_eq_some_iff.mp h
    cases h2
    exact ⟨advanceInteractive_requests h1, hnil⟩
  | hold hold pc =>
    obtain ⟨⟨c1, pc1⟩, h1, h2⟩ := Option.map_eq_some_iff.mp h
    cases h2
    refine ⟨?_, hnil⟩
    cases pc with
    | start =>
      simp only [advanceHold] at h1
      split_ifs at h1 <;> cases h1 <;> exact .of_eq rfl rfl rfl rfl rfl fun q hq => by cases hq
    | writing err =>
      cases h1
      exact .of_eq rfl rfl rfl rfl rfl fun q hq => by cases hq
    | returned => cases h1
  | link connect pc =>
    obtain ⟨⟨c1, pc1, spawns⟩, h1, h2⟩ := Option.map_eq_some_iff.mp h
    cases h2
    refine ⟨advanceLink_requests h1, fun d hd => ?_⟩
    split_ifs at hd
    · obtain rfl := List.mem_singleton.mp hd
      rfl
    · exact hnil d hd

end Steps

/-! ### Received bytes -/

/-- A status report, as opposed to an informational line. -/
def isStatus (line : Text) : Bool := startsWith "<".toList line && line.getLast? == some '>'

/-- A line that `handle_line` adds to the responding request. -/
def isCollected (line : Text) : Bool := !Core.isFragment line && !isStatus line

/-- Add a line to the response, unless the request is finished. -/
def Request.collect (line : Text) (finish : Bool) (q : Request) : Request :=
  if q.finished then q
  else { q with responseLines := q.responseLines ++ [line], finished := finish }

/-- What a response means to the responding request. -/
def Request.hear (q : Request) (r : GrblResponse) : Request :=
  match r.rtype with
  | .ok => q.collect "ok".toList true
  | .error => q.collect r.text true
  | .line => if isCollected r.text then q.collect r.text false else q

/-- The requests behind a response. -/
def Core.heard (c : Core) (r : GrblResponse) : List Request :=
  match c.respondingRequest with
  | none => c.requests
  | some q => c.requests.modify q fun q => q.hear r

theorem modify_self {f : Request → Request} (hf : ∀ q, f q = q) (r : ℕ) (qs : List Request) :
    qs.modify r f = qs := by
  obtain rfl : f = id := funext hf
  exact List.modify_id r qs

theorem handleLine_requests (line : Text) (c : Core) :
    (c.handleLine line).requests
      = if isCollected line then (c.collect line false).requests else c.requests := by
  unfold Core.handleLine isCollected isStatus
  by_cases hfragment : Core.isFragment line = true
  · rw [if_pos hfragment, hfragment]
    rfl
  · rw [if_neg hfragment, Bool.eq_false_iff.mpr hfragment]
    by_cases hstatus : (startsWith "<".toList line && line.getLast? == some '>') = true
    · rw [if_pos hstatus, hstatus]
      rfl
    · rw [if_neg hstatus, Bool.eq_false_iff.mpr hstatus]
      dsimp only
      split
      · rfl
      · split <;> rfl

/-- **A response reaches the responding request and no other.** -/
theorem handleResponse_requests (c : Core) (r : GrblResponse) :
    (c.handleResponse r).requests = c.heard r := by
  obtain ⟨rtype, text, pending⟩ := r
  unfold Core.heard Request.hear
  cases rtype with
  | ok =>
    have hok : (c.handleOk pending).requests = (c.collect "ok".toList true).requests := by
      unfold Core.handleOk
      dsimp only
      split <;> rfl
    exact hok
  | error => rfl
  | line =>
    refine (handleLine_requests text c).trans ?_
    unfold Core.collect
    dsimp only
    cases c.respondingRequest with
    | none => exact ite_self _
    | some q =>
      split_ifs
      · rfl
      · exact (modify_self (fun _ => rfl) q _).symm

theorem handleResponse_responding (c : Core) (r : GrblResponse) :
    (c.handleResponse r).respondingRequest = c.respondingRequest := by
  have hf := handleResponse_frame c r
  rw [Core.respondingRequest, Core.respondingRequest, hf.interactiveRequest, hf.currentRequest]

/-- The responding request hears the responses in turn. -/
theorem foldl_handleResponse_heard {q : ℕ} (rs : List GrblResponse) : ∀ c : Core,
    c.respondingRequest = some q → (rs.foldl Core.handleResponse c).requests[q]?
      = c.requests[q]?.map fun q => rs.foldl Request.hear q := by
  induction rs with
  | nil => intro c _; exact Option.map_id'.symm
  | cons r rs ih =>
    intro c hq
    rw [List.foldl_cons, ih _ (by rw [handleResponse_responding, hq]), handleResponse_requests,
      Core.heard, hq]
    dsimp only
    rw [List.getElem?_modify_eq, Option.map_eq_map, Option.map_map]
    rfl

/-- The responding request hears the responses of a chunk. -/
theorem handleRx_heard {q : ℕ} {data : Bytes} {c : Core} (hq : c.respondingRequest = some q) :
    (c.handleRx data).requests[q]?
      = c.requests[q]?.map fun q => (c.arrivals data).foldl Request.hear q :=
  handleRx_fold (P := fun c' => c'.requests[q]?
      = c.requests[q]?.map fun q => (c.arrivals data).foldl Request.hear q)
    (fun _ h => h) fun flow n => foldl_handleResponse_heard (c.arrivals data) (c.popped flow n) hq

theorem handleRx_unheard {q : ℕ} {data : Bytes} {c : Core} (hq : c.respondingRequest ≠ some q) :
    (c.handleRx data).requests[q]? = c.requests[q]? := by
  have hkept : (c.handleRx data).respondingRequest ≠ some q ∧
      (c.handleRx data).requests[q]? = c.requests[q]? := by
    refine handleRx_keeps
      (P := fun c' => c'.respondingRequest ≠ some q ∧ c'.requests[q]? = c.requests[q]?)
      (fun _ _ => ⟨hq, rfl⟩) (fun _ h => h) fun r _ c' ⟨hother, hsame⟩ => ⟨?_, ?_⟩
    · rwa [handleResponse_responding]
    · rw [handleResponse_requests, Core.heard, ← hsame]
      split
      · rfl
      · rename_i p hp
        refine List.getElem?_modify_ne _ _ fun he => hother ?_
        rw [hp, he]
  exact hkept.2

theorem handleRx_length (data : Bytes) (c : Core) :
    (c.handleRx data).requests.length = c.requests.length := by
  refine handleRx_same (f := fun c => c.requests.length) (fun _ _ _ => rfl) (fun _ => rfl)
    (fun c r => ?_) data c
  rw [handleResponse_requests, Core.heard]
  split
  · rfl
  · exact List.length_modify _ _ _

/-! ### Who knows a request -/

/-- The numbers in use are those of requests; the request of an interactive command is
known to its task only, and as long as it is not named to `handle_rx` it is as it was
made. -/
structure Registered (s : Sys) : Prop where
  channel : ∀ q ∈ s.core.channel, q < s.core.requests.length
  queued : ∀ q ∈ s.core.queuedRequests, q < s.core.requests.length
  current : ∀ q, s.core.currentRequest = some q → q < s.core.requests.length
  slot : ∀ q, s.core.interactiveRequest = some q → q < s.core.requests.length
  tasks : ∀ (i : ℕ) (b : Body) (q : ℕ), s.tasks[i]? = some b → b.request = some q →
    q < s.core.requests.length
  apart : ∀ (i : ℕ) (b : Body) (q : ℕ), s.tasks[i]? = some b → b.isInteractive = true →
    b.request = some q → q ∉ s.core.channel ∧ q ∉ s.core.queuedRequests ∧
      s.core.currentRequest ≠ some q ∧
      ∀ (j : ℕ) (d : Body), s.tasks[j]? = some d → d.request = some q → j = i
  fresh : ∀ (i : ℕ) (command : Text) (pc : InteractivePc) (q : ℕ),
    s.tasks[i]? = some (.interactive command pc) → pc.prepares = true → pc.request = some q →
    s.core.interactiveRequest ≠ some q ∧ s.core.requests[q]? = some { command := command }

section Session

variable {s u : Sys} {l : Label}

/-- A step that moves no task and touches at most the responding request. -/
theorem Registered.of_aside (h : Registered s)
    (hlen : u.core.requests.length = s.core.requests.length)
    (hchannel : u.core.channel = s.core.channel)
    (hqueued : u.core.queuedRequests = s.core.queuedRequests)
    (hcurrent : u.core.currentRequest = s.core.currentRequest)
    (hslot : u.core.interactiveRequest = s.core.interactiveRequest)
    (hkeep : ∀ q, s.core.respondingRequest ≠ some q →
      u.core.requests[q]? = s.core.requests[q]?)
    (htasks : ∀ (i : ℕ) (b : Body), u.tasks[i]? = some b →
      s.tasks[i]? = some b ∨ b.request = none) :
    Registered u := by
  have hold : ∀ (i : ℕ) (b : Body) (q : ℕ), u.tasks[i]? = some b → b.request = some q →
      s.tasks[i]? = some b := by
    intro i b q hb hq
    refine (htasks i b hb).resolve_right fun hnone => ?_
    rw [hnone] at hq
    cases hq
  refine ⟨?_, ?_, ?_, ?_, ?_, ?_, ?_⟩
  · rw [hchannel, hlen]
    exact h.channel
  · rw [hqueued, hlen]
    exact h.queued
  · rw [hcurrent, hlen]
    exact h.current
  · rw [hslot, hlen]
    exact h.slot
  · rw [hlen]
    exact fun i b q hb hq => h.tasks i b q (hold i b q hb hq) hq
  · intro i b q hb hint hq
    obtain ⟨hch, hqu, hcur, hother⟩ := h.apart i b q (hold i b q hb hq) hint hq
    rw [hchannel, hqueued, hcurrent]
    exact ⟨hch, hqu, hcur, fun j d hd hdq => hother j d (hold j d q hd hdq) hdq⟩
  · intro i command pc q hb hpc hq
    have hb' := hold i _ q hb hq
    obtain ⟨hne, hfresh⟩ := h.fresh i command pc q hb' hpc hq
    have hcur := (h.apart i _ q hb' rfl hq).2.2.1
    rw [hslot]
    refine ⟨hne, (hkeep q fun hresponding => ?_).trans hfresh⟩
    -- neither of the two slots names it
    unfold Core.respondingRequest at hresponding
    split at hresponding
    · rename_i r hr
      exact hne (hr.trans hresponding)
    · exact hcur hresponding

/-- The request of an interactive command while its task goes on before the command is
sent. -/
theorem advanceInteractive_prepares {i : ℕ} {ch : Choice} {c c' : Core} {command : Text}
    {pc pc' : InteractivePc} {q : ℕ} (h : advanceInteractive i command ch c pc = some (c', pc'))
    (hpc' : pc'.prepares = true) (hq : pc'.request = some q) :
    c'.interactiveRequest = c.interactiveRequest ∧
      ((pc = .start ∧ q = c.requests.length ∧ c'.requests = (c.newRequest command).requests) ∨
        (pc.prepares = true ∧ pc.request = some q ∧ c'.requests = c.requests)) := by
  cases pc with
  | start =>
    simp only [advanceInteractive] at h
    split_ifs at h <;> cases h
    · exact ⟨rfl, .inl ⟨rfl, (Option.some.inj hq).symm, rfl⟩⟩
    · cases hq
  | lockWait r =>
    simp only [advanceInteractive] at h
    split_ifs at h
    cases h
    exact ⟨rfl, .inr ⟨rfl, hq, rfl⟩⟩
  | locked r =>
    cases h
    refine ⟨rfl, .inr ⟨rfl, ?_, rfl⟩⟩
    split_ifs at hq <;> exact hq
  | drainWait r =>
    simp only [advanceInteractive] at h
    split_ifs at h
    cases h
    exact ⟨rfl, .inr ⟨rfl, hq, rfl⟩⟩
  | begin r =>
    cases h
    split_ifs at hpc' <;> cases hpc'
  | writing r err =>
    cases h
    split_ifs at hpc' <;> cases hpc'
  | _ =>
    simp only [advanceInteractive] at h
    try split_ifs at h
    all_goals cases h
    all_goals cases hpc'

theorem advance_isInteractive {n i : ℕ} {ch : Choice} {c c' : Core} {b b' : Body}
    {spawned : List Body} (h : advance n i ch c b = some (c', b', spawned)) :
    b'.isInteractive = b.isInteractive := by
  cases b
  all_goals
    obtain ⟨x, -, h2⟩ := Option.map_eq_some_iff.mp h
    cases h2
    rfl

/-- The step of a task keeps the register. -/
theorem Registered.step_task {i : ℕ} {ch : Choice} (h : Registered s)
    (hs : Sys.step (.task i ch) s = some u) : Registered u := by
  obtain ⟨b, c', b', spawned, hb, -, -, hadv, rfl⟩ := Sys.step_task hs
  have hlt : i < s.tasks.length := (List.getElem?_eq_some_iff.mp hb).1
  obtain ⟨hstep, hspawned⟩ := advance_requests hadv
  have hkind := advance_isInteractive hadv
  -- a task with a request is the one that moved or was there before
  have hold : ∀ (k : ℕ) (d : Body) (q : ℕ), (s.tasks.set i b' ++ spawned)[k]? = some d →
      d.request = some q → (k = i ∧ d = b') ∨ (k ≠ i ∧ s.tasks[k]? = some d) := by
    intro k d q hk hq
    rw [List.getElem?_append] at hk
    split_ifs at hk with hklt
    · by_cases hik : i = k
      · subst hik
        rw [List.getElem?_set_self hlt] at hk
        exact .inl ⟨rfl, (Option.some.inj hk).symm⟩
      · rw [List.getElem?_set_ne hik] at hk
        exact .inr ⟨Ne.symm hik, hk⟩
    · rw [hspawned d (List.mem_of_getElem? hk)] at hq
      cases hq
  have hmakes : ∀ q, Makes s.core c' q → q < c'.requests.length := fun q hq => by
    rw [hq.1]
    exact hq.2
  have hle {q : ℕ} (hq : q < s.core.requests.length) : q < c'.requests.length :=
    Nat.lt_of_lt_of_le hq hstep.length
  -- the mover's request is in use
  have hmine : ∀ q, b'.request = some q → q < c'.requests.length := by
    intro q hq
    rcases hstep.request q hq with hq | hq | ⟨hq, -⟩
    · exact hle (h.tasks i b q hb hq)
    · exact hmakes q hq
    · exact hle (h.channel q hq)
  have hnew : ∀ q, Makes s.core c' q → ¬ q < s.core.requests.length := fun q hq hlt => by
    rw [hq.1] at hlt
    exact Nat.lt_irrefl _ hlt
  refine ⟨?_, ?_, ?_, ?_, ?_, ?_, ?_⟩
  · exact fun q hq => (hstep.channel q hq).elim (fun hq => hle (h.channel q hq))
      fun hq => hmakes q hq.1
  · exact fun q hq => (hstep.queued q hq).elim (fun hq => hle (h.queued q hq))
      fun hq => hmakes q hq.1
  · exact fun q hq => (hstep.current q hq).elim (fun hq => hle (h.current q hq))
      fun hq => hle (h.channel q hq)
  · exact fun q hq => (hstep.slot q hq).elim (fun hq => hle (h.slot q hq))
      fun hq => hle (h.tasks i b q hb hq)
  · intro k d q hk hq
    rcases hold k d q hk hq with ⟨-, rfl⟩ | ⟨-, hk⟩
    · exact hmine q hq
    · exact hle (h.tasks k d q hk hq)
  · intro k d q hk hint hq
    rcases hold k d q hk hq with ⟨rfl, rfl⟩ | ⟨hki, hk⟩
    · -- the request of the mover: its own already, or made in this step
      have hnot : ∀ {P : Prop}, P ∨ (Makes s.core c' q ∧ d.isInteractive = false) → P := by
        rintro P (hP | ⟨-, hfalse⟩)
        · exact hP
        · rw [hint] at hfalse
          cases hfalse
      rcases hstep.request q hq with hbq | hmake | ⟨-, hfalse⟩
      · obtain ⟨hch, hqu, hcur, hother⟩ := h.apart k b q hb (hkind.symm.trans hint) hbq
        refine ⟨fun hq => hch (hnot (hstep.channel q hq)), fun hq => hqu (hnot (hstep.queued q hq)),
          fun hq => (hstep.current q hq).elim hcur hch, fun j e hj he => ?_⟩
        rcases hold j e q hj he with ⟨rfl, -⟩ | ⟨-, hj⟩
        · rfl
        · exact hother j e hj he
      · have hfresh := hnew q hmake
        refine ⟨fun hq => hfresh (h.channel q (hnot (hstep.channel q hq))),
          fun hq => hfresh (h.queued q (hnot (hstep.queued q hq))),
          fun hq => hfresh ((hstep.current q hq).elim (h.current q) (h.channel q)),
          fun j e hj he => ?_⟩
        rcases hold j e q hj he with ⟨rfl, -⟩ | ⟨-, hj⟩
        · rfl
        · exact absurd (h.tasks j e q hj he) hfresh
      · rw [hint] at hfalse
        cases hfalse
    · -- the request of another task is not the mover's
      obtain ⟨hch, hqu, hcur, hother⟩ := h.apart k d q hk hint hq
      have hused := h.tasks k d q hk hq
      refine ⟨fun hq => (hstep.channel q hq).elim hch fun hm => hnew q hm.1 hused,
        fun hq => (hstep.queued q hq).elim hqu fun hm => hnew q hm.1 hused,
        fun hq => (hstep.current q hq).elim hcur hch, fun j e hj he => ?_⟩
      rcases hold j e q hj he with ⟨rfl, rfl⟩ | ⟨-, hj⟩
      · rcases hstep.request q he with hbq | hmake | ⟨hmem, -⟩
        · exact hother j b hb hbq
        · exact absurd hused (hnew q hmake)
        · exact absurd hmem hch
      · exact hother j e hj he
  · intro k command pc q hk hpc hq
    rcases hold k _ q hk hq with ⟨rfl, hd⟩ | ⟨hki, hk⟩
    · subst hd
      cases b with
      | interactive command' pc₀ =>
        obtain ⟨⟨c1, pc1⟩, h1, h2⟩ := Option.map_eq_some_iff.mp hadv
        cases h2
        obtain ⟨hslot, ⟨rfl, rfl, hreq⟩ | ⟨hpc₀, hq₀, hreq⟩⟩ :=
          advanceInteractive_prepares h1 hpc hq
        · refine ⟨fun he => ?_, ?_⟩
          · change c'.interactiveRequest = _ at he
            rw [hslot] at he
            exact Nat.lt_irrefl _ (h.slot _ he)
          · change c'.requests[_]? = _
            rw [hreq]
            exact List.getElem?_concat_length
        · change c'.interactiveRequest ≠ _ ∧ c'.requests[q]? = _
          rw [hslot, hreq]
          exact h.fresh k command pc₀ q hb hpc₀ hq₀
      | _ => cases hkind
    · obtain ⟨hne, hfresh⟩ := h.fresh k command pc q hk hpc hq
      obtain ⟨hch, hqu, hcur, hother⟩ := h.apart k _ q hk rfl hq
      have hbq : b.request ≠ some q := fun he => hki (hother i b hb he).symm
      exact ⟨fun he => (hstep.slot q he).elim hne hbq,
        (hstep.keep q (h.tasks k _ q hk hq) hbq hch hqu).trans hfresh⟩

/-- **An interactive request is its caller's own, and untouched until its command is about
to be sent.** -/
theorem Registered.step (h : Registered s) (hs : Sys.step l s = some u) : Registered u := by
  cases l with
  | task i ch => exact h.step_task hs
  | call op =>
    simp only [Sys.step] at hs
    split_ifs at hs
    cases hs
    -- a new task has no request yet
    refine h.of_aside rfl rfl rfl rfl rfl (fun _ _ => rfl) fun k d hk => ?_
    change (s.tasks ++ [op.body])[k]? = some d at hk
    rw [List.getElem?_append] at hk
    split_ifs at hk
    · exact .inl hk
    · rw [List.mem_singleton.mp (List.mem_of_getElem? hk)]
      exact .inr op.request_body
  | drop i =>
    simp only [Sys.step, Sys.dropTask] at hs
    split at hs
    case isFalse => cases hs
    cases hs
    exact h.of_aside rfl rfl rfl rfl rfl (fun _ _ => rfl) fun k d hk => .inl hk
  | rx data =>
    simp only [Sys.step, Sys.outside] at hs
    split_ifs at hs
    cases hs
    -- received lines reach only requests that are current
    have hf := handleRx_frame data s.core
    exact h.of_aside (handleRx_length data s.core) hf.channel hf.queuedRequests
      hf.currentRequest hf.interactiveRequest
      (fun q hq => handleRx_unheard hq) fun k d hk => .inl hk
  | poll err =>
    simp only [Sys.step, Sys.outside] at hs
    split_ifs at hs
    cases hs
    have hpoll : ∀ c : Core, (Sys.pollStatus err c).requests = c.requests ∧
        (Sys.pollStatus err c).channel = c.channel ∧
        (Sys.pollStatus err c).queuedRequests = c.queuedRequests ∧
        (Sys.pollStatus err c).currentRequest = c.currentRequest ∧
        (Sys.pollStatus err c).interactiveRequest = c.interactiveRequest := by
      intro c
      unfold Sys.pollStatus
      split_ifs <;> exact ⟨rfl, rfl, rfl, rfl, rfl⟩
    obtain ⟨hreq, hch, hqu, hcur, hslot⟩ := hpoll s.core
    exact h.of_aside (congrArg List.length hreq) hch hqu hcur hslot
      (fun q _ => congrArg (fun qs : List Request => qs[q]?) hreq) fun k d hk => .inl hk
  | _ =>
    simp only [Sys.step, Sys.outside] at hs
    split_ifs at hs
    cases hs
    exact h.of_aside rfl rfl rfl rfl rfl (fun _ _ => rfl) fun k d hk => .inl hk

end Session

end Raydriver
