import TitanClaw.Agent.Worker

/-! # Does every result have its call?

A model is sent the results of tools as messages that name the call they answer, and the call
stands in an earlier message of the assistant. The worker keeps to that for calls that come
with a reply of the model. For tools that the model selects, and for the actions of a plan, it
adds the results alone. -/

namespace TitanClaw.Agent

open Llm List Function Bool ChatMessage Run

/-! ## Results and calls -/

variable (msgs : List ChatMessage)

def callAt (pos : Nat × Nat) : Option ToolCall :=
  msgs[pos.1]?.bind fun m =>
    if m.role = .assistant then m.toolCalls.bind fun calls => calls[pos.2]? else none

structure AnswersCalls (msgs : List ChatMessage) (call : Nat → Nat × Nat) : Prop where
  before : ∀ i m, msgs[i]? = some m → m.role = .tool →
    (call i).1 < i ∧ ∃ c, callAt msgs (call i) = some c ∧ m.toolCallId = some c.id
  once : ∀ i j m n, msgs[i]? = some m → m.role = .tool → msgs[j]? = some n → n.role = .tool →
    call i = call j → i = j

def ResultsAnswerCalls : Prop := ∃ call, AnswersCalls msgs call

section

variable {msgs : List ChatMessage} {call : Nat → Nat × Nat} {m : ChatMessage}

theorem callAt_append {pos : Nat × Nat} (h : pos.1 < msgs.length) (more : List ChatMessage) :
    callAt (msgs ++ more) pos = callAt msgs pos := by
  unfold callAt
  rw [getElem?_append_left h]

/-- A message at the end, or one that was there before. -/
theorem getElem?_snoc {i : Nat} {n : ChatMessage} (h : (msgs ++ [m])[i]? = some n) :
    (i < msgs.length ∧ msgs[i]? = some n) ∨ (i = msgs.length ∧ n = m) := by
  by_cases hi : i < msgs.length
  · rw [List.getElem?_append_left hi] at h
    exact .inl ⟨hi, h⟩
  · rw [List.getElem?_append_right (by omega)] at h
    have hzero : i - msgs.length = 0 := by
      have := (List.getElem?_eq_some_iff.mp h).1
      rw [length_singleton] at this
      omega
    rw [hzero] at h
    cases h
    exact .inr ⟨by omega, rfl⟩

section

variable (h : AnswersCalls msgs call)

include h

theorem AnswersCalls.snoc (hm : m.role ≠ .tool) : AnswersCalls (msgs ++ [m]) call := by
  have hold : ∀ i n, (msgs ++ [m])[i]? = some n → n.role = .tool →
      i < msgs.length ∧ msgs[i]? = some n := by
    intro i n hn htool
    obtain hold | ⟨-, rfl⟩ := getElem?_snoc hn
    · exact hold
    · exact absurd htool hm
  refine ⟨fun i n hn htool => ?_, fun i j n o hn hntool ho hotool hsame => ?_⟩
  · obtain ⟨hi, hn⟩ := hold i n hn htool
    obtain ⟨hlt, c, hc, hid⟩ := h.before i n hn htool
    exact ⟨hlt, c, by rwa [callAt_append (by omega)], hid⟩
  · exact h.once i j n o (hold i n hn hntool).2 hntool (hold j o ho hotool).2 hotool hsame

theorem AnswersCalls.snoc_result {pos : Nat × Nat} {c : ToolCall}
    (hpos : pos.1 < msgs.length) (hc : callAt msgs pos = some c) (hid : m.toolCallId = some c.id)
    (hfree : ∀ i n, msgs[i]? = some n → n.role = .tool → call i ≠ pos) :
    AnswersCalls (msgs ++ [m]) (update call msgs.length pos) := by
  have hcase : ∀ i n, (msgs ++ [m])[i]? = some n →
      (i < msgs.length ∧ msgs[i]? = some n ∧ update call msgs.length pos i = call i)
        ∨ (i = msgs.length ∧ n = m ∧ update call msgs.length pos i = pos) := by
    intro i n hn
    obtain ⟨hi, hn⟩ | ⟨rfl, rfl⟩ := getElem?_snoc hn
    · exact .inl ⟨hi, hn, update_of_ne (by omega) _ _⟩
    · exact .inr ⟨rfl, rfl, update_self _ _ _⟩
  refine ⟨fun i n hn htool => ?_, fun i j n o hn hntool ho hotool hsame => ?_⟩
  · obtain ⟨hi, hn, hcall⟩ | ⟨rfl, rfl, hcall⟩ := hcase i n hn
    · obtain ⟨hlt, c', hc', hid'⟩ := h.before i n hn htool
      rw [hcall]
      exact ⟨hlt, c', by rwa [callAt_append (by omega)], hid'⟩
    · rw [hcall]
      exact ⟨hpos, c, by rwa [callAt_append hpos], hid⟩
  · obtain ⟨hi, hn, hcall⟩ | ⟨hi, -, hcall⟩ := hcase i n hn <;>
      obtain ⟨hj, ho, hcall'⟩ | ⟨hj, -, hcall'⟩ := hcase j o ho
    · rw [hcall, hcall'] at hsame
      exact h.once i j n o hn hntool ho hotool hsame
    · rw [hcall, hcall'] at hsame
      exact absurd hsame (hfree i n hn hntool)
    · rw [hcall, hcall'] at hsame
      exact absurd hsame.symm (hfree j o ho hotool)
    · rw [hi, hj]

/-- In front there may be a system message. -/
theorem AnswersCalls.cons (hm : m.role ≠ .tool) :
    AnswersCalls (m :: msgs) fun i => ((call (i - 1)).1 + 1, (call (i - 1)).2) := by
  have htail : ∀ i n, (m :: msgs)[i]? = some n → n.role = .tool →
      ∃ k, i = k + 1 ∧ msgs[k]? = some n := by
    intro i n hn htool
    cases i with
    | zero =>
      cases hn
      exact absurd htool hm
    | succ k => exact ⟨k, rfl, hn⟩
  refine ⟨fun i n hn htool => ?_, fun i j n o hn hntool ho hotool hsame => ?_⟩
  · obtain ⟨k, rfl, hk⟩ := htail i n hn htool
    obtain ⟨hlt, c, hc, hid⟩ := h.before k n hk htool
    exact ⟨Nat.succ_lt_succ hlt, c, hc, hid⟩
  · obtain ⟨k, rfl, hk⟩ := htail i n hn hntool
    obtain ⟨l, rfl, hl⟩ := htail j o ho hotool
    simp only [Nat.add_sub_cancel, Prod.mk.injEq, Nat.add_right_cancel_iff] at hsame
    rw [h.once k l n o hk hntool hl hotool (Prod.ext hsame.1 hsame.2)]

end

variable (content : String)

theorem system_ne_tool : (system content).role ≠ .tool := by
  intro h
  cases h

theorem user_ne_tool : (user content).role ≠ .tool := by
  intro h
  cases h

theorem assistant_ne_tool : (assistant content).role ≠ .tool := by
  intro h
  cases h

theorem ResultsAnswerCalls.snoc (h : ResultsAnswerCalls msgs) (hm : m.role ≠ .tool) :
    ResultsAnswerCalls (msgs ++ [m]) :=
  h.imp fun _ h => h.snoc hm

theorem ResultsAnswerCalls.cons (h : ResultsAnswerCalls msgs) (hm : m.role ≠ .tool) :
    ResultsAnswerCalls (m :: msgs) := by
  obtain ⟨call, h⟩ := h
  exact ⟨_, h.cons hm⟩

theorem resultsAnswerCalls_nil : ResultsAnswerCalls [] := by
  refine ⟨fun i => (i, 0), fun i m hm => ?_, fun i j m n hm => ?_⟩
  · cases hm
  · cases hm

/-- A result that no message has a call for. -/
def orphaned (msgs : List ChatMessage) : Bool :=
  msgs.any fun m => m.role == .tool && !msgs.any fun a =>
    (a.toolCalls.getD []).any fun c => some c.id == m.toolCallId

theorem not_answers_of_orphaned (h : orphaned msgs = true) : ¬ ResultsAnswerCalls msgs := by
  rintro ⟨call, hanswers⟩
  obtain ⟨m, hm, horphan⟩ := any_eq_true.mp h
  obtain ⟨htool, hnone⟩ := Bool.and_eq_true_iff.mp horphan
  obtain ⟨i, hi⟩ := mem_iff_getElem?.mp hm
  obtain ⟨-, c, hc, hid⟩ := hanswers.before i m hi (beq_iff_eq.mp htool)
  obtain ⟨a, ha, hcall⟩ := Option.bind_eq_some_iff.mp hc
  split at hcall
  · obtain ⟨calls, hcalls, hget⟩ := Option.bind_eq_some_iff.mp hcall
    rw [Bool.not_eq_true', any_eq_false] at hnone
    refine hnone a (mem_of_getElem? ha) ?_
    rw [hcalls, Option.getD_some, any_eq_true]
    exact ⟨c, mem_of_getElem? hget, by rw [hid, beq_self_eq_true]⟩
  · cases hcall

end

/-! ## What the worker adds -/

namespace Worker

variable {D : WorkerDeps} {s : Worker} {m : ChatMessage}

/-- The messages and all lists that were sent have a call for each result. -/
def InOrder (s : Worker) : Prop :=
  ResultsAnswerCalls s.messages ∧ ∀ msgs ∈ s.sent, ResultsAnswerCalls msgs

section

variable (h : s.InOrder)

include h

theorem InOrder.push (hm : m.role ≠ .tool) : (s.push m).InOrder := ⟨h.1.snoc hm, h.2⟩

theorem InOrder.send {msgs : List ChatMessage} (hmsgs : ResultsAnswerCalls msgs) :
    (s.send msgs).InOrder := by
  refine ⟨h.1, fun sent hsent => ?_⟩
  obtain hsent | hsent := mem_append.mp hsent
  · exact h.2 sent hsent
  rw [mem_singleton.mp hsent]
  exact hmsgs

variable (D) (now : Int)

theorem InOrder.mark (target : Context.JobState)
    (reason : String) : (mark D s now target reason).2.InOrder := by
  unfold Worker.mark
  split <;> exact h

theorem InOrder.leave (result : Except String Unit) : (leave D s now result).InOrder := by
  unfold Worker.leave
  split
  · exact h
  · exact h.mark D now _ _

theorem InOrder.markStuck (reason : String) : (markStuck D s now reason).InOrder :=
  (h.mark D now _ _).leave D now _

theorem InOrder.startPlan (plan : ActionPlan)
    (persisted : Option PersistedPlanRun) (replans : Nat) :
    (s.startPlan plan persisted replans).InOrder := h

end

variable (D : WorkerDeps)

/-- The results of the calls of the message at `n`, from the `k`-th one on. -/
theorem inOrder_processToolResults (attempts : Nat → Attempt)
    {calls : List ToolCall} {s : Worker} {call : Nat → Nat × Nat} {n k : Nat} (i : Nat)
    (h : AnswersCalls s.messages call) (hsent : ∀ msgs ∈ s.sent, ResultsAnswerCalls msgs)
    (hn : n < s.messages.length)
    (hcalls : ∀ j c, calls[j]? = some c → callAt s.messages (n, k + j) = some c)
    (hfree : ∀ i m, s.messages[i]? = some m → m.role = .tool → (call i).1 = n → (call i).2 < k) :
    (processToolResults D attempts s i calls).InOrder := by
  induction calls generalizing s call k i with
  | nil => exact ⟨⟨call, h⟩, hsent⟩
  | cons c _ ih =>
    obtain ⟨m, hm, hid⟩ : ∃ m, (s.processToolResult D c.id c.name (attempts i).result).messages
        = s.messages ++ [m] ∧ m.toolCallId = some c.id := ⟨_, rfl, rfl⟩
    have hfree' : ∀ i m, s.messages[i]? = some m → m.role = .tool → call i ≠ (n, k + 0) := by
      intro i m hm htool hsame
      have hlt := hfree i m hm htool (congrArg Prod.fst hsame)
      have hk : (call i).2 = k + 0 := congrArg Prod.snd hsame
      omega
    have hnext := h.snoc_result hn (hcalls 0 c rfl) hid hfree'
    rw [← hm] at hnext
    refine ih (k := k + 1) (i + 1) hnext hsent ?_ (fun j c' hc' => ?_)
      (fun i m' hm' htool hat => ?_)
    · rw [hm, length_append]
      omega
    · have hpos : (n, k + 1 + j) = (n, k + (j + 1)) := by rw [Nat.add_assoc, Nat.add_comm 1]
      rw [hm, callAt_append hn, hpos]
      exact hcalls (j + 1) c' hc'
    · rw [hm] at hm'
      obtain ⟨hi, hm'⟩ | ⟨rfl, -⟩ := getElem?_snoc hm'
      · rw [update_of_ne (by omega)] at hat ⊢
        have := hfree i m' hm' htool hat
        omega
      · rw [update_self]
        exact Nat.lt_succ_self k

theorem InOrder.answerCalls (h : s.InOrder) (D : WorkerDeps) (attempts : Nat → Attempt)
    (content : Option String) (calls : List ToolCall) :
    (processToolResults D attempts (s.push (.assistantWithToolCalls content calls)) 0
      calls).InOrder := by
  obtain ⟨⟨call, hcall⟩, hsent⟩ := h
  have hrole : (assistantWithToolCalls content calls).role ≠ .tool := by
    intro htool
    cases htool
  refine inOrder_processToolResults (n := s.messages.length) (k := 0) D attempts 0
    (hcall.snoc hrole) hsent ?_ (fun j c hc => ?_) (fun i m hm htool hat => ?_)
  · show s.messages.length < (s.messages ++ [_]).length
    rw [length_append]
    exact Nat.lt_succ_self _
  · have hne : calls.isEmpty = false := by
      cases calls with
      | nil => cases hc
      | cons => rfl
    show callAt (s.messages ++ [_]) (s.messages.length, 0 + j) = some c
    simp [callAt, assistantWithToolCalls, hne, hc]
  · obtain ⟨hi, hm⟩ | ⟨-, rfl⟩ := getElem?_snoc hm
    · have := (hcall.before i m hm htool).1
      omega
    · exact absurd htool hrole

/-! ## The steps -/

section

variable (h : s.InOrder)

include h

variable (input : WorkerInput)

theorem InOrder.planningMessages : ResultsAnswerCalls (planningMessages D s input) := by
  unfold Worker.planningMessages
  split
  · exact ((h.1.snoc (system_ne_tool _)).snoc (user_ne_tool _)).cons (system_ne_tool _)
  rw [append_nil]
  exact (h.1.snoc (user_ne_tool _)).cons (system_ne_tool _)

theorem InOrder.planFirst : (planFirst D s input).InOrder := by
  have hsend := h.send (h.planningMessages D input)
  unfold Worker.planFirst
  split
  · exact h
  dsimp only
  split
  · exact (hsend.push (assistant_ne_tool _)).startPlan _ _ _
  · split
    · exact (hsend.push (assistant_ne_tool _)).markStuck D _ _
    · exact hsend.push (assistant_ne_tool _)
  · exact hsend

variable (run : PlanRun) (replans : Nat)

theorem InOrder.replan (reason : ReplanReason) (detail : String) (input : WorkerInput) :
    (replan D s run replans reason detail input).InOrder := by
  have hpush : (s.push (.user (replanPrompt reason detail))).InOrder := h.push (user_ne_tool _)
  have hsend := hpush.send (hpush.planningMessages D input)
  unfold Worker.replan
  split
  · exact h.markStuck D _ _
  split
  · exact h.markStuck D _ _
  dsimp only
  split
  · exact hsend.markStuck D _ _
  · exact hsend.markStuck D _ _
  · exact (hsend.push (assistant_ne_tool _)).startPlan _ _ _

theorem InOrder.completeOrReplan (input : WorkerInput) (response : String) :
    (completeOrReplan D s run replans input response).InOrder := by
  unfold Worker.completeOrReplan
  dsimp only
  split
  · have hmark := h.mark D input.now .completed "Job completed successfully"
    unfold completeAfterPlan
    revert hmark
    generalize Worker.mark D s input.now .completed "Job completed successfully" = marked
    intro hmark
    split
    · exact hmark
    · exact hmark.leave D _ _
  · split
    · split
      · exact h
      · exact h.markStuck D _ _
    · exact h.markStuck D _ _

theorem InOrder.checkCompletion
    (input : WorkerInput) : (checkCompletion D s run replans input).InOrder := by
  have hpush : (s.push (.user completionQuestion)).InOrder := h.push (user_ne_tool _)
  have hsend := hpush.send (hpush.1.cons (system_ne_tool input.systemPrompt))
  unfold Worker.checkCompletion
  dsimp only
  split
  · exact hsend.leave D _ _
  · exact (hsend.push (assistant_ne_tool _)).completeOrReplan D run replans input _

theorem InOrder.respondDirect (iteration : Nat)
    (input : WorkerInput) : (respondDirect D s iteration input).InOrder := by
  have hsend := h.send (h.1.cons (system_ne_tool input.systemPrompt))
  unfold Worker.respondDirect
  dsimp only
  split
  · exact hsend.leave D _ _
  · split
    · exact (hsend.mark D _ _ _).leave D _ _
    split
    · exact hsend.markStuck D _ _
    split
    · exact (hsend.push (assistant_ne_tool _)).push (user_ne_tool _)
    · exact hsend.push (assistant_ne_tool _)
  · exact hsend.answerCalls D _ _ _

end

/-- Tools run only for calls that come with a reply of the model: no action of a plan is
executed, and the model selects nothing. -/
def onlyDirectCalls (s : Worker) : Label → Bool
  | .advance input =>
      match s.phase with
      | .executing run _ => run.next.isNone || input.message == some .stop
      | .selecting _ =>
          input.tools.isEmpty || match input.selections with
            | .ok (_ :: _) => false
            | _ => true
      | _ => true
  | .timeout _ => true
  | .context _ => true

theorem InOrder.selectDirect (h : s.InOrder) (D : WorkerDeps) (iteration : Nat)
    (input : WorkerInput)
    (hnone : input.tools.isEmpty = true ∨ ∀ call calls, input.selections ≠ .ok (call :: calls)) :
    (selectDirect D s iteration input).InOrder := by
  have hnext : ({ s with phase := .selecting (iteration + 1) } : Worker).InOrder := h
  unfold Worker.selectDirect
  split
  · exact h
  split
  · exact h
  split
  · exact h.markStuck D _ _
  dsimp only
  split
  · exact hnext.respondDirect D _ _
  next htools =>
  have hsend := hnext.send h.1
  split
  · exact hsend.leave D _ _
  · exact hsend.respondDirect D _ _
  · next hselections => exact absurd hselections (hnone.resolve_left htools _ _)

theorem inOrder_step (s : Worker) (label : Label) (h : s.InOrder)
    (hdirect : onlyDirectCalls s label = true) : (step D s label).InOrder := by
  cases label with
  | timeout now =>
    dsimp only [step]
    split
    · exact h
    · exact h.mark D now .stuck _
  | context => exact h
  | advance input =>
    dsimp only [step, advance]
    dsimp only [onlyDirectCalls] at hdirect
    cases hphase : s.phase with
    | planning => exact h.planFirst D input
    | executing run replans =>
      rw [hphase] at hdirect
      dsimp only at hdirect ⊢
      cases hnext : run.next with
      | some =>
        rw [hnext] at hdirect
        have hstop : input.message = some .stop := by simpa using hdirect
        dsimp only [executeAction]
        rw [if_pos hstop]
        exact h
      | none => exact h.checkCompletion D run replans input
    | replanning run replans reason detail => exact h.replan D run replans reason detail input
    | selecting iteration =>
      rw [hphase] at hdirect
      refine h.selectDirect D iteration input ?_
      obtain htools | hselections := or_eq_true_iff.mp hdirect
      · exact .inl htools
      refine .inr fun call calls hcalls => ?_
      rw [hcalls] at hselections
      cases hselections
    | ended => exact h

/-- **Every result that is sent has its call** in every run in which tools run only for calls
that come with a reply of the model. -/
theorem sent_resultsAnswerCalls (ctx : Context.JobContext) (labels : List Label)
    (hdirect : Guarded (step D) (fun s label => onlyDirectCalls s label = true)
      (initial D ctx) labels) :
    ∀ pre, pre <+: labels → ∀ msgs ∈ (run (step D) (initial D ctx) pre).sent,
      ResultsAnswerCalls msgs := by
  have hinit : (initial D ctx).InOrder :=
    ⟨resultsAnswerCalls_nil.snoc (system_ne_tool _), forall_mem_nil _⟩
  exact fun pre hpre => (invariant_reached (inOrder_step D) hinit hdirect hpre).2

def sampleTools : List ToolDefinition := [⟨"echo", "", .null⟩]

/-- The model is asked to select a tool, selects nothing, and calls one when it replies. The
next request then has both the call and its result. -/
theorem sent_resultsAnswerCalls_direct :
    let reply : Label := .advance
      { tools := sampleTools, reply := .ok (.toolCalls [⟨"c1", "echo", .null⟩] none),
        attempts := fun _ => ⟨.ok "hi", 0⟩ }
    let labels := [.advance {}, reply, reply]
    (run (step sampleDeps) (initial sampleDeps sampleContext) labels).sent.map length
        = [3, 1, 2, 3, 4]
      ∧ ∀ pre, pre <+: labels →
        ∀ msgs ∈ (run (step sampleDeps) (initial sampleDeps sampleContext) pre).sent,
          ResultsAnswerCalls msgs := by
  refine ⟨by decide, ?_⟩
  exact sent_resultsAnswerCalls sampleDeps sampleContext _ (by decide)

theorem exists_unanswered {sent : List (List ChatMessage)} (h : sent.any orphaned = true) :
    ∃ msgs ∈ sent, ¬ ResultsAnswerCalls msgs := by
  obtain ⟨msgs, hmem, horphan⟩ := any_eq_true.mp h
  exact ⟨msgs, hmem, not_answers_of_orphaned horphan⟩

/-- A tool that the model has selected, and an action of a plan: in the next request there is
a result without a call. -/
theorem sent_orphans :
    let sent (labels : List Label) : List (List ChatMessage) :=
      (run (step sampleDeps) (initial sampleDeps sampleContext) labels).sent
    let selected : Label := .advance
      { tools := sampleTools, selections := .ok [⟨"c1", "echo", .null⟩],
        attempts := fun _ => ⟨.ok "hi", 0⟩ }
    (∃ msgs ∈ sent [.advance {}, selected, selected], ¬ ResultsAnswerCalls msgs)
      ∧ ∃ msgs ∈ sent [.advance { plan := .ok samplePlan }, sampleAction (.ok "hi"), .advance {}],
        ¬ ResultsAnswerCalls msgs :=
  ⟨exists_unanswered (by decide), exists_unanswered (by decide)⟩

end Worker

end TitanClaw.Agent
