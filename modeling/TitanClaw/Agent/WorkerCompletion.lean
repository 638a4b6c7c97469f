import TitanClaw.Agent.Worker

/-! # Is a completed plan a verified one?

With the verifier switched on, a job should be marked as completed after a plan only if the
verifier was asked about that execution and allowed it. The verifier is asked only about plans
that are stored, and storing a plan may fail. -/

namespace TitanClaw.Agent.Worker

open Llm Context

variable {D : WorkerDeps} {s : Worker} {run : PlanRun} {input : WorkerInput}

/-! ## Who marks a job as completed -/

section

variable (D : WorkerDeps)

theorem mark_completions (s : Worker) (now : Int) (target : JobState)
    (reason : String) : (mark D s now target reason).2.completions = s.completions := by
  unfold mark
  split <;> rfl

theorem leave_completions (s : Worker) (now : Int) (result : Except String Unit) :
    (leave D s now result).completions = s.completions := by
  unfold leave
  split
  · rfl
  · exact mark_completions D s now _ _

theorem markStuck_completions (s : Worker) (now : Int) (reason : String) :
    (markStuck D s now reason).completions = s.completions := by
  unfold markStuck
  rw [leave_completions]
  exact mark_completions D s now _ _

theorem processToolResults_completions (attempts : Nat → Attempt) (s : Worker)
    (i : Nat) (calls : List ToolCall) :
    (processToolResults D attempts s i calls).completions = s.completions := by
  induction calls generalizing s i with
  | nil => rfl
  | cons _ _ ih =>
    rw [processToolResults, ih]
    rfl

variable (s : Worker)

theorem planFirst_completions (input : WorkerInput) :
    (planFirst D s input).completions = s.completions := by
  unfold planFirst
  split
  · rfl
  dsimp only
  split
  · rfl
  · split
    · exact markStuck_completions D _ _ _
    · rfl
  · rfl

theorem replan_completions (run : PlanRun) (replans : Nat)
    (reason : ReplanReason) (detail : String) (input : WorkerInput) :
    (replan D s run replans reason detail input).completions = s.completions := by
  unfold replan
  split
  · exact markStuck_completions D _ _ _
  split
  · exact markStuck_completions D _ _ _
  dsimp only
  split
  · exact markStuck_completions D _ _ _
  · exact markStuck_completions D _ _ _
  · rfl

theorem executeAction_completions (run : PlanRun) (replans : Nat)
    (action : PlannedAction) (input : WorkerInput) :
    (executeAction D s run replans action input).completions = s.completions := by
  unfold executeAction
  split
  · rfl
  dsimp only
  split
  · split <;> rfl
  · rfl

theorem respondDirect_completions (iteration : Nat)
    (input : WorkerInput) : (respondDirect D s iteration input).completions = s.completions := by
  unfold respondDirect
  split
  · exact leave_completions D _ _ _
  · split
    · rw [leave_completions]
      exact mark_completions D _ _ _ _
    · split
      · exact markStuck_completions D _ _ _
      · split <;> rfl
  · exact processToolResults_completions D _ _ _ _

theorem selectDirect_completions (iteration : Nat)
    (input : WorkerInput) : (selectDirect D s iteration input).completions = s.completions := by
  unfold selectDirect
  split
  · rfl
  split
  · rfl
  split
  · exact markStuck_completions D _ _ _
  dsimp only
  split
  · exact respondDirect_completions D _ _ _
  split
  · exact leave_completions D _ _ _
  · exact respondDirect_completions D _ _ _
  · exact processToolResults_completions D _ _ _ _

end

/-! ## The check after the last action -/

variable (D)

def claimsCompletion (input : WorkerInput) : Bool :=
  match input.reply with
  | .ok reply => llmSignalsCompletion D.letters (respondText D.json reply)
  | .error _ => false

def canComplete (s : Worker) : Bool :=
  match s.ctx with
  | some ctx => ctx.state.canTransitionTo .completed
  | none => false

theorem mark_completed_fst (s : Worker) (now : Int) (reason : String) :
    (mark D s now .completed reason).1.isOk = s.canComplete := by
  unfold mark canComplete
  cases s.ctx with
  | none => rfl
  | some ctx =>
    dsimp only [JobContext.transitionTo]
    cases ctx.state.canTransitionTo .completed <;> rfl

theorem completeAfterPlan_completions (s : Worker) (now : Int) (record : CompletionRecord) :
    (completeAfterPlan D s now record).completions
      = if s.canComplete then record :: s.completions else s.completions := by
  unfold completeAfterPlan
  rw [← mark_completed_fst D s now "Job completed successfully",
    ← mark_completions D s now .completed "Job completed successfully"]
  generalize mark D s now .completed "Job completed successfully" = marked
  obtain ⟨result, after⟩ := marked
  cases result with
  | ok => rfl
  | error => exact leave_completions D after now _

variable {D}

/-- A plan that is not complete is followed by another, or the job is stuck. -/
theorem completeOrReplan_of_incomplete {replans : Nat} {response : String}
    (h : (llmSignalsCompletion D.letters response &&
      verifierAllowsCompletion (llmSignalsCompletion D.letters response)
        (verification D.config run input response (llmSignalsCompletion D.letters response)))
          = false) :
    (completeOrReplan D s run replans input response).completions = s.completions := by
  unfold completeOrReplan
  dsimp only
  rw [h, if_neg Bool.false_ne_true]
  split
  · split
    · rfl
    · exact markStuck_completions D _ _ _
  · exact markStuck_completions D _ _ _

/-- The job is completed if the model says so, the verifier does not object and it can be. -/
theorem completeOrReplan_completions (D : WorkerDeps) (s : Worker) (run : PlanRun) (replans : Nat)
    (input : WorkerInput) (response : String) :
    (completeOrReplan D s run replans input response).completions
      = if llmSignalsCompletion D.letters response = true
            ∧ verifierAllowsCompletion true (verification D.config run input response true) = true
            ∧ s.canComplete = true
        then ⟨run, verification D.config run input response true⟩ :: s.completions
        else s.completions := by
  cases hclaims : llmSignalsCompletion D.letters response with
  | false =>
    rw [completeOrReplan_of_incomplete (by rw [hclaims, Bool.false_and])]
    simp
  | true =>
    cases hallows : verifierAllowsCompletion true
        (verification D.config run input response true) with
    | false =>
      rw [completeOrReplan_of_incomplete (by rw [hclaims, hallows, Bool.and_false])]
      simp
    | true =>
      unfold completeOrReplan
      simp [hclaims, hallows, Bool.and_self, true_and, completeAfterPlan_completions]

def CompletionRecord.Verified (c : CompletionRecord) : Prop :=
  ∃ req, c.verification = some req
    ∧ req.plannedSteps = c.run.plan.actions.length ∧ req.executedSteps = c.run.executedSteps
    ∧ req.succeededSteps = c.run.succeededSteps ∧ req.failedSteps = c.run.failedSteps
    ∧ req.baseEvidence = c.run.evidence
    ∧ (verifyCompletion req).allowCompletion = true

def CompletionsVerified (s : Worker) : Prop := ∀ c ∈ s.completions, CompletionRecord.Verified c

theorem completionsVerified_congr {s' : Worker} (h : s'.completions = s.completions) :
    s'.CompletionsVerified ↔ s.CompletionsVerified := by
  unfold CompletionsVerified
  rw [h]

section

variable (hverifier : D.config.autonomyVerifierV1 = true)

include hverifier

/-- A stored plan is completed only if the verifier allows it; one that is not stored is not
shown to the verifier at all. -/
theorem completeOrReplan_verified_iff
    (h : s.CompletionsVerified) (run : PlanRun) (replans : Nat) (input : WorkerInput)
    (response : String) :
    (completeOrReplan D s run replans input response).CompletionsVerified
      ↔ (llmSignalsCompletion D.letters response = true → s.canComplete = true →
        run.persisted.isSome = true) := by
  have hrecord : verification D.config run input response true
      = run.persisted.map fun _ => verificationRequest D.config run input response true :=
    if_pos hverifier
  rw [CompletionsVerified, completeOrReplan_completions, hrecord]
  cases run.persisted with
  -- nothing was asked of the verifier, so a completion cannot be a verified one
  | none =>
    split
    · next hcompleted =>
      refine iff_of_false (fun hall => ?_) fun hstored => ?_
      · obtain ⟨req, hreq, -⟩ := hall _ List.mem_cons_self
        cases hreq
      · cases hstored hcompleted.1 hcompleted.2.2
    · next hnot => exact iff_of_true h fun hclaims hcan => absurd ⟨hclaims, rfl, hcan⟩ hnot
  | some p =>
    refine iff_of_true ?_ fun _ _ => rfl
    split
    · next hcompleted =>
      refine List.forall_mem_cons.mpr ⟨?_, h⟩
      exact ⟨_, rfl, rfl, rfl, rfl, rfl, rfl, hcompleted.2.1⟩
    · exact h

theorem checkCompletion_verified_iff
    (h : s.CompletionsVerified) (run : PlanRun) (replans : Nat) (input : WorkerInput) :
    (checkCompletion D s run replans input).CompletionsVerified
      ↔ (claimsCompletion D input = true → s.canComplete = true → run.persisted.isSome = true) := by
  unfold checkCompletion claimsCompletion
  cases input.reply with
  | error =>
    refine iff_of_true ?_ (fun hclaims => nomatch hclaims)
    exact (completionsVerified_congr (leave_completions D _ _ _)).mpr h
  | ok =>
    refine completeOrReplan_verified_iff hverifier ?_ run replans input _
    exact h

end

/-! ## Runs -/

/-- When the model says that a job is complete after the last action of a plan, and it can be
completed, the plan is one that was stored. -/
def claimsStoredPlan (D : WorkerDeps) (s : Worker) : Label → Bool
  | .advance input =>
      match s.phase with
      | .executing run _ =>
          run.next.isSome || !claimsCompletion D input || !s.canComplete || run.persisted.isSome
      | _ => true
  | .timeout _ => true
  | .context _ => true

section

variable (hverifier : D.config.autonomyVerifierV1 = true)

include hverifier

theorem advance_verified_iff (h : s.CompletionsVerified) (input : WorkerInput) :
    (advance D s input).CompletionsVerified ↔ claimsStoredPlan D s (.advance input) = true := by
  unfold advance claimsStoredPlan
  cases s.phase with
  | planning =>
    exact iff_of_true ((completionsVerified_congr (planFirst_completions D s input)).mpr h) rfl
  | executing run replans =>
    dsimp only
    cases hnext : run.next with
    | some action =>
      refine iff_of_true ?_ rfl
      exact (completionsVerified_congr
        (executeAction_completions D s run replans action input)).mpr h
    | none =>
      rw [checkCompletion_verified_iff hverifier h run replans input]
      cases claimsCompletion D input <;> cases s.canComplete <;> simp
  | replanning run replans reason detail =>
    exact iff_of_true ((completionsVerified_congr
      (replan_completions D s run replans reason detail input)).mpr h) rfl
  | selecting iteration =>
    exact iff_of_true ((completionsVerified_congr
      (selectDirect_completions D s iteration input)).mpr h) rfl
  | ended => exact iff_of_true h rfl

theorem step_verified_iff (s : Worker) (label : Label) (h : s.CompletionsVerified) :
    (step D s label).CompletionsVerified ↔ claimsStoredPlan D s label = true := by
  cases label with
  | advance input => exact advance_verified_iff hverifier h input
  | timeout now =>
    refine iff_of_true ?_ rfl
    dsimp only [step]
    split
    · exact h
    · exact (completionsVerified_congr (mark_completions D s now .stuck _)).mpr h
  | context => exact iff_of_true h rfl

end

/-- **Completed plans are verified ones** throughout a run exactly if the model calls only such
executions complete whose plan was stored. -/
theorem completionsVerified_iff (D : WorkerDeps) (ctx : JobContext)
    (hverifier : D.config.autonomyVerifierV1 = true) (labels : List Label) :
    (∀ pre, pre <+: labels → (Run.run (step D) (initial D ctx) pre).CompletionsVerified)
      ↔ Run.Guarded (step D) (fun s label => claimsStoredPlan D s label = true) (initial D ctx)
        labels := by
  have hnone : (initial D ctx).CompletionsVerified := by
    intro c hc
    cases hc
  exact Run.reached_iff_guarded (step_verified_iff hverifier) hnone

def sampleClaim : Label := .advance { reply := .ok (.text "The job is complete.") }

theorem completionsVerified_stored :
    let labels : List Label :=
      [.advance { plan := .ok samplePlan }, sampleAction (.ok "hi"), sampleClaim]
    ((Run.run (step sampleDeps) (initial sampleDeps sampleContext) labels).completions.length = 1)
      ∧ ∀ pre, pre <+: labels →
        (Run.run (step sampleDeps) (initial sampleDeps sampleContext) pre).CompletionsVerified := by
  refine ⟨by decide +kernel, ?_⟩
  exact (completionsVerified_iff sampleDeps sampleContext rfl _).mpr (by decide +kernel)

/-- The goal cannot be stored, or the second plan cannot, and the job is completed without a
word from the verifier. -/
theorem completed_unverified :
    let after (labels : List Label) : Option JobState × List Bool :=
      let s := Run.run (step sampleDeps) (initial sampleDeps sampleContext) labels
      (s.ctx.map (·.state), s.completions.map (·.verification.isSome))
    after [.advance { plan := .ok samplePlan, store := { createGoal := .error "locked" } },
        sampleAction (.ok "hi"), sampleClaim] = (some .completed, [false])
      ∧ after [.advance { plan := .ok samplePlan }, sampleAction (.error (.notFound "echo")),
        .advance { plan := .ok samplePlan, store := { createPlan := .error "locked" } },
        sampleAction (.ok "hi"), sampleClaim] = (some .completed, [false]) := by
  decide +kernel

end TitanClaw.Agent.Worker
