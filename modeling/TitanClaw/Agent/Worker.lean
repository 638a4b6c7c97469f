import TitanClaw.Agent.Machine
import TitanClaw.Agent.PlanReview
import TitanClaw.Context.Manager

/-! # The worker of a job

A worker makes a plan and executes it action by action, or, without a plan, lets the model
select tools until it says that the job is complete. After the last action the model is asked
whether the job is complete; where it is not, or where the verifier does not agree, a new plan
is made, as long as the plan before it could be stored.

A step of the machine goes from one answer of the model or of a tool to the next. What the
outside answers is the input of the step; the context of the job can be changed by others at
any time. -/

namespace TitanClaw.Agent

open Llm Text Context

structure WorkerConfig where
  usePlanning : Bool := true
  autonomyReplannerV1 : Bool := false
  autonomyVerifierV1 : Bool := false
  autonomyToolRoutingV2 : Bool := false
  autonomySmartRulesEnabled : Bool := false
  autonomySmartRulesEmptyPlanRecovery : Bool := false
  smartRulesMaxFallbackAttempts : Nat := 2
  hasStore : Bool := true

structure WorkerDeps where
  config : WorkerConfig
  json : JsonCodec
  letters : CaseMap
  sanitizeToolOutput : String → String → SanitizedOutput
  jobId : String
  title : String
  description : String

structure PersistedPlanRun where
  goalId : String
  planId : String
  stepIds : List String

structure PlanRun where
  plan : ActionPlan
  persisted : Option PersistedPlanRun
  executedSteps : Nat := 0
  succeededSteps : Nat := 0
  failedSteps : Nat := 0
  evidence : List StepEvidence := []

def PlanRun.next (run : PlanRun) : Option PlannedAction := run.plan.actions[run.executedSteps]?

structure StepExecution where
  selectedToolName : String
  selectedAttemptIndex : Nat
  elapsedMs : Int
  result : Except StepError String

def PlanRun.record (run : PlanRun) (action : PlannedAction) (execution : StepExecution) : PlanRun :=
  { run with
    executedSteps := run.executedSteps + 1
    succeededSteps := run.succeededSteps + (if execution.result.isOk then 1 else 0)
    failedSteps := run.failedSteps + (if execution.result.isOk then 0 else 1)
    evidence := run.evidence
      ++ [classifyStepEvidence execution.selectedToolName action.parameters action.reasoning] }

inductive WorkerPhase where
  | planning
  | executing (run : PlanRun) (replans : Nat)
  | replanning (run : PlanRun) (replans : Nat) (reason : ReplanReason) (detail : String)
  | selecting (iteration : Nat)
  | ended

/-- A job that was marked as completed after the execution of a plan, and what the verifier
was asked then. -/
structure CompletionRecord where
  run : PlanRun
  verification : Option VerificationRequest

/-- The messages are the context of the model. The lists that have been sent to it, and the
completions, are records that nothing reads. -/
structure Worker where
  phase : WorkerPhase := .planning
  messages : List ChatMessage
  ctx : Option JobContext
  sent : List (List ChatMessage) := []
  completions : List CompletionRecord := []

inductive WorkerMessage where
  | start
  | stop
  | ping
  deriving DecidableEq

structure Attempt where
  result : Except StepError String
  elapsedMs : Int := 0

structure StoreAnswers where
  createGoal : Except String Unit := .ok ()
  createPlan : Except String Unit := .ok ()
  createPlanSteps : Except String Unit := .ok ()
  goalId : String := ""
  planId : String := ""
  stepId : Nat → String := fun _ => ""

structure WorkerInput where
  now : Int := 0
  message : Option WorkerMessage := none
  /-- The system prompt of the request to the model. -/
  systemPrompt : String := ""
  retrieval : Option String := none
  plan : Except String ActionPlan := .error ""
  store : StoreAnswers := {}
  /-- The tools that are tried for a planned action, best first. -/
  candidates : List String := []
  attempts : Nat → Attempt := fun _ => ⟨.error (.other ""), 0⟩
  tools : List ToolDefinition := []
  selections : Except String (List ToolCall) := .ok []
  reply : Except String RespondResult := .error ""
  goal : Except String (Option (GoalRiskClass × JsonValue)) := .ok none

namespace Worker

/-! ## Messages and states -/

variable (s : Worker)

def push (m : ChatMessage) : Worker := { s with messages := s.messages ++ [m] }

def send (msgs : List ChatMessage) : Worker := { s with sent := s.sent ++ [msgs] }

variable (D : WorkerDeps) (s : Worker) (now : Int)

def mark (target : JobState) (reason : String) : Except String Unit × Worker :=
  match s.ctx with
  | none => (.error ("Job error: Job " ++ D.jobId ++ " not found"), s)
  | some ctx =>
      let (result, ctx) := ctx.transitionTo now target (some reason)
      (match result with
        | .ok () => .ok ()
        | .error e => .error ("Job error: Job " ++ D.jobId ++ " context error: " ++ e),
        { s with ctx := some ctx })

/-- The loop is left; after an error the job has failed. -/
def leave : Except String Unit → Worker
  | .ok () => { s with phase := .ended }
  | .error e => { (mark D s now .failed e).2 with phase := .ended }

def markStuck (reason : String) : Worker :=
  let (result, s) := mark D s now .stuck reason
  leave D s now result

def processToolResult (toolCallId toolName : String) (result : Except StepError String) : Worker :=
  s.push (.toolResult toolCallId toolName
    (match result with
      | .ok output =>
          let sanitized := D.sanitizeToolOutput toolName output
          wrapForLlm toolName sanitized.content sanitized.wasModified
      | .error e => "Error: " ++ e.toText))

def processToolResults (D : WorkerDeps) (attempts : Nat → Attempt) :
    Worker → Nat → List ToolCall → Worker
  | s, _, [] => s
  | s, i, call :: calls =>
      processToolResults D attempts (s.processToolResult D call.id call.name (attempts i).result)
        (i + 1) calls

/-! ## Planning -/

variable (input : WorkerInput)

def planningMessages : List ChatMessage :=
  .system input.systemPrompt :: (s.messages
    ++ (match (input.retrieval.map trim).filter (!·.isEmpty) with
      | some block => [.system
          ("Retrieved memory context for planning (Phase 2, best-effort):\n" ++ block)]
      | none => [])
    ++ [.user ("Please create a plan to complete this job:\n\n" ++ D.description)])

/-- `plan_initial_with_retrieval`. -/
def plannerOutcome : Except String PlannerOutcome :=
  match input.plan with
  | .error e => .error ("LLM error: " ++ e)
  | .ok plan => validateActionPlan plan

variable (cfg : WorkerConfig) (answers : StoreAnswers) (plan : ActionPlan)

def persistActionPlan : Option PersistedPlanRun :=
  if !cfg.hasStore then none
  else
    match answers.createGoal, answers.createPlan, answers.createPlanSteps with
    | .ok _, .ok _, .ok _ =>
        some ⟨answers.goalId, answers.planId, (List.range plan.actions.length).map answers.stepId⟩
    | _, _, _ => none

def persistReplannedActionPlan (goalId : String) (plan : ActionPlan) : Option PersistedPlanRun :=
  if !cfg.hasStore then none
  else
    match answers.createPlan, answers.createPlanSteps with
    | .ok _, .ok _ =>
        some ⟨goalId, answers.planId, (List.range plan.actions.length).map answers.stepId⟩
    | _, _ => none

def startPlan (persisted : Option PersistedPlanRun) (replans : Nat) : Worker :=
  { s with
    ctx := match persisted with
      | some p => s.ctx.map fun ctx =>
          (ctx.setAutonomyLinks (some p.goalId) (some p.planId)).setAutonomyPlanStep none
      | none => s.ctx
    phase := .executing { plan, persisted } replans }

variable (s : Worker)

def planFirst (input : WorkerInput) : Worker :=
  if !D.config.usePlanning then { s with phase := .selecting 0 }
  else
    let s := s.send (planningMessages D s input)
    match plannerOutcome input with
    | .ok (.ready plan summary) =>
        -- if the store fails, the plan is executed all the same
        let persisted :=
          if s.ctx.isSome then persistActionPlan D.config input.store plan else none
        (s.push (.assistant summary)).startPlan plan persisted 0
    | .ok (.needsClarification reason suggestions) =>
        let guidance := formatClarificationGuidance reason suggestions
        let s := s.push (.assistant guidance)
        if D.config.autonomySmartRulesEnabled && D.config.autonomySmartRulesEmptyPlanRecovery
        then markStuck D s input.now guidance
        else { s with phase := .selecting 0 }
    | .error _ => { s with phase := .selecting 0 }

def replan (run : PlanRun) (replans : Nat) (reason : ReplanReason)
    (detail : String) (input : WorkerInput) : Worker :=
  match run.persisted with
  | none =>
      markStuck D s input.now
        ("Plan requires replan but autonomy linkage is unavailable: " ++ detail)
  | some previous =>
      if ¬ replans < maxReplansPerJob then
        markStuck D s input.now ("Automatic replan budget exhausted after " ++ toString replans
          ++ " attempts (last reason: " ++ reason.code ++ " - " ++ detail ++ ")")
      else
        let s := s.push (.user (replanPrompt reason detail))
        let s := s.send (planningMessages D s input)
        match plannerOutcome input with
        | .error e =>
            markStuck D s input.now ("Automatic replanning failed after "
              ++ toString (replans + 1) ++ " attempt(s): " ++ e)
        | .ok (.needsClarification reason suggestions) =>
            markStuck D s input.now ("Automatic replanning needs clarification after "
              ++ toString (replans + 1) ++ " attempt(s): "
              ++ formatClarificationGuidance reason suggestions)
        | .ok (.ready plan summary) =>
            (s.push (.assistant summary)).startPlan plan
              (persistReplannedActionPlan D.config input.store previous.goalId plan) (replans + 1)

/-- The first candidate that succeeds, or fails in a way that no other could mend, or is the
last one. -/
def tryCandidates (cfg : WorkerConfig) (maxAttempts : Nat) (attempts : Nat → Attempt) :
    Nat → List String → Option StepExecution
  | _, [] => none
  | i, candidate :: rest =>
      let mendable := match (attempts i).result with
        | .error e => (classifyReplanReasonForStepError e).isSome
        | .ok _ => false
      if cfg.autonomyToolRoutingV2 && decide (i + 1 < maxAttempts) && mendable then
        tryCandidates cfg maxAttempts attempts (i + 1) rest
      else some ⟨candidate, i, (attempts i).elapsedMs, (attempts i).result⟩

def executePlanStepWithRouting (requested : String)
    (candidates : List String) (attempts : Nat → Attempt) : StepExecution :=
  let maxAttempts :=
    if cfg.autonomySmartRulesEnabled then
      min (1 + cfg.smartRulesMaxFallbackAttempts) candidates.length
    else candidates.length
  match tryCandidates cfg maxAttempts attempts 0 (candidates.take maxAttempts) with
  | some execution => execution
  | none =>
      if cfg.autonomySmartRulesEnabled ∧ maxAttempts < candidates.length ∧ 0 < maxAttempts then
        ⟨candidates.getD (maxAttempts - 1) requested, maxAttempts - 1, 0,
          .error (.executionFailed requested ("Smart-rule fallback budget exhausted after "
            ++ toString maxAttempts ++ " attempt(s); replanning required"))⟩
      else
        ⟨requested, 0, 0,
          .error (.executionFailed requested "No tool candidate could be selected for execution")⟩

variable (run : PlanRun)

def executeAction (replans : Nat) (action : PlannedAction) (input : WorkerInput) : Worker :=
  if input.message = some .stop then { s with phase := .ended }
  else
    let i := run.executedSteps
    let execution :=
      executePlanStepWithRouting D.config action.toolName input.candidates input.attempts
    -- the model has made no call with this id, and none is put into the messages
    let s := s.processToolResult D
      ("plan_" ++ D.jobId ++ "_" ++ toString i ++ "_" ++ toString execution.selectedAttemptIndex)
      execution.selectedToolName execution.result
    let request := stepReplanRequest i run.plan.actions.length action.toolName
      execution.selectedToolName execution.elapsedMs execution.result
    match request with
    | some (reason, detail) =>
        if D.config.autonomyReplannerV1 then
          { s with phase := .replanning (run.record action execution) replans reason detail }
        else { s with phase := .executing (run.record action execution) replans }
    | none => { s with phase := .executing (run.record action execution) replans }

/-! ## The end of a plan -/

/-- `Reasoning::respond`: calls are shown as text. -/
def respondText (J : JsonCodec) : RespondResult → String
  | .text text => text
  | .toolCalls calls _ =>
      "[Calling tools: " ++ ", ".intercalate (calls.map fun call =>
        "`" ++ call.name ++ "(" ++ J.toText call.arguments ++ ")`") ++ "]"

variable (input : WorkerInput)

def loadGoalVerifierContext : GoalRiskClass × JsonValue :=
  match cfg.hasStore, input.goal with
  | true, .ok (some goal) => goal
  | _, _ => (.medium, .obj [])

variable (response : String) (completionClaimed : Bool)

def verificationRequest : VerificationRequest where
  completionClaimed
  completionCandidateSummary := response
  plannedSteps := run.plan.actions.length
  executedSteps := run.executedSteps
  succeededSteps := run.succeededSteps
  failedSteps := run.failedSteps
  baseEvidence := run.evidence
  acceptanceCriteria := (loadGoalVerifierContext cfg input).2
  riskClass := (loadGoalVerifierContext cfg input).1

def verification : Option VerificationRequest :=
  if cfg.autonomyVerifierV1 then
    run.persisted.map fun _ => verificationRequest cfg run input response completionClaimed
  else none

/-- Why the job is stuck, and what a new plan is needed for, when it is not complete. -/
def incomplete
    (verification : Option VerificationRequest) : String × Option (ReplanReason × String) :=
  let stuckReason := "Plan completed but job incomplete - needs re-planning"
  if completionClaimed then
    match verification with
    | none => (stuckReason, none)
    | some req =>
        let result := verifyCompletion req
        let blocked (what : String) : Option (ReplanReason × String) :=
          some (.verifierInsufficientEvidence,
            "Verifier blocked completion (" ++ what ++ "): " ++ result.summary)
        match result.nextAction with
        | .replan => (stuckReason, blocked "replan")
        | .gatherEvidence => (stuckReason, blocked "gather_evidence")
        | .complete => (result.summary, none)
  else
    (stuckReason, some (if 0 < run.failedSteps then .stepFailure else .planExhaustedIncomplete,
      "Planned execution exhausted (" ++ toString run.executedSteps ++ "/"
        ++ toString run.plan.actions.length
        ++ ") but completion check reported remaining work. Failed steps: "
        ++ toString run.failedSteps ++ ". Response: " ++ String.ofList (response.toList.take 280)))

def completionQuestion : String :=
  "All planned actions have been executed. Is the job complete? If not, what else needs to be done?"

def verifierAllowsCompletion (verification : Option VerificationRequest) : Bool :=
  (verification.map fun req => (verifyCompletion req).allowCompletion).getD completionClaimed

def completeAfterPlan (now : Int) (record : CompletionRecord) : Worker :=
  match mark D s now .completed "Job completed successfully" with
  | (.ok (), s) => { s with completions := record :: s.completions, phase := .ended }
  | (.error e, s) => leave D s now (.error e)

def completeOrReplan (replans : Nat) (input : WorkerInput) (response : String) : Worker :=
  let claimed := llmSignalsCompletion D.letters response
  let verification := verification D.config run input response claimed
  -- a plan that is not stored has no verification, and then what the model claims is enough
  if claimed && verifierAllowsCompletion claimed verification then
    completeAfterPlan D s input.now ⟨run, verification⟩
  else
    let (stuckReason, request) := incomplete run response claimed verification
    match request with
    | some (reason, detail) =>
        if D.config.autonomyReplannerV1 && run.persisted.isSome then
          { s with phase := .replanning run replans reason detail }
        else markStuck D s input.now stuckReason
    | none => markStuck D s input.now stuckReason

def checkCompletion (replans : Nat) (input : WorkerInput) : Worker :=
  let s := s.push (.user completionQuestion)
  let s := s.send (.system input.systemPrompt :: s.messages)
  match input.reply with
  | .error e => leave D s input.now (.error ("LLM error: " ++ e))
  | .ok reply =>
      let response := respondText D.json reply
      completeOrReplan D (s.push (.assistant response)) run replans input response

def maxIterations : Nat := 50

/-- The model answers without a selection. -/
def respondDirect (iteration : Nat) (input : WorkerInput) : Worker :=
  let s := s.send (.system input.systemPrompt :: s.messages)
  match input.reply with
  | .error e => leave D s input.now (.error ("LLM error: " ++ e))
  | .ok (.text response) =>
      if llmSignalsCompletion D.letters response then
        let (result, s) := mark D s input.now .completed "Job completed successfully"
        leave D s input.now result
      else if D.config.autonomySmartRulesEnabled && D.config.autonomySmartRulesEmptyPlanRecovery
          && looksLikeNonActionableResponse response then
        markStuck D s input.now
          ("Execution paused because the model reported no actionable task.\nReason: "
            ++ trim response ++ "\nSuggested next steps:\n"
            ++ "- Restate the exact outcome you want for this job.\n"
            ++ "- Mention specific files, tools, or constraints.\n"
            ++ "- Confirm whether TitanClaw should execute immediately or ask before risky steps.")
      else
        let s := s.push (.assistant response)
        if 3 < iteration ∧ iteration % 5 = 0 then
          s.push (.user "Are you stuck? Do you need help completing this job?")
        else s
  | .ok (.toolCalls calls content) =>
      (s.push (.assistantWithToolCalls content calls)).processToolResults D input.attempts 0 calls

def selectDirect (iteration : Nat) (input : WorkerInput) : Worker :=
  if input.message = some .stop then { s with phase := .ended }
  else if s.ctx.map (·.state) = some .cancelled then { s with phase := .ended }
  else if maxIterations < iteration + 1 then markStuck D s input.now "Maximum iterations exceeded"
  else
    let s := { s with phase := .selecting (iteration + 1) }
    if input.tools.isEmpty then respondDirect D s (iteration + 1) input
    else
      let s := s.send s.messages
      match input.selections with
      | .error e => leave D s input.now (.error ("LLM error: " ++ e))
      | .ok [] => respondDirect D s (iteration + 1) input
      | .ok (call :: calls) => s.processToolResults D input.attempts 0 (call :: calls)

inductive Label where
  | advance (input : WorkerInput)
  | timeout (now : Int)
  /-- Others change the context of the job, or remove it. -/
  | context (ctx : Option JobContext)

def advance : Worker :=
  match s.phase with
  | .planning => planFirst D s input
  | .executing run replans =>
      match run.next with
      | some action => executeAction D s run replans action input
      | none => checkCompletion D s run replans input
  | .replanning run replans reason detail => replan D s run replans reason detail input
  | .selecting iteration => selectDirect D s iteration input
  | .ended => s

def step : Label → Worker
  | .advance input => advance D s input
  | .timeout now =>
      match s.phase with
      | .ended => s
      | _ => { (mark D s now .stuck "Execution timeout").2 with phase := .ended }
  | .context ctx => { s with ctx }

def initial (ctx : JobContext) : Worker where
  messages := [.system ("You are an autonomous agent working on a job.\n\nJob: " ++ D.title
    ++ "\nDescription: " ++ D.description
    ++ "\n\nYou have access to tools to complete this job. Plan your approach and execute tools "
    ++ "as needed.\nYou may request multiple tools at once if they can be executed in parallel.\n"
    ++ "Report when the job is complete or if you encounter issues you cannot resolve.")]
  ctx := some ctx

def sampleDeps : WorkerDeps where
  config := { autonomyVerifierV1 := true, autonomyReplannerV1 := true }
  json := ⟨fun _ => "", fun _ => .ok "", fun _ => .error ""⟩
  letters := Text.asciiCase
  sanitizeToolOutput _ output := ⟨output, false⟩
  jobId := "j"
  title := "t"
  description := "d"

def sampleContext : JobContext :=
  { jobId := "j", state := .inProgress, userId := "u", title := "t", description := "d",
    createdAt := 0 }

def samplePlan : ActionPlan := { goal := "g", actions := [⟨"echo", .null, ""⟩] }

def sampleAction (result : Except StepError String) : Label :=
  .advance { candidates := ["echo"], attempts := fun _ => ⟨result, 0⟩ }

end Worker

end TitanClaw.Agent
