import TitanClaw.Lib.Json
import TitanClaw.Lib.Text

/-! # Plans and their review

What a plan must look like to be executed, what the failure of a step means, and when the
execution of a plan counts as complete. All of it is computed from the plan and from what its
steps have returned. -/

namespace TitanClaw.Agent

open Text

/-- `to_ascii_lowercase`. -/
def asciiLower (s : String) : String := String.ofList (s.toList.map Char.toLower)

/-! ## Plans -/

structure PlannedAction where
  toolName : String
  parameters : JsonValue
  reasoning : String

structure ActionPlan where
  goal : String
  actions : List PlannedAction
  confidenceInRange : Bool := true
  confidence : String := ""

inductive PlannerOutcome where
  | ready (plan : ActionPlan) (planTraceSummary : String)
  | needsClarification (reason : String) (suggestedNextActions : List String)

def defaultClarificationActions (goal : String) : List String :=
  [if (trim goal).isEmpty then "State the main outcome you want in one sentence."
    else "Confirm the main outcome: \"" ++ trim goal ++ "\".",
    "List 1-3 concrete actions or files/tools TitanClaw should use.",
    "Tell TitanClaw whether to execute immediately or ask before each risky step."]

def renderPlanTraceSummary (plan : ActionPlan) : String :=
  "I've created a plan to accomplish this goal: " ++ plan.goal ++ "\n\nSteps:\n"
    ++ "\n".intercalate (plan.actions.zipIdx.map fun (a, i) =>
      toString (i + 1) ++ ". " ++ a.toolName ++ " - " ++ a.reasoning)

def validateActionPlan (plan : ActionPlan) : Except String PlannerOutcome :=
  if (trim plan.goal).isEmpty then
    .ok (.needsClarification "Planner could not infer a concrete goal from the request"
      (defaultClarificationActions ""))
  else if plan.actions.isEmpty then
    .ok (.needsClarification "Planner returned no actionable steps for the current request"
      (defaultClarificationActions plan.goal))
  else if !plan.confidenceInRange then
    .error ("Worker error: Worker execution failed: Planner returned invalid confidence "
      ++ plan.confidence ++ "; expected 0.0..=1.0")
  else .ok (.ready plan (renderPlanTraceSummary plan))

variable (reason : String)

def formatClarificationGuidance (suggestions : List String) : String :=
  "Planner needs clarification before execution.\nReason: " ++ trim reason
    ++ if suggestions.isEmpty then ""
      else "\nSuggested next steps:" ++ String.join (suggestions.map fun s => "\n- " ++ trim s)

/-! ## Replanning -/

inductive ReplanReason where
  | planExhaustedIncomplete
  | stepFailure
  | policyDenied
  | verifierInsufficientEvidence
  | budgetExceeded
  | toolUnavailable
  deriving DecidableEq

def ReplanReason.code : ReplanReason → String
  | planExhaustedIncomplete => "plan_exhausted_incomplete"
  | stepFailure => "step_failure"
  | policyDenied => "policy_denied"
  | verifierInsufficientEvidence => "verifier_insufficient_evidence"
  | budgetExceeded => "budget_exceeded"
  | toolUnavailable => "tool_unavailable"

def replanPrompt (reason : ReplanReason) (detail : String) : String :=
  "The previous plan needs revision. Replan now.\nReason: " ++ reason.code ++ ".\nDetail: "
    ++ detail ++ "\nProduce a revised multi-step plan that avoids the failure mode and "
    ++ "completes the job."

def maxReplansPerJob : Nat := 2

/-- How a tool fails in a job; other errors by their text. -/
inductive StepError where
  | notFound (name : String)
  | executionFailed (name reason : String)
  | timeout (name duration : String)
  | authRequired (name : String)
  | other (text : String)

def StepError.toText : StepError → String
  | notFound name => "Tool error: Tool " ++ name ++ " not found"
  | executionFailed name reason => "Tool error: Tool " ++ name ++ " execution failed: " ++ reason
  | timeout name duration => "Tool error: Tool " ++ name ++ " timed out after " ++ duration
  | authRequired name => "Tool error: Tool " ++ name ++ " requires authentication"
  | other text => text

def classifyReplanReasonForStepError : StepError → Option ReplanReason
  | .authRequired _ => some .policyDenied
  | .executionFailed _ reason =>
      if startsWith reason "Blocked by hook:" then some .policyDenied else some .stepFailure
  | .notFound _ => some .toolUnavailable
  | .timeout _ _ => some .stepFailure
  | .other _ => none

def isPolicyBlockReason : Bool :=
  ["blocked by", "approval", "circuit breaker", "policy"].any (contains (asciiLower reason))

def isTransientFailureReason : Bool :=
  ["timeout", "temporar", "connection", "network", "rate limit"].any (contains (asciiLower reason))

def isFallbackBudgetExhaustedReason : Bool :=
  contains (asciiLower reason) "fallback budget exhausted"

/-- `ExecutionCritic::evaluate_step`: why to replan, if it says so. -/
def evaluateStep (stepIndex totalSteps : Nat) (toolName : String) (elapsedMs : Int)
    (result : Except StepError String) : Option (ReplanReason × String) :=
  let after (what : String) : String :=
    "Execution critic requested replan after step " ++ toString (stepIndex + 1) ++ "/"
      ++ toString totalSteps ++ " (" ++ toolName ++ "): " ++ what
  match result with
  | .error (.authRequired _) =>
      some (.policyDenied, after "approval/policy requirement blocked tool execution.")
  | .error (.timeout _ _) =>
      some (.stepFailure, after "timeout suggests alternate strategy/tool is needed.")
  | .error (.notFound _) => some (.toolUnavailable, after "tool is unavailable.")
  | .error (.executionFailed _ reason) =>
      if isFallbackBudgetExhaustedReason reason then some (.stepFailure, after reason)
      else if isPolicyBlockReason reason then some (.policyDenied, after reason)
      else if isTransientFailureReason reason then
        some (.stepFailure, after ("transient failure pattern detected (" ++ reason ++ ")"))
      else none
  | .error (.other _) => none
  | .ok _ =>
      if 60000 < elapsedMs ∧ stepIndex + 1 < totalSteps then
        some (.budgetExceeded, after ("step took " ++ toString elapsedMs
          ++ "ms and exceeded latency budget."))
      else none

/-- Whether a step that has returned asks for a new plan. The critic is heard where the error
alone does not, or where it sees a denial that the error alone does not show. -/
def stepReplanRequest (i totalSteps : Nat) (requested selected : String) (elapsedMs : Int)
    (result : Except StepError String) : Option (ReplanReason × String) :=
  let byError : Option (ReplanReason × String) :=
    match result with
    | .ok _ => none
    | .error e =>
        (classifyReplanReasonForStepError e).map fun reason =>
          (reason, "Planned step " ++ toString (i + 1) ++ "/" ++ toString totalSteps ++ " ("
            ++ requested ++ ") failed and requires replanning: " ++ e.toText)
  match byError, evaluateStep i totalSteps selected elapsedMs result with
  | byError, none => byError
  | none, some byCritic => some byCritic
  | some byError, some byCritic =>
      if byCritic.1 = .policyDenied ∧ byError.1 ≠ .policyDenied then some byCritic
      else some byError

inductive EvidenceKind where
  | toolResult
  | fileDiff
  | testRun
  | commandOutput
  deriving DecidableEq

structure StepEvidence where
  kind : EvidenceKind
  checkKind : String

def classifyStepEvidence (toolName : String) (parameters : JsonValue) (reasoning : String) :
    StepEvidence :=
  let tool := asciiLower toolName
  let why := asciiLower reasoning
  let command := asciiLower (((parameters.get? "command").bind JsonValue.asStr?).getD "")
  let mentions (text : String) (hints : List String) : Bool := hints.any (contains text)
  if mentions tool ["test"]
      || mentions command ["cargo test", "pytest", "npm test", "pnpm test", "yarn test"]
      || mentions why ["test"] then ⟨.testRun, "test"⟩
  else if mentions tool ["lint"]
      || mentions command ["cargo clippy", "cargo check", "eslint", "ruff", "golangci-lint"]
      || mentions why ["lint", "compile check"] then ⟨.testRun, "lint_or_check"⟩
  else if mentions tool ["diff"] || mentions command ["git diff", "diff --"]
      || mentions why ["diff", "patch"] then ⟨.fileDiff, "diff"⟩
  else if mentions tool ["shell", "command", "exec"] then ⟨.commandOutput, "command_output"⟩
  else ⟨.toolResult, "tool_result"⟩

/-! ## The verifier -/

inductive GoalRiskClass where
  | low
  | medium
  | high
  | critical
  deriving DecidableEq

inductive PlanVerificationStatus where
  | passed
  | failed
  | inconclusive

inductive VerificationNextAction where
  | complete
  | replan
  | gatherEvidence

structure VerificationRequest where
  completionClaimed : Bool
  completionCandidateSummary : String
  plannedSteps : Nat
  executedSteps : Nat
  succeededSteps : Nat
  failedSteps : Nat
  baseEvidence : List StepEvidence
  acceptanceCriteria : JsonValue
  riskClass : GoalRiskClass

structure VerificationResult where
  status : PlanVerificationStatus
  allowCompletion : Bool
  nextAction : VerificationNextAction
  summary : String
  failureReasons : List String

namespace VerificationRequest

variable (req : VerificationRequest)

def hasAcceptanceCriteria : Bool :=
  match req.acceptanceCriteria with
  | .obj fields => !fields.isEmpty
  | _ => false

def highRisk : Bool := req.riskClass == .high || req.riskClass == .critical

/-- A completion that failed steps speak against. -/
def contradiction : Bool := req.completionClaimed && 0 < req.failedSteps

/-- A test or check has been run, or a file has been changed. -/
def strongHighRiskEvidence : Bool :=
  req.baseEvidence.any fun ev => ev.kind == .testRun || ev.kind == .fileDiff

def needsMoreEvidence : Bool :=
  req.highRisk && req.hasAcceptanceCriteria && req.failedSteps == 0 && !req.strongHighRiskEvidence

def failureReasons : List String :=
  (if req.completionClaimed then [] else ["llm_did_not_claim_completion"])
    ++ (if 0 < req.failedSteps then ["failed_steps_present"] else [])
    ++ (if req.executedSteps = req.plannedSteps then [] else ["not_all_planned_steps_executed"])
    ++ (if req.contradiction then ["completion_claim_contradicted_by_failed_steps"] else [])
    ++ (if req.completionClaimed && !req.contradiction && req.needsMoreEvidence then
      ["high_risk_requires_more_evidence"] else [])

def verdict : PlanVerificationStatus × Bool × VerificationNextAction :=
  if !req.completionClaimed then (.failed, false, .replan)
  else if req.contradiction then
    if req.highRisk then (.inconclusive, false, .replan) else (.inconclusive, true, .complete)
  else if req.needsMoreEvidence then (.inconclusive, false, .gatherEvidence)
  else (.passed, true, .complete)

end VerificationRequest

def verifyCompletion (req : VerificationRequest) : VerificationResult :=
  let (status, allowCompletion, nextAction) := req.verdict
  let reasons := ", ".intercalate req.failureReasons
  let summary := match status with
    | .passed => "Verifier passed planned execution completion"
    | .failed => "Verifier rejected completion and requires replan: " ++ reasons
    | .inconclusive =>
        if allowCompletion then
          "Verifier marked completion inconclusive but allowed completion (soft gate): " ++ reasons
        else "Verifier blocked completion pending additional work/evidence: " ++ reasons
  { status, allowCompletion, nextAction, summary, failureReasons := req.failureReasons }

/-- Words like these say that a job is complete. -/
def positivePhrases : List String :=
  ["job is complete", "job complete", "job completed", "job is done", "job is finished",
    "task is complete", "task complete", "task completed", "task is done", "task is finished",
    "work is complete", "work complete", "work completed", "work is done", "work is finished",
    "job complete -", "job complete:", "job completed successfully",
    "task completed successfully", "successfully completed", "completed successfully",
    "have completed the job", "have completed the task", "have finished the job",
    "have finished the task", "all steps are complete", "all steps are done", "i have completed",
    "i've completed", "all done", "all tasks complete"]

def negativePhrases : List String :=
  ["not complete", "not done", "not finished", "incomplete", "unfinished", "isn't done",
    "isn't complete", "isn't finished", "not yet done", "not yet complete", "not yet finished"]

def llmSignalsCompletion (letters : CaseMap) (response : String) : Bool :=
  let lower := letters.toLowercase response
  !negativePhrases.any (contains lower) && positivePhrases.any (contains lower)

end TitanClaw.Agent
