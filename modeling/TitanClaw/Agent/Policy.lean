import Mathlib.Data.List.Dedup
import Mathlib.Data.List.Sort
import TitanClaw.Hooks.Registry
import TitanClaw.Lib.Text
import TitanClaw.Tools.Registry

/-! # The policy engine

Whether a tool call may run at once, needs the user's approval, or is denied or
rewritten by the hooks. -/

namespace TitanClaw.Agent

open Text Tools Hooks List

inductive ApprovalPolicyOutcome where
  | noApprovalRequired
  | requireApproval (reasonCodes : List String)
  | allowAutoApproved (reasonCodes : List String)
  deriving DecidableEq

variable (params : JsonValue)

def paramsRequestDryRun : Bool :=
  let flag (key : String) : Bool := ((params.get? key).bind JsonValue.asBool?).getD false
  flag "dry_run" || flag "simulate" || flag "simulation" || flag "preview_only"
    || match (params.get? "mode").bind JsonValue.asStr? with
      | some s =>
          let mode := String.ofList ((trim s).toList.map Char.toLower)
          mode == "dry_run" || mode == "simulate"
      | none => false

def contractRequiresApprovalReasonCodes (contractV2 : Option ToolContractV2Descriptor)
    (params : JsonValue) : List String :=
  match contractV2 with
  | none => []
  | some contract =>
      let dryRunRequested := paramsRequestDryRun params
      let unsimulated := !dryRunRequested || contract.dryRunSupport == .none
      let highImpact := contract.sideEffectLevel == .systemMutation
        || contract.sideEffectLevel == .externalMutation
      (if contract.requiresApprovalDefault then ["contract_v2_requires_approval_default"]
        else [])
      ++ (match contract.sideEffectLevel with
          | .readOnly | .workspaceWrite => []
          | .systemMutation => if unsimulated then ["contract_v2_system_mutation"] else []
          | .externalMutation => if unsimulated then ["contract_v2_external_mutation"] else []
          | .financial => ["contract_v2_financial"]
          | .credential => ["contract_v2_credential"])
      ++ (if highImpact then
            match contract.dryRunSupport with
            | .none => ["contract_v2_non_simulatable_high_impact"]
            | .native | .simulated =>
                if !dryRunRequested then ["contract_v2_dry_run_not_requested"] else []
          else [])

def sortedCodes (codes : List String) : List String := (codes.insertionSort (· ≤ ·)).dedup

variable (tool : Tool) (params : JsonValue)

def evaluateDispatcherToolApproval
    (sessionAutoApproved : Bool) (contractV2 : Option ToolContractV2Descriptor) :
    ApprovalPolicyOutcome :=
  let contractReasonCodes := contractRequiresApprovalReasonCodes contractV2 params
  let contractRequiresApproval := !contractReasonCodes.isEmpty
  if !tool.requiresApproval && !contractRequiresApproval then .noApprovalRequired
  else if sessionAutoApproved && !tool.requiresApprovalFor params && !contractRequiresApproval then
    .allowAutoApproved ["session_auto_approval"]
  else
    .requireApproval (sortedCodes
      ((if tool.requiresApproval then ["tool_requires_approval"] else [])
        ++ contractReasonCodes
        ++ (if sessionAutoApproved && tool.requiresApprovalFor params then
              ["destructive_params_override_auto_approval"] else [])
        ++ (if sessionAutoApproved && contractRequiresApproval then
              ["contract_v2_override_auto_approval"] else [])))

/-- In a job nobody can be asked. -/
def evaluateWorkerToolApproval
    (contractV2 : Option ToolContractV2Descriptor) : ApprovalPolicyOutcome :=
  let reasonCodes := sortedCodes
    ((if tool.requiresApproval then ["tool_requires_approval"] else [])
      ++ contractRequiresApprovalReasonCodes contractV2 params)
  if reasonCodes.isEmpty then .noApprovalRequired else .requireApproval reasonCodes

variable (contract : ToolContractV2Descriptor)

/-- The contract does not ask for approval of a call: its level is low, or the call is a dry
run of a tool that can make one. -/
def Permits (params : JsonValue) : Prop :=
  contract.requiresApprovalDefault = false
    ∧ match contract.sideEffectLevel with
      | .readOnly | .workspaceWrite => True
      | .systemMutation | .externalMutation =>
          contract.dryRunSupport ≠ .none ∧ paramsRequestDryRun params = true
      | .financial | .credential => False

variable {contract params}

theorem contractReasonCodes_eq_nil_iff :
    contractRequiresApprovalReasonCodes (some contract) params = [] ↔ Permits contract params := by
  unfold contractRequiresApprovalReasonCodes Permits
  cases hlevel : contract.sideEffectLevel with
  | readOnly | workspaceWrite | financial | credential => simp [hlevel]
  | systemMutation | externalMutation =>
    cases hsupport : contract.dryRunSupport with
    | none | native | simulated => simp [hlevel, hsupport]

theorem sortedCodes_eq_nil_iff {codes : List String} : sortedCodes codes = [] ↔ codes = [] := by
  rw [sortedCodes, dedup_eq_nil, ← length_eq_zero_iff, length_insertionSort, length_eq_zero_iff]

variable {tool}

theorem evaluateWorkerToolApproval_iff :
    evaluateWorkerToolApproval tool params (some contract) = .noApprovalRequired
      ↔ tool.requiresApproval = false ∧ Permits contract params := by
  rw [← contractReasonCodes_eq_nil_iff]
  simp [evaluateWorkerToolApproval, List.isEmpty_iff, sortedCodes_eq_nil_iff]

/-- A tool that requires approval gets through without one only by the session's
auto-approval. -/
theorem evaluate_requiresApproval (h : tool.requiresApproval = true)
    (params : JsonValue) (contractV2 : Option ToolContractV2Descriptor) :
    ∃ codes, evaluateDispatcherToolApproval tool params false contractV2
      = .requireApproval codes := by
  simp [evaluateDispatcherToolApproval, h]

/-! ## Auto-approval under the inferred contract

The contract that is inferred for a tool takes its default from the tool's own
`requiresApproval`, the very flag the session's auto-approval is to waive, and a
contract that requires approval overrides the waiver. -/

variable (autoApprovedTools : List String)

def AutoApprovalHonoured (tool : Tool) (params : JsonValue) : Prop :=
  ∃ codes, evaluateDispatcherToolApproval tool params (autoApprovedTools.contains tool.name)
    (some (inferToolContractV2Descriptor tool)) = .allowAutoApproved codes

/-- All that the contract of a tool with small effects can hold against a call. -/
theorem contractReasonCodes_inferred (hrequires : tool.requiresApproval = true)
    (hlevel : (inferToolContractV2Descriptor tool).sideEffectLevel = .readOnly
      ∨ (inferToolContractV2Descriptor tool).sideEffectLevel = .workspaceWrite)
    (params : JsonValue) :
    contractRequiresApprovalReasonCodes (some (inferToolContractV2Descriptor tool)) params
      = ["contract_v2_requires_approval_default"] := by
  have hdefault : (inferToolContractV2Descriptor tool).requiresApprovalDefault = true := hrequires
  rcases hlevel with h | h
  · simp [contractRequiresApprovalReasonCodes, hdefault, h]
  · simp [contractRequiresApprovalReasonCodes, hdefault, h]

theorem not_autoApprovalHonoured
    (h : contractRequiresApprovalReasonCodes (some (inferToolContractV2Descriptor tool)) params
      ≠ []) (autoApprovedTools : List String) :
    ¬ AutoApprovalHonoured autoApprovedTools tool params := by
  intro hhonoured
  obtain ⟨codes, hallowed⟩ := hhonoured
  simp [evaluateDispatcherToolApproval, h] at hallowed

/-- **The inferred contract takes the auto-approval back**: a tool that requires
approval is asked for each time, however small its effects. -/
theorem auto_approved_tool_asks_again (tool : Tool)
    (params : JsonValue) (hrequires : tool.requiresApproval = true)
    (hlevel : (inferToolContractV2Descriptor tool).sideEffectLevel = .readOnly
      ∨ (inferToolContractV2Descriptor tool).sideEffectLevel = .workspaceWrite)
    (hparams : tool.requiresApprovalFor params = false) (hauto : tool.name ∈ autoApprovedTools) :
    evaluateDispatcherToolApproval tool params (autoApprovedTools.contains tool.name)
        (some (inferToolContractV2Descriptor tool))
      = .requireApproval ["contract_v2_override_auto_approval",
          "contract_v2_requires_approval_default", "tool_requires_approval"]
    ∧ ¬ AutoApprovalHonoured autoApprovedTools tool params := by
  have hcontains : autoApprovedTools.contains tool.name = true := by simpa using hauto
  have hcodes := contractReasonCodes_inferred hrequires hlevel params
  have hsorted : sortedCodes ["tool_requires_approval", "contract_v2_requires_approval_default",
      "contract_v2_override_auto_approval"] = ["contract_v2_override_auto_approval",
        "contract_v2_requires_approval_default", "tool_requires_approval"] := by
    decide
  refine ⟨?_, not_autoApprovalHonoured (by simp [hcodes]) autoApprovedTools⟩
  rw [hcontains]
  simp [evaluateDispatcherToolApproval, hcodes, hrequires, hparams, hsorted]

def writeFileTool : Tool where
  name := "write_file"
  description := "Write content to a file on the LOCAL FILESYSTEM. NOT for workspace memory "
    ++ "(use memory_write for that). Creates the file if it doesn't exist, overwrites if it "
    ++ "does. Parent directories are created automatically. Use apply_patch for targeted edits."
  parametersSchema := .obj []
  requiresApproval := true
  domain := .container

theorem write_file_asks_again :
    evaluateDispatcherToolApproval writeFileTool (.obj []) true
        (some (inferToolContractV2Descriptor writeFileTool))
      = .requireApproval ["contract_v2_override_auto_approval",
          "contract_v2_requires_approval_default", "tool_requires_approval"] :=
  (auto_approved_tool_asks_again ["write_file"] writeFileTool (.obj []) rfl
    (.inr (by decide)) rfl (mem_singleton.mpr rfl)).1

theorem write_file_auto_approval_lost :
    writeFileTool.requiresApproval = true
      ∧ (inferToolContractV2Descriptor writeFileTool).sideEffectLevel = .workspaceWrite
      ∧ writeFileTool.requiresApprovalFor (.obj []) = false
      ∧ writeFileTool.name ∈ ["write_file"]
      ∧ ¬ AutoApprovalHonoured ["write_file"] writeFileTool (.obj []) := by
  refine ⟨rfl, by decide, rfl, mem_singleton.mpr rfl, ?_⟩
  exact not_autoApprovalHonoured (by decide) _

def approvalReasonNote (reasonCodes : List String) : Option String :=
  if reasonCodes.contains "contract_v2_override_auto_approval"
      || reasonCodes.contains "contract_v2_system_mutation"
      || reasonCodes.contains "contract_v2_non_simulatable_high_impact" then
    some ("High-impact action detected: explicit approval is required each time for safety; "
      ++ "'Always' does not bypass this policy.")
  else if reasonCodes.contains "destructive_params_override_auto_approval" then
    some "Destructive parameters detected: explicit approval is required for this call."
  else none

def enrichApprovalDescription (base : String) (reasonCodes : List String) : String :=
  match approvalReasonNote reasonCodes with
  | some note => trim base ++ " " ++ note
  | none => base

inductive HookToolPolicyOutcome where
  | continue (parameters : JsonValue)
  | modified (parameters : JsonValue) (reasonCodes : List String)
  | deny (reason : String) (reasonCodes : List String)

def HookToolPolicyOutcome.parameters? : HookToolPolicyOutcome → Option JsonValue
  | .continue parameters => some parameters
  | .modified parameters _ => some parameters
  | .deny _ _ => none

def evaluateToolCallHook (J : JsonCodec) (hooks : HookRegistry) (toolName : String)
    (parameters : JsonValue) (userId context : String) : HookToolPolicyOutcome :=
  match hooks.run J (.toolCall toolName parameters userId context) with
  | .error (.rejected reason) => .deny reason ["hook_rejected"]
  | .error err => .deny ("Hook policy error: " ++ err.toText) ["hook_policy_error"]
  | .ok (.continue (some newParams)) =>
      match J.fromText newParams with
      | .ok parsed => .modified parsed ["hook_modified_parameters"]
      | .error _ => .continue parameters
  | .ok _ => .continue parameters

end TitanClaw.Agent
