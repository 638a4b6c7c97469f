import TitanClaw.Llm.Message
import TitanClaw.Tools.Tool

/-! # The tool registry and tool contracts

A tool as the agent sees it, the registry of tools by name, and the contract a
tool is held to: inferred from the tool itself, unless a stored override of the
user, or a global one, takes its place. -/

namespace TitanClaw.Tools

open Llm

structure Tool where
  name : String
  description : String
  parametersSchema : JsonValue
  requiresApproval : Bool := false
  /-- Does this invocation override auto-approval? -/
  requiresApprovalFor : JsonValue → Bool := fun _ => false
  /-- In seconds. -/
  executionTimeout : Nat := 60
  domain : ToolDomain := .orchestrator

/-- How one call of a tool ends, the time limit included. -/
inductive ToolRun where
  | finished (output : ToolOutput)
  | failed (e : ToolError)
  | timedOut

abbrev ToolRegistry := List Tool

variable (r : ToolRegistry)

def ToolRegistry.get (name : String) : Option Tool := List.find? (·.name == name) r

def ToolRegistry.has (name : String) : Bool := (r.get name).isSome

def ToolRegistry.toolDefinitions : List ToolDefinition :=
  r.map fun tool => ⟨tool.name, tool.description, tool.parametersSchema⟩

theorem ToolRegistry.get_name {r : ToolRegistry} {name : String} {tool : Tool}
    (h : r.get name = some tool) : tool.name = name := by
  simpa using List.find?_some h

/-! ## Contracts -/

inductive ToolSideEffectLevel where
  | readOnly
  | workspaceWrite
  | systemMutation
  | externalMutation
  | financial
  | credential
  deriving DecidableEq

inductive ToolIdempotency where
  | safeRetry
  | unsafeRetry
  | unknown
  deriving DecidableEq

inductive ToolDryRunSupport where
  | none
  | native
  | simulated
  deriving DecidableEq

inductive ToolContractSource where
  | manualOverride
  | wasmSidecar
  | inferred
  | default
  deriving DecidableEq

structure ToolContractV2Descriptor where
  toolName : String
  sideEffectLevel : ToolSideEffectLevel
  idempotency : ToolIdempotency
  dryRunSupport : ToolDryRunSupport
  requiresApprovalDefault : Bool
  fallbackCandidates : List String
  source : ToolContractSource
  deriving DecidableEq

structure ToolContractV2Override where
  enabled : Bool
  descriptor : ToolContractV2Descriptor
  deriving DecidableEq

variable (toolName : String)

def inferSideEffectLevel (domain : ToolDomain) (requiresApproval : Bool) : ToolSideEffectLevel :=
  if ["echo", "time", "json", "memory_search", "memory_read", "memory_graph", "memory_tree",
      "read_file", "list_dir", "tool_list", "tool_search", "skill_list", "skill_search",
      "job_status", "list_jobs", "job_events"].contains toolName then .readOnly
  else if ["write_file", "apply_patch", "shell", "build_software",
      "job_prompt"].contains toolName then .workspaceWrite
  else if ["create_job", "cancel_job", "tool_install", "tool_remove", "tool_activate",
      "skill_install", "skill_remove"].contains toolName then .systemMutation
  else if ["http", "tool_auth", "jit_wasm_run"].contains toolName then .externalMutation
  else if toolName = "memory_write" then .workspaceWrite
  else if requiresApproval then .externalMutation
  else
    match domain with
    | .orchestrator => .readOnly
    | .container => .workspaceWrite

def inferIdempotency (sideEffectLevel : ToolSideEffectLevel) : ToolIdempotency :=
  if ["echo", "time", "json", "memory_search", "memory_read", "memory_graph", "memory_tree",
      "read_file", "list_dir", "job_status", "list_jobs", "job_events"].contains toolName then
    .safeRetry
  else if ["tool_install", "tool_remove", "tool_activate", "skill_install", "skill_remove",
      "create_job", "cancel_job"].contains toolName then .unsafeRetry
  else if ["shell", "http", "write_file", "apply_patch", "memory_write",
      "build_software"].contains toolName then .unknown
  else
    match sideEffectLevel with
    | .readOnly => .safeRetry
    | .workspaceWrite => .unknown
    | _ => .unsafeRetry

def inferDryRunSupport : ToolDryRunSupport :=
  if toolName = "shell" ∨ toolName = "http" then .simulated else .none

def inferToolContractV2Descriptor (tool : Tool) : ToolContractV2Descriptor :=
  let sideEffectLevel := inferSideEffectLevel tool.name tool.domain tool.requiresApproval
  { toolName := tool.name
    sideEffectLevel
    idempotency := inferIdempotency tool.name sideEffectLevel
    dryRunSupport := inferDryRunSupport tool.name
    requiresApprovalDefault := tool.requiresApproval
    fallbackCandidates := []
    source := .inferred }

/-- User override, then global override, then the inferred descriptor; only
enabled overrides count. -/
def resolveContractV2DescriptorOverlay (inferred : ToolContractV2Descriptor)
    (userOverride globalOverride : Option ToolContractV2Override) : ToolContractV2Descriptor :=
  let apply (record : ToolContractV2Override) : Option ToolContractV2Descriptor :=
    if record.enabled then some { record.descriptor with source := .manualOverride }
    else none
  ((userOverride.bind apply).or (globalOverride.bind apply)).getD inferred

inductive CircuitBreakerState where
  | closed
  | open
  | halfOpen
  deriving DecidableEq

structure ToolReliabilityProfile where
  sampleCount : Int
  reliabilityScore : Float32
  safeFallbackOptions : JsonValue
  breakerState : CircuitBreakerState
  cooldownUntil : Option Int

/-- What the database answers about tools. -/
structure Store where
  reliabilityProfile : String → Except String (Option ToolReliabilityProfile)
  contractOverride : String → Option String → Except String (Option ToolContractV2Override)

/-- A query whose failure counts as no answer. -/
def orNone {α : Type} : Except String (Option α) → Option α
  | .ok a => a
  | .error _ => none

def ToolRegistry.resolveToolContractV2 (name : String)
    (store : Option Store) (userId : Option String) : Option ToolContractV2Descriptor :=
  (r.get name).map fun tool =>
    let overrides := match store with
      | some store =>
          (userId.bind fun uid => orNone (store.contractOverride name (some uid)),
            orNone (store.contractOverride name none))
      | none => (none, none)
    resolveContractV2DescriptorOverlay (inferToolContractV2Descriptor tool) overrides.1 overrides.2

end TitanClaw.Tools
