import TitanClaw.Agent.Routing
import TitanClaw.Safety.Validator

/-! # Executing a tool for chat

Everything before a tool is started, everything after it has ended, and the text
its outcome is shown to the model as. -/

namespace TitanClaw.Agent

open Text Tools Safety JsonValue

/-- Errors of the agent's tool layer. Durations are whole seconds. -/
inductive ChatToolError where
  | notFound (name : String)
  | executionFailed (name reason : String)
  | timeout (name : String) (secs : Nat)
  | invalidParameters (name reason : String)

def ChatToolError.toText : ChatToolError → String
  | .notFound name => "Tool " ++ name ++ " not found"
  | .executionFailed name reason => "Tool " ++ name ++ " execution failed: " ++ reason
  | .timeout name secs => "Tool " ++ name ++ " timed out after " ++ toString secs ++ "s"
  | .invalidParameters name reason => "Invalid parameters for tool " ++ name ++ ": " ++ reason

/-- The agent's errors; those of the model and of jobs by their text. -/
inductive Error where
  | tool (e : ChatToolError)
  | llm (text : String)
  | job (text : String)

def Error.toText : Error → String
  | .tool e => "Tool error: " ++ e.toText
  | .llm text => "LLM error: " ++ text
  | .job text => "Job error: " ++ text

structure SanitizedOutput where
  content : String
  wasModified : Bool

/-- What the agent is built with. -/
structure Deps where
  config : AgentConfig
  json : JsonCodec
  letters : CaseMap
  validator : Validator := {}
  sanitizeToolOutput : String → String → SanitizedOutput

/-- Start jobs asynchronously unless told otherwise; a blank project directory
counts as none. -/
def applyChatCreateJobDefaults (params : JsonValue) : JsonValue :=
  match params with
  | .obj fields =>
      let fields := if fields.any (·.1 == "wait") then fields
        else fields ++ [("wait", .bool false)]
      let blank := match (fields.lookup "project_dir").bind asStr? with
        | some s => (trim s).isEmpty
        | none => false
      .obj (if blank then removeField fields "project_dir" else fields)
  | other => other

def formatCreateJobError (rawReason : String) : String :=
  let reason := trim rawReason
  let normalized := String.ofList (reason.toList.map Char.toLower)
  let has (needles : List String) : Bool := needles.any (contains normalized)
  reason ++
    if has ["sandbox jobs are unavailable", "sandbox not enabled"] then
      " Fix: enable sandbox runtime and restart TitanClaw before creating sandbox jobs."
    else if has ["failed to create container", "no such image", "docker"] then
      " Fix: verify Docker is running and the worker image is available, then retry."
    else if has ["project directory must be under", "must not contain '..'", "project dir"] then
      " Fix: omit `project_dir` for auto-create, or use a safe relative path like `portfolio`."
    else if has ["timed out"] then
      " Fix: retry with `wait=false` and monitor progress via `job_events`."
    else
      " Fix: retry with `wait=false`; if needed, omit `project_dir` to auto-create a safe "
        ++ "sandbox path."

def effectiveParams (toolName : String) (params : JsonValue) : JsonValue :=
  if toolName = "create_job" then applyChatCreateJobDefaults params else params

def prepareChatTool (D : Deps) (registry : ToolRegistry) (store : Option Store) (now : Int)
    (toolName : String) (params : JsonValue) : Except Error (Tool × JsonValue) :=
  match registry.get toolName with
  | none => .error (.tool (.notFound toolName))
  | some tool =>
      let profile := store.bind fun store => orNone (store.reliabilityProfile toolName)
      if D.config.autonomyToolRoutingV2 && (profile.map (profileBreakerIsOpen · now)).getD false
      then .error (.tool (.executionFailed toolName "Blocked by reliability circuit breaker"))
      else
        let validation := D.validator.validateToolParams D.letters (effectiveParams toolName params)
        if !validation.isValid then
          .error (.tool (.invalidParameters toolName ("Invalid tool parameters: "
            ++ "; ".intercalate (validation.errors.map fun e => e.field ++ ": " ++ e.message))))
        else .ok (tool, effectiveParams toolName params)

theorem prepareChatTool_ok {D : Deps} {registry : ToolRegistry} {store : Option Store}
    {now : Int} {toolName : String} {params effective : JsonValue} {tool : Tool}
    (h : prepareChatTool D registry store now toolName params = .ok (tool, effective)) :
    registry.get toolName = some tool ∧ effective = effectiveParams toolName params := by
  simp only [prepareChatTool] at h
  split at h
  · cases h
  rename_i hget
  split at h
  · cases h
  split at h
  · cases h
  cases h
  exact ⟨hget, rfl⟩

def finishChatTool (J : JsonCodec) (tool : Tool) (toolName : String) (run : ToolRun) :
    Except Error String :=
  match run with
  | .timedOut =>
      if toolName = "create_job" then
        .error (.tool (.executionFailed toolName (formatCreateJobError
          ("create_job timed out after " ++ toString tool.executionTimeout ++ " seconds"))))
      else .error (.tool (.timeout toolName tool.executionTimeout))
  | .failed e =>
      .error (.tool (.executionFailed toolName
        (if toolName = "create_job" then formatCreateJobError e.toText else e.toText)))
  | .finished output =>
      match J.toTextPretty output.result with
      | .ok text => .ok text
      | .error e => .error (.tool (.executionFailed toolName ("Failed to serialize result: " ++ e)))

def escapeXml (quotes : Bool) (s : String) : String :=
  String.ofList (s.toList.flatMap fun c =>
    if c = '&' then "&amp;".toList
    else if c = '<' then "&lt;".toList
    else if c = '>' then "&gt;".toList
    else if quotes && c == '"' then "&quot;".toList
    else [c])

def wrapForLlm (toolName content : String) (sanitized : Bool) : String :=
  "<tool_output name=\"" ++ escapeXml true toolName ++ "\" sanitized=\"" ++ toString sanitized
    ++ "\">\n" ++ escapeXml false content ++ "\n</tool_output>"

def resultContent (D : Deps) (toolName : String) (result : Except Error String) : String :=
  match result with
  | .ok output =>
      let sanitized := D.sanitizeToolOutput toolName output
      wrapForLlm toolName sanitized.content sanitized.wasModified
  | .error e => "Error: " ++ e.toText

/-- Does the outcome say that an extension waits for a token? Then the
extension's name and the instructions for the user. -/
def detectAuthAwaiting (J : JsonCodec) (toolName : String) (result : Except Error String) :
    Option (String × String) :=
  if toolName ≠ "tool_auth" ∧ toolName ≠ "tool_activate" then none
  else
    match result with
    | .error _ => none
    | .ok output =>
        match J.fromText output with
        | .error _ => none
        | .ok parsed =>
            match parsed.get? "awaiting_token" with
            | some (.bool true) =>
                ((parsed.get? "name").bind asStr?).map fun name =>
                  (name, ((parsed.get? "instructions").bind asStr?).getD
                    "Please provide your API token/key.")
            | _ => none

def looksLikeNonActionableResponse (response : String) : Bool :=
  let normalized := String.ofList (response.toList.map Char.toLower)
  ["no task", "no tasks", "nothing to do", "no actionable", "no action needed",
    "cannot proceed without", "need a specific task", "need more details"].any
    (contains normalized)

def renderNonActionableRecoveryResponse (rawModelText : String) : String :=
  "I need a clearer objective before I run tools.\nReason from model: " ++ trim rawModelText
    ++ "\nYou can reply with one of these:\n1. Exact outcome you want.\n"
    ++ "2. Files/tools I should use.\n"
    ++ "3. Whether to execute immediately or ask before risky actions."

end TitanClaw.Agent
