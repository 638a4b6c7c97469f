import TitanClaw.Lib.Json

/-! # Tools

What the agent knows of a tool — name, schema, approval and sanitisation flags,
time limit — and the errors and outputs of running one. -/

namespace TitanClaw.Tools

/-- Error of a tool's own execution. Durations are whole seconds. -/
inductive ToolError where
  | invalidParameters (reason : String)
  | executionFailed (reason : String)
  | timeout (secs : Nat)
  | notAuthorized (reason : String)
  | rateLimited (retryAfter : Option Nat)
  | externalService (reason : String)
  | sandbox (reason : String)
  deriving DecidableEq

/-- The text `Display` gives the error. -/
def ToolError.toText : ToolError → String
  | .invalidParameters r => "Invalid parameters: " ++ r
  | .executionFailed r => "Execution failed: " ++ r
  | .timeout secs => "Timeout after " ++ toString secs ++ "s"
  | .notAuthorized r => "Not authorized: " ++ r
  | .rateLimited none => "Rate limited, retry after None"
  | .rateLimited (some secs) => "Rate limited, retry after Some(" ++ toString secs ++ "s)"
  | .externalService r => "External service error: " ++ r
  | .sandbox r => "Sandbox error: " ++ r

structure ToolOutput where
  result : JsonValue
  duration : Nat

/-- Where a tool executes: the agent's own process or a container. -/
inductive ToolDomain where
  | orchestrator
  | container

def requireStr (params : JsonValue) (name : String) : Except ToolError String :=
  match (params.get? name).bind JsonValue.asStr? with
  | some s => .ok s
  | none => .error (.invalidParameters ("missing '" ++ name ++ "' parameter"))

end TitanClaw.Tools
