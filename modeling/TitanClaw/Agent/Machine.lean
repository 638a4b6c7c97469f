import TitanClaw.Agent.Execute
import TitanClaw.Agent.Session
import TitanClaw.Skills.Attenuation

/-! # The agent as a machine

One thread of the agent: the loop that calls the model and runs its tool calls,
the approval that resumes it, and the detached tasks that start shell calls
while the model is still streaming. Messages of users are handled one at a time,
so they meet the loop only when it has returned; the detached tasks run at any
time. A step is what one of these parties does between two points where it
waits, and everything it learns from outside is in the label of the step.

Besides what the program keeps, the state has a record of what happened: the
requests sent to the model, a log of hook runs, tool starts and results, and for
every recorded call what really came of it. No step reads that record. -/

namespace TitanClaw.Agent

open Text Llm Tools Hooks Skills

variable {R : Type}

structure IncomingMessage where
  userId : String
  channel : String
  content : String

/-- What a step gets from outside. -/
structure Env (R : Type) where
  now : Int
  registry : ToolRegistry
  store : Option Store
  hooks : HookRegistry
  /-- A fresh request id. -/
  newId : String
  activeSkills : List (LoadedSkill R)
  /-- The objection of the cost guard. -/
  costLimit : Option String
  /-- How the tool that is running ends. -/
  toolRun : ToolRun

def Env.hooksRegistered (env : Env R) : Bool := !(env.hooks.matching .beforeToolCall).isEmpty

def resolveToolContractV2ForUser (cfg : AgentConfig) (env : Env R)
    (toolName userId : String) : Option ToolContractV2Descriptor :=
  if !cfg.autonomyPolicyEngineV1 then none
  else env.registry.resolveToolContractV2 toolName env.store (some userId)

/-! ## Streams and early tasks -/

inductive ToolStreamEvent where
  | toolCall (id internalCallId name : String) (arguments : JsonValue)
  | toolCallDelta (id internalCallId deltaType content : String)

structure StreamedToolCallState where
  providerCallId : Option String := none
  name : Option String := none
  argsBuffer : String := ""
  earlyStarted : Bool := false

/-- A tool call of the model: the request it answers and the call's id. Each
request has its own map of early results, so the number of the request is part
of the key. -/
structure CallKey where
  generation : Nat
  id : String
  deriving DecidableEq

inductive EarlyPhase where
  | spawned
  | running (timeout : Nat)
  /-- Ended without executing the call. -/
  | skipped
  | executed (result : Except String String)

structure EarlyTask where
  key : CallKey
  args : JsonValue
  userId : String
  phase : EarlyPhase := .spawned

structure EarlyResult where
  key : CallKey
  args : JsonValue
  result : Except String String

def hasCommand (args : JsonValue) : Bool :=
  match (args.get? "command").bind JsonValue.asStr? with
  | some s => !(trim s).isEmpty
  | none => false

def normalizeEarly (J : JsonCodec) (timeout : Nat) (run : ToolRun) : Except String String :=
  match run with
  | .finished output =>
      match J.toTextPretty output.result with
      | .ok text => .ok text
      | .error e => .error
          (ChatToolError.executionFailed "shell" ("Failed to serialize result: " ++ e)).toText
  | .failed e => .error e.toText
  | .timedOut => .error ("Tool 'shell' timed out after " ++ toString timeout ++ "s")

def ofEarlyResult (name : String) : Except String String → Except Error String
  | .ok output => .ok output
  | .error reason => .error (.tool (.executionFailed name reason))

/-! ## Control -/

inductive RespondResult where
  | text (text : String)
  | toolCalls (toolCalls : List ToolCall) (content : Option String)

inductive AgenticLoopResult where
  | response (text : String)
  | needApproval (pending : PendingApproval)

inductive Caller where
  | userInput
  | approval
  deriving DecidableEq

/-- The variables of the loop. -/
structure Frame (R : Type) where
  message : IncomingMessage
  caller : Caller
  activeSkills : List (LoadedSkill R)
  contextMessages : List ChatMessage
  iteration : Nat := 0
  toolsExecuted : Bool
  generation : Nat := 0

/-- How far one tool call has come. -/
inductive Stage where
  | route
  | hooks
  | approve
  | execute
  | running (tool : Tool) (params : JsonValue)
  /-- The result is there; `ran` are the parameters it was run with, if any. -/
  | record (result : Except Error String) (ran : Option JsonValue)

/-- Where the loop is. A call comes with the calls after it and with the
position of its entry in the turn. -/
inductive LoopAt where
  | top
  | waiting
  | call (stage : Stage) (tc : ToolCall) (rest : List ToolCall) (pos : Nat)

/-- An approved call on its way, with the request it came from and the position
of its entry. -/
structure Resume where
  message : IncomingMessage
  pending : PendingApproval
  key : CallKey
  pos : Nat

inductive ResumeStage where
  | route
  | hooks (toolName : String)
  | recheck (toolName : String) (params : JsonValue)
  | execute (toolName : String) (params : JsonValue)
  | running (toolName : String) (tool : Tool) (params : JsonValue)
  | record (toolName : String) (result : Except Error String) (ran : Option JsonValue)

inductive Control (R : Type) where
  | idle
  | loop (f : Frame R) (at_ : LoopAt)
  | resume (r : Resume) (stage : ResumeStage)

inductive SubmissionResult where
  | response (content : String)
  | needApproval (requestId toolName description : String) (parameters : JsonValue)
  | ok (message : Option String)
  | error (message : String)
  | interrupted

/-! ## The record of what happened -/

/-- A request to the model. -/
structure LlmCall (R : Type) where
  messages : List ChatMessage
  tools : List ToolDefinition
  activeSkills : List (LoadedSkill R)

inductive StartedBy where
  | earlyTask
  | loop
  | approval
  deriving DecidableEq

inductive Event where
  /-- The hooks have run on a call. -/
  | hooked (key : CallKey) (tool : String) (outcome : HookToolPolicyOutcome)
  /-- A tool was started; `hooks` says whether hooks were registered then. -/
  | started (key : CallKey) (by_ : StartedBy) (tool : String) (params : JsonValue) (hooks : Bool)
  /-- The model was given a result, `ran` as in `Stage.record`. -/
  | given (key : CallKey) (tool content : String) (ran : Option JsonValue)

inductive CallOutcome where
  | output (text content : String)
  | error (text : String)

/-- A call the model issued in a turn, and what came of it so far. -/
structure CallRecord where
  id : String
  outcome : Option CallOutcome := none

structure Machine (R : Type) where
  thread : Thread
  autoApprovedTools : List String := []
  control : Control R := .idle
  streamedToolCalls : List (String × StreamedToolCallState) := []
  tasks : List EarlyTask := []
  earlyResults : List EarlyResult := []
  replies : List SubmissionResult := []
  /-- All requests to the model; a call's generation is its request's index. -/
  llmCalls : List (LlmCall R) := []
  /-- Newest first. -/
  log : List Event := []
  /-- The calls of each turn. -/
  records : List (List CallRecord) := []
  /-- The key and position of the call that waits for approval. -/
  pendingKey : CallKey := ⟨0, ""⟩
  pendingPos : Nat := 0

end TitanClaw.Agent
