import TitanClaw.Agent.Dispatcher
import TitanClaw.Lib.JsonText
import TitanClaw.Tools.Shell

/-! # Thread operations

User input, approvals and interrupts, and the whole step function. An approval
goes through routing, hooks and the policy once more before the tool is
started. -/

namespace TitanClaw.Agent

open Text Llm Tools Skills JsonText

variable {R : Type}

def approvalTimeoutSecs : Int := 3600

def isApprovalExpired (updatedAt now : Int) : Bool := updatedAt < now - approvalTimeoutSecs

def requiresExplicitRequestId (channel : String) : Bool := channel == "gateway" || channel == "web"

variable (m : Machine R)

def Machine.reply (r : SubmissionResult) : Machine R :=
  { m with replies := r :: m.replies }

/-- End the turn of a pending call without running it: the error is recorded,
and the message is the turn's response. -/
def Machine.endPending (now : Int) (pos : Nat) (toolError message : String) : Machine R :=
  let m := m.recordOutcome pos (.error toolError)
  { m with
    control := .idle
    thread := m.thread.completeTurn now message
    replies := .response message :: m.replies }

def Machine.cancelPending (now : Int) (toolError message : String) : Machine R :=
  { m with thread := m.thread.clearPendingApproval now }.endPending now m.pendingPos
    toolError message

variable (D : Deps) (env : Env R) (m : Machine R) (message : IncomingMessage)

/-- A user input that reaches the agentic loop, unless the thread's state
forbids it. -/
def stepInput (content : String) : Machine R :=
  if m.thread.state = .awaitingApproval ∧ isApprovalExpired m.thread.updatedAt env.now = true then
    m.cancelPending env.now "approval timeout"
      "Approval request expired. The pending tool execution was canceled."
  else
    match m.thread.state with
    | .processing => m.reply (.error "Turn in progress. Use /interrupt to cancel.")
    | .awaitingApproval => m.reply (.error "Waiting for approval. Use /interrupt to cancel.")
    | .completed => m.reply (.error "Thread completed. Use /thread new.")
    | .idle | .interrupted =>
        match m.thread.tryStartTurn env.now content with
        | .error e => m.reply (.error e)
        | .ok thread =>
            { m with
              thread := thread
              records := m.records ++ [[]]
              control := .loop
                { message
                  caller := .userInput
                  activeSkills := env.activeSkills
                  contextMessages := thread.messages D.json
                  toolsExecuted := false }
                .top }

def stepInterrupt : Machine R :=
  match m.thread.state with
  | .processing =>
      { m with thread := m.thread.interrupt env.now }.reply (.ok (some "Interrupted."))
  | .awaitingApproval =>
      m.cancelPending env.now "approval canceled by interrupt"
        "Approval request canceled. The pending tool execution will not run."
  | _ => m.reply (.ok (some "Nothing to interrupt."))

/-! ## Approval -/

def stepApproval (requestId : Option String) (approved always : Bool) : Machine R :=
  if m.thread.state ≠ .awaitingApproval then m.reply (.error "No pending approval request.")
  else if isApprovalExpired m.thread.updatedAt env.now then
    m.cancelPending env.now "approval timeout"
      "Approval request expired. Ask again to retry the operation."
  else if requestId.isNone && requiresExplicitRequestId message.channel then
    m.reply (.error "Approval responses on web and gateway must include the request ID.")
  else
    match m.thread.pendingApproval with
    | none => m.reply (.error "No pending approval request.")
    | some pending =>
        if (requestId.getD pending.requestId) ≠ pending.requestId then
          { m with
            thread := m.thread.restorePendingApprovalWithoutTouch pending }.reply
            (.error "Request ID mismatch. Use the correct request ID.")
        else if approved then
          { m with
            autoApprovedTools :=
              if always then pending.toolName :: m.autoApprovedTools else m.autoApprovedTools
            thread := { m.thread with state := .processing, pendingApproval := none }
            control := .resume ⟨message, pending, m.pendingKey, m.pendingPos⟩ .route }
        else
          m.cancelPending env.now "rejected by user"
            ("Tool '" ++ pending.toolName
              ++ "' was rejected. The agent will not execute this tool.\n\n"
              ++ "You can continue the conversation or try a different approach.")

variable (r : Resume)

def resumeRoute : Machine R :=
  match resolveChatToolRouting D.config env.registry env.store env.now r.pending.toolName
      (some r.message.userId) with
  | .use toolName _ _ => { m with control := .resume r (.hooks toolName) }
  | .deny _ detail =>
      m.endPending env.now r.pos ("blocked by circuit breaker after approval: " ++ detail)
        ("Tool '" ++ r.pending.toolName
          ++ "' was approved, but reliability policy blocked execution: " ++ detail)

variable (toolName : String)

def resumeHooks : Machine R :=
  let outcome := evaluateToolCallHook D.json env.hooks toolName r.pending.parameters
    r.message.userId "chat_approval_resume"
  let m := { m with log := .hooked r.key toolName outcome :: m.log }
  match outcome with
  | .continue parameters | .modified parameters _ =>
      { m with control := .resume r (.recheck toolName parameters) }
  | .deny reason _ =>
      m.endPending env.now r.pos ("blocked by hook after approval: " ++ reason)
        ("Tool '" ++ toolName ++ "' was approved, but a policy hook blocked execution: " ++ reason)

variable (params : JsonValue)

/-- What the policy says about an approved call; the session's auto-approval
does not count here. -/
def resumePolicy : Option (Tool × ApprovalPolicyOutcome) :=
  (env.registry.get toolName).map fun tool =>
    (tool, evaluateDispatcherToolApproval tool params false
      (resolveToolContractV2ForUser D.config env toolName r.message.userId))

def resumeRecheck : Machine R :=
  match resumePolicy D env r toolName params with
  | some (tool, .requireApproval reasonCodes) =>
      let newPending : PendingApproval :=
        { requestId := env.newId
          toolName
          parameters := params
          description := enrichApprovalDescription tool.description reasonCodes
          toolCallId := r.pending.toolCallId
          contextMessages := r.pending.contextMessages }
      { m with
        control := .idle
        thread := m.thread.awaitApproval env.now newPending
        pendingKey := r.key
        pendingPos := r.pos
        replies := .needApproval newPending.requestId newPending.toolName
          newPending.description newPending.parameters :: m.replies }
  | _ => { m with control := .resume r (.execute toolName params) }

def resumeExecute : Machine R :=
  match prepareChatTool D env.registry env.store env.now toolName params with
  | .error e => { m with control := .resume r (.record toolName (.error e) none) }
  | .ok (tool, params) =>
      { m with
        control := .resume r (.running toolName tool params)
        log := .started r.key .approval toolName params env.hooksRegistered :: m.log }

def resumeRecord (result : Except Error String) (ran : Option JsonValue) : Machine R :=
  let content := resultContent D r.pending.toolName result
  let m := m.recordOutcome r.pos (.ofResult content result)
  match detectAuthAwaiting D.json toolName result with
  | some (extName, instructions) =>
      { m with
        control := .idle
        thread := (m.thread.enterAuthMode env.now extName).completeTurn env.now instructions
        replies := .response instructions :: m.replies }
  | none =>
      { m with
        control := .loop
          { message := r.message
            caller := .approval
            activeSkills := env.activeSkills
            contextMessages := r.pending.contextMessages ++
              [.toolResult r.pending.toolCallId r.pending.toolName content]
            toolsExecuted := true }
          .top
        log := .given r.key r.pending.toolName content ran :: m.log }

def stepResume : ResumeStage → Machine R
  | .route => resumeRoute D env m r
  | .hooks toolName => resumeHooks D env m r toolName
  | .recheck toolName params => resumeRecheck D env m r toolName params
  | .execute toolName params => resumeExecute D env m r toolName params
  | .running toolName tool params =>
      { m with
        control := .resume r (.record toolName
          (finishChatTool D.json tool toolName env.toolRun) (some params)) }
  | .record toolName result ran => resumeRecord D env m r toolName result ran

inductive ActKind where
  /-- The loop, or a resumed approval, goes on. -/
  | main
  /-- An early task goes on. -/
  | early (i : Nat)
  | streamEvent (ev : ToolStreamEvent)
  | reply (result : Except String RespondResult)
  | input (message : IncomingMessage) (content : String)
  | approval (message : IncomingMessage) (requestId : Option String) (approved always : Bool)
  | interrupt
  /-- Another thread of the session auto-approves a tool. -/
  | autoApprove (toolName : String)

structure Act (R : Type) where
  env : Env R
  kind : ActKind

def step (a : Act R) : Machine R :=
  match a.kind, m.control with
  | .main, .loop f at_ => stepLoop D a.env m f at_
  | .main, .resume r stage => stepResume D a.env m r stage
  | .early i, _ => stepEarly D a.env m i
  | .streamEvent ev, .loop f .waiting => stepStreamEvent D m f ev
  | .reply result, .loop f .waiting => loopReply D a.env m f result
  | .input message content, .idle => stepInput D a.env m message content
  | .approval message requestId approved always, .idle =>
      stepApproval a.env m message requestId approved always
  | .interrupt, .idle => stepInterrupt a.env m
  | .autoApprove toolName, _ =>
      { m with autoApprovedTools := toolName :: m.autoApprovedTools }
  | _, _ => m

/-! ## A small agent

One user, the echo and the shell tool, no hooks and no database: the setting of
the concrete runs. Its JSON texts are strings and objects with a single `command`, as the
library writes and reads them. -/

def commandArgs (command : String) : JsonValue := .obj [("command", .str command)]

def commandJson : JsonCodec where
  toText
    | .str s => String.ofList (quote s)
    | .obj [("command", .str c)] => "\x7b\"command\":" ++ String.ofList (quote c) ++ "\x7d"
    | _ => "null"
  toTextPretty
    | .str s => .ok (String.ofList (quote s))
    | .obj [("command", .str c)] =>
        .ok ("\x7b\n  \"command\": " ++ String.ofList (quote c) ++ "\n\x7d")
    | _ => .ok "null"
  fromText text :=
    match (strip "\x7b\"command\":\"".toList text.toList).bind readString with
    | some (command, ['\x7d']) => .ok (commandArgs (String.ofList command))
    | _ => .error "expected value at line 1 column 1"

def smallDeps (config : AgentConfig) : Deps where
  config
  json := commandJson
  letters := asciiCase
  sanitizeToolOutput _ output := ⟨output, false⟩

def smallShell : Tool := shellTool asciiCase fun s => (commandJson.fromText s).toOption

def echoTool : Tool where
  name := "echo"
  description := "Echoes back the input message. Useful for testing tool execution."
  parametersSchema := .obj [("type", .str "object"),
    ("properties", .obj [("message", .obj
      [("type", .str "string"), ("description", .str "The message to echo back")])]),
    ("required", .arr [.str "message"])]

def smallEnv : Env Unit where
  now := 0
  registry := [echoTool, smallShell]
  store := none
  hooks := []
  newId := "req-2"
  activeSkills := []
  costLimit := none
  toolRun := .finished ⟨.str "done", 1⟩

/-- A database in which the user has relaxed the contract of the shell, so that the
session's auto-approval counts. -/
def relaxedStore : Store where
  reliabilityProfile _ := .ok none
  contractOverride toolName _ :=
    if toolName = "shell" then
      .ok (some
        { enabled := true
          descriptor :=
            { inferToolContractV2Descriptor smallShell with
              requiresApprovalDefault := false
              source := .manualOverride } })
    else .ok none

/-- The small agent with that database, and shell calls started early. -/
def pipedEnv : Env Unit := { smallEnv with store := some relaxedStore }

def pipedDeps : Deps := smallDeps { enablePipedToolExecution := true }

def shellCall (id command : String) : ToolCall := ⟨id, "shell", commandArgs command⟩

def shellEvent (id command : String) : ToolStreamEvent :=
  .toolCall id id "shell" (commandArgs command)

def helloMessage : IncomingMessage := ⟨"alice", "cli", "hello"⟩

def smallAgent : Machine Unit where
  thread := { id := "t" }

def echoCall (id message : String) : ToolCall := ⟨id, "echo", .obj [("message", .str message)]⟩

end TitanClaw.Agent
