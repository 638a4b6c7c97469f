import TitanClaw.Agent.Machine

/-! # The agentic loop and the early tasks

`run_agentic_loop` cut at the points where it waits: the top of an iteration,
the reply of the model, and for each tool call routing, hooks, approval, start,
end and recording. -/

namespace TitanClaw.Agent

open Llm Tools Skills

variable {R : Type}

/-! ## Small updates -/

/-- Note what came of a call: in the turn it goes to the LAST entry, in the
record to the entry of the call. -/
def Machine.recordOutcome (m : Machine R) (pos : Nat) (o : CallOutcome) : Machine R :=
  { m with
    thread := m.thread.withLastTurn fun turn =>
      match o with
      | .output text content => turn.recordToolResult (.str text) (some content)
      | .error text => turn.recordToolError text
    records := modifyLast (·.modify pos fun r => { r with outcome := some o }) m.records }

def CallOutcome.ofResult (content : String) : Except Error String → CallOutcome
  | .ok text => .output text content
  | .error e => .error e.toText

def nextCall (calls : List ToolCall) (pos : Nat) : LoopAt :=
  match calls with
  | [] => .top
  | tc :: rest => .call .route tc rest pos

/-- Give the model a result for a call and go on behind it. -/
def Machine.answer (m : Machine R) (f : Frame R) (tc : ToolCall) (rest : List ToolCall)
    (pos : Nat) (content : String) (ran : Option JsonValue) : Machine R :=
  { m with
    control := .loop
      { f with
        contextMessages := f.contextMessages ++ [.toolResult tc.id tc.name content] }
      (nextCall rest (pos + 1))
    log := .given ⟨f.generation, tc.id⟩ tc.name content ran :: m.log }

def transformResponse (J : JsonCodec) (env : Env R) (userId threadId response : String) : String :=
  match env.hooks.run J (.responseTransform userId threadId response) with
  | .error (.rejected reason) => "[Response filtered: " ++ reason ++ "]"
  | .error err => "[Response blocked by hook policy: " ++ err.toText ++ "]"
  | .ok (.continue (some newResponse)) => newResponse
  | .ok _ => response

variable (D : Deps) (env : Env R) (m : Machine R) (f : Frame R)

/-- The loop returns to `process_user_input` or to `process_approval`, which
ends the turn or keeps the pending approval. -/
def Machine.returnFromLoop (result : Except Error AgenticLoopResult) : Machine R :=
  if f.caller = .userInput ∧ m.thread.state = .interrupted then
    { m with control := .idle, replies := .interrupted :: m.replies }
  else
    match result with
    | .ok (.response response) =>
        let response := match f.caller with
          | .userInput => transformResponse D.json env f.message.userId m.thread.id response
          | .approval => response
        { m with
          control := .idle
          thread := m.thread.completeTurn env.now response
          replies := .response response :: m.replies }
    | .ok (.needApproval pending) =>
        { m with
          control := .idle
          thread := m.thread.awaitApproval env.now pending
          replies := .needApproval pending.requestId pending.toolName pending.description
            pending.parameters :: m.replies }
    | .error e =>
        { m with
          control := .idle
          thread := m.thread.failTurn env.now e.toText
          replies := .error e.toText :: m.replies }

/-! ## The loop -/

def maxToolIterations : Nat := 10

def agentError (reason : String) : Error := .llm ("Invalid response from agent: " ++ reason)

def offeredTools (registry : ToolRegistry) (activeSkills : List (LoadedSkill R)) :
    List ToolDefinition :=
  if activeSkills.isEmpty then registry.toolDefinitions
  else (attenuateTools registry.toolDefinitions activeSkills).tools

def loopTop : Machine R :=
  if f.iteration + 1 > maxToolIterations then
    m.returnFromLoop D env f (.error (agentError
      ("Exceeded maximum tool iterations (" ++ toString maxToolIterations ++ ")")))
  else if m.thread.state = .interrupted then
    m.returnFromLoop D env f
      (.error (.job ("Job " ++ m.thread.id ++ " context error: Interrupted")))
  else
    match env.costLimit with
    | some limit => m.returnFromLoop D env f (.error (agentError limit))
    | none =>
        { m with
          control := .loop
            { f with iteration := f.iteration + 1, generation := m.llmCalls.length } .waiting
          streamedToolCalls := []
          llmCalls := m.llmCalls ++
            [⟨f.contextMessages, offeredTools env.registry f.activeSkills, f.activeSkills⟩] }

def Machine.recordCalls (calls : List ToolCall) : Machine R :=
  { m with
    thread := m.thread.withLastTurn fun turn =>
      calls.foldl (fun t tc => t.recordToolCall tc.id tc.name tc.arguments) turn
    records := modifyLast (· ++ calls.map fun tc => ⟨tc.id, none⟩) m.records }

def Machine.recordedCalls : Nat :=
  match m.thread.turns.getLast? with
  | some turn => turn.toolCalls.length
  | none => 0

/-- The model has replied. -/
def loopReply (reply : Except String RespondResult) : Machine R :=
  match reply with
  | .error e => m.returnFromLoop D env f (.error (.llm e))
  | .ok (.text text) =>
      if D.config.autonomySmartRulesEnabled && D.config.autonomySmartRulesEmptyPlanRecovery
          && looksLikeNonActionableResponse text then
        m.returnFromLoop D env f (.ok (.response (renderNonActionableRecoveryResponse text)))
      else if !f.toolsExecuted && f.iteration < 3 then
        { m with
          control := .loop
            { f with
              contextMessages := f.contextMessages ++
                [.assistant text,
                  .user ("Please proceed and use the available tools to complete this "
                    ++ "task.")] }
            .top }
      else m.returnFromLoop D env f (.ok (.response text))
  | .ok (.toolCalls calls content) =>
      { m.recordCalls calls with
        control := .loop
          { f with
            toolsExecuted := true
            contextMessages := f.contextMessages ++ [.assistantWithToolCalls content calls] }
          (nextCall calls m.recordedCalls) }

variable (tc : ToolCall) (rest : List ToolCall) (pos : Nat)

def loopRoute : Machine R :=
  match resolveChatToolRouting D.config env.registry env.store env.now tc.name
      (some f.message.userId) with
  | .use toolName _ _ =>
      { m with control := .loop f (.call .hooks { tc with name := toolName } rest pos) }
  | .deny _ detail =>
      m.answer f tc rest pos ("Tool call blocked by reliability policy: " ++ detail) none

def loopHooks : Machine R :=
  let outcome := evaluateToolCallHook D.json env.hooks tc.name tc.arguments f.message.userId "chat"
  let m := { m with log := .hooked ⟨f.generation, tc.id⟩ tc.name outcome :: m.log }
  match outcome with
  | .deny reason _ => m.answer f tc rest pos ("Tool call blocked by hook policy: " ++ reason) none
  | .modified parameters _ | .continue parameters =>
      { m with
        control := .loop f (.call .approve { tc with arguments := parameters } rest pos) }

def loopPolicy : Option (Tool × ApprovalPolicyOutcome) :=
  (env.registry.get tc.name).map fun tool =>
    (tool, evaluateDispatcherToolApproval tool tc.arguments
      (m.autoApprovedTools.contains tc.name)
      (resolveToolContractV2ForUser D.config env tc.name f.message.userId))

def loopApprove : Machine R :=
  match loopPolicy D env m f tc with
  | some (tool, .requireApproval reasonCodes) =>
      let pending : PendingApproval :=
        { requestId := env.newId
          toolName := tc.name
          parameters := tc.arguments
          description := enrichApprovalDescription tool.description reasonCodes
          toolCallId := tc.id
          contextMessages := f.contextMessages }
      { m with pendingKey := ⟨f.generation, tc.id⟩, pendingPos := pos }.returnFromLoop D env f
        (.ok (.needApproval pending))
  | _ => { m with control := .loop f (.call .execute tc rest pos) }

def lookupEarly (results : List EarlyResult) (key : CallKey) : Option EarlyResult :=
  results.find? (·.key == key)

/-- Take an early result from the map, or start the tool. -/
def loopExecute : Machine R :=
  let key : CallKey := ⟨f.generation, tc.id⟩
  let cached := if tc.name = "shell" ∧ D.config.enablePipedToolExecution = true then
    lookupEarly m.earlyResults key else none
  match cached with
  | some early =>
      { m with
        earlyResults := m.earlyResults.filter (·.key != key)
        control := .loop f (.call (.record (ofEarlyResult tc.name early.result)
          (some early.args)) tc rest pos) }
  | none =>
      match prepareChatTool D env.registry env.store env.now tc.name tc.arguments with
      | .error e => { m with control := .loop f (.call (.record (.error e) none) tc rest pos) }
      | .ok (tool, params) =>
          { m with
            control := .loop f (.call (.running tool params) tc rest pos)
            log := .started key .loop tc.name params env.hooksRegistered :: m.log }

def loopRecord (result : Except Error String) (ran : Option JsonValue) : Machine R :=
  let content := resultContent D tc.name result
  let m := m.recordOutcome pos (.ofResult content result)
  match detectAuthAwaiting D.json tc.name result with
  | some (extName, instructions) =>
      { m with thread := m.thread.enterAuthMode env.now extName }.returnFromLoop D env f
        (.ok (.response instructions))
  | none => m.answer f tc rest pos content ran

def stepLoop : LoopAt → Machine R
  | .top => loopTop D env m f
  | .waiting => m
  | .call stage tc rest pos =>
      match stage with
      | .route => loopRoute D env m f tc rest pos
      | .hooks => loopHooks D env m f tc rest pos
      | .approve => loopApprove D env m f tc rest pos
      | .execute => loopExecute D env m f tc rest pos
      | .running tool params =>
          { m with
            control := .loop f (.call (.record (finishChatTool D.json tool tc.name env.toolRun)
              (some params)) tc rest pos) }
      | .record result ran => loopRecord D env m f tc rest pos result ran

/-! ## Early tasks -/

/-- The state of a streamed call after an event, and the arguments of the early
task to spawn, if any. -/
def onStreamEvent (entry : StreamedToolCallState) (ev : ToolStreamEvent) :
    StreamedToolCallState × Option JsonValue :=
  let pipedExecEnabled := D.config.enablePipedToolExecution && !D.config.autonomyToolRoutingV2
  let entry := match ev with
    | .toolCall id _ name arguments =>
        { entry with
          providerCallId := some id
          name := some name
          argsBuffer := D.json.toText arguments }
    | .toolCallDelta id _ deltaType content =>
        if deltaType = "name" then
          { entry with providerCallId := some id, name := some content }
        else { entry with providerCallId := some id, argsBuffer := entry.argsBuffer ++ content }
  let args := match ev with
    | .toolCall _ _ _ arguments => some arguments
    | .toolCallDelta _ _ _ _ => (D.json.fromText entry.argsBuffer).toOption
  match args with
  | some args =>
      if pipedExecEnabled && entry.name == some "shell" && !entry.earlyStarted
          && hasCommand args then
        ({ entry with earlyStarted := true }, some args)
      else (entry, none)
  | none => (entry, none)

def ToolStreamEvent.ids : ToolStreamEvent → String × String
  | .toolCall id internalCallId _ _ => (id, internalCallId)
  | .toolCallDelta id internalCallId _ _ => (id, internalCallId)

def insertEntry {α : Type} (key : String) (a : α) (l : List (String × α)) : List (String × α) :=
  (key, a) :: l.filter (·.1 != key)

def stepStreamEvent (ev : ToolStreamEvent) : Machine R :=
  let entry := (m.streamedToolCalls.lookup ev.ids.2).getD {}
  let (entry, spawn) := onStreamEvent D entry ev
  { m with
    streamedToolCalls := insertEntry ev.ids.2 entry m.streamedToolCalls
    tasks := m.tasks ++ match spawn with
      | some args => [{ key := ⟨f.generation, ev.ids.1⟩, args, userId := f.message.userId }]
      | none => [] }

def earlyAdmits (task : EarlyTask) : Option Tool :=
  match env.registry.get "shell" with
  | none => none
  | some tool =>
      let contract := env.registry.resolveToolContractV2 "shell" env.store (some task.userId)
      match evaluateDispatcherToolApproval tool task.args
          (m.autoApprovedTools.contains "shell") contract with
      | .requireApproval _ => none
      | .noApprovalRequired | .allowAutoApproved _ =>
          if (D.validator.validateToolParams D.letters task.args).isValid then some tool
          else none

def setPhase (i : Nat) (phase : EarlyPhase) : List EarlyTask :=
  m.tasks.modify i fun t => { t with phase := phase }

/-- An early task checks and starts its call, or ends it and publishes the
result. No hook is run. -/
def stepEarly (i : Nat) : Machine R :=
  match m.tasks[i]? with
  | none => m
  | some task =>
      match task.phase with
      | .spawned =>
          match earlyAdmits D env m task with
          | none => { m with tasks := setPhase m i .skipped }
          | some tool =>
              { m with
                tasks := setPhase m i (.running tool.executionTimeout)
                log := .started task.key .earlyTask "shell" task.args env.hooksRegistered :: m.log }
      | .running timeout =>
          let result := normalizeEarly D.json timeout env.toolRun
          { m with
            tasks := setPhase m i (.executed result)
            earlyResults := ⟨task.key, task.args, result⟩
              :: m.earlyResults.filter (·.key != task.key) }
      | .skipped | .executed _ => m

end TitanClaw.Agent
