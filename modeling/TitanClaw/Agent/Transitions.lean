import TitanClaw.Agent.ThreadOps
import TitanClaw.Lib.Run

/-! # What a step can do

The step function as a relation with one rule a branch, in groups: the loop, the
reply of the model, a resumed approval, the early tasks, and what users do. A
rule says what its step reads and what it leaves behind; the invariants of the
machine go through the rules and never look into the step function. -/

namespace TitanClaw.Agent

open Llm Tools Skills List Option Thread

variable {R : Type} {D : Deps} {env : Env R} {m m' : Machine R}

/-! ## The calls of a thread -/

variable (t : Thread)

def Thread.calls : List (List TurnToolCall) := t.turns.map (·.toolCalls)

theorem modifyLast_map {α β : Type} {f : α → α} {g : β → β} {h : α → β}
    (hcomm : ∀ a, h (f a) = g (h a)) (l : List α) :
    (modifyLast f l).map h = modifyLast g (l.map h) := by
  simp only [modifyLast, length_map]
  rw [modify_eq_set_getElem?, modify_eq_set_getElem?, getElem?_map]
  cases l[l.length - 1]? with
  | none => rfl
  | some => simp [map_set, hcomm]

theorem Thread.calls_withLastTurn {f : Turn → Turn} {g : List TurnToolCall → List TurnToolCall}
    (h : ∀ turn, (f turn).toolCalls = g turn.toolCalls) (t : Thread) :
    (t.withLastTurn f).calls = modifyLast g t.calls :=
  modifyLast_map h t.turns

theorem Thread.calls_withLastTurn_same {f : Turn → Turn}
    (h : ∀ turn, (f turn).toolCalls = turn.toolCalls) (t : Thread) :
    (t.withLastTurn f).calls = t.calls :=
  (calls_withLastTurn (g := fun calls => calls) h t).trans (modify_id _ _)

variable (now : Int)

@[simp] theorem Thread.calls_completeTurn (response : String) :
    (t.completeTurn now response).calls = t.calls :=
  calls_withLastTurn_same (f := (·.complete response)) (fun _ => rfl) t

@[simp] theorem Thread.calls_failTurn (error : String) : (t.failTurn now error).calls = t.calls :=
  calls_withLastTurn_same (f := (·.fail error)) (fun _ => rfl) t

@[simp] theorem Thread.calls_interrupt : (t.interrupt now).calls = t.calls :=
  calls_withLastTurn_same (f := Turn.interrupt) (fun _ => rfl) t

/-! ## The rules -/

/-- The thread after the end of its turn: nothing pends, and the calls are the
same. -/
structure Ended (before after : Thread) : Prop where
  calls : after.calls = before.calls
  pending : after.pendingApproval = none
  state : after.state = .idle

def pendingFor (env : Env R) (tool : Tool) (reasonCodes : List String) (toolName : String)
    (parameters : JsonValue) (toolCallId : String) (contextMessages : List ChatMessage) :
    PendingApproval where
  requestId := env.newId
  toolName
  parameters
  description := enrichApprovalDescription tool.description reasonCodes
  toolCallId
  contextMessages

def cachedEarly (D : Deps) (m : Machine R) (f : Frame R) (tc : ToolCall) : Option EarlyResult :=
  if tc.name = "shell" ∧ D.config.enablePipedToolExecution = true then
    lookupEarly m.earlyResults ⟨f.generation, tc.id⟩ else none

def spawned (D : Deps) (m : Machine R) (ev : ToolStreamEvent) : Option JsonValue :=
  (onStreamEvent D ((m.streamedToolCalls.lookup ev.ids.2).getD {}) ev).2

inductive LoopStep (D : Deps) (env : Env R) (m : Machine R) (f : Frame R) :
    LoopAt → Machine R → Prop where
  /-- Too many iterations, or too much spent. -/
  | leave (thread : Thread) (replies : List SubmissionResult)
      (hended : Ended m.thread thread) :
      LoopStep D env m f .top { m with control := .idle, thread, replies }
  | send :
      LoopStep D env m f .top
        { m with
          control := .loop
            { f with iteration := f.iteration + 1, generation := m.llmCalls.length } .waiting
          streamedToolCalls := []
          llmCalls := m.llmCalls ++
            [⟨f.contextMessages, offeredTools env.registry f.activeSkills, f.activeSkills⟩] }
  | wait : LoopStep D env m f .waiting m
  | routed {tc rest pos} (toolName : String) (routedFrom : Option String)
      (codes : List String)
      (hroute : resolveChatToolRouting D.config env.registry env.store env.now tc.name
        (some f.message.userId) = .use toolName routedFrom codes) :
      LoopStep D env m f (.call .route tc rest pos)
        { m with control := .loop f (.call .hooks { tc with name := toolName } rest pos) }
  | routeDenied {tc rest pos} (codes : List String) (detail : String)
      (hroute : resolveChatToolRouting D.config env.registry env.store env.now tc.name
        (some f.message.userId) = .deny codes detail) :
      LoopStep D env m f (.call .route tc rest pos)
        (m.answer f tc rest pos ("Tool call blocked by reliability policy: " ++ detail) none)
  | hooked {tc rest pos} (outcome : HookToolPolicyOutcome) (parameters : JsonValue)
      (houtcome : evaluateToolCallHook D.json env.hooks tc.name tc.arguments f.message.userId
        "chat" = outcome)
      (hparams : outcome.parameters? = some parameters) :
      LoopStep D env m f (.call .hooks tc rest pos)
        { m with
          log := .hooked ⟨f.generation, tc.id⟩ tc.name outcome :: m.log
          control := .loop f (.call .approve { tc with arguments := parameters } rest pos) }
  | hookDenied {tc rest pos} (reason : String) (codes : List String)
      (houtcome : evaluateToolCallHook D.json env.hooks tc.name tc.arguments f.message.userId
        "chat" = .deny reason codes) :
      LoopStep D env m f (.call .hooks tc rest pos)
        ({ m with
          log := .hooked ⟨f.generation, tc.id⟩ tc.name (.deny reason codes) :: m.log }.answer f
          tc rest pos ("Tool call blocked by hook policy: " ++ reason) none)
  | paused {tc rest pos} (tool : Tool) (codes : List String)
      (replies : List SubmissionResult)
      (hpolicy : loopPolicy D env m f tc = some (tool, .requireApproval codes)) :
      LoopStep D env m f (.call .approve tc rest pos)
        { m with
          pendingKey := ⟨f.generation, tc.id⟩
          pendingPos := pos
          control := .idle
          thread := m.thread.awaitApproval env.now
            (pendingFor env tool codes tc.name tc.arguments tc.id f.contextMessages)
          replies }
  | passed {tc rest pos} :
      LoopStep D env m f (.call .approve tc rest pos)
        { m with control := .loop f (.call .execute tc rest pos) }
  | taken {tc rest pos} (early : EarlyResult) (hcached : cachedEarly D m f tc = some early) :
      LoopStep D env m f (.call .execute tc rest pos)
        { m with
          earlyResults := m.earlyResults.filter (·.key != ⟨f.generation, tc.id⟩)
          control := .loop f (.call (.record (ofEarlyResult tc.name early.result)
            (some early.args)) tc rest pos) }
  | unstarted {tc rest pos} (e : Error) (hcached : cachedEarly D m f tc = none)
      (hprepare : prepareChatTool D env.registry env.store env.now tc.name tc.arguments
        = .error e) :
      LoopStep D env m f (.call .execute tc rest pos)
        { m with control := .loop f (.call (.record (.error e) none) tc rest pos) }
  | started {tc rest pos} (tool : Tool) (params : JsonValue)
      (hcached : cachedEarly D m f tc = none)
      (hprepare : prepareChatTool D env.registry env.store env.now tc.name tc.arguments
        = .ok (tool, params)) :
      LoopStep D env m f (.call .execute tc rest pos)
        { m with
          control := .loop f (.call (.running tool params) tc rest pos)
          log := .started ⟨f.generation, tc.id⟩ .loop tc.name params env.hooksRegistered :: m.log }
  | ended {tool params tc rest pos} :
      LoopStep D env m f (.call (.running tool params) tc rest pos)
        { m with
          control := .loop f (.call (.record (finishChatTool D.json tool tc.name env.toolRun)
            (some params)) tc rest pos) }
  | recorded {result ran tc rest pos} :
      LoopStep D env m f (.call (.record result ran) tc rest pos)
        ((m.recordOutcome pos (.ofResult (resultContent D tc.name result) result)).answer f tc
          rest pos (resultContent D tc.name result) ran)
  /-- An extension waits for its token. -/
  | awaitsToken {result ran tc rest pos} (thread : Thread) (replies : List SubmissionResult)
      (hended : Ended (m.recordOutcome pos
        (.ofResult (resultContent D tc.name result) result)).thread thread) :
      LoopStep D env m f (.call (.record result ran) tc rest pos)
        { m.recordOutcome pos (.ofResult (resultContent D tc.name result) result) with
          control := .idle, thread, replies }

/-- The model has replied. -/
inductive ReplyStep (m : Machine R) (f : Frame R) :
    Except String RespondResult → Machine R → Prop where
  | leave (reply : Except String RespondResult) (thread : Thread)
      (replies : List SubmissionResult) (hended : Ended m.thread thread) :
      ReplyStep m f reply { m with control := .idle, thread, replies }
  /-- No tool was used so far: the model is asked to. -/
  | nudge (text : String) :
      ReplyStep m f (.ok (.text text))
        { m with
          control := .loop
            { f with
              contextMessages := f.contextMessages ++
                [.assistant text,
                  .user ("Please proceed and use the available tools to complete this "
                    ++ "task.")] }
            .top }
  | called (calls : List ToolCall) (content : Option String) :
      ReplyStep m f (.ok (.toolCalls calls content))
        { m.recordCalls calls with
          control := .loop
            { f with
              toolsExecuted := true
              contextMessages := f.contextMessages ++ [.assistantWithToolCalls content calls] }
            (nextCall calls m.recordedCalls) }

/-- An approved call goes on. -/
inductive ResumeStep (D : Deps) (env : Env R) (m : Machine R) (r : Resume) :
    ResumeStage → Machine R → Prop where
  | routed (toolName : String) (routedFrom : Option String) (codes : List String)
      (hroute : resolveChatToolRouting D.config env.registry env.store env.now
        r.pending.toolName (some r.message.userId) = .use toolName routedFrom codes) :
      ResumeStep D env m r .route { m with control := .resume r (.hooks toolName) }
  | routeDenied (text : String) (thread : Thread) (replies : List SubmissionResult)
      (hended : Ended (m.recordOutcome r.pos (.error text)).thread thread) :
      ResumeStep D env m r .route
        { m.recordOutcome r.pos (.error text) with control := .idle, thread, replies }
  | hooked {toolName} (outcome : HookToolPolicyOutcome) (parameters : JsonValue)
      (hparams : outcome.parameters? = some parameters) :
      ResumeStep D env m r (.hooks toolName)
        { m with
          log := .hooked r.key toolName outcome :: m.log
          control := .resume r (.recheck toolName parameters) }
  | hookDenied {toolName} (outcome : HookToolPolicyOutcome) (text : String)
      (thread : Thread) (replies : List SubmissionResult)
      (hended : Ended (m.recordOutcome r.pos (.error text)).thread thread) :
      ResumeStep D env m r (.hooks toolName)
        { m.recordOutcome r.pos (.error text) with
          log := .hooked r.key toolName outcome :: m.log
          control := .idle, thread, replies }
  | paused {toolName params} (tool : Tool) (codes : List String)
      (replies : List SubmissionResult) :
      ResumeStep D env m r (.recheck toolName params)
        { m with
          control := .idle
          thread := m.thread.awaitApproval env.now (pendingFor env tool codes toolName params
            r.pending.toolCallId r.pending.contextMessages)
          pendingKey := r.key
          pendingPos := r.pos
          replies }
  | passed {toolName params} :
      ResumeStep D env m r (.recheck toolName params)
        { m with control := .resume r (.execute toolName params) }
  | unstarted {toolName params} (e : Error) :
      ResumeStep D env m r (.execute toolName params)
        { m with control := .resume r (.record toolName (.error e) none) }
  | started {toolName params} (tool : Tool) (effective : JsonValue)
      (hprepare : prepareChatTool D env.registry env.store env.now toolName params
        = .ok (tool, effective)) :
      ResumeStep D env m r (.execute toolName params)
        { m with
          control := .resume r (.running toolName tool effective)
          log := .started r.key .approval toolName effective env.hooksRegistered :: m.log }
  | ended {toolName tool params} :
      ResumeStep D env m r (.running toolName tool params)
        { m with
          control := .resume r (.record toolName
            (finishChatTool D.json tool toolName env.toolRun) (some params)) }
  | recorded {toolName result ran} :
      ResumeStep D env m r (.record toolName result ran)
        { m.recordOutcome r.pos (.ofResult (resultContent D r.pending.toolName result) result) with
          control := .loop
            { message := r.message
              caller := .approval
              activeSkills := env.activeSkills
              contextMessages := r.pending.contextMessages ++
                [.toolResult r.pending.toolCallId r.pending.toolName
                  (resultContent D r.pending.toolName result)]
              toolsExecuted := true }
            .top
          log := .given r.key r.pending.toolName (resultContent D r.pending.toolName result)
            ran :: m.log }
  | awaitsToken {toolName result ran} (thread : Thread) (replies : List SubmissionResult)
      (hended : Ended (m.recordOutcome r.pos
        (.ofResult (resultContent D r.pending.toolName result) result)).thread thread) :
      ResumeStep D env m r (.record toolName result ran)
        { m.recordOutcome r.pos (.ofResult (resultContent D r.pending.toolName result) result) with
          control := .idle, thread, replies }

inductive EarlyStep (D : Deps) (env : Env R) (m : Machine R) (i : Nat) : Machine R → Prop where
  | none : EarlyStep D env m i m
  | skipped (task : EarlyTask) (htask : m.tasks[i]? = some task)
      (hphase : task.phase = .spawned) :
      EarlyStep D env m i { m with tasks := setPhase m i .skipped }
  | started (task : EarlyTask) (tool : Tool) (htask : m.tasks[i]? = some task)
      (hphase : task.phase = .spawned) (hadmits : earlyAdmits D env m task = some tool) :
      EarlyStep D env m i
        { m with
          tasks := setPhase m i (.running tool.executionTimeout)
          log := .started task.key .earlyTask "shell" task.args env.hooksRegistered :: m.log }
  | executed (task : EarlyTask) (timeout : Nat) (result : Except String String)
      (htask : m.tasks[i]? = some task) (hphase : task.phase = .running timeout) :
      EarlyStep D env m i
        { m with
          tasks := setPhase m i (.executed result)
          earlyResults := ⟨task.key, task.args, result⟩
            :: m.earlyResults.filter (·.key != task.key) }

inductive Step (D : Deps) (m : Machine R) (a : Act R) : Machine R → Prop where
  /-- Answers to the user, and steps that do not fit the state. -/
  | keep (thread : Thread) (replies : List SubmissionResult) (autoApprovedTools : List String)
      (hcalls : thread.calls = m.thread.calls)
      (hpending : thread.pendingApproval = m.thread.pendingApproval)
      (hstate : thread.state = m.thread.state
        ∨ m.control = .idle ∧ m.thread.state = .processing ∧ thread.state = .interrupted) :
      Step D m a { m with thread, replies, autoApprovedTools }
  | loop {f at_ m'} (hkind : a.kind = .main) (hcontrol : m.control = .loop f at_)
      (h : LoopStep D a.env m f at_ m') : Step D m a m'
  | reply {f result m'} (hkind : a.kind = .reply result)
      (hcontrol : m.control = .loop f .waiting) (h : ReplyStep m f result m') : Step D m a m'
  | streamEvent {f ev} (streamedToolCalls : List (String × StreamedToolCallState))
      (hkind : a.kind = .streamEvent ev) (hcontrol : m.control = .loop f .waiting) :
      Step D m a
        { m with
          streamedToolCalls
          tasks := m.tasks ++ ((spawned D m ev).map fun args =>
            { key := ⟨f.generation, ev.ids.1⟩, args, userId := f.message.userId }).toList }
  | resume {r stage m'} (hkind : a.kind = .main) (hcontrol : m.control = .resume r stage)
      (h : ResumeStep D a.env m r stage m') : Step D m a m'
  | early {i m'} (hkind : a.kind = .early i) (h : EarlyStep D a.env m i m') : Step D m a m'
  | begin {message : IncomingMessage} (thread : Thread) (hcontrol : m.control = .idle)
      (hcalls : thread.calls = m.thread.calls ++ [[]])
      (hpending : thread.pendingApproval = none) (hstate : thread.state = .processing) :
      Step D m a
        { m with
          thread
          records := m.records ++ [[]]
          control := .loop
            { message
              caller := .userInput
              activeSkills := a.env.activeSkills
              contextMessages := thread.messages D.json
              toolsExecuted := false }
            .top }
  /-- A pending call is given up. -/
  | cancelled (pending : PendingApproval) (text : String) (thread : Thread)
      (replies : List SubmissionResult) (hcontrol : m.control = .idle)
      (hpending : m.thread.pendingApproval = some pending)
      (hended : Ended (m.recordOutcome m.pendingPos (.error text)).thread thread) :
      Step D m a
        { m.recordOutcome m.pendingPos (.error text) with
          control := .idle, thread, replies }
  | accepted {message : IncomingMessage} (pending : PendingApproval)
      (autoApprovedTools : List String) (hcontrol : m.control = .idle)
      (hpending : m.thread.pendingApproval = some pending) :
      Step D m a
        { m with
          autoApprovedTools
          thread := { m.thread with state := .processing, pendingApproval := none }
          control := .resume ⟨message, pending, m.pendingKey, m.pendingPos⟩ .route }

/-! ## Settled states

Something pends exactly while the thread awaits approval, and a thread whose loop
or approval is under way is processing. -/

/-- No approval is awaited. -/
abbrev Machine.Unpaused (m : Machine R) : Prop := m.thread.pendingApproval = none

structure Settled (m : Machine R) : Prop where
  pending : m.thread.pendingApproval.isSome ↔ m.thread.state = .awaitingApproval
  running : m.control ≠ .idle → m.thread.state = .processing

theorem Settled.pending_none (h : Settled m) (hs : m.thread.state ≠ .awaitingApproval) :
    m.thread.pendingApproval = none := by
  cases hp : m.thread.pendingApproval with
  | none => rfl
  | some => exact absurd (h.pending.mp (by rw [hp]; rfl)) hs

theorem Settled.pending_some (h : Settled m) (hs : m.thread.state = .awaitingApproval) :
    ∃ pending, m.thread.pendingApproval = some pending :=
  isSome_iff_exists.mp (h.pending.mpr hs)

/-- The agent has done nothing yet, and the thread is at rest. -/
structure Machine.Fresh (m : Machine R) : Prop where
  control : m.control = .idle
  state : m.thread.state = .idle
  pending : m.thread.pendingApproval = none
  tasks : m.tasks = []
  earlyResults : m.earlyResults = []
  llmCalls : m.llmCalls = []
  log : m.log = []

theorem Machine.Fresh.settled (h : m.Fresh) : Settled m where
  pending := by simp [h.pending, h.state]
  running hne := absurd h.control hne

/-- While the loop or an approval is under way. -/
theorem Settled.running_thread (h : Settled m) (hcontrol : m.control ≠ .idle) :
    m.thread.pendingApproval = none ∧ m.thread.state = .processing := by
  have hstate := h.running hcontrol
  exact ⟨h.pending_none (by simp [hstate]), hstate⟩

variable {t}

theorem Ended.complete (h : t.pendingApproval = none) (now : Int)
    (response : String) : Ended t (t.completeTurn now response) :=
  ⟨t.calls_completeTurn now response, h, rfl⟩

theorem Ended.fail (h : t.pendingApproval = none) (now : Int) (error : String) :
    Ended t (t.failTurn now error) :=
  ⟨t.calls_failTurn now error, h, rfl⟩

/-! ## The step function follows the rules -/

theorem returnFromLoop_ends (D : Deps) (env : Env R) (f : Frame R)
    (hstate : m.thread.state = .processing) (hpending : m.Unpaused)
    (result : Except Error AgenticLoopResult) (hresult : ∀ p, result ≠ .ok (.needApproval p)) :
    ∃ thread replies, Ended m.thread thread
      ∧ m.returnFromLoop D env f result = { m with control := .idle, thread, replies } := by
  have hgoes : ¬ (f.caller = .userInput ∧ m.thread.state = .interrupted) := by simp [hstate]
  simp only [Machine.returnFromLoop, if_neg hgoes]
  match result with
  | .ok (.response response) => exact ⟨_, _, .complete hpending _ _, rfl⟩
  | .ok (.needApproval p) => exact absurd rfl (hresult p)
  | .error e => exact ⟨_, _, .fail hpending _ _, rfl⟩

variable {f : Frame R}

theorem loopTop_step (hstate : m.thread.state = .processing)
    (hpending : m.Unpaused) : LoopStep D env m f .top (loopTop D env m f) := by
  have hleave : ∀ e, LoopStep D env m f .top (m.returnFromLoop D env f (.error e)) := by
    intro e
    obtain ⟨thread, replies, hended, heq⟩ :=
      returnFromLoop_ends D env f hstate hpending (.error e) (by simp)
    rw [heq]
    exact .leave thread replies hended
  rw [loopTop]
  split
  · exact hleave _
  split
  · exact hleave _
  split
  · exact hleave _
  · exact .send

variable {tc : ToolCall} {pos : Nat} {rest : List ToolCall}

theorem loopHooks_step :
    LoopStep D env m f (.call .hooks tc rest pos) (loopHooks D env m f tc rest pos) := by
  rw [loopHooks]
  cases houtcome : evaluateToolCallHook D.json env.hooks tc.name tc.arguments
      f.message.userId "chat" with
  | «continue» parameters => exact .hooked _ parameters houtcome rfl
  | modified parameters codes => exact .hooked _ parameters houtcome rfl
  | deny reason codes => exact .hookDenied reason codes houtcome

theorem loopApprove_step (hstate : m.thread.state = .processing) :
    LoopStep D env m f (.call .approve tc rest pos) (loopApprove D env m f tc rest pos) := by
  have hgoes : ¬ (f.caller = .userInput ∧ m.thread.state = .interrupted) := by simp [hstate]
  rw [loopApprove]
  split
  · rename_i tool codes hpolicy
    simp only [Machine.returnFromLoop, if_neg hgoes]
    exact .paused tool codes _ hpolicy
  · exact .passed

theorem loopExecute_step :
    LoopStep D env m f (.call .execute tc rest pos) (loopExecute D env m f tc rest pos) := by
  cases hcached : cachedEarly D m f tc with
  | some early =>
    have hlookup := hcached
    unfold cachedEarly at hlookup
    simp only [loopExecute, hlookup]
    exact .taken early hcached
  | none =>
    have hlookup := hcached
    unfold cachedEarly at hlookup
    cases hprepare : prepareChatTool D env.registry env.store env.now tc.name tc.arguments with
    | error e =>
      simp only [loopExecute, hlookup, hprepare]
      exact .unstarted e hcached hprepare
    | ok prepared =>
      simp only [loopExecute, hlookup, hprepare]
      exact .started prepared.1 prepared.2 hcached hprepare

section

variable (hstate : m.thread.state = .processing)

include hstate

variable (hpending : m.Unpaused)

include hpending

theorem loopRecord_step {result : Except Error String} {ran : Option JsonValue} :
    LoopStep D env m f (.call (.record result ran) tc rest pos)
      (loopRecord D env m f tc rest pos result ran) := by
  rw [loopRecord]
  split
  · rename_i extName instructions hauth
    obtain ⟨thread, replies, hended, heq⟩ :=
      returnFromLoop_ends (m := { m.recordOutcome pos
          (.ofResult (resultContent D tc.name result) result) with
        thread := (m.recordOutcome pos (.ofResult (resultContent D tc.name result)
          result)).thread.enterAuthMode env.now extName })
        D env f hstate hpending (.ok (.response instructions)) (by simp)
    rw [heq]
    exact .awaitsToken thread replies ⟨hended.calls, hended.pending, hended.state⟩
  · exact .recorded

theorem stepLoop_step {at_ : LoopAt} : LoopStep D env m f at_ (stepLoop D env m f at_) := by
  cases at_ with
  | top => exact loopTop_step hstate hpending
  | waiting => exact .wait
  | call stage tc rest pos =>
    cases stage with
    | route =>
      rw [stepLoop, loopRoute]
      split
      · rename_i hroute
        exact .routed _ _ _ hroute
      · rename_i hroute
        exact .routeDenied _ _ hroute
    | hooks => exact loopHooks_step
    | approve => exact loopApprove_step hstate
    | execute => exact loopExecute_step
    | running => exact .ended
    | record => exact loopRecord_step hstate hpending

theorem loopReply_step {reply : Except String RespondResult} :
    ReplyStep m f reply (loopReply D env m f reply) := by
  have hleave : ∀ result,
      (∀ p, result ≠ .ok (.needApproval p)) →
        ReplyStep m f reply (m.returnFromLoop D env f result) := by
    intro result hresult
    obtain ⟨thread, replies, hended, heq⟩ :=
      returnFromLoop_ends D env f hstate hpending result hresult
    rw [heq]
    exact .leave reply thread replies hended
  match reply with
  | .error e => exact hleave (.error (.llm e)) (by simp)
  | .ok (.text text) =>
    rw [loopReply]
    split
    · exact hleave _ (by simp)
    split
    · exact .nudge text
    · exact hleave _ (by simp)
  | .ok (.toolCalls calls content) => exact .called calls content

end

variable {r : Resume} {toolName : String}

section

variable (hpending : m.Unpaused)

include hpending

theorem resumeHooks_step :
    ResumeStep D env m r (.hooks toolName) (resumeHooks D env m r toolName) := by
  rw [resumeHooks]
  cases evaluateToolCallHook D.json env.hooks toolName r.pending.parameters
      r.message.userId "chat_approval_resume" with
  | «continue» parameters => exact .hooked (.continue parameters) parameters rfl
  | modified parameters codes => exact .hooked (.modified parameters codes) parameters rfl
  | deny reason codes =>
    exact .hookDenied (.deny reason codes) _ _ _ ⟨calls_completeTurn _ _ _, hpending, rfl⟩

theorem resumeRecord_step {result : Except Error String} {ran : Option JsonValue} :
    ResumeStep D env m r (.record toolName result ran)
      (resumeRecord D env m r toolName result ran) := by
  rw [resumeRecord]
  split
  · exact .awaitsToken _ _ ⟨calls_completeTurn _ _ _, hpending, rfl⟩
  · exact .recorded

theorem stepResume_step {stage : ResumeStage} :
    ResumeStep D env m r stage (stepResume D env m r stage) := by
  cases stage with
  | route =>
    rw [stepResume, resumeRoute]
    split
    · rename_i hroute
      exact .routed _ _ _ hroute
    · exact .routeDenied _ _ _ ⟨calls_completeTurn _ _ _, hpending, rfl⟩
  | hooks => exact resumeHooks_step hpending
  | recheck =>
    rw [stepResume, resumeRecheck]
    split
    · exact .paused _ _ _
    · exact .passed
  | execute toolName params =>
    rw [stepResume, resumeExecute]
    split
    · exact .unstarted _
    rename_i hprepare
    exact .started _ _ hprepare
  | running => exact .ended
  | record => exact resumeRecord_step hpending

end

variable {i : Nat}

theorem stepEarly_step : EarlyStep D env m i (stepEarly D env m i) := by
  rw [stepEarly]
  cases htask : m.tasks[i]? with
  | none => exact .none
  | some task =>
    cases hphase : task.phase with
    | spawned =>
      cases hadmits : earlyAdmits D env m task with
      | none => simpa only [hphase, hadmits] using .skipped task htask hphase
      | some tool => simpa only [hphase, hadmits] using .started task tool htask hphase hadmits
    | running timeout => simpa only [hphase] using .executed task timeout _ htask hphase
    | skipped | executed => simpa only [hphase] using .none

variable {a : Act R}

theorem stepStreamEvent_step {ev : ToolStreamEvent}
    (hkind : a.kind = .streamEvent ev) (hcontrol : m.control = .loop f .waiting) :
    Step D m a (stepStreamEvent D m f ev) := by
  have hrule := Step.streamEvent (D := D)
    (insertEntry ev.ids.2 (onStreamEvent D ((m.streamedToolCalls.lookup ev.ids.2).getD {})
      ev).1 m.streamedToolCalls) hkind hcontrol
  simp only [stepStreamEvent]
  cases hspawned : spawned D m ev with
  | none | some =>
    rw [hspawned] at hrule
    rw [spawned] at hspawned
    rw [hspawned]
    exact hrule

theorem Step.answer (r : SubmissionResult) : Step D m a (m.reply r) :=
  .keep m.thread _ m.autoApprovedTools rfl rfl (.inl rfl)

section

variable (h : Settled m)

include h

section

variable (hcontrol : m.control = .idle)

include hcontrol

theorem cancelPending_step
    (hstate : m.thread.state = .awaitingApproval) (now : Int) (toolError message : String) :
    Step D m a (m.cancelPending now toolError message) := by
  obtain ⟨pending, hpending⟩ := h.pending_some hstate
  exact .cancelled pending toolError _ _ hcontrol hpending ⟨calls_completeTurn _ _ _, rfl, rfl⟩

theorem stepInput_step {message : IncomingMessage} {content : String} :
    Step D m a (stepInput D a.env m message content) := by
  rw [stepInput]
  split
  · rename_i hexpired
    exact cancelPending_step h hcontrol hexpired.1 _ _ _
  · cases hstate : m.thread.state with
    | processing | awaitingApproval | completed => exact .answer _
    | idle | interrupted =>
      have hpending : m.Unpaused := h.pending_none (by simp [hstate])
      simp only [tryStartTurn, hstate]
      exact .begin _ hcontrol (by simp [calls]) hpending rfl

theorem stepInterrupt_step : Step D m a (stepInterrupt a.env m) := by
  rw [stepInterrupt]
  cases hstate : m.thread.state with
  | processing =>
    exact .keep _ _ m.autoApprovedTools (m.thread.calls_interrupt _) rfl
      (.inr ⟨hcontrol, hstate, rfl⟩)
  | awaitingApproval => exact cancelPending_step h hcontrol hstate _ _ _
  | idle | completed | interrupted => exact .answer _

theorem stepApproval_step {message : IncomingMessage} {requestId : Option String}
    {approved always : Bool} :
    Step D m a (stepApproval a.env m message requestId approved always) := by
  rw [stepApproval]
  by_cases hstate : m.thread.state = .awaitingApproval
  · rw [if_neg (not_not_intro hstate)]
    obtain ⟨pending, hpending⟩ := h.pending_some hstate
    simp only [hpending]
    split
    · exact cancelPending_step h hcontrol hstate _ _ _
    split
    · exact .answer _
    split
    · exact .keep _ _ m.autoApprovedTools rfl hpending.symm (.inl hstate.symm)
    split
    · exact .accepted pending _ hcontrol hpending
    · exact cancelPending_step h hcontrol hstate _ _ _
  · rw [if_pos hstate]
    exact .answer _

end

theorem step_sound (a : Act R) : Step D m a (step D m a) := by
  have hkeep : Step D m a m := .keep m.thread m.replies m.autoApprovedTools rfl rfl (.inl rfl)
  rw [step]
  split
  next f at_ hkind hcontrol =>
    obtain ⟨hpending, hstate⟩ := h.running_thread (by simp [hcontrol])
    exact .loop hkind hcontrol (stepLoop_step hstate hpending)
  next r stage hkind hcontrol =>
    have hpending := (h.running_thread (by simp [hcontrol])).1
    exact .resume hkind hcontrol (stepResume_step hpending)
  next i hkind => exact .early hkind stepEarly_step
  next ev f hkind hcontrol => exact stepStreamEvent_step hkind hcontrol
  next result f hkind hcontrol =>
    obtain ⟨hpending, hstate⟩ := h.running_thread (by simp [hcontrol])
    exact .reply hkind hcontrol (loopReply_step hstate hpending)
  next hkind hcontrol => exact stepInput_step h hcontrol
  next hkind hcontrol => exact stepApproval_step h hcontrol
  next hkind hcontrol => exact stepInterrupt_step h hcontrol
  next toolName hkind => exact .keep m.thread m.replies _ rfl rfl (.inl rfl)
  next => exact hkeep

end

/-! ## Steps keep a state settled -/

theorem Settled.of_ended {before : Thread} (h : Ended before m.thread)
    (hcontrol : m.control = .idle) : Settled m where
  pending := by simp [h.pending, h.state]
  running hne := absurd hcontrol hne

/-- A state that asks for approval. -/
theorem Settled.of_awaiting {pending : PendingApproval}
    (hpending : m.thread.pendingApproval = some pending)
    (hstate : m.thread.state = .awaitingApproval) (hcontrol : m.control = .idle) : Settled m where
  pending := by simp [hpending, hstate]
  running hne := absurd hcontrol hne

theorem Settled.of_processing (hpending : m.Unpaused)
    (hstate : m.thread.state = .processing) : Settled m where
  pending := by simp [hpending, hstate]
  running _ := hstate

theorem LoopStep.settled {at_ : LoopAt} (h : LoopStep D env m f at_ m')
    (hpending : m.Unpaused) (hstate : m.thread.state = .processing) :
    Settled m' := by
  cases h with
  | leave _ _ hended | awaitsToken _ _ hended => exact .of_ended hended rfl
  | paused => exact .of_awaiting rfl rfl rfl
  | _ => exact .of_processing hpending hstate

theorem ReplyStep.settled {reply : Except String RespondResult}
    (h : ReplyStep m f reply m') (hpending : m.Unpaused)
    (hstate : m.thread.state = .processing) : Settled m' := by
  cases h with
  | leave _ _ _ hended => exact .of_ended hended rfl
  | nudge | called => exact .of_processing hpending hstate

theorem ResumeStep.settled {stage : ResumeStage}
    (h : ResumeStep D env m r stage m') (hpending : m.Unpaused)
    (hstate : m.thread.state = .processing) : Settled m' := by
  cases h with
  | routeDenied _ _ _ hended | hookDenied _ _ _ _ hended | awaitsToken _ _ hended =>
    exact .of_ended hended rfl
  | paused => exact .of_awaiting rfl rfl rfl
  | _ => exact .of_processing hpending hstate

theorem EarlyStep.settled (h : EarlyStep D env m i m') (hm : Settled m) : Settled m' := by
  cases h with
  | _ => exact ⟨hm.pending, hm.running⟩

theorem Step.settled {a : Act R} (h : Step D m a m') (hm : Settled m) : Settled m' := by
  cases h with
  | keep _ _ _ _ hpending hstate =>
    rcases hstate with hstate | ⟨hcontrol, hbefore, hafter⟩
    · exact ⟨by rw [hpending, hstate]; exact hm.pending, fun hne => hstate.trans (hm.running hne)⟩
    refine ⟨?_, fun hne => absurd hcontrol hne⟩
    rw [hpending, hm.pending_none (by simp [hbefore]), hafter]
    simp
  | loop _ hcontrol h | reply _ hcontrol h | resume _ hcontrol h =>
    obtain ⟨hpending, hstate⟩ := hm.running_thread (by simp [hcontrol])
    exact h.settled hpending hstate
  | streamEvent => exact ⟨hm.pending, hm.running⟩
  | early _ h => exact h.settled hm
  | begin _ _ _ hpending hstate => exact .of_processing hpending hstate
  | cancelled _ _ _ _ _ _ hended => exact .of_ended hended rfl
  | accepted => exact .of_processing rfl rfl

theorem step_settled (hm : Settled m) (a : Act R) : Settled (step D m a) :=
  (step_sound hm a).settled hm

/-! ## The tasks -/

theorem setPhase_getElem? (m : Machine R) (i j : Nat) (phase : EarlyPhase) :
    (setPhase m i phase)[j]?
      = m.tasks[j]?.map fun t => if i = j then { t with phase := phase } else t := by
  rw [setPhase, getElem?_modify]
  by_cases hij : i = j
  · simp [hij]
  · simp [hij]

/-- A step of a task changes neither its key nor its arguments. -/
theorem mem_setPhase {phase : EarlyPhase} {t' : EarlyTask} (h : t' ∈ setPhase m i phase) :
    ∃ t ∈ m.tasks, t'.key = t.key ∧ t'.args = t.args := by
  obtain ⟨j, hj⟩ := mem_iff_getElem?.mp h
  rw [setPhase_getElem?] at hj
  obtain ⟨t, ht, rfl⟩ := map_eq_some_iff.mp hj
  refine ⟨t, mem_iff_getElem?.mpr ⟨j, ht⟩, ?_⟩
  split
  · exact ⟨rfl, rfl⟩
  · exact ⟨rfl, rfl⟩

theorem setPhase_keys (m : Machine R) (i : Nat) (phase : EarlyPhase) :
    (setPhase m i phase).map (·.key) = m.tasks.map (·.key) := by
  apply ext_getElem?
  intro j
  rw [getElem?_map, getElem?_map, setPhase_getElem?]
  cases m.tasks[j]? with
  | none => rfl
  | some =>
    by_cases hij : i = j
    · simp [hij]
    · simp [hij]

/-- The task itself after its step, and the others as they were. -/
theorem mem_setPhase_cases {phase : EarlyPhase} {task t' : EarlyTask}
    (htask : m.tasks[i]? = some task) (h : t' ∈ setPhase m i phase) :
    t' = { task with phase := phase } ∨ t' ∈ m.tasks := by
  obtain ⟨j, hj⟩ := mem_iff_getElem?.mp h
  rw [setPhase_getElem?] at hj
  obtain ⟨t, ht, rfl⟩ := map_eq_some_iff.mp hj
  by_cases hij : i = j
  · subst hij
    rw [htask] at ht
    cases ht
    exact .inl (if_pos rfl)
  · rw [if_neg hij]
    exact .inr (mem_of_getElem? ht)

theorem mem_setPhase_self {task : EarlyTask} (htask : m.tasks[i]? = some task)
    (phase : EarlyPhase) : { task with phase := phase } ∈ setPhase m i phase := by
  have hset := setPhase_getElem? m i i phase
  rw [htask, map_some, if_pos rfl] at hset
  exact mem_of_getElem? hset

/-- Every other task is still there. -/
theorem mem_setPhase_of_mem {task t : EarlyTask} (htask : m.tasks[i]? = some task)
    (h : t ∈ m.tasks) (phase : EarlyPhase) : t ∈ setPhase m i phase ∨ t = task := by
  obtain ⟨j, hj⟩ := mem_iff_getElem?.mp h
  by_cases hij : i = j
  · subst hij
    rw [htask] at hj
    exact .inr (Option.some.inj hj).symm
  · have hset := setPhase_getElem? m i j phase
    rw [hj, map_some, if_neg hij] at hset
    exact .inl (mem_of_getElem? hset)

def PausesLast (D : Deps) (m : Machine R) (a : Act R) : Prop :=
  ∀ f tc rest pos tool codes, a.kind = .main →
    m.control = .loop f (.call .approve tc rest pos) →
    loopPolicy D a.env m f tc = some (tool, .requireApproval codes) → rest = []

/-- The calls after the one the loop is at. -/
def Control.behind : Control R → List ToolCall
  | .loop _ (.call _ _ rest _) => rest
  | _ => []

theorem PausesLast.of_behind (h : m.control.behind.isEmpty = true) : PausesLast D m a := by
  intro f tc rest pos tool codes _ hcontrol _
  rw [hcontrol] at h
  exact isEmpty_iff.mp h

/-- A condition that the rules keep, in guarded steps, holds in every state that
a guarded run reaches from a settled one. -/
theorem rules_invariant {Inv : Machine R → Prop} {guard : Machine R → Act R → Prop}
    (hrule : ∀ m a m', Settled m → Inv m → guard m a → Step D m a m' → Inv m')
    (hm : Settled m) (h0 : Inv m) {acts pre : List (Act R)}
    (hguard : Run.Guarded (step D) guard m acts) (hpre : pre <+: acts) :
    Inv (Run.run (step D) m pre) := by
  have hstep : ∀ m a, Settled m ∧ Inv m → guard m a → Settled (step D m a) ∧ Inv (step D m a) := by
    intro m a h hg
    exact ⟨step_settled h.1 a, hrule m a _ h.1 h.2 hg (step_sound h.1 a)⟩
  exact (Run.invariant_reached hstep ⟨hm, h0⟩ hguard hpre).2

end TitanClaw.Agent
