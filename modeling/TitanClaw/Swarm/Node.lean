import TitanClaw.Agent.Execute
import TitanClaw.Context.State
import TitanClaw.Lib.Table

/-! # Tasks from peers

A node of the mesh takes task assignments off the network and runs their tools. It refuses the
tools that require approval by themselves; a job of its own would also be held to the tool's
contract. Instants are nanoseconds of a monotone clock. -/

namespace TitanClaw.Swarm

open Agent Context Tools List Run

structure SwarmTask where
  id : String
  jobId : String
  toolName : String
  params : JsonValue
  assigneeNode : Option String

def seenTaskTtl : Nat := 300000000000

def seenTaskMax : Nat := 4096

def trimOldest (order : Table.Iteration String Nat) (seenTasks : Table String Nat) :
    Table String Nat :=
  if seenTaskMax < seenTasks.entries.length then
    (((order.order seenTasks.entries).insertionSort fun a b => a.2 ≤ b.2).take
      (seenTasks.entries.length - seenTaskMax)).foldl (fun kept e => kept.erase e.1) seenTasks
  else seenTasks

def shouldAcceptIncomingTask (nodeId : String) (task : SwarmTask) (seenTasks : Table String Nat)
    (order : Table.Iteration String Nat) (now : Nat) : Bool × Table String Nat :=
  let seenTasks := trimOldest order (seenTasks.retain fun _ seenAt =>
    decide (now - seenAt < seenTaskTtl))
  if task.assigneeNode.any (· != nodeId) then (false, seenTasks)
  else if (seenTasks.lookup task.id).isSome then (false, seenTasks)
  else (true, seenTasks.insert task.id now)

/-! ## Execution -/

/-- What the handler of a task meets. -/
structure SwarmEnv where
  registry : ToolRegistry
  store : Option Store
  /-- The jobs of this node. -/
  contexts : String → Option JobContext
  newId : String
  now : Int
  toolRun : ToolRun
  durationMs : Nat

variable (env : SwarmEnv) (task : SwarmTask)

def SwarmEnv.jobContext : JobContext :=
  (env.contexts task.jobId).getD
    (.withUser env.newId env.now "swarm" "swarm" "Remote swarm task execution")

def SwarmEnv.contract : Option ToolContractV2Descriptor :=
  env.registry.resolveToolContractV2 task.toolName env.store (some (env.jobContext task).userId)

/-- The checks before a tool is run. -/
def prepareTask (D : Deps) (env : SwarmEnv) (task : SwarmTask) : Except String Tool :=
  match env.registry.get task.toolName with
  | none => .error ("Tool '" ++ task.toolName ++ "' not found")
  | some tool =>
      if tool.requiresApproval || tool.requiresApprovalFor task.params then
        .error ("Tool '" ++ task.toolName ++ "' requires approval and cannot run remotely")
      else
        let validation := D.validator.validateToolParams D.letters task.params
        if !validation.isValid then
          .error ("Invalid tool parameters: "
            ++ "; ".intercalate (validation.errors.map fun e => e.field ++ ": " ++ e.message))
        else .ok tool

def finishTask (D : Deps) (env : SwarmEnv) (task : SwarmTask) (tool : Tool) :
    Except String String :=
  match env.toolRun with
  | .timedOut => .error ("Tool '" ++ task.toolName ++ "' timed out after "
      ++ toString tool.executionTimeout ++ "s")
  | .failed e => .error e.toText
  | .finished output => .ok (D.json.toText output.result)

structure TaskResult where
  taskId : String
  success : Bool
  output : String
  durationMs : Nat
  deriving DecidableEq

def publishResult : Except String String → TaskResult
  | .ok output => ⟨task.id, true, output, env.durationMs⟩
  | .error err => ⟨task.id, false, err, env.durationMs⟩

/-- A tool that was run, with the contract for it at the time. -/
structure Execution where
  tool : Tool
  params : JsonValue
  context : JobContext
  contract : Option ToolContractV2Descriptor

/-- The node with the tasks accepted and not yet handled, the results published, and a record
that no step reads: the tools it has run. -/
structure SwarmNode where
  nodeId : String
  seenTasks : Table String Nat := ∅
  incoming : List SwarmTask := []
  published : List TaskResult := []
  executed : List Execution := []

inductive SwarmStep where
  /-- An assignment comes over the network. -/
  | receive (task : SwarmTask) (order : Table.Iteration String Nat) (now : Nat)
  /-- The handler of one of the accepted tasks runs; there is one for each of them. -/
  | handle (pos : Nat) (env : SwarmEnv)

namespace SwarmNode

variable (D : Deps) (s : SwarmNode)

def handleTask (env : SwarmEnv) (task : SwarmTask) : SwarmNode :=
  match prepareTask D env task with
  | .error err => { s with published := publishResult env task (.error err) :: s.published }
  | .ok tool =>
      { s with
        executed := ⟨tool, task.params, env.jobContext task, env.contract task⟩ :: s.executed
        published := publishResult env task (finishTask D env task tool) :: s.published }

def step : SwarmStep → SwarmNode
  | .receive task order now =>
      let (accepted, seenTasks) := shouldAcceptIncomingTask s.nodeId task s.seenTasks order now
      { s with
        seenTasks
        incoming := if accepted then s.incoming ++ [task] else s.incoming }
  | .handle pos env =>
      match s.incoming[pos]? with
      | none => s
      | some task => { s with incoming := s.incoming.eraseIdx pos }.handleTask D env task

/-! ## What peers can have run -/

/-- Every tool that was run is one that the node's worker would have run without approval. -/
def RunsAsWorker : Prop :=
  ∀ e ∈ s.executed, evaluateWorkerToolApproval e.tool e.params e.contract = .noApprovalRequired

def ContractPermits (env : SwarmEnv) (task : SwarmTask) : Prop :=
  ∀ tool, prepareTask D env task = .ok tool →
    ∀ contract, env.contract task = some contract → Permits contract task.params

def HandlesPermitted : SwarmStep → Prop
  | .receive .. => True
  | .handle pos env => ∀ task, s.incoming[pos]? = some task → ContractPermits D env task

section

variable {D} {s : SwarmNode} {env : SwarmEnv} {task : SwarmTask} {tool : Tool}

theorem prepareTask_ok (h : prepareTask D env task = .ok tool) :
    env.registry.get task.toolName = some tool ∧ tool.requiresApproval = false
      ∧ tool.requiresApprovalFor task.params = false := by
  simp only [prepareTask] at h
  split at h
  · cases h
  next found hget =>
  split at h
  · cases h
  next happroval =>
  split at h
  · cases h
  cases h
  simpa [hget] using happroval

theorem contract_of_get (h : env.registry.get task.toolName = some tool) :
    ∃ contract, env.contract task = some contract := by
  simp [SwarmEnv.contract, ToolRegistry.resolveToolContractV2, h]

/-- What passes the node's checks would be run by the worker exactly if the contract permits
it. -/
theorem worker_iff_permits (h : prepareTask D env task = .ok tool) :
    evaluateWorkerToolApproval tool task.params (env.contract task) = .noApprovalRequired
      ↔ ContractPermits D env task := by
  obtain ⟨hget, happroval, -⟩ := prepareTask_ok h
  obtain ⟨contract, hcontract⟩ := contract_of_get hget
  rw [hcontract, evaluateWorkerToolApproval_iff]
  simp [ContractPermits, h, happroval, hcontract]

theorem handleTask_runsAsWorker_iff (h : s.RunsAsWorker) :
    (s.handleTask D env task).RunsAsWorker ↔ ContractPermits D env task := by
  unfold handleTask
  cases hprepare : prepareTask D env task with
  | error =>
    refine iff_of_true h fun tool htool => ?_
    rw [hprepare] at htool
    cases htool
  | ok =>
    rw [← worker_iff_permits hprepare]
    exact ⟨fun hall => hall _ mem_cons_self, fun hnew => forall_mem_cons.mpr ⟨hnew, h⟩⟩

theorem step_runsAsWorker_iff (h : s.RunsAsWorker) (event : SwarmStep) :
    (s.step D event).RunsAsWorker ↔ s.HandlesPermitted D event := by
  cases event with
  | receive => exact iff_of_true h trivial
  | handle pos =>
    simp only [step, HandlesPermitted]
    split
    · next hnone => exact iff_of_true h (by simp [hnone])
    next task hsome =>
    have hsame : RunsAsWorker { s with incoming := s.incoming.eraseIdx pos } := h
    rw [handleTask_runsAsWorker_iff hsame]
    simp [hsome]

end

/-- In every run of a node that has run nothing yet, all that it runs for its peers is what its
worker would run without approval, exactly if each task it handles is permitted by its
contract. -/
theorem run_asWorker_iff (D : Deps) (nodeId : String) (steps : List SwarmStep) :
    (∀ pre, pre <+: steps → (run (step D) { nodeId } pre).RunsAsWorker)
      ↔ Guarded (step D) (HandlesPermitted D) { nodeId } steps := by
  have hnew : RunsAsWorker { nodeId } := fun _ he => absurd he not_mem_nil
  have hstep : ∀ (s : SwarmNode) event, s.RunsAsWorker →
      ((s.step D event).RunsAsWorker ↔ s.HandlesPermitted D event) :=
    fun _ event h => step_runsAsWorker_iff h event
  exact reached_iff_guarded hstep hnew

def createJobTool : Tool where
  name := "create_job"
  description := "Create a new job or task for the agent to work on. Use this when the user "
    ++ "wants you to do something substantial that should be tracked as a separate job."
  parametersSchema := .obj []

def plainDeps : Deps where
  config := {}
  json := ⟨fun _ => "", fun _ => .ok "", fun _ => .error "not JSON"⟩
  letters := Text.asciiCase
  sanitizeToolOutput _ output := ⟨output, false⟩

def createJobSteps : List SwarmStep :=
  [ .receive
      { id := "task-1"
        jobId := "job-1"
        toolName := "create_job"
        params := .obj [("title", .str "Clean up"), ("description", .str "Drop old branches")]
        assigneeNode := none } (.stored _ _) 0,
    .handle 0
      { registry := [createJobTool]
        store := none
        contexts := fun _ => none
        newId := "ctx-1"
        now := 0
        toolRun := .finished ⟨.str "created", 1⟩
        durationMs := 1 } ]

theorem createJob_runs_for_peer :
    ((run (step plainDeps) { nodeId := "node" } createJobSteps).executed.map fun e =>
        (e.tool.name, evaluateWorkerToolApproval e.tool e.params e.contract))
      = [("create_job", .requireApproval
          ["contract_v2_non_simulatable_high_impact", "contract_v2_system_mutation"])]
      ∧ (run (step plainDeps) { nodeId := "node" } createJobSteps).published
        = [⟨"task-1", true, "", 1⟩] := by
  decide

end SwarmNode

end TitanClaw.Swarm
