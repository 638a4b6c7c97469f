import TitanClaw.Swarm.ResultRouter

/-! # Tool subtasks

A subtask of a job runs one tool, here or on a peer. Before the tool runs here the tool, the
job, the approval and the parameters are checked; before the task is sent to a peer, only the
tool and the approval. -/

namespace TitanClaw.Agent

open Tools Context Swarm

/-! ## The local path -/

inductive SubtaskError where
  | notFound (name : String)
  | jobNotFound (id : String)
  | executionFailed (name reason : String)
  | timeout (name : String) (secs : Nat)
  | invalidParameters (name reason : String)
  | authRequired (name : String)

structure TaskOutput where
  result : JsonValue
  durationMs : Nat

structure ToolExec where
  parentId : String
  toolName : String
  params : JsonValue

structure LocalEnv where
  registry : ToolRegistry
  contexts : String → Option JobContext
  toolRun : ToolRun := .timedOut
  elapsedMs : Nat := 0

variable (D : Deps)

/-- `execute_tool_task` up to the tool. -/
def prepareToolTask (env : LocalEnv) (task : ToolExec) : Except SubtaskError Tool :=
  match env.registry.get task.toolName with
  | none => .error (.notFound task.toolName)
  | some tool =>
      match env.contexts task.parentId with
      | none => .error (.jobNotFound task.parentId)
      | some ctx =>
          if ctx.state = .cancelled then .error (.executionFailed task.toolName "Job is cancelled")
          else
            let contractV2 :=
              env.registry.resolveToolContractV2 task.toolName none (some ctx.userId)
            match evaluateWorkerToolApproval tool task.params contractV2 with
            | .requireApproval _ => .error (.authRequired task.toolName)
            | .noApprovalRequired | .allowAutoApproved _ =>
                let validation := D.validator.validateToolParams D.letters task.params
                if !validation.isValid then
                  .error (.invalidParameters task.toolName ("Invalid tool parameters: "
                    ++ "; ".intercalate
                      (validation.errors.map fun e => e.field ++ ": " ++ e.message)))
                else .ok tool

def executeToolTask (env : LocalEnv) (task : ToolExec) : Except SubtaskError TaskOutput :=
  match prepareToolTask D env task with
  | .error e => .error e
  | .ok tool =>
      match env.toolRun with
      | .timedOut => .error (.timeout task.toolName tool.executionTimeout)
      | .failed e => .error (.executionFailed task.toolName e.toText)
      | .finished output => .ok ⟨output.result, env.elapsedMs⟩

/-! ## The remote path -/

inductive OffloadDecision where
  | localOnly
  | remotePreferred

def requiredSwarmCapability (toolName : String) : String :=
  if toolName = "shell" then "shell"
  else if toolName = "memory_search" ∨ toolName = "memory_graph" then "memory_search"
  else "tool_exec"

structure DistributedTask extends SwarmTask where
  priority : Nat
  attempt : Nat
  deadlineMs : Option Int
  originNode : Option String

/-- The answers of the swarm to one subtask; the wait for a result may end without one. -/
structure SwarmHandle where
  hasCapability : String → Except String Bool
  selectPeer : String → Except String (Option String)
  distributeTask : DistributedTask → Except String Unit
  remoteResult : Option SwarmRemoteResult := none

def decideOffload (registry : ToolRegistry) (swarm : SwarmHandle) (toolName : String)
    (params : JsonValue) : OffloadDecision :=
  match registry.get toolName with
  | none => .localOnly
  | some tool =>
      let contractV2 := registry.resolveToolContractV2 toolName none none
      match evaluateDispatcherToolApproval tool params false contractV2 with
      | .requireApproval _ => .localOnly
      | .noApprovalRequired | .allowAutoApproved _ =>
          match swarm.hasCapability (requiredSwarmCapability toolName) with
          | .ok true => .remotePreferred
          | .ok false | .error _ => .localOnly

structure SchedulerMetrics where
  remoteAttempts : Nat := 0
  remoteSuccesses : Nat := 0
  remoteFailures : Nat := 0
  remoteTimeouts : Nat := 0
  localFallbacks : Nat := 0
  remoteIneligible : Nat := 0

def remoteDistributeRetries : Nat := 2

/-- What a subtask meets: the tools and jobs when it starts, the swarm if there is one, whether
the router of results takes a waiter, and what the local path meets if it is taken later. -/
structure SubtaskEnv where
  taskId : String
  start : LocalEnv
  swarmHandle : Option SwarmHandle
  /-- Whether there is a router, and what it answers to `register`. -/
  swarmResults : Option (Except SwarmRouterError Unit)
  later : LocalEnv

structure SubtaskOutcome where
  result : Except SubtaskError TaskOutput
  distributed : List DistributedTask
  usedLocalFallback : Bool
  metrics : SchedulerMetrics

variable (env : SubtaskEnv) (task : ToolExec)

def swarmTaskOf (peer : String) (attempt : Nat) : DistributedTask where
  id := env.taskId
  jobId := task.parentId
  toolName := task.toolName
  params := task.params
  assigneeNode := some peer
  priority := 5
  attempt
  deadlineMs := none
  originNode := none

/-- The first attempt at which the task is handed over. -/
def distributeWithRetries (handle : SwarmHandle) (taskAt : Nat → DistributedTask) :
    Option DistributedTask :=
  ((List.range (remoteDistributeRetries + 1)).map taskAt).find? fun task =>
    (handle.distributeTask task).toBool

/-- `spawn_subtask` of a tool, up to the result it sends. -/
def spawnToolExec (metrics : SchedulerMetrics) : SubtaskOutcome :=
  let runLocally (metrics : SchedulerMetrics) (distributed : List DistributedTask) :
      SubtaskOutcome :=
    { result := executeToolTask D env.later task
      distributed
      usedLocalFallback := true
      metrics := { metrics with localFallbacks := metrics.localFallbacks + 1 } }
  match env.swarmHandle, env.swarmResults with
  | some handle, some registered =>
      match decideOffload env.start.registry handle task.toolName task.params with
      | .localOnly =>
          runLocally { metrics with remoteIneligible := metrics.remoteIneligible + 1 } []
      | .remotePreferred =>
          let metrics := { metrics with remoteAttempts := metrics.remoteAttempts + 1 }
          match handle.selectPeer (requiredSwarmCapability task.toolName) with
          | .ok none =>
              runLocally { metrics with remoteIneligible := metrics.remoteIneligible + 1 } []
          | .error _ => runLocally { metrics with remoteFailures := metrics.remoteFailures + 1 } []
          | .ok (some peer) =>
              match registered with
              | .error _ =>
                  runLocally { metrics with remoteIneligible := metrics.remoteIneligible + 1 } []
              | .ok () =>
                  match distributeWithRetries handle (swarmTaskOf env task peer) with
                  | none =>
                      runLocally { metrics with remoteFailures := metrics.remoteFailures + 1 } []
                  | some sent =>
                      match handle.remoteResult with
                      | some ⟨true, output, durationMs⟩ =>
                          let outputJson :=
                            match D.json.fromText output with
                            | .ok value => value
                            | .error _ => .obj [("output", .str output)]
                          { result := .ok ⟨outputJson, durationMs⟩
                            distributed := [sent]
                            usedLocalFallback := false
                            metrics :=
                              { metrics with remoteSuccesses := metrics.remoteSuccesses + 1 } }
                      | some ⟨false, _, _⟩ =>
                          runLocally { metrics with remoteFailures := metrics.remoteFailures + 1 }
                            [sent]
                      | none =>
                          runLocally { metrics with remoteTimeouts := metrics.remoteTimeouts + 1 }
                            [sent]
  | _, _ => runLocally metrics []

/-! ## What is sent to peers -/

/-- The local path would refuse the task before the tool is run. -/
def Refused : Prop := ∃ e, prepareToolTask D env.start task = .error e

def NeedsNoApproval (registry : ToolRegistry) (task : ToolExec) : Prop :=
  ∃ tool, registry.get task.toolName = some tool ∧ tool.requiresApproval = false
    ∧ Permits (inferToolContractV2Descriptor tool) task.params

/-- There is a swarm that takes the task: a peer with the capability, room for the waiter, and
one of the attempts to send it comes through. -/
def SwarmTakes : Prop :=
  ∃ handle ∈ env.swarmHandle, env.swarmResults = some (.ok ())
    ∧ handle.hasCapability (requiredSwarmCapability task.toolName) = .ok true
    ∧ ∃ peer, handle.selectPeer (requiredSwarmCapability task.toolName) = .ok (some peer)
      ∧ ∃ attempt ≤ remoteDistributeRetries,
        handle.distributeTask (swarmTaskOf env task peer attempt) = .ok ()

def JobAndParamsOk (env : LocalEnv) (task : ToolExec) : Prop :=
  (∃ ctx ∈ env.contexts task.parentId, ctx.state ≠ .cancelled)
    ∧ (D.validator.validateToolParams D.letters task.params).isValid = true

section

variable {D : Deps} {env : SubtaskEnv} {task : ToolExec} {registry : ToolRegistry} {tool : Tool}

theorem resolveToolContractV2_no_store (h : registry.get task.toolName = some tool)
    (userId : Option String) :
    registry.resolveToolContractV2 task.toolName none userId
      = some (inferToolContractV2Descriptor tool) := by
  simp [ToolRegistry.resolveToolContractV2, h, resolveContractV2DescriptorOverlay]

/-- Without auto-approval the dispatcher's policy asks for approval when the worker's does. -/
theorem evaluateDispatcherToolApproval_iff {params : JsonValue}
    {contract : ToolContractV2Descriptor} :
    evaluateDispatcherToolApproval tool params false (some contract) = .noApprovalRequired
      ↔ tool.requiresApproval = false ∧ Permits contract params := by
  rw [← contractReasonCodes_eq_nil_iff]
  simp [evaluateDispatcherToolApproval]

theorem evaluateDispatcherToolApproval_cases (tool : Tool) (params : JsonValue)
    (contractV2 : Option ToolContractV2Descriptor) :
    evaluateDispatcherToolApproval tool params false contractV2 = .noApprovalRequired
      ∨ ∃ codes, evaluateDispatcherToolApproval tool params false contractV2
        = .requireApproval codes := by
  simp only [evaluateDispatcherToolApproval, Bool.false_and, Bool.false_eq_true, if_false]
  split
  · exact .inl rfl
  · exact .inr ⟨_, rfl⟩

variable (handle : SwarmHandle)

theorem decideOffload_iff :
    decideOffload registry handle task.toolName task.params = .remotePreferred
      ↔ NeedsNoApproval registry task
        ∧ handle.hasCapability (requiredSwarmCapability task.toolName) = .ok true := by
  unfold decideOffload
  cases hget : registry.get task.toolName with
  | none => simp [NeedsNoApproval, hget]
  | some tool =>
    simp only [NeedsNoApproval, hget, resolveToolContractV2_no_store hget, Option.some.injEq,
      exists_eq_left', ← evaluateDispatcherToolApproval_iff]
    rcases evaluateDispatcherToolApproval_cases tool task.params
      (some (inferToolContractV2Descriptor tool)) with happroval | ⟨codes, happroval⟩
    · simp only [happroval, true_and]
      rcases handle.hasCapability (requiredSwarmCapability task.toolName) with e | _ | _
      · simp
      · simp
      · simp
    · simp [happroval]

/-- The first attempt that comes through is the one that sends the task. -/
theorem distributeWithRetries_isSome_iff (taskAt : Nat → DistributedTask) :
    (∃ sent, distributeWithRetries handle taskAt = some sent)
      ↔ ∃ attempt ≤ remoteDistributeRetries, handle.distributeTask (taskAt attempt) = .ok () := by
  have hok : ∀ reply : Except String Unit, reply.toBool = true ↔ reply = .ok () := by
    rintro (e | ⟨⟩)
    · simp [Except.toBool]
    · simp [Except.toBool]
  rw [← Option.isSome_iff_exists, distributeWithRetries, List.find?_isSome]
  simp [List.mem_map, List.mem_range, exists_exists_and_eq_and, hok, Nat.lt_succ_iff]

/-- A task is sent if it needs no approval and the swarm takes it. -/
theorem distributed_iff (metrics : SchedulerMetrics) :
    (spawnToolExec D env task metrics).distributed ≠ []
      ↔ NeedsNoApproval env.start.registry task ∧ SwarmTakes env task := by
  unfold spawnToolExec SwarmTakes
  cases hhandle : env.swarmHandle with
  | none => simp
  | some handle =>
    cases hresults : env.swarmResults with
    | none => simp
    | some registered =>
      simp only [Option.mem_some, exists_eq_left', Option.some.injEq]
      cases hdecide : decideOffload env.start.registry handle task.toolName task.params with
      | localOnly =>
        refine iff_of_false (by simp) ?_
        rintro ⟨happroval, -, hcapability, -⟩
        have hremote := (decideOffload_iff handle).mpr ⟨happroval, hcapability⟩
        rw [hdecide] at hremote
        cases hremote
      | remotePreferred =>
        obtain ⟨happroval, hcapability⟩ := (decideOffload_iff handle).mp hdecide
        rw [and_iff_right happroval, and_iff_right (a := _ = Except.ok true) hcapability]
        rcases hpeer : handle.selectPeer (requiredSwarmCapability task.toolName) with e | _ | peer
        · simp
        · simp
        cases registered with
        | error => simp
        | ok =>
          have hattempt := distributeWithRetries_isSome_iff handle (swarmTaskOf env task peer)
          simp only [Except.ok.injEq, Option.some.injEq, true_and, exists_eq_left', ← hattempt]
          cases distributeWithRetries handle (swarmTaskOf env task peer) with
          | none => simp
          | some =>
            rcases handle.remoteResult with _ | ⟨_ | _, output, durationMs⟩
            · simp
            · simp
            · simp

/-- Of the tasks that need no approval the local path refuses those whose job or parameters are
not in order. -/
theorem refused_iff (h : NeedsNoApproval env.start.registry task) :
    Refused D env task ↔ ¬ JobAndParamsOk D env.start task := by
  obtain ⟨tool, hget, happroval⟩ := h
  unfold Refused prepareToolTask JobAndParamsOk
  simp only [hget]
  cases hcontext : env.start.contexts task.parentId with
  | none => simp
  | some ctx =>
    have hnone : evaluateWorkerToolApproval tool task.params
        (some (inferToolContractV2Descriptor tool)) = .noApprovalRequired :=
      evaluateWorkerToolApproval_iff.mpr happroval
    simp only [resolveToolContractV2_no_store hget, hnone]
    by_cases hcancelled : ctx.state = .cancelled
    · simp [hcancelled]
    cases hvalid : (D.validator.validateToolParams D.letters task.params).isValid with
    | true | false => simp [hcancelled]

end

/-- What the local path would refuse is not sent to a peer, exactly if the job and the parameters
are in order whenever the task needs no approval and the swarm takes it. -/
theorem refused_not_distributed_iff (D : Deps) (env : SubtaskEnv) (task : ToolExec)
    (metrics : SchedulerMetrics) :
    (Refused D env task → (spawnToolExec D env task metrics).distributed = [])
      ↔ (NeedsNoApproval env.start.registry task → SwarmTakes env task →
        JobAndParamsOk D env.start task) := by
  constructor
  · intro h happroval htakes
    by_contra hbad
    exact (distributed_iff metrics).mpr ⟨happroval, htakes⟩ (h ((refused_iff happroval).mpr hbad))
  · intro h hrefused
    by_contra hsent
    obtain ⟨happroval, htakes⟩ := (distributed_iff metrics).mp hsent
    exact (refused_iff happroval).mp hrefused (h happroval htakes)

def listJobs : ToolExec := ⟨"job-1", "list_jobs", .obj []⟩

def jobCancelled : SubtaskEnv :=
  let here : LocalEnv :=
    { registry :=
        [{ name := "list_jobs"
           description := "List all jobs or filter by status. Shows job IDs, titles, and "
             ++ "current status."
           parametersSchema := .obj [] }]
      contexts := fun id =>
        some { JobContext.withUser id 0 "alice" "Report" "" with state := .cancelled } }
  { taskId := "task-1"
    start := here
    swarmHandle := some
      { hasCapability := fun _ => .ok true
        selectPeer := fun _ => .ok (some "peer-a")
        distributeTask := fun _ => .ok () }
    swarmResults := some (.ok ())
    later := here }

/-- The local path refuses the task, and it has been sent to the peer. -/
theorem cancelled_distributed :
    prepareToolTask SwarmNode.plainDeps jobCancelled.start listJobs
        = .error (.executionFailed "list_jobs" "Job is cancelled")
      ∧ (spawnToolExec SwarmNode.plainDeps jobCancelled listJobs {}).distributed.map
          (fun sent => (sent.jobId, sent.toolName, sent.assigneeNode))
        = [("job-1", "list_jobs", some "peer-a")] := by
  constructor
  · rfl
  · decide

end TitanClaw.Agent
