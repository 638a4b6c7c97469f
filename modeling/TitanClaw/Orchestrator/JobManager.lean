import TitanClaw.Lib.Faulty
import TitanClaw.Lib.Table
import TitanClaw.Lib.Text

/-! # Containers for jobs

A job runs in a Docker container of its own. To create one, the manager makes a token and
records the job, then asks Docker step by step, and any step can fail; what has been asked of
Docker before is not taken back. -/

namespace TitanClaw.Orchestrator

open Text Faulty AList Reply

/-! ## The manager -/

inductive JobMode where
  | worker
  | claudeCode
  | openCode
  deriving DecidableEq

structure ContainerJobConfig where
  image : String := "ironclaw-worker:latest"
  memoryLimitMb : UInt64 := 2048
  cpuShares : UInt32 := 1024
  orchestratorPort : UInt16 := 50051
  autoPullImage : Bool := true
  claudeCodeApiKey : Option String := none
  claudeCodeOauthToken : Option String := none
  claudeCodeModel : String := "sonnet"
  claudeCodeMaxTurns : UInt32 := 50
  claudeCodeMemoryLimitMb : UInt64 := 4096
  claudeCodeAllowedTools : List String :=
    ["Read(*)", "Write(*)", "Edit(*)", "Glob(*)", "Grep(*)", "NotebookEdit(*)", "Bash(*)",
      "Task(*)", "WebFetch(*)", "WebSearch(*)"]

inductive ContainerState where
  | creating
  | running
  | stopped
  | failed

structure CompletionResult where
  success : Bool
  message : Option String

structure ContainerHandle where
  jobId : String
  containerId : String
  state : ContainerState
  mode : JobMode
  createdAt : Nat
  projectDir : Option String
  taskDescription : String
  lastWorkerStatus : Option String := none
  workerIteration : Nat := 0
  completionResult : Option CompletionResult := none

structure CredentialGrant where
  secretName : String
  envVar : String

structure TokenStore where
  tokens : Table String String := ∅
  credentialGrants : Table String (List CredentialGrant) := ∅

namespace TokenStore

variable (s : TokenStore)

def createToken (jobId token : String) : TokenStore :=
  { s with tokens := s.tokens.insert jobId token }

def storeGrants (jobId : String) (grants : List CredentialGrant) : TokenStore :=
  if grants.isEmpty then s
  else { s with credentialGrants := s.credentialGrants.insert jobId grants }

def revoke (jobId : String) : TokenStore where
  tokens := s.tokens.erase jobId
  credentialGrants := s.credentialGrants.erase jobId

end TokenStore

/-! ### Docker -/

structure HostConfig where
  binds : Option (List String)
  memory : Int64
  cpuShares : Int64
  networkMode : String := "bridge"
  extraHosts : List String := ["host.docker.internal:host-gateway"]
  capDrop : List String := ["ALL"]
  capAdd : List String := ["CHOWN"]
  securityOpt : List String := ["no-new-privileges:true"]
  tmpfs : List (String × String) := [("/tmp", "size=512M")]

structure ContainerConfig where
  image : String
  cmd : List String
  env : List String
  hostConfig : HostConfig
  user : String := "1000:1000"
  workingDir : String := "/workspace"

structure Container where
  name : String
  config : ContainerConfig
  started : Bool := false

abbrev Docker := Table String Container

namespace Docker

/-- Docker takes no name and no id a second time. -/
def taken (d : Docker) (id name : String) : Bool :=
  (d.lookup id).isSome || d.entries.any fun e => e.2.name == name

def start (d : Docker) (id : String) : Docker :=
  match d.lookup id with
  | some c => d.insert id { c with started := true }
  | none => d

end Docker

structure ContainerJobManager where
  config : ContainerJobConfig := {}
  tokenStore : TokenStore := {}
  containers : Table String ContainerHandle := ∅
  connected : Bool := false
  docker : Docker := ∅

inductive OrchestratorError where
  | containerCreationFailed (jobId reason : String)
  | docker (reason : String)

/-! ## Creating a job -/

structure JobRequest where
  jobId : String
  task : String
  projectDir : Option String := none
  mode : JobMode := .worker
  credentialGrants : List CredentialGrant := []

/-- What the world answers while a job is created. Paths are lists of names. -/
structure Answers where
  token : String
  now : Nat := 0
  connect : Except String Unit := .ok ()
  imageFound : Bool := true
  pull : List (Except String Unit) := []
  canonicalDir : Except String (List String) := .ok []
  home : Option (List String) := none
  createBase : Except String Unit := .ok ()
  canonicalBase : Except String (List String) := .ok []
  opencodeModelDefault : Option String := none
  linux : Bool := true
  /-- The id of the new container, and Docker's error where the name is taken. -/
  containerId : String
  conflict : String := ""
  create : Reply String := .answered
  start : Reply String := .answered

abbrev JobProg := StoreProg ContainerJobManager OrchestratorError

def pathText (path : List String) : String := "/" ++ "/".intercalate path

def containerName (mode : JobMode) (jobId : String) : String :=
  match mode with
  | .worker => "ironclaw-worker-" ++ jobId
  | .claudeCode => "ironclaw-claude-" ++ jobId
  | .openCode => "ironclaw-opencode-" ++ jobId

variable (a : Answers)

def connectDocker (m : ContainerJobManager) : Except OrchestratorError ContainerJobManager :=
  if m.connected then .ok m
  else
    match a.connect with
    | .ok () => .ok { m with connected := true }
    | .error e => .error (.docker e)

/-- The first item of the stream that is an error ends it. -/
def pullImage (image jobId : String) : List (Except String Unit) → Except OrchestratorError Unit
  | [] => .ok ()
  | .ok () :: rest => pullImage image jobId rest
  | .error e :: _ =>
      .error (.containerCreationFailed jobId ("failed to pull docker image " ++ image ++ ": " ++ e))

variable (config : ContainerJobConfig) (jobId : String)

def ensureImageReady (a : Answers) : Except OrchestratorError Unit :=
  if a.imageFound then .ok ()
  else if !config.autoPullImage then
    .error (.containerCreationFailed jobId
      ("docker image " ++ config.image ++ " not found and sandbox.auto_pull_image is disabled"))
  else pullImage config.image jobId a.pull

/-- The directory of a project, which must be below that of all projects. -/
def validateBindMountPath (dir jobId : String) (a : Answers) :
    Except OrchestratorError (List String) :=
  let failed (reason : String) : OrchestratorError := .containerCreationFailed jobId reason
  match a.canonicalDir with
  | .error e => .error (failed ("failed to canonicalize project dir " ++ dir ++ ": " ++ e))
  | .ok canonical =>
      match a.home with
      | none => .error (failed "could not determine home directory for path validation")
      | some home =>
          let base := home ++ [".ironclaw", "projects"]
          match a.createBase with
          | .error e =>
              .error (failed ("failed to create projects base " ++ pathText base ++ ": " ++ e))
          | .ok () =>
              match a.canonicalBase with
              | .error e =>
                  .error (failed
                    ("failed to canonicalize projects base " ++ pathText base ++ ": " ++ e))
              | .ok canonicalBase =>
                  if canonicalBase.isPrefixOf canonical then .ok canonical
                  else .error (failed ("project directory " ++ pathText canonical
                    ++ " is outside allowed base " ++ pathText canonicalBase))

variable (req : JobRequest) (a : Answers)

def bindMount : Except OrchestratorError (Option (List String)) :=
  match req.projectDir with
  | none => .ok none
  | some dir => (validateBindMountPath dir req.jobId a).map some

def orchestratorUrl : String :=
  "http://" ++ (if a.linux then "172.17.0.1" else "host.docker.internal") ++ ":"
    ++ toString config.orchestratorPort

def opencodeModel : Option String :=
  a.opencodeModelDefault.filter fun model => !(trim model).isEmpty

/-- The environment of a bridge. -/
def modeEnv (mode : JobMode) (a : Answers) : List String :=
  match mode with
  | .worker => []
  | .claudeCode =>
      (match config.claudeCodeApiKey, config.claudeCodeOauthToken with
        | some key, _ => ["ANTHROPIC_API_KEY=" ++ key]
        | none, some token => ["CLAUDE_CODE_OAUTH_TOKEN=" ++ token]
        | none, none => [])
      ++ if config.claudeCodeAllowedTools.isEmpty then []
        else ["CLAUDE_CODE_ALLOWED_TOOLS=" ++ ",".intercalate config.claudeCodeAllowedTools]
  | .openCode =>
      "CODING_RUNTIME=opencode"
        :: ((opencodeModel a).map fun model => "OPENCODE_MODEL=" ++ model).toList

def command : List String :=
  let target := ["--job-id", req.jobId, "--orchestrator-url", orchestratorUrl config a]
  let limits (model : String) :=
    ["--max-turns", toString config.claudeCodeMaxTurns, "--model", model]
  match req.mode with
  | .worker => "worker" :: target
  | .claudeCode => "claude-bridge" :: target ++ limits config.claudeCodeModel
  | .openCode =>
      "opencode-bridge" :: target ++ limits ((opencodeModel a).getD "openai/gpt-4.1-mini")

def containerConfig (mount : Option (List String)) : ContainerConfig where
  image := config.image
  cmd := command config req a
  env :=
    ["IRONCLAW_WORKER_TOKEN=" ++ a.token, "IRONCLAW_JOB_ID=" ++ req.jobId,
      "IRONCLAW_ORCHESTRATOR_URL=" ++ orchestratorUrl config a]
    ++ (mount.map fun _ => "IRONCLAW_WORKSPACE=/workspace").toList
    ++ modeEnv config req.mode a
  hostConfig :=
    { binds := mount.map fun path => [pathText path ++ ":/workspace:rw"]
      memory :=
        ((if req.mode = .worker then config.memoryLimitMb else config.claudeCodeMemoryLimitMb)
          * 1024 * 1024).toInt64
      cpuShares := config.cpuShares.toUInt64.toInt64 }

def addContainer (config : ContainerConfig) (m : ContainerJobManager) : ContainerJobManager :=
  let container : Container := { name := containerName req.mode req.jobId, config := config }
  { m with docker := m.docker.insert a.containerId container }

def createContainer (config : ContainerConfig) : JobProg PUnit := do
  let m ← get
  if m.docker.taken a.containerId (containerName req.mode req.jobId) then
    throw (.containerCreationFailed req.jobId a.conflict)
  else
    call (a.create.mapError fun e => .containerCreationFailed req.jobId e)
      (addContainer req a config)

def startContainer : JobProg PUnit :=
  call (a.start.mapError fun e =>
      .containerCreationFailed req.jobId ("failed to start container: " ++ e))
    fun m => { m with docker := m.docker.start a.containerId }

variable (m : ContainerJobManager)

def updateHandle : ContainerJobManager :=
  match m.containers.lookup req.jobId with
  | some handle =>
      let handle := { handle with containerId := a.containerId, state := .running }
      { m with containers := m.containers.insert req.jobId handle }
  | none => m

/-- The last part of `create_job_inner`. -/
def launch (config : ContainerConfig) : JobProg PUnit := do
  createContainer req a config
  startContainer req a
  modify (updateHandle req a)

def createJobInner : JobProg PUnit := do
  let m ← get
  set (← ofExcept (connectDocker a m))
  ofExcept (ensureImageReady m.config req.jobId a)
  let mount ← ofExcept (bindMount req a)
  launch req a (containerConfig m.config req a mount)

def recordJob : ContainerJobManager :=
  let handle : ContainerHandle :=
    { jobId := req.jobId
      containerId := ""
      state := .creating
      mode := req.mode
      createdAt := a.now
      projectDir := req.projectDir
      taskDescription := req.task }
  { m with
    tokenStore :=
      (m.tokenStore.createToken req.jobId a.token).storeGrants req.jobId req.credentialGrants
    containers := m.containers.insert req.jobId handle }

def forgetJob : ContainerJobManager :=
  { m with
    -- Docker is not asked to remove anything
    tokenStore := m.tokenStore.revoke jobId
    containers := m.containers.erase jobId }

def createJob : Except OrchestratorError String × ContainerJobManager :=
  match exec (createJobInner req a) (recordJob req a m) with
  | (.ok _, m) => (.ok a.token, m)
  | (.error e, m) => (.error e, forgetJob req.jobId m)

/-! ## What the steps come to -/

/-- Everything that comes before the container is in order. -/
def ready : Bool :=
  (connectDocker a m).isOk && (ensureImageReady m.config req.jobId a).isOk && (bindMount req a).isOk

def creates : Bool :=
  ready req a m && !m.docker.taken a.containerId (containerName req.mode req.jobId)
    && a.create.reached

/-- Every step is answered. -/
def completes : Bool :=
  ready req a m && !m.docker.taken a.containerId (containerName req.mode req.jobId)
    && a.create.ok && a.start.ok

section

variable {req : JobRequest} {a : Answers} {m : ContainerJobManager}

theorem connectDocker_eq {m' : ContainerJobManager} (h : connectDocker a m = .ok m') :
    m' = { m with connected := true } := by
  unfold connectDocker at h
  split at h
  · next hconnected =>
    cases h
    rw [← hconnected]
  · split at h <;> cases h
    rfl

theorem inner_of_not_ready (h : ready req a m = false) :
    ∃ e connected,
      exec (createJobInner req a) m = (.error e, { m with connected := connected }) := by
  unfold createJobInner
  rw [exec_get_bind]
  cases hconnect : connectDocker a m with
  | error e => exact ⟨e, m.connected, rfl⟩
  | ok =>
    obtain rfl := connectDocker_eq hconnect
    cases himage : ensureImageReady m.config req.jobId a with
    | error e => exact ⟨e, true, rfl⟩
    | ok =>
      cases hmount : bindMount req a with
      | error e => exact ⟨e, true, rfl⟩
      | ok => simp [ready, hconnect, himage, hmount, Except.isOk, Except.toBool] at h

theorem inner_of_ready (h : ready req a m = true) :
    ∃ config, exec (createJobInner req a) m
      = exec (launch req a config) { m with connected := true } := by
  simp only [ready, Bool.and_eq_true] at h
  obtain ⟨⟨hconnect, himage⟩, hmount⟩ := h
  unfold createJobInner
  rw [exec_get_bind]
  cases hm : connectDocker a m with
  | error => simp [hm, Except.isOk, Except.toBool] at hconnect
  | ok =>
    obtain rfl := connectDocker_eq hm
    cases hi : ensureImageReady m.config req.jobId a with
    | error => simp [hi, Except.isOk, Except.toBool] at himage
    | ok =>
      cases hb : bindMount req a with
      | error => simp [hb, Except.isOk, Except.toBool] at hmount
      | ok mount => exact ⟨containerConfig m.config req a mount, rfl⟩

theorem launch_of_taken {config : ContainerConfig}
    (h : m.docker.taken a.containerId (containerName req.mode req.jobId) = true) :
    exec (launch req a config) m = (.error (.containerCreationFailed req.jobId a.conflict), m) := by
  simp only [launch, createContainer, bind_assoc, exec_get_bind, h, if_true]
  rfl

theorem launch_of_free {config : ContainerConfig}
    (h : m.docker.taken a.containerId (containerName req.mode req.jobId) = false) :
    exec (launch req a config) m =
      exec (call (a.create.mapError fun e => .containerCreationFailed req.jobId e)
          (addContainer req a config) >>= fun _ =>
        startContainer req a >>= fun _ => modify (updateHandle req a)) m := by
  simp [launch, createContainer, bind_assoc, exec_get_bind, h, Bool.false_eq_true]

theorem lookup_addContainer (req : JobRequest) (a : Answers) (config : ContainerConfig)
    (m : ContainerJobManager) :
    (addContainer req a config m).docker.lookup a.containerId
      = some { name := containerName req.mode req.jobId, config := config } :=
  lookup_insert _

theorem lookup_start {docker : Docker} {id : String} {c : Container}
    (h : docker.lookup id = some c) :
    (docker.start id).lookup id = some { c with started := true } := by
  simp [Docker.start, h]

/-- Without a container, Docker is left as it was. -/
theorem inner_of_not_creates (h : creates req a m = false) :
    ∃ e connected,
      exec (createJobInner req a) m = (.error e, { m with connected := connected }) := by
  by_cases hready : ready req a m = true
  · obtain ⟨config, hlaunch⟩ := inner_of_ready hready
    rw [hlaunch]
    cases htaken : m.docker.taken a.containerId (containerName req.mode req.jobId) with
    | true => exact ⟨_, true, launch_of_taken htaken⟩
    | false =>
      rw [launch_of_free (m := { m with connected := true }) htaken]
      cases hcreate : a.create with
      | rejected => exact ⟨_, true, rfl⟩
      | answered | lost => simp [creates, hready, htaken, hcreate, reached] at h
  · exact inner_of_not_ready (by simpa using hready)

/-- A container that Docker has created stays, even where a later step fails. -/
theorem inner_of_creates (h : creates req a m = true) (hfails : completes req a m = false) :
    ∃ e docker c,
      exec (createJobInner req a) m = (.error e, { m with connected := true, docker := docker })
      ∧ docker.lookup a.containerId = some c ∧ c.name = containerName req.mode req.jobId := by
  simp only [creates, Bool.and_eq_true, Bool.not_eq_true'] at h
  obtain ⟨⟨hready, hfree⟩, hreached⟩ := h
  obtain ⟨config, hlaunch⟩ := inner_of_ready hready
  rw [hlaunch, launch_of_free (m := { m with connected := true }) hfree]
  have hadded := lookup_addContainer req a config m
  cases hcreate : a.create with
  | rejected => simp [hcreate, reached] at hreached
  -- Docker has created the container, and only the caller does not know
  | lost e => exact ⟨_, _, _, rfl, hadded, rfl⟩
  | answered =>
    unfold startContainer
    cases hstart : a.start with
    | answered => simp [completes, hready, hfree, hcreate, hstart, ok] at hfails
    | rejected => exact ⟨_, _, _, rfl, hadded, rfl⟩
    | lost => exact ⟨_, _, _, rfl, lookup_start hadded, rfl⟩

theorem inner_of_completes (h : completes req a m = true) :
    ∃ docker c,
      exec (createJobInner req a) m
        = (.ok ⟨⟩, updateHandle req a { m with connected := true, docker := docker })
      ∧ docker.lookup a.containerId = some c ∧ c.name = containerName req.mode req.jobId
      ∧ c.started = true := by
  simp only [completes, Bool.and_eq_true, Bool.not_eq_true'] at h
  obtain ⟨⟨⟨hready, hfree⟩, hcreate⟩, hstart⟩ := h
  obtain ⟨config, hlaunch⟩ := inner_of_ready hready
  rw [hlaunch, launch_of_free (m := { m with connected := true }) hfree]
  have hadded := lookup_addContainer req a config m
  unfold startContainer
  rw [eq_answered hcreate, eq_answered hstart]
  exact ⟨_, _, rfl, lookup_start hadded, rfl, rfl⟩

end

/-! ## All or nothing -/

def Container.isFor (c : Container) : Prop := ∃ mode, c.name = containerName mode jobId

def NoContainer (docker : Docker) : Prop := ∀ id c, docker.lookup id = some c → ¬ c.isFor jobId

/-- Nothing of the job is left. -/
structure Clean (jobId : String) (m : ContainerJobManager) : Prop where
  token : m.tokenStore.tokens.lookup jobId = none
  grants : m.tokenStore.credentialGrants.lookup jobId = none
  handle : m.containers.lookup jobId = none
  container : NoContainer jobId m.docker

/-- The job has its token, and a handle of a container of its own that has been started. -/
structure Established (jobId token : String) (m : ContainerJobManager) : Prop where
  token : m.tokenStore.tokens.lookup jobId = some token
  container : ∃ handle c, m.containers.lookup jobId = some handle
    ∧ m.docker.lookup handle.containerId = some c ∧ c.isFor jobId ∧ c.started = true

def AllOrNothing : Prop :=
  match createJob req a m with
  | (.ok token, m) => Established req.jobId token m
  | (.error _, m) => Clean req.jobId m

variable {req : JobRequest} {a : Answers} {m : ContainerJobManager}

theorem connectDocker_isOk (a : Answers) (m : ContainerJobManager) :
    (connectDocker a m).isOk = (m.connected || a.connect.isOk) := by
  cases hconnected : m.connected <;> cases hconnect : a.connect <;>
    simp [connectDocker, hconnected, hconnect, Except.isOk, Except.toBool]

theorem ready_recordJob : ready req a (recordJob req a m) = ready req a m := by
  unfold ready
  rw [connectDocker_isOk, connectDocker_isOk]
  rfl

theorem creates_recordJob : creates req a (recordJob req a m) = creates req a m := by
  unfold creates
  rw [ready_recordJob]
  rfl

theorem completes_recordJob : completes req a (recordJob req a m) = completes req a m := by
  unfold completes
  rw [ready_recordJob]
  rfl

theorem clean_forgetJob (m : ContainerJobManager) :
    Clean jobId (forgetJob jobId m) ↔ NoContainer jobId m.docker := by
  constructor
  · intro h
    exact h.container
  · intro h
    exact ⟨lookup_erase _ _, lookup_erase _ _, lookup_erase _ _, h⟩

theorem lookup_token_storeGrants (s : TokenStore) (jobId job : String)
    (grants : List CredentialGrant) :
    (s.storeGrants jobId grants).tokens.lookup job = s.tokens.lookup job := by
  unfold TokenStore.storeGrants
  split <;> rfl

theorem established_updateHandle {docker : Docker} {c : Container}
    (hc : docker.lookup a.containerId = some c)
    (hname : c.name = containerName req.mode req.jobId) (hstarted : c.started = true) :
    Established req.jobId a.token
      (updateHandle req a
        { recordJob req a m with connected := true, docker := docker }) := by
  have hhandle : ∃ handle, (recordJob req a m).containers.lookup req.jobId = some handle :=
    ⟨_, lookup_insert _⟩
  obtain ⟨handle, hhandle⟩ := hhandle
  unfold updateHandle
  simp only [hhandle]
  refine ⟨?_, { handle with containerId := a.containerId, state := .running }, c,
    lookup_insert _, hc, ⟨req.mode, hname⟩, hstarted⟩
  exact (lookup_token_storeGrants _ _ _ _).trans (lookup_insert _)

/-- Creating a job gives it a token, a handle and a started container, or leaves nothing of it:
this holds if and only if every step is answered, or Docker creates no container and has none
of the job already. -/
theorem allOrNothing_iff (req : JobRequest) (a : Answers) (m : ContainerJobManager) :
    AllOrNothing req a m ↔
      completes req a m = true ∨ (creates req a m = false ∧ NoContainer req.jobId m.docker) := by
  unfold AllOrNothing createJob
  by_cases hcompletes : completes req a m = true
  · obtain ⟨docker, c, hinner, hc, hname, hstarted⟩ :=
      inner_of_completes (completes_recordJob.trans hcompletes)
    rw [hinner]
    exact ⟨fun _ => .inl hcompletes, fun _ => established_updateHandle hc hname hstarted⟩
  · have hfails : completes req a (recordJob req a m) = false := by
      rw [completes_recordJob]
      simpa using hcompletes
    cases hcreates : creates req a m with
    | true =>
      obtain ⟨e, docker, c, hinner, hc, hname⟩ :=
        inner_of_creates (creates_recordJob.trans hcreates) hfails
      rw [hinner]
      -- the records are cleared, and the container is what is left
      have hleft : ¬ NoContainer req.jobId docker := fun h => h _ c hc ⟨req.mode, hname⟩
      simpa [clean_forgetJob, hcompletes] using hleft
    | false =>
      obtain ⟨e, connected, hinner⟩ := inner_of_not_creates (creates_recordJob.trans hcreates)
      rw [hinner]
      simp only [clean_forgetJob, hcompletes, Bool.false_eq_true, false_or, true_and]
      rfl

/-- Docker creates the container and does not start it: the job is gone and its container is
not. Nor is it gone when only the answer to its creation is lost. -/
theorem container_left : ¬ AllOrNothing { jobId := "j", task := "t" }
        { token := "k", containerId := "c", start := .rejected "no such runtime" } {}
      ∧ ¬ AllOrNothing { jobId := "j", task := "t" }
        { token := "k", containerId := "c", create := .lost "timeout" } {} := by
  have hcontainer (docker : Docker) (c : Container) (hc : docker.lookup "c" = some c)
      (hname : c.name = containerName .worker "j") : ¬ NoContainer "j" docker :=
    fun h => h "c" c hc ⟨.worker, hname⟩
  constructor
  · intro h
    exact hcontainer _ _ rfl rfl h.container
  · intro h
    exact hcontainer _ _ rfl rfl h.container

end TitanClaw.Orchestrator
