import TitanClaw.Agent.ThreadOps
import TitanClaw.Lib.Run

/-! # Does an approved call run?

An approved call passes the policy a second time, with the session's
auto-approval left out. For a tool that requires approval by itself the answer
is again that it needs approval: the user is asked again, and the tool never
runs. -/

namespace TitanClaw.Agent

open Tools Run

variable {R : Type} {D : Deps}

def startsSince (m m' : Machine R) : List (String × JsonValue) :=
  (m'.log.take (m'.log.length - m.log.length)).filterMap fun e =>
    match e with
    | .started _ _ tool params _ => some (tool, params)
    | _ => none

/-- What an approval is for: by the time `process_approval` is through with the
call, the tool was started exactly once, with the approved parameters, and the
user is not asked for the same call again. -/
def Honoured (m m' : Machine R) (pending : PendingApproval) : Prop :=
  startsSince m m' = [(pending.toolName, pending.parameters)]
    ∧ ∀ requestId description,
        m'.replies.head? ≠ some (.needApproval requestId pending.toolName description
          pending.parameters)

/-- The request id that came with the approval fits the pending request; on
channels other than web and gateway it may be left out. -/
def RequestMatches (message : IncomingMessage) (requestId : Option String)
    (pending : PendingApproval) : Prop :=
  requestId = some pending.requestId
    ∨ requestId = none ∧ requiresExplicitRequestId message.channel = false

/-- The state in which the approved call starts its way. -/
def resumed (m : Machine R) (message : IncomingMessage) (always : Bool)
    (pending : PendingApproval) : Machine R :=
  { m with
    autoApprovedTools :=
      if always then pending.toolName :: m.autoApprovedTools else m.autoApprovedTools
    thread := { m.thread with state := .processing, pendingApproval := none }
    control := .resume ⟨message, pending, m.pendingKey, m.pendingPos⟩ .route }

theorem stepApproval_accepted {env : Env R} {m : Machine R} {message : IncomingMessage}
    {requestId : Option String} {pending : PendingApproval} (always : Bool)
    (hstate : m.thread.state = .awaitingApproval)
    (hpending : m.thread.pendingApproval = some pending)
    (hfresh : isApprovalExpired m.thread.updatedAt env.now = false)
    (hid : RequestMatches message requestId pending) :
    stepApproval env m message requestId true always = resumed m message always pending := by
  rcases hid with rfl | ⟨rfl, hchannel⟩
  · simp [stepApproval, hstate, hpending, hfresh, resumed]
  · simp [stepApproval, hstate, hpending, hfresh, hchannel, resumed]

theorem resumeHooks_unchanged {env : Env R} {m : Machine R} {r : Resume} {toolName : String}
    {params : JsonValue} (h : (evaluateToolCallHook D.json env.hooks toolName r.pending.parameters
      r.message.userId "chat_approval_resume").parameters? = some params) :
    ∃ outcome, resumeHooks D env m r toolName
      = { m with
          log := .hooked r.key toolName outcome :: m.log
          control := .resume r (.recheck toolName params) } := by
  rw [resumeHooks]
  cases houtcome : evaluateToolCallHook D.json env.hooks toolName r.pending.parameters
      r.message.userId "chat_approval_resume" with
  | «continue» parameters =>
    rw [houtcome] at h
    cases h
    exact ⟨_, rfl⟩
  | modified parameters codes =>
    rw [houtcome] at h
    cases h
    exact ⟨_, rfl⟩
  | deny reason codes =>
    rw [houtcome] at h
    cases h

/-- **An approved call to a tool that requires approval never runs.** Whatever
the state, the session's auto-approvals and the environment of each step: the
approval ends with the user being asked for the same call again, and nothing has
been started. -/
theorem approved_call_never_runs (D : Deps) (m : Machine R) (e₀ e₁ e₂ e₃ : Env R)
    (message : IncomingMessage) (requestId : Option String) (always : Bool)
    (pending : PendingApproval) (tool : Tool) (routedFrom : Option String)
    (reasonCodes : List String) (hidle : m.control = .idle)
    (hstate : m.thread.state = .awaitingApproval)
    (hpending : m.thread.pendingApproval = some pending)
    (hfresh : isApprovalExpired m.thread.updatedAt e₀.now = false)
    (hid : RequestMatches message requestId pending)
    (hroute : resolveChatToolRouting D.config e₁.registry e₁.store e₁.now pending.toolName
      (some message.userId) = .use pending.toolName routedFrom reasonCodes)
    (hhooks : (evaluateToolCallHook D.json e₂.hooks pending.toolName pending.parameters
      message.userId "chat_approval_resume").parameters? = some pending.parameters)
    (htool : e₃.registry.get pending.toolName = some tool)
    (hrequires : tool.requiresApproval = true) :
    let m' := run (step D) m
      [⟨e₀, .approval message requestId true always⟩, ⟨e₁, .main⟩, ⟨e₂, .main⟩, ⟨e₃, .main⟩]
    m'.control = .idle ∧ ¬ Honoured m m' pending ∧ startsSince m m' = []
      ∧ ∃ newId description,
        m'.replies.head?
            = some (.needApproval newId pending.toolName description pending.parameters)
          ∧ m'.thread.pendingApproval
            = some { pending with requestId := newId, description := description } := by
  -- the four steps, one after the other
  let r : Resume := ⟨message, pending, m.pendingKey, m.pendingPos⟩
  let hooking : Machine R :=
    { resumed m message always pending with control := .resume r (.hooks pending.toolName) }
  have h₀ : step D m ⟨e₀, .approval message requestId true always⟩
      = resumed m message always pending := by
    simp only [step, hidle]
    exact stepApproval_accepted always hstate hpending hfresh hid
  have h₁ : step D (resumed m message always pending) ⟨e₁, .main⟩ = hooking := by
    simp [step, resumed, stepResume, resumeRoute, hroute, hooking, r]
  obtain ⟨outcome, h₂⟩ := resumeHooks_unchanged (m := hooking) (r := r) hhooks
  obtain ⟨codes, h₃⟩ := evaluate_requiresApproval hrequires pending.parameters
    (resolveToolContractV2ForUser D.config e₃ pending.toolName message.userId)
  have hpolicy : resumePolicy D e₃ r pending.toolName pending.parameters
      = some (tool, .requireApproval codes) := by
    simp only [resumePolicy, htool, Option.map_some, h₃, r]
  have hrun : run (step D) m
      [⟨e₀, .approval message requestId true always⟩, ⟨e₁, .main⟩, ⟨e₂, .main⟩, ⟨e₃, .main⟩]
      = resumeRecheck D e₃
          { hooking with
            log := .hooked m.pendingKey pending.toolName outcome :: m.log
            control := .resume r (.recheck pending.toolName pending.parameters) }
          r pending.toolName pending.parameters := by
    rw [run_cons, h₀, run_cons, h₁]
    exact congrArg (fun n => step D n ⟨e₃, .main⟩) h₂
  have hstarts : startsSince m (run (step D) m
      [⟨e₀, .approval message requestId true always⟩, ⟨e₁, .main⟩, ⟨e₂, .main⟩, ⟨e₃, .main⟩])
      = [] := by
    rw [hrun]
    simp only [resumeRecheck, hpolicy]
    simp [startsSince]
  refine ⟨?_, ?_, hstarts, ?_⟩
  · rw [hrun]
    simp only [resumeRecheck, hpolicy]
  · intro hhonoured
    have hone := hhonoured.1
    rw [hstarts] at hone
    cases hone
  · rw [hrun]
    simp only [resumeRecheck, hpolicy]
    exact ⟨e₃.newId, _, rfl, rfl⟩

/-- A call of the shell that waits for its approval. -/
def pendingLs : PendingApproval where
  requestId := "req-1"
  toolName := "shell"
  parameters := commandArgs "ls"
  description := smallShell.description
  toolCallId := "call-1"
  contextMessages := [.user "hello", .assistantWithToolCalls none
    [⟨"call-1", "shell", commandArgs "ls"⟩]]

def waitingForLs : Machine Unit where
  thread :=
    { id := "t"
      state := .awaitingApproval
      turns := [{ turnNumber := 0, userInput := "hello", toolCalls :=
        [{ toolCallId := some "call-1", name := "shell", parameters := commandArgs "ls" }] }]
      pendingApproval := some pendingLs }
  records := [[⟨"call-1", none⟩]]
  pendingKey := ⟨0, "call-1"⟩

/-- The user approves `ls`, with its request id. -/
def approveLs : List (Act Unit) :=
  [⟨smallEnv, .approval helloMessage (some "req-1") true false⟩, ⟨smallEnv, .main⟩,
    ⟨smallEnv, .main⟩, ⟨smallEnv, .main⟩]

theorem approved_ls_never_runs :
    startsSince waitingForLs (run (step (smallDeps {})) waitingForLs approveLs) = [] :=
  (approved_call_never_runs (smallDeps {}) waitingForLs smallEnv smallEnv smallEnv smallEnv
    helloMessage (some "req-1") false pendingLs smallShell none [] rfl rfl rfl (by decide)
    (.inl rfl) (by decide) rfl rfl rfl).2.2.1

/-- The request for `ls` is fresh, approved with its id, routed to the shell and
left alone by the hooks; the run ends, the shell was not started, and the user
is asked again. -/
theorem approved_ls_asked_again :
    isApprovalExpired waitingForLs.thread.updatedAt smallEnv.now = false
      ∧ RequestMatches helloMessage (some "req-1") pendingLs
      ∧ resolveChatToolRouting {} smallEnv.registry none 0 "shell" (some "alice")
          = .use "shell" none []
      ∧ (evaluateToolCallHook commandJson smallEnv.hooks "shell" pendingLs.parameters "alice"
          "chat_approval_resume").parameters? = some pendingLs.parameters
      ∧ (smallEnv.registry.get "shell").map (·.requiresApproval) = some true
      ∧ ¬ Honoured waitingForLs (run (step (smallDeps {})) waitingForLs approveLs)
          pendingLs := by
  refine ⟨by decide, .inl rfl, by decide, rfl, rfl, ?_⟩
  intro hhonoured
  have hlength := congrArg List.length hhonoured.1
  revert hlength
  decide

end TitanClaw.Agent
