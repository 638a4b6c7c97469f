import TitanClaw.Agent.Transitions

/-! # Do hooks come before the shell?

The loop runs the hooks on a call before anything else is done with it. The early
task of a streamed shell call does not, and its result is used whatever the hooks
have made of the arguments since. As long as no early task starts while hooks are
registered, and a result is used only for the arguments it comes from, every
shell command starts after its hooks and with the parameters they left. -/

namespace TitanClaw.Agent

open Llm Hooks List Option Run Subset

variable {R : Type} {D : Deps} {env : Env R} {m m' : Machine R}
  (log : List Event) (key : CallKey) (tool : String)

def lastHooked : Option HookToolPolicyOutcome :=
  log.findSome? fun e =>
    match e with
    | .hooked key' tool' outcome => if key' = key ∧ tool' = tool then some outcome else none
    | _ => none

/-- The hooks have run on the call, and left it these parameters. -/
def Cleared (params : JsonValue) : Prop :=
  ∃ outcome, lastHooked log key tool = some outcome ∧ outcome.parameters? = some params

/-- A tool was run for the call with these parameters; if it was the shell, they
are what the hooks left. -/
def Ran (params : JsonValue) : Prop :=
  ∃ by_ tool hooks, .started key by_ tool params hooks ∈ log
    ∧ (tool = "shell" → Cleared log key "shell" params)

/-- What must have happened before an event: before a start of the shell, with
hooks registered, the hooks; before a result that comes from a run, that run. -/
def Due (before : List Event) : Event → Prop
  | .started key _ tool params hooks =>
      tool = "shell" → hooks = true → Cleared before key "shell" params
  | .given key _ _ (some params) => Ran before key params
  | _ => True

def HooksFirst : List Event → Prop
  | [] => True
  | e :: before => Due before e ∧ HooksFirst before

/-- No early task starts while a hook is registered, and an early result is used
only for the arguments it comes from. -/
structure HooksHeard (D : Deps) (m : Machine R) (a : Act R) : Prop where
  early : ∀ i task tool, a.kind = .early i → m.tasks[i]? = some task → task.phase = .spawned →
    earlyAdmits D a.env m task = some tool → a.env.hooksRegistered = false
  cached : ∀ f tc rest pos early, a.kind = .main →
    m.control = .loop f (.call .execute tc rest pos) → cachedEarly D m f tc = some early →
    early.args = tc.arguments

/-! ## The invariant -/

variable {params : JsonValue}

theorem cleared_hooked {key : CallKey} {tool : String} {outcome : HookToolPolicyOutcome} (h : outcome.parameters? = some params) (log : List Event) :
    Cleared (.hooked key tool outcome :: log) key tool params :=
  ⟨outcome, by simp [lastHooked], h⟩

theorem Cleared.started {log : List Event} {key : CallKey} {tool : String} (h : Cleared log key tool params) (key' : CallKey) (by_ : StartedBy)
    (tool' : String) (params' : JsonValue) (hooks : Bool) :
    Cleared (.started key' by_ tool' params' hooks :: log) key tool params := h

theorem Ran.started {log : List Event} {key : CallKey}
    (h : Ran log key params) (key' : CallKey) (by_ : StartedBy) (tool' : String)
    (params' : JsonValue) (hooks : Bool) :
    Ran (.started key' by_ tool' params' hooks :: log) key params := by
  obtain ⟨by₀, tool, hooks₀, hmem, hcleared⟩ := h
  exact ⟨by₀, tool, hooks₀, mem_cons_of_mem _ hmem, hcleared⟩

def StartedEarly (args : JsonValue) : Prop :=
  ∃ hooks, .started key .earlyTask "shell" args hooks ∈ log

theorem StartedEarly.cons {log : List Event} {key : CallKey} {args : JsonValue}
    (h : StartedEarly log key args) (e : Event) : StartedEarly (e :: log) key args := by
  obtain ⟨hooks, hmem⟩ := h
  exact ⟨hooks, mem_cons_of_mem e hmem⟩

def StageDue (tc : ToolCall) : Stage → Prop
  | .approve | .execute => Cleared log key tc.name tc.arguments
  | .running _ params => Ran log key params
  | .record _ (some params) => Ran log key params
  | _ => True

/-- What has happened to an approved call at this stage. -/
def ResumeDue : ResumeStage → Prop
  | .recheck toolName params | .execute toolName params => Cleared log key toolName params
  | .running _ _ params => Ran log key params
  | .record _ _ (some params) => Ran log key params
  | _ => True

def ControlDue : Control R → Prop
  | .loop f (.call stage tc _ _) => StageDue log ⟨f.generation, tc.id⟩ tc stage
  | .resume r stage => ResumeDue log r.key stage
  | _ => True

structure HookInv (m : Machine R) : Prop where
  log : HooksFirst m.log
  control : ControlDue m.log m.control
  tasks : ∀ t ∈ m.tasks, ∀ timeout, t.phase = .running timeout → StartedEarly m.log t.key t.args
  earlyResults : ∀ e ∈ m.earlyResults, StartedEarly m.log e.key e.args

/-- A step that logs nothing and leaves the early tasks alone. -/
theorem HookInv.of_quiet (h : HookInv m) (hlog : m'.log = m.log) (htasks : m'.tasks = m.tasks)
    (hresults : m'.earlyResults ⊆ m.earlyResults) (hcontrol : ControlDue m.log m'.control) :
    HookInv m' where
  log := by rw [hlog]; exact h.log
  control := by rw [hlog]; exact hcontrol
  tasks := by rw [hlog, htasks]; exact h.tasks
  earlyResults := by
    intro e he
    rw [hlog]
    exact h.earlyResults e (hresults he)

/-- A step that logs one event. -/
theorem HookInv.logged (h : HookInv m) {e : Event} (hdue : Due m.log e)
    (hlog : m'.log = e :: m.log) (htasks : m'.tasks = m.tasks)
    (hresults : m'.earlyResults = m.earlyResults)
    (hcontrol : ControlDue (e :: m.log) m'.control) : HookInv m' where
  log := by rw [hlog]; exact ⟨hdue, h.log⟩
  control := by rw [hlog]; exact hcontrol
  tasks := by
    intro t ht timeout hphase
    rw [htasks] at ht
    rw [hlog]
    exact (h.tasks t ht timeout hphase).cons e
  earlyResults := by
    intro r hr
    rw [hresults] at hr
    rw [hlog]
    exact (h.earlyResults r hr).cons e

theorem nextCall_due (f : Frame R) (calls : List ToolCall) (pos : Nat) :
    ControlDue log (.loop f (nextCall calls pos)) := by
  cases calls with
  | nil | cons => exact trivial

theorem ControlDue.started {log : List Event} {c : Control R} (h : ControlDue log c)
    (key : CallKey) (by_ : StartedBy) (tool : String) (params : JsonValue) (hooks : Bool) :
    ControlDue (.started key by_ tool params hooks :: log) c := by
  match c with
  | .idle | .loop _ .top | .loop _ .waiting => exact trivial
  | .loop f (.call stage tc rest pos) =>
    match stage with
    | .route | .hooks | .record _ none => exact trivial
    | .approve | .execute => exact Cleared.started h key by_ tool params hooks
    | .running _ _ | .record _ (some _) => exact Ran.started h key by_ tool params hooks
  | .resume r stage =>
    match stage with
    | .route | .hooks _ | .record _ _ none => exact trivial
    | .recheck _ _ | .execute _ _ => exact Cleared.started h key by_ tool params hooks
    | .running _ _ _ | .record _ _ (some _) => exact Ran.started h key by_ tool params hooks

theorem ran_of_started {log : List Event} {key : CallKey} {by_ : StartedBy} {tool : String}
    {params effective : JsonValue} {hooks : Bool} (h : Cleared log key tool params)
    (heffective : effective = effectiveParams tool params) :
    Due log (.started key by_ tool effective hooks)
      ∧ Ran (.started key by_ tool effective hooks :: log) key effective := by
  have hshell : tool = "shell" → Cleared log key "shell" effective := by
    rintro rfl
    rw [heffective]
    exact h
  exact ⟨fun htool _ => hshell htool, by_, tool, hooks, mem_cons_self, hshell⟩

theorem hooked_due (outcome : HookToolPolicyOutcome) : Due log (.hooked key tool outcome) := trivial

variable {log} {ran : Option JsonValue}

theorem given_due {key : CallKey}
    (h : ∀ params, ran = some params → Ran log key params) (tool content : String) :
    Due log (.given key tool content ran) := by
  cases ran with
  | none => exact trivial
  | some params => exact h params rfl

theorem HookInv.answer (h : HookInv m) {f : Frame R} {tc : ToolCall}
    (hran : ∀ params, ran = some params → Ran m.log ⟨f.generation, tc.id⟩ params)
    (rest : List ToolCall) (pos : Nat) (content : String) :
    HookInv (m.answer f tc rest pos content ran) :=
  h.logged (given_due hran tc.name content) rfl rfl rfl (nextCall_due _ _ _ _)

theorem LoopStep.hookInv {a : Act R} {f : Frame R} {at_ : LoopAt}
    (h : LoopStep D a.env m f at_ m') (hinv : HookInv m) (hguard : HooksHeard D m a)
    (hkind : a.kind = .main) (hcontrol : m.control = .loop f at_) : HookInv m' := by
  have hdue : ControlDue m.log (.loop f at_) := hcontrol ▸ hinv.control
  cases h with
  | leave | send | routed | paused | unstarted | awaitsToken =>
    exact hinv.of_quiet rfl rfl (refl _) trivial
  | wait => exact hinv
  | routeDenied => exact hinv.answer (by simp) _ _ _
  | hooked _ _ _ hparams =>
    exact hinv.logged (hooked_due _ _ _ _) rfl rfl rfl (cleared_hooked hparams m.log)
  | @hookDenied tc _ _ reason codes =>
    have hlogged : HookInv { m with
        log := .hooked ⟨f.generation, tc.id⟩ tc.name (.deny reason codes) :: m.log
        control := .loop f .top } :=
      hinv.logged (hooked_due _ _ _ _) rfl rfl rfl trivial
    exact hlogged.answer (by simp) _ _ _
  | passed | ended => exact hinv.of_quiet rfl rfl (refl _) hdue
  | @taken tc rest pos early hcached =>
    refine hinv.of_quiet rfl rfl (filter_subset_self _) ?_
    have hargs := hguard.cached f tc rest pos early hkind hcontrol hcached
    obtain ⟨⟨hshell, -⟩, hfound⟩ := ite_none_right_eq_some.mp hcached
    have hkey : early.key = ⟨f.generation, tc.id⟩ := by simpa using find?_some hfound
    obtain ⟨hooks, hstarted⟩ := hinv.earlyResults early (mem_of_find?_eq_some hfound)
    refine ⟨.earlyTask, "shell", hooks, hkey ▸ hstarted, fun _ => ?_⟩
    rw [hargs, ← hshell]
    exact hdue
  | started _ _ _ hprepare =>
    obtain ⟨hdue', hran⟩ := ran_of_started hdue (prepareChatTool_ok hprepare).2
    exact hinv.logged hdue' rfl rfl rfl hran
  | @recorded result _ tc _ pos =>
    have hrecorded : HookInv (m.recordOutcome pos
        (.ofResult (resultContent D tc.name result) result)) :=
      hinv.of_quiet rfl rfl (refl _) hinv.control
    refine hrecorded.answer ?_ _ _ _
    rintro params rfl
    exact hdue

theorem ResumeStep.hookInv {r : Resume} {stage : ResumeStage}
    (h : ResumeStep D env m r stage m') (hinv : HookInv m)
    (hcontrol : m.control = .resume r stage) : HookInv m' := by
  have hdue : ControlDue m.log (.resume r stage : Control R) := hcontrol ▸ hinv.control
  cases h with
  | routed | routeDenied | paused | unstarted | awaitsToken =>
    exact hinv.of_quiet rfl rfl (refl _) trivial
  | hooked _ _ hparams =>
    exact hinv.logged (hooked_due _ _ _ _) rfl rfl rfl (cleared_hooked hparams m.log)
  | hookDenied => exact hinv.logged (hooked_due _ _ _ _) rfl rfl rfl trivial
  | passed | ended => exact hinv.of_quiet rfl rfl (refl _) hdue
  | started _ _ hprepare =>
    obtain ⟨hdue', hran⟩ := ran_of_started hdue (prepareChatTool_ok hprepare).2
    exact hinv.logged hdue' rfl rfl rfl hran
  | recorded =>
    refine hinv.logged (given_due ?_ _ _) rfl rfl rfl trivial
    rintro params rfl
    exact hdue

theorem EarlyStep.hookInv {a : Act R} {i : Nat} (h : EarlyStep D a.env m i m')
    (hinv : HookInv m) (hguard : HooksHeard D m a) (hkind : a.kind = .early i) : HookInv m' := by
  -- a task that did not just start was running before
  have htasks : ∀ task phase, m.tasks[i]? = some task → (∀ timeout, phase ≠ .running timeout) →
      ∀ t ∈ setPhase m i phase, ∀ timeout, t.phase = .running timeout →
        StartedEarly m.log t.key t.args := by
    intro task phase htask hphase t ht timeout hrunning
    rcases mem_setPhase_cases htask ht with rfl | hold
    · exact absurd hrunning (hphase timeout)
    · exact hinv.tasks t hold timeout hrunning
  cases h with
  | none => exact hinv
  | skipped task htask =>
    exact ⟨hinv.log, hinv.control, htasks task _ htask (by simp), hinv.earlyResults⟩
  | started task tool htask hphase hadmits =>
    have hoff := hguard.early i task tool hkind htask hphase hadmits
    refine ⟨⟨?_, hinv.log⟩, hinv.control.started _ _ _ _ _, ?_, ?_⟩
    · intro _ hhooks
      rw [hoff] at hhooks
      cases hhooks
    · intro t ht timeout hrunning
      rcases mem_setPhase_cases htask ht with rfl | hold
      · exact ⟨_, mem_cons_self⟩
      · exact (hinv.tasks t hold timeout hrunning).cons _
    · intro e he
      exact (hinv.earlyResults e he).cons _
  | executed task timeout _ htask hphase =>
    refine ⟨hinv.log, hinv.control, htasks task _ htask (by simp), ?_⟩
    intro e he
    rcases mem_cons.mp he with rfl | hold
    · exact hinv.tasks task (mem_of_getElem? htask) timeout hphase
    · exact hinv.earlyResults e (mem_of_mem_filter hold)

theorem Step.hookInv {a : Act R} (h : Step D m a m') (hinv : HookInv m)
    (hguard : HooksHeard D m a) : HookInv m' := by
  cases h with
  | keep => exact hinv.of_quiet rfl rfl (refl _) hinv.control
  | loop hkind hcontrol h => exact h.hookInv hinv hguard hkind hcontrol
  | reply _ _ h =>
    cases h with
    | leave | nudge => exact hinv.of_quiet rfl rfl (refl _) trivial
    | called => exact hinv.of_quiet rfl rfl (refl _) (nextCall_due _ _ _ _)
  | streamEvent =>
    refine ⟨hinv.log, hinv.control, ?_, hinv.earlyResults⟩
    intro t ht timeout hphase
    rcases mem_append.mp ht with hold | hnew
    · exact hinv.tasks t hold timeout hphase
    rw [mem_toList] at hnew
    obtain ⟨args, -, rfl⟩ := map_eq_some_iff.mp hnew
    cases hphase
  | resume _ hcontrol h => exact h.hookInv hinv hcontrol
  | early hkind h => exact h.hookInv hinv hguard hkind
  | begin | cancelled | accepted => exact hinv.of_quiet rfl rfl (refl _) trivial

theorem HookInv.of_fresh (h : m.Fresh) : HookInv m where
  log := by rw [h.log]; exact trivial
  control := by rw [h.control]; exact trivial
  tasks := by simp [h.tasks]
  earlyResults := by simp [h.earlyResults]

/-- **While the hooks are heard, they come before the shell**, in every state that
a run from a fresh agent reaches. -/
theorem shell_starts_after_hooks (D : Deps) (m : Machine R) (hfresh : m.Fresh)
    (acts pre : List (Act R)) (hguard : Guarded (step D) (HooksHeard D) m acts)
    (hpre : pre <+: acts) : HooksFirst (run (step D) m pre).log := by
  have hinv : HookInv (run (step D) m pre) :=
    rules_invariant (fun _ _ _ _ hinv hguard h => h.hookInv hinv hguard) hfresh.settled
      (.of_fresh hfresh) hguard hpre
  exact hinv.log

def Control.atExecute : Control R → Bool
  | .loop _ (.call .execute _ _ _) => true
  | _ => false

theorem HooksHeard.of_main (h : m.control.atExecute = false) : HooksHeard D m ⟨env, .main⟩ where
  early := nofun
  cached := by
    intro f tc rest pos early _ hcontrol
    rw [hcontrol] at h
    cases h

def streamLs : List ActKind :=
  [.autoApprove "shell", .input helloMessage "hello", .main,
    .streamEvent (shellEvent "call-1" "ls"), .early 0]

theorem streamed_ls_after_hooks :
    HooksFirst (run (step pipedDeps) smallAgent (streamLs.map (⟨pipedEnv, ·⟩))).log
      ∧ (run (step pipedDeps) smallAgent (streamLs.map (⟨pipedEnv, ·⟩))).log.length = 1 := by
  have hguard : Guarded (step pipedDeps) (HooksHeard pipedDeps) smallAgent
      (streamLs.map (⟨pipedEnv, ·⟩)) :=
    ⟨⟨nofun, nofun⟩, ⟨nofun, nofun⟩, .of_main (by decide), ⟨nofun, nofun⟩,
      ⟨fun _ _ _ _ _ _ _ => rfl, nofun⟩, trivial⟩
  have hfirst := shell_starts_after_hooks pipedDeps smallAgent
    ⟨rfl, rfl, rfl, rfl, rfl, rfl, rfl⟩ _ _ hguard (prefix_refl _)
  exact ⟨hfirst, by decide⟩

def rejectingHook : Hook where
  name := "no-tools"
  hookPoints := [.beforeToolCall]
  execute _ := .finished (.reject "tools are off")

/-- With that hook registered the shell is started all the same, and no hook has
run. -/
theorem rejected_ls_starts_early :
    ¬ HooksFirst (run (step pipedDeps) smallAgent
      (streamLs.map (⟨{ pipedEnv with hooks := [rejectingHook] }, ·⟩))).log := by
  have hlog : (run (step pipedDeps) smallAgent
      (streamLs.map (⟨{ pipedEnv with hooks := [rejectingHook] }, ·⟩))).log
      = [.started ⟨0, "call-1"⟩ .earlyTask "shell" (commandArgs "ls") true] := rfl
  intro hfirst
  obtain ⟨outcome, hfound, -⟩ := hfirst.1 rfl rfl
  cases hfound

end TitanClaw.Agent
