import TitanClaw.Agent.Transitions

/-! # Do only offered tools run?

The trust of the active skills limits the list of tools that a request offers.
Execution looks names up in the whole registry, so the list binds it only as
far as the model, the routing and the stream keep to it: then every tool that
the loop or an early task starts was offered in the request its call answers. -/

namespace TitanClaw.Agent

open Llm Tools Skills List Control Run

variable {R : Type} {D : Deps} {env : Env R} {m m' : Machine R} {Known : String → Prop}

/-- Request number `generation` offers the tool. -/
def Offered (m : Machine R) (generation : Nat) (tool : String) : Prop :=
  ∃ call, m.llmCalls[generation]? = some call ∧ tool ∈ call.tools.map (·.name)

/-- The list of a request is the one `attenuate_tools` gives for its skills. -/
def Attenuated (call : LlmCall R) : Prop :=
  ∃ registry, call.tools = offeredTools registry call.activeSkills

/-- What `run_agentic_loop` starts, itself or early, was offered in the request
that the call answers; with an installed skill active there, it is a read-only
tool. -/
def WithinCeiling (m : Machine R) : Prop :=
  ∀ key by_ tool params hooks, .started key by_ tool params hooks ∈ m.log → by_ ≠ .approval →
    ∃ call, m.llmCalls[key.generation]? = some call ∧ Attenuated call
      ∧ tool ∈ call.tools.map (·.name)
      ∧ ((∃ s ∈ call.activeSkills, s.trust = .installed) → tool ∈ readOnlyTools)

theorem Attenuated.readOnly {call : LlmCall R} (h : Attenuated call)
    (hinstalled : ∃ s ∈ call.activeSkills, s.trust = .installed) {tool : String}
    (htool : tool ∈ call.tools.map (·.name)) : tool ∈ readOnlyTools := by
  obtain ⟨registry, hregistry⟩ := h
  obtain ⟨t, ht, rfl⟩ := mem_map.mp htool
  obtain ⟨s, hs, htrust⟩ := hinstalled
  have hactive : call.activeSkills.isEmpty = false := by simpa using ne_nil_of_mem hs
  rw [hregistry, offeredTools, hactive] at ht
  exact attenuateTools_readOnly ⟨s, hs, htrust⟩ t ht

/-- A name the ceiling has nothing against: it is offered, or no tool ever goes
by it. -/
def Allowed (Known : String → Prop) (m : Machine R) (generation : Nat) (tool : String) : Prop :=
  Offered m generation tool ∨ ¬ Known tool

/-- Tools are registered under known names only; replies call only tools that
their request offers; routing replaces a tool only by an offered one; and a
shell call starts an early task only where the shell is offered. -/
structure KeepsToOffer (D : Deps) (Known : String → Prop) (m : Machine R) (a : Act R) : Prop where
  registered : ∀ tool ∈ a.env.registry, Known tool.name
  requested : ∀ f calls content, a.kind = .reply (.ok (.toolCalls calls content)) →
    m.control = .loop f .waiting → ∀ tc ∈ calls, Allowed Known m f.generation tc.name
  rerouted : ∀ f tc rest pos toolName routedFrom codes, a.kind = .main →
    m.control = .loop f (.call .route tc rest pos) →
    resolveChatToolRouting D.config a.env.registry a.env.store a.env.now tc.name
      (some f.message.userId) = .use toolName routedFrom codes →
    toolName = tc.name ∨ Allowed Known m f.generation toolName
  streamed : ∀ f ev args, a.kind = .streamEvent ev → m.control = .loop f .waiting →
    spawned D m ev = some args → Offered m f.generation "shell"

/-! ## The invariant -/

/-- The calls of the current response that are not done. -/
def Control.ahead : Control R → List ToolCall
  | .loop _ (.call _ tc rest _) => tc :: rest
  | _ => []

/-- The request that the loop is at. -/
def Control.generation : Control R → Nat
  | .loop f _ => f.generation
  | _ => 0

structure CeilingInv (Known : String → Prop) (m : Machine R) : Prop where
  started : ∀ key by_ tool params hooks, .started key by_ tool params hooks ∈ m.log →
    by_ ≠ .approval → Offered m key.generation tool
  attenuated : ∀ call ∈ m.llmCalls, Attenuated call
  tasks : ∀ t ∈ m.tasks, Offered m t.key.generation "shell"
  ahead : ∀ tc ∈ m.control.ahead, Allowed Known m m.control.generation tc.name

theorem CeilingInv.withinCeiling (h : CeilingInv Known m) : WithinCeiling m := by
  intro key by_ tool params hooks hstarted hby
  obtain ⟨call, hcall, htool⟩ := h.started key by_ tool params hooks hstarted hby
  have hattenuated := h.attenuated call (mem_of_getElem? hcall)
  exact ⟨call, hcall, hattenuated, htool, fun hinst => hattenuated.readOnly hinst htool⟩

/-- A step that sends no request and touches no task: the new log entries start
nothing that is not offered, and the calls ahead are allowed. -/
theorem CeilingInv.of_same (h : CeilingInv Known m) (hrequests : m'.llmCalls = m.llmCalls)
    (htasks : m'.tasks = m.tasks)
    (hlog : ∀ key by_ tool params hooks, .started key by_ tool params hooks ∈ m'.log →
      by_ ≠ .approval → .started key by_ tool params hooks ∈ m.log ∨ Offered m key.generation tool)
    (hahead : ∀ tc ∈ m'.control.ahead, Allowed Known m m'.control.generation tc.name) :
    CeilingInv Known m' := by
  have hoffered : ∀ g tool, Offered m' g tool ↔ Offered m g tool := by
    intro g tool
    rw [Offered, Offered, hrequests]
  refine ⟨?_, hrequests ▸ h.attenuated, ?_, ?_⟩
  · intro key by_ tool params hooks hmem hby
    rw [hoffered]
    rcases hlog key by_ tool params hooks hmem hby with hold | hnew
    · exact h.started key by_ tool params hooks hold hby
    · exact hnew
  · intro t ht
    rw [hoffered]
    exact h.tasks t (htasks ▸ ht)
  · intro tc htc
    rw [Allowed, hoffered]
    exact hahead tc htc

theorem nextCall_ahead (f : Frame R) (calls : List ToolCall) (pos : Nat) :
    (loop f (nextCall calls pos)).ahead = calls := by
  cases calls with
  | nil | cons => rfl

/-- A step that only lengthens the list of requests, or starts nothing. -/
theorem Offered.append {generation : Nat} {tool : String} {calls : List (LlmCall R)}
    (h : Offered m generation tool) (hrequests : m'.llmCalls = m.llmCalls ++ calls) :
    Offered m' generation tool := by
  obtain ⟨call, hcall, htool⟩ := h
  have hlt := (List.getElem?_eq_some_iff.mp hcall).1
  refine ⟨call, ?_, htool⟩
  rw [hrequests, List.getElem?_append_left hlt, hcall]

section

variable (h : CeilingInv Known m)

include h

theorem CeilingInv.hooked (key : CallKey) (tool : String) (outcome : HookToolPolicyOutcome) :
    CeilingInv Known { m with log := .hooked key tool outcome :: m.log } :=
  h.of_same rfl rfl (fun _ _ _ _ _ hmem _ => .inl (by simpa using hmem)) h.ahead

/-- Nor does giving the model a result. -/
theorem CeilingInv.answer {f : Frame R} {rest : List ToolCall}
    (hrest : ∀ tc ∈ rest, Allowed Known m f.generation tc.name) (tc : ToolCall) (pos : Nat)
    (content : String) (ran : Option JsonValue) :
    CeilingInv Known (m.answer f tc rest pos content ran) := by
  refine h.of_same rfl rfl ?_ ?_
  · intro key by_ tool params hooks hmem hby
    exact .inl (by simpa [Machine.answer] using hmem)
  · intro tc' htc'
    rw [Machine.answer, nextCall_ahead] at htc'
    exact hrest tc' htc'

/-- A step that changes neither log nor requests nor tasks. -/
theorem CeilingInv.of_quiet (hrequests : m'.llmCalls = m.llmCalls)
    (htasks : m'.tasks = m.tasks) (hlog : m'.log = m.log)
    (hahead : ∀ tc ∈ m'.control.ahead, Allowed Known m m'.control.generation tc.name) :
    CeilingInv Known m' :=
  h.of_same hrequests htasks (fun _ _ _ _ _ hmem _ => .inl (hlog ▸ hmem)) hahead

theorem CeilingInv.send (f f' : Frame R) (registry : ToolRegistry)
    (entries : List (String × StreamedToolCallState)) :
    CeilingInv Known
      { m with
        control := .loop f' .waiting
        streamedToolCalls := entries
        llmCalls := m.llmCalls ++
          [⟨f.contextMessages, offeredTools registry f.activeSkills, f.activeSkills⟩] } := by
  refine ⟨?_, ?_, ?_, by simp [Control.ahead]⟩
  · intro key by_ tool params hooks hmem hby
    exact (h.started key by_ tool params hooks hmem hby).append rfl
  · intro call hcall
    rcases mem_append.mp hcall with hold | hnew
    · exact h.attenuated call hold
    cases mem_singleton.mp hnew
    exact ⟨registry, rfl⟩
  · intro t ht
    exact (h.tasks t ht).append rfl

end

theorem LoopStep.ceiling {a : Act R} {f : Frame R} {at_ : LoopAt}
    (h : LoopStep D a.env m f at_ m') (hinv : CeilingInv Known m)
    (hguard : KeepsToOffer D Known m a) (hkind : a.kind = .main)
    (hcontrol : m.control = .loop f at_) : CeilingInv Known m' := by
  have hahead : ∀ tc ∈ (loop f at_).ahead, Allowed Known m f.generation tc.name := by
    have hall := hinv.ahead
    rw [hcontrol] at hall
    exact hall
  cases h with
  | send => exact hinv.send f _ _ _
  | wait => exact hinv
  | @routed tc rest pos toolName routedFrom codes hroute =>
    obtain ⟨htc, hrest⟩ := forall_mem_cons.mp hahead
    refine hinv.of_quiet rfl rfl rfl (forall_mem_cons.mpr ⟨?_, hrest⟩)
    rcases hguard.rerouted f tc rest pos toolName routedFrom codes hkind hcontrol hroute
      with rfl | hallowed
    · exact htc
    · exact hallowed
  | routeDenied => exact hinv.answer (forall_mem_cons.mp hahead).2 _ _ _ _
  | @hooked tc _ _ outcome =>
    exact (hinv.hooked ⟨f.generation, tc.id⟩ tc.name outcome).of_quiet rfl rfl rfl
      (forall_mem_cons.mpr (forall_mem_cons.mp hahead))
  | hookDenied => exact (hinv.hooked _ _ _).answer (forall_mem_cons.mp hahead).2 _ _ _ _
  | @started tc _ _ tool _ _ hprepare =>
    refine hinv.of_same rfl rfl ?_ hahead
    intro key by_ name ps hooks hmem hby
    rcases mem_cons.mp hmem with hnew | hold
    · cases hnew
      -- the tool was found in the registry, so its name is known
      have hget := (prepareChatTool_ok hprepare).1
      have hknown : Known tc.name :=
        ToolRegistry.get_name hget ▸ hguard.registered tool (mem_of_find?_eq_some hget)
      exact .inr ((hahead tc mem_cons_self).resolve_right (not_not_intro hknown))
    · exact .inl hold
  | @recorded result _ tc _ pos =>
    have hrecorded : CeilingInv Known (m.recordOutcome pos
        (.ofResult (resultContent D tc.name result) result)) :=
      hinv.of_quiet rfl rfl rfl hinv.ahead
    exact hrecorded.answer (forall_mem_cons.mp hahead).2 _ _ _ _
  | leave | paused | awaitsToken => exact hinv.of_quiet rfl rfl rfl (by simp [ahead])
  | passed | taken | unstarted | ended => exact hinv.of_quiet rfl rfl rfl hahead

theorem ResumeStep.ceiling {r : Resume} {stage : ResumeStage}
    (h : ResumeStep D env m r stage m') (hinv : CeilingInv Known m) : CeilingInv Known m' := by
  cases h with
  | hooked outcome | hookDenied outcome =>
    exact (hinv.hooked r.key _ outcome).of_quiet rfl rfl rfl (by simp [ahead])
  | started =>
    -- an approval starts this one, not the loop
    refine hinv.of_same rfl rfl ?_ (by simp [ahead])
    intro key by_ name params hooks hmem hby
    rcases mem_cons.mp hmem with hnew | hold
    · cases hnew
      exact absurd rfl hby
    · exact .inl hold
  | recorded =>
    refine hinv.of_same rfl rfl ?_ (by simp [ahead])
    intro key by_ name params hooks hmem hby
    exact .inl (by simpa [Machine.recordOutcome] using hmem)
  | _ => exact hinv.of_quiet rfl rfl rfl (by simp [ahead])

theorem EarlyStep.ceiling {i : Nat} (h : EarlyStep D env m i m') (hinv : CeilingInv Known m) :
    CeilingInv Known m' := by
  have htasks : ∀ phase, ∀ t ∈ setPhase m i phase, Offered m t.key.generation "shell" := by
    intro phase t' ht'
    obtain ⟨t, ht, hkey, -⟩ := mem_setPhase ht'
    exact hkey ▸ hinv.tasks t ht
  cases h with
  | none => exact hinv
  | skipped | executed => exact ⟨hinv.started, hinv.attenuated, htasks _, hinv.ahead⟩
  | started task _ htask =>
    refine ⟨?_, hinv.attenuated, htasks _, hinv.ahead⟩
    intro key by_ name params hooks hmem hby
    rcases mem_cons.mp hmem with hnew | hold
    · cases hnew
      exact hinv.tasks task (mem_of_getElem? htask)
    · exact hinv.started key by_ name params hooks hold hby

theorem Step.ceiling {a : Act R} (h : Step D m a m') (hinv : CeilingInv Known m)
    (hguard : KeepsToOffer D Known m a) : CeilingInv Known m' := by
  cases h with
  | keep => exact hinv.of_quiet rfl rfl rfl hinv.ahead
  | loop hkind hcontrol h => exact h.ceiling hinv hguard hkind hcontrol
  | @reply f _ _ hkind hcontrol h =>
    cases h with
    | leave | nudge => exact hinv.of_quiet rfl rfl rfl (by simp [ahead])
    | called calls content =>
      refine hinv.of_quiet rfl rfl rfl ?_
      rw [nextCall_ahead]
      exact hguard.requested f calls content hkind hcontrol
  | @streamEvent f ev _ hkind hcontrol =>
    refine ⟨hinv.started, hinv.attenuated, ?_, hinv.ahead⟩
    intro t ht
    rcases mem_append.mp ht with hold | hnew
    · exact hinv.tasks t hold
    rw [Option.mem_toList] at hnew
    obtain ⟨args, hargs, rfl⟩ := Option.map_eq_some_iff.mp hnew
    exact hguard.streamed f ev args hkind hcontrol hargs
  | resume _ _ h | early _ h => exact h.ceiling hinv
  | begin | cancelled | accepted => exact hinv.of_quiet rfl rfl rfl (by simp [ahead])

theorem CeilingInv.of_fresh (h : m.Fresh) : CeilingInv Known m where
  started := by simp [h.log]
  attenuated := by simp [h.llmCalls]
  tasks := by simp [h.tasks]
  ahead := by simp [h.control, Control.ahead]

/-- **While everyone keeps to the offer, only offered tools run**, in every state
that a run from a fresh agent reaches. -/
theorem loop_starts_only_offered_tools (D : Deps) (Known : String → Prop) (m : Machine R)
    (hfresh : m.Fresh) (acts pre : List (Act R))
    (hguard : Guarded (step D) (KeepsToOffer D Known) m acts) (hpre : pre <+: acts) :
    WithinCeiling (run (step D) m pre) := by
  have hinv : CeilingInv Known (run (step D) m pre) :=
    rules_invariant (fun _ _ _ _ hinv hguard h => h.ceiling hinv hguard) hfresh.settled
      (.of_fresh hfresh) hguard hpre
  exact hinv.withinCeiling

theorem KeepsToOffer.of_main (hrouting : D.config.autonomyToolRoutingV2 = false)
    (hregistered : ∀ tool ∈ env.registry, Known tool.name) :
    KeepsToOffer D Known m ⟨env, .main⟩ where
  registered := hregistered
  requested := nofun
  rerouted := by
    intro f tc rest pos toolName routedFrom codes _ _ hroute
    rw [resolveChatToolRouting_off hrouting] at hroute
    cases hroute
    exact .inl rfl
  streamed := nofun

def echoRun : List (Act Unit) :=
  [.input helloMessage "hello", .main, .reply (.ok (.toolCalls [echoCall "call-1" "hi"] none)),
    .main, .main, .main, .main].map (⟨smallEnv, ·⟩)

theorem echo_run_within_ceiling :
    WithinCeiling (run (step (smallDeps {})) smallAgent echoRun)
      ∧ ((run (step (smallDeps {})) smallAgent echoRun).log.length = 2) := by
  have hknown : ∀ tool ∈ smallEnv.registry, tool.name = "echo" ∨ tool.name = "shell" := by decide
  have hmain : ∀ m : Machine Unit, KeepsToOffer (smallDeps {})
      (fun name => name = "echo" ∨ name = "shell") m ⟨smallEnv, .main⟩ :=
    fun m => .of_main rfl hknown
  refine ⟨loop_starts_only_offered_tools (smallDeps {})
    (fun name => name = "echo" ∨ name = "shell") smallAgent ⟨rfl, rfl, rfl, rfl, rfl, rfl, rfl⟩
    echoRun echoRun ?_ (prefix_refl _), by decide⟩
  refine ⟨⟨hknown, nofun, nofun, nofun⟩, hmain _, ⟨hknown, ?_, nofun, nofun⟩, hmain _, hmain _,
    hmain _, hmain _, trivial⟩
  intro f calls content hkind hcontrol tc htc
  cases hkind
  cases hcontrol
  cases mem_singleton.mp htc
  exact .inl ⟨_, rfl, by decide⟩

def memoryWriteTool : Tool where
  name := "memory_write"
  description := "Write to persistent memory (database-backed, NOT the local filesystem). "
    ++ "Use for important facts, decisions, preferences, or lessons learned that should "
    ++ "be remembered across sessions. Targets: 'memory' for curated long-term facts, "
    ++ "'daily_log' for timestamped session notes, 'heartbeat' for the periodic "
    ++ "checklist (HEARTBEAT.md), or provide a custom path for arbitrary file creation."
  parametersSchema := .obj [("type", .str "object"),
    ("properties", .obj
      [("content", .obj [("type", .str "string"), ("description", .str
          "The content to write to memory. Be concise but include relevant context.")]),
        ("target", .obj [("type", .str "string"), ("description", .str
          ("Where to write: 'memory' for MEMORY.md, 'daily_log' for today's log, "
            ++ "'heartbeat' for HEARTBEAT.md checklist, or a path like "
            ++ "'projects/alpha/notes.md'")), ("default", .str "daily_log")]),
        ("append", .obj [("type", .str "boolean"), ("description", .str
          "If true, append to existing content. If false, replace entirely."),
          ("default", .bool true)])]),
    ("required", .arr [.str "content"])]

def installedSkill : LoadedSkill Unit where
  manifest := { name := "helper" }
  promptContent := "Hello."
  trust := .installed
  source := .user ["skills", "helper"]
  contentHash := ""
  compiledPatterns := []
  lowercasedKeywords := []
  lowercasedTags := []

def installedEnv : Env Unit :=
  { smallEnv with registry := [echoTool, memoryWriteTool], activeSkills := [installedSkill] }

/-- With an installed skill active the model is offered the echo tool alone, calls
`memory_write` all the same, and the loop starts it. -/
def memoryWriteRun : List (Act Unit) :=
  [.input helloMessage "hello", .main,
    .reply (.ok (.toolCalls [⟨"call-1", "memory_write", .obj [("content", .str "note")]⟩] none)),
    .main, .main, .main, .main].map (⟨installedEnv, ·⟩)

theorem memory_write_beyond_ceiling :
    ¬ WithinCeiling (run (step (smallDeps {})) smallAgent memoryWriteRun) := by
  intro hceiling
  obtain ⟨call, hcall, -, htool, -⟩ := hceiling ⟨0, "call-1"⟩ .loop "memory_write"
    (.obj [("content", .str "note")]) false mem_cons_self nofun
  cases hcall
  revert htool
  decide

end TitanClaw.Agent
