import TitanClaw.Agent.Policy

/-! # Routing of requested tools

A requested tool may be replaced by a more reliable fallback, or denied while
its circuit breaker is open. -/

namespace TitanClaw.Agent

open Text Tools List

structure AgentConfig where
  enablePipedToolExecution : Bool := false
  autonomyToolRoutingV2 : Bool := false
  autonomyPolicyEngineV1 : Bool := false
  autonomySmartRulesEnabled : Bool := false
  autonomySmartRulesEmptyPlanRecovery : Bool := false
  autonomySmartRulesProactiveMinSamples : Int := 5
  autonomySmartRulesPrimaryMaxScore : Float32 := 0.35
  autonomySmartRulesProactiveMargin : Float32 := 0.15

inductive ChatToolRoutingDecision where
  | use (toolName : String) (routedFrom : Option String) (reasonCodes : List String)
  | deny (reasonCodes : List String) (detail : String)
  deriving DecidableEq

def trimmedStrings (items : List JsonValue) : List String :=
  ((items.filterMap JsonValue.asStr?).map trim).filter (!·.isEmpty)

def parseProfileFallbackTools (raw : JsonValue) : List String :=
  match raw.asArr? with
  | some list => trimmedStrings list
  | none =>
      match ["tools", "fallback_tools", "safe_tools"].findSome? fun key =>
          (raw.get? key).bind JsonValue.asArr? with
      | some list => trimmedStrings list
      | none => []

variable (contract : Option ToolContractV2Descriptor)

def parseContractFallbackTools : List String :=
  match contract with
  | some c => (c.fallbackCandidates.map trim).filter (!·.isEmpty)
  | none => []

def mergeFallbackCandidates (primaryTool : String)
    (profileFallbacks contractFallbacks : List String) : List String :=
  (profileFallbacks ++ contractFallbacks).foldl
    (fun out candidate =>
      if candidate = primaryTool ∨ candidate ∈ out then out else out ++ [candidate]) []

def contractRoutingBonus : Float32 :=
  match contract with
  | none => 0.0
  | some contract =>
      let sideEffectBias : Float32 := match contract.sideEffectLevel with
        | .readOnly => 0.04
        | .workspaceWrite => 0.0
        | .systemMutation | .externalMutation => -0.04
        | .financial | .credential => -0.1
      let idempotencyBias : Float32 := match contract.idempotency with
        | .safeRetry => 0.03
        | .unknown => 0.0
        | .unsafeRetry => -0.03
      sideEffectBias + idempotencyBias

def profileBreakerIsOpen (profile : ToolReliabilityProfile) (now : Int) : Bool :=
  match profile.breakerState with
  | .open =>
      match profile.cooldownUntil with
      | some ts => ts > now
      | none => true
  | _ => false

def shouldProactivelyReroute (primaryProfile : ToolReliabilityProfile)
    (primaryScore bestFallbackScore : Float32) (minSamples : Int)
    (primaryMaxScore scoreMargin : Float32) : Bool :=
  (primaryProfile.breakerState == .halfOpen && bestFallbackScore > primaryScore)
    || (primaryProfile.sampleCount ≥ minSamples && primaryScore ≤ primaryMaxScore
      && bestFallbackScore ≥ primaryScore + scoreMargin)

def scoredBefore (a b : String × Float32) : Bool :=
  if b.2 < a.2 then true else if a.2 < b.2 then false else a.1 ≤ b.1

def scoreFallbacks (registry : ToolRegistry) (store : Store) (now : Int)
    (userId : Option String) (candidates : List String) : List (String × Float32) :=
  (candidates.filterMap fun fallback =>
    if !registry.has fallback then none
    else
      let profile := orNone (store.reliabilityProfile fallback)
      if (profile.map (profileBreakerIsOpen · now)).getD false then none
      else
        let contract := registry.resolveToolContractV2 fallback (some store) userId
        some (fallback, (profile.map (·.reliabilityScore)).getD 0.5
          + contractRoutingBonus contract)).insertionSort
    (fun a b => scoredBefore a b = true)

/-- `f32::max` with a number on the right. -/
def f32Max (a b : Float32) : Float32 := if a ≥ b then a else b

def f32Clamp (x lo hi : Float32) : Float32 :=
  if x < lo then lo else if hi < x then hi else x

def resolveChatToolRouting (cfg : AgentConfig) (registry : ToolRegistry)
    (store : Option Store) (now : Int) (requestedTool : String) (userId : Option String) :
    ChatToolRoutingDecision :=
  if !cfg.autonomyToolRoutingV2 then .use requestedTool none []
  else
    match store with
    | none => .use requestedTool none []
    | some store =>
        match orNone (store.reliabilityProfile requestedTool) with
        | none => .use requestedTool none []
        | some primaryProfile =>
            let primaryContract := registry.resolveToolContractV2 requestedTool (some store) userId
            let primaryOpen := profileBreakerIsOpen primaryProfile now
            let primaryScore :=
              primaryProfile.reliabilityScore + contractRoutingBonus primaryContract
            let fallbacks := scoreFallbacks registry store now userId
              (mergeFallbackCandidates requestedTool
                (parseProfileFallbackTools primaryProfile.safeFallbackOptions)
                (parseContractFallbackTools primaryContract))
            let smart := cfg.autonomySmartRulesEnabled
            let minSamples :=
              if smart then max cfg.autonomySmartRulesProactiveMinSamples 1 else 5
            let primaryMaxScore : Float32 :=
              if smart then f32Clamp cfg.autonomySmartRulesPrimaryMaxScore 0.0 1.0 else 0.35
            let scoreMargin : Float32 :=
              if smart then f32Max cfg.autonomySmartRulesProactiveMargin 0.0 else 0.15
            let deny := ChatToolRoutingDecision.deny ["circuit_breaker_open"]
              ("tool '" ++ requestedTool
                ++ "' is temporarily blocked by reliability circuit breaker")
            match fallbacks with
            | (fallbackTool, bestFallbackScore) :: _ =>
                if primaryOpen then
                  .use fallbackTool (some requestedTool)
                    ["circuit_breaker_open", "tool_routing_v2_fallback"]
                else if shouldProactivelyReroute primaryProfile primaryScore bestFallbackScore
                    minSamples primaryMaxScore scoreMargin then
                  .use fallbackTool (some requestedTool)
                    ("tool_routing_v2_prefer_reliable_fallback"
                      :: if primaryProfile.breakerState == .halfOpen then
                          ["circuit_breaker_half_open"] else [])
                else .use requestedTool none []
            | [] => if primaryOpen then deny else .use requestedTool none []

theorem resolveChatToolRouting_off {cfg : AgentConfig}
    (h : cfg.autonomyToolRoutingV2 = false) (registry : ToolRegistry) (store : Option Store)
    (now : Int) (requestedTool : String) (userId : Option String) :
    resolveChatToolRouting cfg registry store now requestedTool userId
      = .use requestedTool none [] := by
  simp [resolveChatToolRouting, h]

/-! ## Safety of the routing -/

variable (registry : ToolRegistry) (store : Option Store) (now : Int) (userId : Option String)

/-- By its stored profile the tool is not to be used now. -/
def BreakerOpen (tool : String) : Prop :=
  ∃ s ∈ store, ∃ profile, s.reliabilityProfile tool = .ok (some profile)
    ∧ profileBreakerIsOpen profile now = true

/-- The stored profile of the requested tool or its contract names the other one. -/
def IsFallback (requested tool : String) : Prop :=
  ∃ s ∈ store,
    (∃ profile, s.reliabilityProfile requested = .ok (some profile)
      ∧ tool ∈ parseProfileFallbackTools profile.safeFallbackOptions)
    ∨ tool ∈ parseContractFallbackTools (registry.resolveToolContractV2 requested (some s) userId)

def RoutesSafely (requested : String) : ChatToolRoutingDecision → Prop
  | .use tool routedFrom _ =>
      ¬ BreakerOpen store now tool
        ∧ (routedFrom = none ∧ tool = requested
          ∨ routedFrom = some requested ∧ registry.has tool = true ∧ tool ≠ requested
            ∧ IsFallback registry store userId requested tool)
  | .deny _ _ =>
      BreakerOpen store now requested
        ∧ ∀ tool, IsFallback registry store userId requested tool → registry.has tool = true →
          BreakerOpen store now tool

variable {registry store now userId}

theorem mem_mergeFallbackCandidates {primary tool : String} {profile contract : List String} :
    tool ∈ mergeFallbackCandidates primary profile contract
      ↔ (tool ∈ profile ∨ tool ∈ contract) ∧ tool ≠ primary := by
  have hfold : ∀ (candidates out : List String),
      tool ∈ candidates.foldl (fun out candidate =>
        if candidate = primary ∨ candidate ∈ out then out else out ++ [candidate]) out
        ↔ tool ∈ out ∨ tool ∈ candidates ∧ tool ≠ primary := by
    intro candidates
    induction candidates with
    | nil => simp
    | cons c candidates ih =>
      intro out
      rw [foldl_cons, ih, mem_cons]
      split <;> grind
  rw [mergeFallbackCandidates, hfold]
  simp

theorem orNone_eq_some {α : Type} {x : Except String (Option α)} {a : α} :
    orNone x = some a ↔ x = .ok (some a) := by
  cases x <;> simp [orNone]

theorem breakerOpen_iff {s : Store} {tool : String} : BreakerOpen (some s) now tool
    ↔ ((orNone (s.reliabilityProfile tool)).map (profileBreakerIsOpen · now)).getD false = true := by
  cases h : orNone (s.reliabilityProfile tool) <;> simp [BreakerOpen, ← orNone_eq_some, h]

theorem mem_scoreFallbacks {s : Store} {candidates : List String} {tool : String} :
    tool ∈ (scoreFallbacks registry s now userId candidates).map Prod.fst
      ↔ tool ∈ candidates ∧ registry.has tool = true ∧ ¬ BreakerOpen (some s) now tool := by
  rw [breakerOpen_iff, scoreFallbacks]
  simp only [mem_map, mem_insertionSort, mem_filterMap]
  constructor
  · rintro ⟨scored, ⟨fallback, hmem, hscored⟩, rfl⟩
    grind
  · rintro ⟨hmem, hhas, hclosed⟩
    exact ⟨_, ⟨tool, hmem, by rw [hhas, if_neg (by simp), if_neg hclosed]⟩, rfl⟩

variable (registry store now userId)

/-- **Routing is safe**: no tool with an open breaker is used, a reroute goes to a registered
fallback, and a denial has no way out. -/
theorem resolveChatToolRouting_safe (cfg : AgentConfig) (requested : String) :
    RoutesSafely registry store now userId requested
      (resolveChatToolRouting { cfg with autonomyToolRoutingV2 := true } registry store now requested
        userId) := by
  unfold resolveChatToolRouting
  cases store with
  | none => simp [RoutesSafely, BreakerOpen]
  | some s =>
    cases hprofile : orNone (s.reliabilityProfile requested) with
    | none => simp [RoutesSafely, breakerOpen_iff, hprofile]
    | some profile =>
      have hopen : BreakerOpen (some s) now requested ↔ profileBreakerIsOpen profile now = true := by
        simp [breakerOpen_iff, hprofile]
      have hfallback : ∀ tool, IsFallback registry (some s) userId requested tool
          ↔ tool ∈ parseProfileFallbackTools profile.safeFallbackOptions
            ∨ tool ∈ parseContractFallbackTools
                (registry.resolveToolContractV2 requested (some s) userId) := by
        simp [IsFallback, ← orNone_eq_some, hprofile]
      simp only [hprofile, Bool.not_true, Bool.false_eq_true, if_false]
      split
      all_goals
        rename_i hfallbacks
        have hscored := fun tool => congrArg (tool ∈ ·.map Prod.fst) hfallbacks
        simp only [mem_scoreFallbacks, mem_mergeFallbackCandidates, ← hfallback, eq_iff_iff]
          at hscored
      case _ fallback _ _ =>
        obtain ⟨⟨hnamed, hne⟩, hhas, hclosed⟩ := (hscored fallback).mpr mem_cons_self
        generalize shouldProactivelyReroute _ _ _ _ _ _ = reroute
        split
        · exact ⟨hclosed, .inr ⟨rfl, hhas, hne, hnamed⟩⟩
        · cases reroute with
          | true => exact ⟨hclosed, .inr ⟨rfl, hhas, hne, hnamed⟩⟩
          | false => exact ⟨hopen.not.mpr ‹_›, .inl ⟨rfl, rfl⟩⟩
      case _ =>
        split
        · refine ⟨hopen.mpr ‹_›, fun tool hnamed hhas => ?_⟩
          grind
        · exact ⟨hopen.not.mpr ‹_›, .inl ⟨rfl, rfl⟩⟩

end TitanClaw.Agent
