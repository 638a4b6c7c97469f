import Mathlib.Data.List.Dedup
import Mathlib.Data.List.Perm.Basic
import Mathlib.Data.List.Sort
import TitanClaw.Lib.Faulty
import TitanClaw.Lib.Run
import TitanClaw.Tools.Registry

/-! # Reliability profiles of tools

The profile of a tool is computed anew from the attempts of the last day, and from the
profile stored before. Its circuit breaker opens on repeated transient failures of the
last minutes; once it is open and its cooldown has passed, it is half open; in every
other case it is closed. So it need not wait for the cooldown, nor for a success. -/

namespace TitanClaw.Agent

open TitanClaw.Tools List Bool Float32

/-! ## The records a profile is made of -/

inductive ExecutionAttemptStatus where
  | running
  | succeeded
  | failed
  | timeout
  | blocked
  deriving DecidableEq

structure ExecutionAttempt where
  userId : String
  toolName : String
  status : ExecutionAttemptStatus
  failureClass : Option String := none
  startedAt : Int
  elapsedMs : Option Int := none

inductive PolicyDecisionKind where
  | allow
  | allowWithLogging
  | requireApproval
  | deny
  | requireMoreEvidence
  | modify
  deriving DecidableEq

structure PolicyDecision where
  userId : String
  toolName : Option String
  decision : PolicyDecisionKind
  createdAt : Int

structure Incident where
  userId : String
  toolName : Option String
  status : String
  firstSeenAt : Option Int := none
  lastSeenAt : Option Int := none
  createdAt : Int

structure BrokenTool where
  name : String
  failureCount : Nat

/-- Durations, in the unit of the times: here seconds. -/
structure ToolReliabilityConfig where
  window : Int := 24 * 60 * 60
  minSamplesForConfidence : Int := 5
  breakerOpenFailures : Int := 3
  breakerOpenWindow : Int := 10 * 60
  breakerCooldown : Int := 300

structure ComputedProfile extends ToolReliabilityProfile where
  toolName : String
  windowStart : Int
  windowEnd : Int
  successCount : Int
  failureCount : Int
  timeoutCount : Int
  blockedCount : Int
  successRate : Float32
  p50LatencyMs : Option Int
  p95LatencyMs : Option Int
  commonFailureModes : JsonValue
  recentIncidentCount : Int
  lastFailureAt : Option Int
  lastSuccessAt : Option Int
  updatedAt : Int

/-! ## Scores -/

def clamp (x lo hi : Float32) : Float32 := if x < lo then lo else if hi < x then hi else x

def percentile (sorted : List Int) (p : Float) : Option Int :=
  if sorted.isEmpty then none
  else sorted[((Float.ofNat (sorted.length - 1)) * p).round.toUInt64.toNat]?

def computeLatencyScore : Option Int → Float32
  | none => 1.0
  | some p95 =>
      if p95 ≤ 0 then 1.0 else clamp (1.0 - ofInt p95 / 60000.0) 0.0 1.0

def computePolicyFrictionScore (decisions : List PolicyDecision) : Float32 :=
  if decisions.isEmpty then 1.0
  else
    let denyLike := decisions.countP fun d =>
      d.decision == .deny || d.decision == .requireMoreEvidence
    let approvalLike := decisions.countP fun d => d.decision == .requireApproval
    let total := Float32.ofNat decisions.length
    let denyPenalty := Float32.ofNat denyLike / total
    let approvalPenalty := Float32.ofNat approvalLike / total * 0.5
    clamp (1.0 - denyPenalty - approvalPenalty) 0.0 1.0

def computeIncidentPenaltyScore (recentIncidentCount : Int) : Float32 :=
  clamp (1.0 / (1.0 + ofInt recentIncidentCount)) 0.0 1.0

namespace ExecutionAttempt

variable (a : ExecutionAttempt)

def isFailure : Bool :=
  match a.status with
  | .failed | .timeout | .blocked => true
  | .running | .succeeded => false

def failureClassWeightedTransient : Option String → Bool
  | some failureClass =>
      ["tool_timeout", "tool_execution", "channel", "orchestrator", "worker",
        "database"].contains failureClass
  | none => false

def failureMode : Option String := a.failureClass.or (if a.isFailure then some "unknown" else none)

end ExecutionAttempt

open ExecutionAttempt

variable (attempts : List ExecutionAttempt)

def commonFailureModesJson : JsonValue :=
  let modes := attempts.filterMap failureMode
  let entries := modes.dedup.map fun mode => (mode, modes.count mode)
  let sorted := entries.insertionSort fun a b => b.2 < a.2 ∨ (b.2 = a.2 ∧ a.1 ≤ b.1)
  .arr ((sorted.take 5).map fun (mode, count) =>
    .obj [("count", .int count), ("failure_class", .str mode)])

/-! ## Counts -/

structure Tally where
  successCount : Int := 0
  failureCount : Int := 0
  timeoutCount : Int := 0
  blockedCount : Int := 0
  latencies : List Int := []
  lastFailureAt : Option Int := none
  lastSuccessAt : Option Int := none

def later (current : Option Int) (t : Int) : Option Int :=
  some (match current with
    | some current => max current t
    | none => t)

def Tally.addLatency (tally : Tally) : Option Int → Tally
  | some elapsed =>
      if elapsed ≥ 0 then { tally with latencies := tally.latencies ++ [elapsed] } else tally
  | none => tally

def Tally.add (tally : Tally) (a : ExecutionAttempt) : Tally :=
  let tally := tally.addLatency a.elapsedMs
  match a.status with
  | .succeeded =>
      { tally with
        successCount := tally.successCount + 1
        lastSuccessAt := later tally.lastSuccessAt a.startedAt }
  | .timeout =>
      { tally with
        timeoutCount := tally.timeoutCount + 1
        failureCount := tally.failureCount + 1
        lastFailureAt := later tally.lastFailureAt a.startedAt }
  | .blocked =>
      { tally with
        blockedCount := tally.blockedCount + 1
        lastFailureAt := later tally.lastFailureAt a.startedAt }
  | .failed =>
      { tally with
        failureCount := tally.failureCount + 1
        timeoutCount := tally.timeoutCount + if a.failureClass = some "tool_timeout" then 1 else 0
        lastFailureAt := later tally.lastFailureAt a.startedAt }
  | .running => tally

def tally : Tally := attempts.foldl Tally.add {}

variable (now : Int) (attempts : List ExecutionAttempt)

def classifyTransientFailuresInWindow (breakerOpenWindow : Int) : Nat :=
  attempts.countP fun a =>
    decide (now - breakerOpenWindow ≤ a.startedAt) && a.isFailure
      && (a.status == .timeout || failureClassWeightedTransient a.failureClass)

def latestSuccessAfter (ts : Option Int) : Option Int :=
  match ts with
  | none => none
  | some threshold =>
      ((attempts.filter fun a => decide (threshold < a.startedAt) && a.status == .succeeded).map
        startedAt).max?

variable (previous : Option ComputedProfile) (config : ToolReliabilityConfig)

def decideBreaker : CircuitBreakerState × Option Int :=
  let transientFailuresRecent :=
    classifyTransientFailuresInWindow now attempts config.breakerOpenWindow
  let hasSuccessAfterLastFailure :=
    (latestSuccessAfter attempts (tally attempts).lastFailureAt).isSome
  if config.breakerOpenFailures ≤ transientFailuresRecent ∧ !hasSuccessAfterLastFailure then
    (.open, some (now + config.breakerCooldown))
  else
    match previous with
    | some prev =>
        match prev.breakerState, prev.cooldownUntil with
        | .open, some cooldownUntil =>
            if cooldownUntil ≤ now then (.halfOpen, none) else (.closed, none)
        | _, _ => (.closed, none)
    | none => (.closed, none)

def attemptsInWindow (toolName : String) (now : Int) (attemptsAll : List ExecutionAttempt)
    (config : ToolReliabilityConfig) : List ExecutionAttempt :=
  attemptsAll.filter fun a =>
    decide (a.toolName = toolName) && decide (now - config.window ≤ a.startedAt)

def reliabilityScore (sampleCount legacyFailureCount : Int)
    (successRate latencyScore incidentPenaltyScore policyFrictionScore : Float32) : Float32 :=
  let score := 0.45 * successRate + 0.25 * latencyScore + 0.20 * incidentPenaltyScore
    + 0.10 * policyFrictionScore
  let score := if sampleCount < config.minSamplesForConfidence then score * 0.7 else score
  let score :=
    if 0 < legacyFailureCount then
      score * clamp (1.0 / (1.0 + ofInt legacyFailureCount * 0.15)) 0.2 1.0
    else score
  clamp score 0.0 1.0

def computeToolReliabilityProfile (toolName : String) (now : Int)
    (attemptsAll : List ExecutionAttempt) (policyDecisionsAll : List PolicyDecision)
    (incidentsAll : List Incident) (previousProfile : Option ComputedProfile)
    (legacyFailureCount : Int) (config : ToolReliabilityConfig) : Option ComputedProfile :=
  let windowStart := now - config.window
  let attempts := attemptsInWindow toolName now attemptsAll config
  if attempts.isEmpty ∧ legacyFailureCount ≤ 0 then none
  else
    let policyDecisions := policyDecisionsAll.filter fun d =>
      decide (d.toolName = some toolName) && decide (windowStart ≤ d.createdAt)
    let incidents := incidentsAll.filter fun i =>
      decide (i.toolName = some toolName)
        && decide (windowStart ≤ (i.lastSeenAt.or i.firstSeenAt).getD i.createdAt)
    let sampleCount : Int := attempts.length
    let counts := tally attempts
    let latencies := counts.latencies.insertionSort (· ≤ ·)
    let p95LatencyMs := percentile latencies 0.95
    let recentIncidentCount : Int := incidents.countP fun i =>
      !(i.status == "resolved" || i.status == "ignored")
    let successRate :=
      if 0 < sampleCount then clamp (ofInt counts.successCount / ofInt sampleCount) 0.0 1.0
      else 0.0
    let breaker := decideBreaker now attempts previousProfile config
    some
      { toolName
        windowStart
        windowEnd := now
        sampleCount
        successCount := counts.successCount
        failureCount := counts.failureCount
        timeoutCount := counts.timeoutCount
        blockedCount := counts.blockedCount
        successRate
        p50LatencyMs := percentile latencies 0.50
        p95LatencyMs
        commonFailureModes := commonFailureModesJson attempts
        recentIncidentCount
        reliabilityScore :=
          reliabilityScore config sampleCount legacyFailureCount successRate
            (computeLatencyScore p95LatencyMs)
            (computeIncidentPenaltyScore (recentIncidentCount + legacyFailureCount))
            (computePolicyFrictionScore policyDecisions)
        safeFallbackOptions := (previousProfile.map (·.safeFallbackOptions)).getD (.arr [])
        breakerState := breaker.1
        cooldownUntil := breaker.2
        lastFailureAt := counts.lastFailureAt
        lastSuccessAt := counts.lastSuccessAt
        updatedAt := now }

/-! ## When the breaker opens, and when it closes -/

theorem foldl_later_some (t : Int) (ts : List Int) :
    ts.foldl later (some t) = some (ts.foldl max t) := by
  induction ts generalizing t with
  | nil => rfl
  | cons t' _ ih => exact ih (max t t')

theorem foldl_later_none (ts : List Int) : ts.foldl later none = ts.max? := by
  cases ts with
  | nil => rfl
  | cons t ts => exact foldl_later_some t ts

theorem foldl_add (t : Tally) :
    attempts.foldl Tally.add t
      = { successCount := t.successCount + attempts.countP (·.status == .succeeded)
          failureCount := t.failureCount
            + attempts.countP fun a => a.status == .timeout || a.status == .failed
          timeoutCount := t.timeoutCount + attempts.countP fun a => a.status == .timeout
            || a.status == .failed && a.failureClass == some "tool_timeout"
          blockedCount := t.blockedCount + attempts.countP (·.status == .blocked)
          latencies := t.latencies ++ (attempts.filterMap elapsedMs).filter (0 ≤ ·)
          lastFailureAt := ((attempts.filter isFailure).map startedAt).foldl later t.lastFailureAt
          lastSuccessAt := ((attempts.filter (·.status == .succeeded)).map startedAt).foldl later
            t.lastSuccessAt } := by
  induction attempts generalizing t with
  | nil => simp
  | cons a l ih =>
    rw [foldl_cons, ih]
    cases hms : a.elapsedMs with
    | none =>
      cases hs : a.status <;>
        simp [Tally.add, Tally.addLatency, hs, hms, isFailure, countP_cons, add_assoc, add_comm]
    | some ms =>
      by_cases hpos : 0 ≤ ms <;> cases hs : a.status <;>
        simp [Tally.add, Tally.addLatency, hs, hms, hpos, isFailure, countP_cons, add_assoc,
          add_comm]

/-- After some failure comes a success that started later than all of them. -/
def Recovered : Prop :=
  (∃ b ∈ attempts, b.isFailure = true)
    ∧ ∃ a ∈ attempts, a.status = .succeeded
        ∧ ∀ b ∈ attempts, b.isFailure = true → b.startedAt < a.startedAt

theorem latestSuccessAfter_isSome_iff :
    (latestSuccessAfter attempts (tally attempts).lastFailureAt).isSome = true
      ↔ Recovered attempts := by
  rw [tally, foldl_add, foldl_later_none]
  cases hlast : ((attempts.filter isFailure).map startedAt).max? with
  | none =>
    -- there was no failure to recover from
    have hnone : attempts.filter isFailure = [] := by simpa using max?_eq_none_iff.mp hlast
    refine iff_of_false false_ne_true ?_
    rintro ⟨⟨b, hb, hfailure⟩, -⟩
    exact absurd hfailure (filter_eq_nil_iff.mp hnone b hb)
  | some =>
    obtain ⟨hmem, hle⟩ := max?_eq_some_iff.mp hlast
    obtain ⟨b, hb, rfl⟩ := mem_map.mp hmem
    obtain ⟨hb, hfailure⟩ := mem_filter.mp hb
    have hlatest : ∀ c ∈ attempts, c.isFailure = true → c.startedAt ≤ b.startedAt := by
      intro c hc hfailure'
      exact hle _ (mem_map_of_mem (mem_filter.mpr ⟨hc, hfailure'⟩))
    have hsome : (latestSuccessAfter attempts (some b.startedAt)).isSome = true
        ↔ ∃ a ∈ attempts, b.startedAt < a.startedAt ∧ a.status = .succeeded := by
      simp [latestSuccessAfter, Option.isSome_iff_ne_none]
    rw [hsome]
    constructor
    · rintro ⟨a, ha, hafter, hsucceeded⟩
      exact ⟨⟨b, hb, hfailure⟩, a, ha, hsucceeded, fun c hc hfailure' =>
        lt_of_le_of_lt (hlatest c hc hfailure') hafter⟩
    · rintro ⟨-, a, ha, hsucceeded, hafter⟩
      exact ⟨a, ha, hafter b hb hfailure, hsucceeded⟩

/-- There are enough transient failures of late, and no success came after them. -/
def Trips : Prop :=
  config.breakerOpenFailures
      ≤ classifyTransientFailuresInWindow now attempts config.breakerOpenWindow
    ∧ ¬ Recovered attempts

def CooledDown : Prop :=
  ∃ prev cooldownUntil, previous = some prev ∧ prev.breakerState = .open
    ∧ prev.cooldownUntil = some cooldownUntil ∧ cooldownUntil ≤ now

section

variable {now : Int} {attempts : List ExecutionAttempt} {config : ToolReliabilityConfig}
  {previous : Option ComputedProfile}

theorem trips_iff :
    (config.breakerOpenFailures
        ≤ classifyTransientFailuresInWindow now attempts config.breakerOpenWindow
      ∧ (!(latestSuccessAfter attempts (tally attempts).lastFailureAt).isSome) = true)
      ↔ Trips now attempts config := by
  rw [Trips, not_eq_true', ← not_eq_true, latestSuccessAfter_isSome_iff]

theorem decideBreaker_of_trips (h : Trips now attempts config) :
    decideBreaker now attempts previous config = (.open, some (now + config.breakerCooldown)) := by
  exact if_pos (trips_iff.mpr h)

theorem decideBreaker_of_cooledDown (htrips : ¬ Trips now attempts config)
    (hcooled : CooledDown now previous) :
    decideBreaker now attempts previous config = (.halfOpen, none) := by
  obtain ⟨prev, cooldownUntil, rfl, hopen, hcooldown, hpassed⟩ := hcooled
  unfold decideBreaker
  rw [if_neg (mt trips_iff.mp htrips)]
  simp only [hopen, hcooldown]
  exact if_pos hpassed

theorem decideBreaker_of_not (htrips : ¬ Trips now attempts config)
    (hcooled : ¬ CooledDown now previous) :
    decideBreaker now attempts previous config = (.closed, none) := by
  unfold decideBreaker
  rw [if_neg (mt trips_iff.mp htrips)]
  cases previous with
  | none => rfl
  | some prev =>
    cases hstate : prev.breakerState with
    | closed | halfOpen => simp only [hstate]
    | «open» =>
      cases hcooldown : prev.cooldownUntil with
      | none => simp only [hstate, hcooldown]
      | some cooldownUntil =>
        have hlater : ¬ cooldownUntil ≤ now := fun hpassed =>
          hcooled ⟨prev, cooldownUntil, rfl, hstate, hcooldown, hpassed⟩
        simp only [hstate, hcooldown, if_neg hlater]

theorem cooledDown_of_halfOpen
    (h : (decideBreaker now attempts previous config).1 = .halfOpen) : CooledDown now previous := by
  by_contra hcooled
  by_cases htrips : Trips now attempts config
  · rw [decideBreaker_of_trips htrips] at h
    cases h
  · rw [decideBreaker_of_not htrips hcooled] at h
    cases h

end

section

variable {toolName : String} {now : Int} {attemptsAll : List ExecutionAttempt}
  {policyDecisionsAll : List PolicyDecision} {incidentsAll : List Incident}
  {previousProfile : Option ComputedProfile} {legacyFailureCount : Int}
  {config : ToolReliabilityConfig}

theorem exists_computed (h : attemptsInWindow toolName now attemptsAll config ≠ []
      ∨ 0 < legacyFailureCount) :
    ∃ profile, computeToolReliabilityProfile toolName now attemptsAll policyDecisionsAll
      incidentsAll previousProfile legacyFailureCount config = some profile := by
  have hcond : ¬ ((attemptsInWindow toolName now attemptsAll config).isEmpty = true
      ∧ legacyFailureCount ≤ 0) := by
    rintro ⟨hempty, hlegacy⟩
    rcases h with hany | hpos
    · exact hany (isEmpty_iff.mp hempty)
    · omega
  unfold computeToolReliabilityProfile
  rw [if_neg hcond]
  exact ⟨_, rfl⟩

theorem computed_spec {profile : ComputedProfile}
    (h : computeToolReliabilityProfile toolName now attemptsAll policyDecisionsAll incidentsAll
      previousProfile legacyFailureCount config = some profile) :
    (attemptsInWindow toolName now attemptsAll config ≠ [] ∨ 0 < legacyFailureCount)
      ∧ profile.toolName = toolName
      ∧ profile.breakerState
        = (decideBreaker now (attemptsInWindow toolName now attemptsAll config) previousProfile
            config).1 := by
  unfold computeToolReliabilityProfile at h
  by_cases hcond : (attemptsInWindow toolName now attemptsAll config).isEmpty = true
      ∧ legacyFailureCount ≤ 0
  · rw [if_pos hcond] at h
    cases h
  · rw [if_neg hcond] at h
    obtain rfl := Option.some.inj h
    refine ⟨?_, rfl, rfl⟩
    by_cases hempty : attemptsInWindow toolName now attemptsAll config = []
    · refine .inr (Int.lt_of_not_ge fun hlegacy => hcond ⟨?_, hlegacy⟩)
      exact isEmpty_iff.mpr hempty
    · exact .inl hempty

end

/-! ## The order of the records -/

theorem insertionSort_eq_of_perm {α : Type} {r : α → α → Prop} [DecidableRel r] [Std.Total r]
    [IsTrans α r] [Std.Antisymm r] {l l' : List α} (h : l ~ l') :
    l.insertionSort r = l'.insertionSort r :=
  ((perm_insertionSort r l).trans (h.trans (perm_insertionSort r l').symm)).eq_of_pairwise'
    (pairwise_insertionSort r l) (pairwise_insertionSort r l')

instance : RightCommutative later where
  right_comm c t u := by cases c <;> simp [later, max_comm, max_left_comm]

theorem tally_counts_le (l : List ExecutionAttempt) :
    (tally l).successCount + (tally l).failureCount + (tally l).blockedCount ≤ l.length
      ∧ (tally l).timeoutCount ≤ (tally l).failureCount := by
  rw [tally, foldl_add]
  induction l with
  | nil => simp
  | cons a l ih =>
    simp only [zero_add, countP_cons, length_cons] at ih ⊢
    cases a.status <;> cases a.failureClass == some "tool_timeout" <;> simp <;> omega

section Order

variable {attempts attempts' : List ExecutionAttempt} (h : attempts ~ attempts')

include h

theorem commonFailureModesJson_perm :
    commonFailureModesJson attempts = commonFailureModesJson attempts' := by
  let r : String × Nat → String × Nat → Prop := fun a b => b.2 < a.2 ∨ (b.2 = a.2 ∧ a.1 ≤ b.1)
  have htotal : Std.Total r := ⟨fun a b => by grind⟩
  have htrans : IsTrans _ r := ⟨fun a b c => by grind⟩
  have hantisymm : Std.Antisymm r := ⟨fun a b => by grind⟩
  have hmodes := h.filterMap failureMode
  simp only [commonFailureModesJson, hmodes.count_eq]
  rw [insertionSort_eq_of_perm (r := r) (hmodes.dedup.map _)]

theorem tally_perm : ∃ latencies, latencies ~ (tally attempts).latencies
    ∧ tally attempts' = { tally attempts with latencies } := by
  simp only [tally, foldl_add, h.countP_eq, ((h.filter _).map _).foldl_eq]
  exact ⟨_, ((h.symm.filterMap elapsedMs).filter _).append_left _, rfl⟩

theorem decideBreaker_perm (now : Int) (previous : Option ComputedProfile)
    (config : ToolReliabilityConfig) :
    decideBreaker now attempts previous config = decideBreaker now attempts' previous config := by
  obtain ⟨_, -, htally⟩ := tally_perm h
  simp [decideBreaker, classifyTransientFailuresInWindow, h.countP_eq, latestSuccessAfter,
    ← foldl_later_none, ((h.filter _).map _).foldl_eq, htally]

end Order

section Profile

variable (toolName : String) (now : Int) {attempts attempts' : List ExecutionAttempt}
  {decisions decisions' : List PolicyDecision} {incidents incidents' : List Incident}
  (previous : Option ComputedProfile) (legacy : Int) (config : ToolReliabilityConfig)

/-- **The order of the records does not matter to a profile**, and its counts fit. -/
theorem profile_perm (hattempts : attempts ~ attempts') (hdecisions : decisions ~ decisions')
    (hincidents : incidents ~ incidents') :
    computeToolReliabilityProfile toolName now attempts decisions incidents previous legacy config
        = computeToolReliabilityProfile toolName now attempts' decisions' incidents' previous
          legacy config
      ∧ ∀ profile ∈ computeToolReliabilityProfile toolName now attempts decisions incidents
          previous legacy config,
        profile.successCount + profile.failureCount + profile.blockedCount ≤ profile.sampleCount
          ∧ profile.timeoutCount ≤ profile.failureCount := by
  have hwindow : attemptsInWindow toolName now attempts config
      ~ attemptsInWindow toolName now attempts' config := hattempts.filter _
  constructor
  · obtain ⟨latencies, hlatencies, htally⟩ := tally_perm hwindow
    simp [computeToolReliabilityProfile, hwindow.isEmpty_eq, hwindow.length_eq, htally,
      insertionSort_eq_of_perm hlatencies, (hincidents.filter _).countP_eq,
      commonFailureModesJson_perm hwindow, decideBreaker_perm hwindow, computePolicyFrictionScore,
      (hdecisions.filter _).countP_eq, (hdecisions.filter _).isEmpty_eq,
      (hdecisions.filter _).length_eq]
  · intro profile hprofile
    unfold computeToolReliabilityProfile at hprofile
    generalize attemptsInWindow toolName now attempts config = l at hprofile
    dsimp only at hprofile
    split at hprofile
    · cases hprofile
    cases hprofile
    exact tally_counts_le l

theorem swapped_attempts :
    let a : ExecutionAttempt := { userId := "u", toolName := "shell", status := .failed, startedAt := 0 }
    let b : ExecutionAttempt := { a with status := .succeeded, startedAt := 1 }
    [a, b] ~ [b, a] ∧ computeToolReliabilityProfile "shell" 2 [a, b] [] [] none 0 {}
      = computeToolReliabilityProfile "shell" 2 [b, a] [] [] none 0 {} :=
  ⟨.swap _ _ [], (profile_perm "shell" 2 none 0 {} (.swap _ _ []) .nil .nil).1⟩

end Profile

end TitanClaw.Agent
