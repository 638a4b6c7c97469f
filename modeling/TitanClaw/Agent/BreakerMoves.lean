import TitanClaw.Agent.ToolReliability

/-! # How the stored breaker moves

A profile is recomputed for one user at a time: from that user's attempts, but from and
into the one profile of the tool. Between two recomputations the other tables change as
they will; a history of attempts that only grows is one way for them to change. An open
breaker should close after a success, or go through half open once it has cooled down,
and a half open one should close after a success. -/

namespace TitanClaw.Agent

open TitanClaw.Tools Faulty List Option Run Function

/-- The tables that recomputing reads, and the profiles it writes. -/
structure ReliabilityDb where
  attempts : List ExecutionAttempt := []
  policyDecisions : List PolicyDecision := []
  incidents : List Incident := []
  /-- As the query lists them. -/
  brokenTools : List BrokenTool := []
  profiles : String → Option ComputedProfile := fun _ => none

structure Recompute where
  userId : String
  toolName : String
  now : Int
  profileFault : Option String := none
  attemptsFault : Option String := none
  decisionsFault : Option String := none
  incidentsFault : Option String := none
  brokenToolsFault : Option String := none
  upsert : Reply String := .answered

namespace ReliabilityDb

def upsertToolReliabilityProfile (profile : ComputedProfile) (db : ReliabilityDb) : ReliabilityDb :=
  { db with profiles := update db.profiles profile.toolName (some profile) }

end ReliabilityDb

namespace Recompute

variable (r : Recompute) (db : ReliabilityDb)

def attempts : List ExecutionAttempt := db.attempts.filter (·.userId = r.userId)

def legacyFailureCount : Int :=
  let brokenTools := if r.brokenToolsFault.isSome then [] else db.brokenTools
  (brokenTools.find? (·.name = r.toolName)).elim 0 fun tool => tool.failureCount

def profile (config : ToolReliabilityConfig) (db : ReliabilityDb) : Option ComputedProfile :=
  computeToolReliabilityProfile r.toolName r.now (r.attempts db)
    (db.policyDecisions.filter (·.userId = r.userId)) (db.incidents.filter (·.userId = r.userId))
    (db.profiles r.toolName) (r.legacyFailureCount db) config

end Recompute

variable (config : ToolReliabilityConfig)

def recomputeProfileForTool (r : Recompute) :
    StoreProg ReliabilityDb String (Option ComputedProfile) := do
  let previous ← query r.profileFault (·.profiles r.toolName)
  let attempts ← query r.attemptsFault r.attempts
  let policyDecisions ← query r.decisionsFault (·.policyDecisions.filter (·.userId = r.userId))
  let incidents ← query r.incidentsFault (·.incidents.filter (·.userId = r.userId))
  let legacyFailureCount ← query none r.legacyFailureCount
  match computeToolReliabilityProfile r.toolName r.now attempts policyDecisions incidents previous
      legacyFailureCount config with
  | none => pure none
  | some profile =>
      call r.upsert (ReliabilityDb.upsertToolReliabilityProfile profile)
      pure (some profile)

/-- A recomputation, or any change of the tables it only reads. -/
inductive ReliabilityAction where
  | recompute (r : Recompute)
  | record (attempts : List ExecutionAttempt) (policyDecisions : List PolicyDecision)
      (incidents : List Incident) (brokenTools : List BrokenTool)

namespace ReliabilityDb

def step (db : ReliabilityDb) : ReliabilityAction → ReliabilityDb
  | .recompute r => (exec (recomputeProfileForTool config r) db).2
  | .record attempts policyDecisions incidents brokenTools =>
      { attempts, policyDecisions, incidents, brokenTools, profiles := db.profiles }

end ReliabilityDb

namespace Recompute

/-- Nothing keeps the recomputation from storing what it computes. -/
def Unhindered (r : Recompute) : Prop :=
  r.profileFault = none ∧ r.attemptsFault = none ∧ r.decisionsFault = none
    ∧ r.incidentsFault = none ∧ r.upsert.reached = true

variable {r : Recompute}

/-- Without errors of the queries, the profile computed is stored if the store gets it. -/
theorem step_of_queries (hprofile : r.profileFault = none)
    (hattempts : r.attemptsFault = none) (hdecisions : r.decisionsFault = none)
    (hincidents : r.incidentsFault = none) (config : ToolReliabilityConfig) (db : ReliabilityDb) :
    db.step config (.recompute r)
      = (r.profile config db).elim db fun profile =>
          if r.upsert.reached then db.upsertToolReliabilityProfile profile else db := by
  simp only [ReliabilityDb.step, recomputeProfileForTool, hprofile, hattempts, hdecisions,
    hincidents, exec_query_bind_none]
  show _ = (computeToolReliabilityProfile _ _ _ _ _ _ _ _).elim _ _
  cases computeToolReliabilityProfile r.toolName r.now (r.attempts db) _ _
      (db.profiles r.toolName) (r.legacyFailureCount db) config with
  | none => rfl
  | some profile => exact exec_call_pure_state _ _ _ db

theorem step_of_unhindered (h : r.Unhindered) (config : ToolReliabilityConfig)
    (db : ReliabilityDb) :
    db.step config (.recompute r)
      = (r.profile config db).elim db fun profile => db.upsertToolReliabilityProfile profile := by
  obtain ⟨hprofile, hattempts, hdecisions, hincidents, hupsert⟩ := h
  rw [step_of_queries hprofile hattempts hdecisions hincidents]
  simp only [hupsert, if_true]

/-- Otherwise nothing changes. -/
theorem step_of_hindered (h : ¬ r.Unhindered) (config : ToolReliabilityConfig)
    (db : ReliabilityDb) : db.step config (.recompute r) = db := by
  cases hprofile : r.profileFault with
  | some => simp [ReliabilityDb.step, recomputeProfileForTool, hprofile]
  | none =>
  cases hattempts : r.attemptsFault with
  | some => simp [ReliabilityDb.step, recomputeProfileForTool, hprofile, hattempts]
  | none =>
  cases hdecisions : r.decisionsFault with
  | some => simp [ReliabilityDb.step, recomputeProfileForTool, hprofile, hattempts, hdecisions]
  | none =>
  cases hincidents : r.incidentsFault with
  | some =>
    simp [ReliabilityDb.step, recomputeProfileForTool, hprofile, hattempts, hdecisions, hincidents]
  | none =>
    have hupsert : r.upsert.reached = false := by
      by_contra hreached
      exact h ⟨hprofile, hattempts, hdecisions, hincidents, Bool.eq_true_of_not_eq_false hreached⟩
    rw [step_of_queries hprofile hattempts hdecisions hincidents]
    cases r.profile config db <;> simp [hupsert]

end Recompute

/-! ## Moves of the breaker -/

def SucceededSince (attempts : List ExecutionAttempt) (toolName : String) : Prop :=
  ∃ a ∈ attempts, a.toolName = toolName ∧ a.status = .succeeded
    ∧ ∀ b ∈ attempts, b.toolName = toolName → b.isFailure = true → b.startedAt < a.startedAt

namespace ReliabilityDb

variable (db : ReliabilityDb) (action : ReliabilityAction)

/-- An open or half open breaker that closes has seen a success since the last failure,
and an open one that is half open now has cooled down. -/
def InOrder (toolName : String) (before after : ComputedProfile) : Prop :=
  (before.breakerState = .open → after.breakerState = .closed → SucceededSince db.attempts toolName)
    ∧ (before.breakerState = .halfOpen → after.breakerState = .closed →
        SucceededSince db.attempts toolName)
    ∧ (before.breakerState = .open → after.breakerState = .halfOpen →
        ∃ r cooldownUntil, action = .recompute r
          ∧ before.cooldownUntil = some cooldownUntil ∧ cooldownUntil ≤ r.now)

variable (config : ToolReliabilityConfig) (db : ReliabilityDb)

def MovesInOrder (action : ReliabilityAction) : Prop :=
  ∀ toolName before after, db.profiles toolName = some before →
    (db.step config action).profiles toolName = some after → db.InOrder action toolName before after

/-- A recomputation that stores a profile over an open or half open breaker finds enough
failures to open it again, or that it has cooled down, or a success since the last
failure. -/
def ClosesAfterSuccess : ReliabilityAction → Prop
  | .record _ _ _ _ => True
  | .recompute r =>
      ∀ before, db.profiles r.toolName = some before → before.breakerState ≠ .closed →
        r.Unhindered →
        attemptsInWindow r.toolName r.now (r.attempts db) config ≠ []
          ∨ 0 < r.legacyFailureCount db →
        Trips r.now (attemptsInWindow r.toolName r.now (r.attempts db) config) config
          ∨ CooledDown r.now (some before)
          ∨ SucceededSince db.attempts r.toolName

theorem inOrder_refl (toolName : String)
    (profile : ComputedProfile) : db.InOrder action toolName profile profile := by
  refine ⟨fun hopen hclosed => ?_, fun hhalf hclosed => ?_, fun hopen hhalf => ?_⟩
  · rw [hopen] at hclosed
    cases hclosed
  · rw [hhalf] at hclosed
    cases hclosed
  · rw [hopen] at hhalf
    cases hhalf

variable {action}

theorem movesInOrder_of_same {config : ToolReliabilityConfig} {db : ReliabilityDb}
    (h : (db.step config action).profiles = db.profiles) :
    db.MovesInOrder config action := by
  intro toolName before after hbefore hafter
  rw [h, hbefore] at hafter
  obtain rfl := Option.some.inj hafter
  exact db.inOrder_refl action toolName before

section

variable {config : ToolReliabilityConfig} {db : ReliabilityDb} {r : Recompute}
  {profile : ComputedProfile}

section

variable (hunhindered : r.Unhindered)

include hunhindered

/-- What is stored for a tool after a recomputation. -/
theorem step_profiles (hprofile : r.profile config db = some profile) (toolName : String) :
    (db.step config (.recompute r)).profiles toolName
      = if toolName = r.toolName then some profile else db.profiles toolName := by
  rw [Recompute.step_of_unhindered hunhindered, hprofile]
  show update db.profiles profile.toolName (some profile) toolName = _
  rw [(computed_spec hprofile).2.1, update_apply]

theorem succeededSince_of_closed (hprofile : r.profile config db = some profile)
    (h : db.ClosesAfterSuccess config (.recompute r)) {before : ComputedProfile}
    (hbefore : db.profiles r.toolName = some before) (hnot : before.breakerState ≠ .closed)
    (hclosed : profile.breakerState = .closed) : SucceededSince db.attempts r.toolName := by
  obtain ⟨hany, -, hstate⟩ := computed_spec hprofile
  rw [hstate, hbefore] at hclosed
  by_cases htrips : Trips r.now (attemptsInWindow r.toolName r.now (r.attempts db) config) config
  · rw [decideBreaker_of_trips htrips] at hclosed
    cases hclosed
  · rcases h before hbefore hnot hunhindered hany with htrips' | hcooled | hsucceeded
    · exact absurd htrips' htrips
    · rw [decideBreaker_of_cooledDown htrips hcooled] at hclosed
      cases hclosed
    · exact hsucceeded

theorem movesInOrder_of_stored (hprofile : r.profile config db = some profile)
    (h : db.ClosesAfterSuccess config (.recompute r)) : db.MovesInOrder config (.recompute r) := by
  intro toolName before after hbefore hafter
  rw [step_profiles hunhindered hprofile] at hafter
  by_cases htool : toolName = r.toolName
  · subst htool
    rw [if_pos rfl] at hafter
    obtain rfl := Option.some.inj hafter
    refine ⟨fun hopen => ?_, fun hhalf => ?_, fun hopen hhalf => ?_⟩
    · exact succeededSince_of_closed hunhindered hprofile h hbefore (by rw [hopen]; nofun)
    · exact succeededSince_of_closed hunhindered hprofile h hbefore (by rw [hhalf]; nofun)
    · rw [(computed_spec hprofile).2.2, hbefore] at hhalf
      obtain ⟨prev, cooldownUntil, hprev, -, hcooldown, hpassed⟩ := cooledDown_of_halfOpen hhalf
      obtain rfl := Option.some.inj hprev
      exact ⟨r, cooldownUntil, rfl, hcooldown, hpassed⟩
  · rw [if_neg htool, hbefore] at hafter
    obtain rfl := Option.some.inj hafter
    exact db.inOrder_refl _ toolName before

end

theorem closesAfterSuccess_of_moves (h : db.MovesInOrder config (.recompute r)) :
    db.ClosesAfterSuccess config (.recompute r) := by
  intro before hbefore hnot hunhindered hany
  obtain ⟨profile, hprofile⟩ : ∃ profile, r.profile config db = some profile := exists_computed hany
  by_cases htrips : Trips r.now (attemptsInWindow r.toolName r.now (r.attempts db) config) config
  · exact .inl htrips
  by_cases hcooled : CooledDown r.now (some before)
  · exact .inr (.inl hcooled)
  refine .inr (.inr ?_)
  have hclosed : profile.breakerState = .closed := by
    rw [(computed_spec hprofile).2.2, hbefore, decideBreaker_of_not htrips hcooled]
  have hafter : (db.step config (.recompute r)).profiles r.toolName = some profile := by
    rw [step_profiles hunhindered hprofile, if_pos rfl]
  obtain ⟨hopen, hhalf, -⟩ := h r.toolName before profile hbefore hafter
  cases hstate : before.breakerState with
  | closed => exact absurd hstate hnot
  | «open» => exact hopen hstate hclosed
  | halfOpen => exact hhalf hstate hclosed

end

theorem movesInOrder_iff (action : ReliabilityAction) :
    db.MovesInOrder config action ↔ db.ClosesAfterSuccess config action := by
  cases action with
  | record => exact iff_of_true (movesInOrder_of_same rfl) trivial
  | recompute r =>
    refine ⟨closesAfterSuccess_of_moves, fun h => ?_⟩
    by_cases hunhindered : r.Unhindered
    · cases hprofile : r.profile config db with
      | some => exact movesInOrder_of_stored hunhindered hprofile h
      | none =>
        refine movesInOrder_of_same ?_
        rw [Recompute.step_of_unhindered hunhindered, hprofile]
        rfl
    · exact movesInOrder_of_same (by rw [Recompute.step_of_hindered hunhindered])

/-- Over every run, from any tables, the stored breakers move in order exactly if each
recomputation over an open or half open breaker that stores anything finds enough
failures, or a cooldown that has passed, or a success since the last failure. -/
theorem run_movesInOrder_iff (actions : List ReliabilityAction) :
    (∀ pre action, pre ++ [action] <+: actions →
        (run (step config) db pre).MovesInOrder config action)
      ↔ Guarded (step config) (ClosesAfterSuccess config) db actions := by
  rw [guarded_iff]
  exact forall₃_congr fun pre action _ => movesInOrder_iff config _ action

/-! ## A breaker that closes while it cools down -/

def breaker (toolName : String) : Option CircuitBreakerState :=
  (db.profiles toolName).map (·.breakerState)

variable {config db}

theorem not_movesInOrder (toolName : String) (state : CircuitBreakerState)
    (hbefore : db.breaker toolName = some state) (hstate : state ≠ .closed)
    (hafter : (db.step config action).breaker toolName = some .closed)
    (hnone : ¬ SucceededSince db.attempts toolName) : ¬ db.MovesInOrder config action := by
  intro h
  obtain ⟨before, hstored, rfl⟩ := map_eq_some_iff.mp hbefore
  obtain ⟨after, hstored', hclosed⟩ := map_eq_some_iff.mp hafter
  obtain ⟨hopen, hhalf, -⟩ := h toolName before after hstored hstored'
  cases hcases : before.breakerState with
  | closed => exact hstate hcases
  | «open» => exact hnone (hopen hcases hclosed)
  | halfOpen => exact hnone (hhalf hcases hclosed)

def shellTimeout (startedAt : Int) : ExecutionAttempt :=
  { userId := "alice", toolName := "shell", status := .timeout, startedAt }

def recomputeShell (now : Int) : ReliabilityAction :=
  .recompute { userId := "alice", toolName := "shell", now }

/-- Three timeouts, and a recomputation ten minutes after the first, when all of them are
within the window of the breaker. -/
def opened : List ReliabilityAction :=
  [.record [shellTimeout 0, shellTimeout 1, shellTimeout 2] [] [] [], recomputeShell 600]

theorem not_succeededSince_timeouts :
    ¬ SucceededSince [shellTimeout 0, shellTimeout 1, shellTimeout 2] "shell" := by
  rintro ⟨a, ha, -, hsucceeded, -⟩
  have hstatus : a.status = .timeout := by
    simp only [mem_cons, not_mem_nil, or_false] at ha
    rcases ha with rfl | rfl | rfl <;> rfl
  rw [hstatus] at hsucceeded
  cases hsucceeded

/-- A second later the first timeout is out of the window, and the breaker closes, with
five minutes of cooldown to go. Recomputed twice after the cooldown it is half open, and
then it closes. No attempt has succeeded. -/
theorem opened_closes :
    ¬ (run (step {}) {} opened).MovesInOrder {} (recomputeShell 601)
      ∧ ¬ (run (step {}) {} (opened ++ [recomputeShell 900])).MovesInOrder {}
          (recomputeShell 901) := by
  constructor
  · exact not_movesInOrder "shell" .open rfl nofun rfl not_succeededSince_timeouts
  · exact not_movesInOrder "shell" .halfOpen rfl nofun rfl not_succeededSince_timeouts

end ReliabilityDb

end TitanClaw.Agent
