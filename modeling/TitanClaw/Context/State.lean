import Mathlib.Data.List.Chain
import Mathlib.Tactic.Cases
import TitanClaw.Lib.Run

/-! # The state machine of a job

A job goes from `pending` through its work to one of three terminal states. A
context changes its state by `transitionTo`, which refuses every step that the
machine does not have; only the sandbox tool writes the state as it finds it. -/

namespace TitanClaw.Context

open List

inductive JobState where
  | pending
  | inProgress
  | completed
  | submitted
  | accepted
  | failed
  | stuck
  | cancelled
  deriving DecidableEq

namespace JobState

def canTransitionTo : JobState → JobState → Bool
  | pending, inProgress | pending, cancelled => true
  | inProgress, completed | inProgress, failed => true
  | inProgress, stuck | inProgress, cancelled => true
  | completed, submitted | completed, failed => true
  | submitted, accepted | submitted, failed => true
  -- a stuck job can recover or fail
  | stuck, inProgress | stuck, failed | stuck, cancelled => true
  | _, _ => false

def isTerminal : JobState → Bool
  | accepted | failed | cancelled => true
  | _ => false

def isActive (state : JobState) : Bool := !state.isTerminal

def display : JobState → String
  | pending => "pending"
  | inProgress => "in_progress"
  | completed => "completed"
  | submitted => "submitted"
  | accepted => "accepted"
  | failed => "failed"
  | stuck => "stuck"
  | cancelled => "cancelled"

theorem canTransitionTo_of_terminal {state : JobState} (h : state.isTerminal = true)
    (target : JobState) : state.canTransitionTo target = false := by
  cases state <;> first | rfl | cases h

end JobState

structure StateTransition where
  source : JobState
  target : JobState
  timestamp : Int
  reason : Option String

/-- The parts of a context that its own functions read or write, besides the ledger of
costs and tokens. Times are nanoseconds of the wall clock. -/
structure JobContext where
  jobId : String
  state : JobState := .pending
  userId : String
  title : String
  description : String
  category : Option String := none
  createdAt : Int
  startedAt : Option Int := none
  completedAt : Option Int := none
  repairAttempts : UInt32 := 0
  transitions : List StateTransition := []
  autonomyGoalId : Option String := none
  autonomyPlanId : Option String := none
  autonomyPlanStepId : Option String := none

namespace JobContext

def withUser (newId : String) (now : Int) (userId title description : String) : JobContext :=
  { jobId := newId, userId, title, description, createdAt := now }

def maxTransitions : Nat := 200

/-- The newest transitions. -/
def cap (transitions : List StateTransition) : List StateTransition :=
  transitions.drop (transitions.length - maxTransitions)

variable (ctx : JobContext) (now : Int)

/-- The times that go with a new state. -/
def stamp : JobContext :=
  match ctx.state with
  | .inProgress => if ctx.startedAt.isNone then { ctx with startedAt := some now } else ctx
  | .completed | .accepted | .failed | .cancelled => { ctx with completedAt := some now }
  | .pending | .submitted | .stuck => ctx

variable (newState : JobState) (reason : Option String)

def transitionTo : Except String Unit × JobContext :=
  if ctx.state.canTransitionTo newState then
    let transition := ⟨ctx.state, newState, now, reason⟩
    (.ok (), stamp
      { ctx with state := newState, transitions := cap (ctx.transitions ++ [transition]) } now)
  else (.error ("Cannot transition from " ++ ctx.state.display ++ " to " ++ newState.display), ctx)

def markStuck (reason : String) : Except String Unit × JobContext :=
  ctx.transitionTo now .stuck (some reason)

def attemptRecovery : Except String Unit × JobContext :=
  if ctx.state = .stuck then
    transitionTo { ctx with repairAttempts := ctx.repairAttempts + 1 } now .inProgress
      (some "Recovery attempt")
  else (.error "Job is not stuck", ctx)

def setAutonomyLinks (goalId planId : Option String) : JobContext :=
  { ctx with autonomyGoalId := goalId, autonomyPlanId := planId }

def setAutonomyPlanStep (planStepId : Option String) : JobContext :=
  { ctx with autonomyPlanStepId := planStepId }

def cancelFor (requesterId : String) (now : Int) : Except String Unit × JobContext :=
  if ctx.userId ≠ requesterId then (.error "Job not found", ctx)
  else ctx.transitionTo now .cancelled (some "Cancelled by user")

def syncSandboxState (state : JobState) (startedAt completedAt : Option Int) : JobContext :=
  { ctx with
    state
    startedAt := startedAt.or ctx.startedAt
    completedAt := completedAt.or ctx.completedAt }

/-! ## Updates of a context in a terminal state -/

theorem stamp_state : (ctx.stamp now).state = ctx.state := by
  unfold stamp
  split
  · split <;> rfl
  all_goals rfl

theorem transitionTo_state : (ctx.transitionTo now newState reason).2.state
      = if ctx.state.canTransitionTo newState then newState else ctx.state := by
  unfold transitionTo
  split
  · exact stamp_state _ now
  · rfl

variable {ctx : JobContext} (hterminal : ctx.state.isTerminal = true)

include hterminal

theorem transitionTo_of_terminal (now : Int) (newState : JobState) (reason : Option String) :
    (ctx.transitionTo now newState reason).2.state = ctx.state := by
  rw [transitionTo_state, JobState.canTransitionTo_of_terminal hterminal newState,
    if_neg Bool.false_ne_true]

theorem attemptRecovery_of_terminal (now : Int) :
    (ctx.attemptRecovery now).2.state = ctx.state := by
  have hstuck : ctx.state ≠ .stuck := by
    intro h
    rw [h] at hterminal
    cases hterminal
  rw [attemptRecovery, if_neg hstuck]

theorem cancelFor_of_terminal (requesterId : String) (now : Int) :
    (ctx.cancelFor requesterId now).2.state = ctx.state := by
  unfold cancelFor
  split
  · rfl
  · exact transitionTo_of_terminal hterminal now .cancelled _

end JobContext

/-- The updates of contexts that there are: of the commands, the worker, the scheduler, the
self repair and the tools. -/
inductive ContextUpdate where
  | setCategory (category : String)
  | attachPlan (goalId planId : String)
  | setPlanStep (planStepId : Option String)
  | transitionTo (now : Int) (newState : JobState) (reason : Option String)
  | markStuck (now : Int) (reason : String)
  | attemptRecovery (now : Int)
  | cancelFor (requesterId : String) (now : Int)
  | syncSandboxState (state : JobState) (startedAt completedAt : Option Int)

namespace ContextUpdate

def apply : ContextUpdate → JobContext → JobContext
  | setCategory category, ctx => { ctx with category := some category }
  | attachPlan goalId planId, ctx =>
      (ctx.setAutonomyLinks (some goalId) (some planId)).setAutonomyPlanStep none
  | setPlanStep planStepId, ctx => ctx.setAutonomyPlanStep planStepId
  | transitionTo now newState reason, ctx => (ctx.transitionTo now newState reason).2
  | markStuck now reason, ctx => (ctx.markStuck now reason).2
  | attemptRecovery now, ctx => (ctx.attemptRecovery now).2
  | cancelFor requesterId now, ctx => (ctx.cancelFor requesterId now).2
  | syncSandboxState state startedAt completedAt, ctx =>
      ctx.syncSandboxState state startedAt completedAt

/-- The update writes an active state, whatever the state before. -/
def overrules : ContextUpdate → Bool
  | syncSandboxState state _ _ => state.isActive
  | _ => false

/-- A context in a terminal state is active after an update exactly if the update
overrules the machine. -/
theorem apply_isActive_of_terminal (update : ContextUpdate) {ctx : JobContext}
    (hterminal : ctx.state.isTerminal = true) :
    (update.apply ctx).state.isActive = update.overrules := by
  have hinactive : ctx.state.isActive = false := by
    rw [JobState.isActive, hterminal]
    rfl
  cases update with
  | setCategory | attachPlan | setPlanStep => exact hinactive
  | transitionTo =>
    rw [apply, JobContext.transitionTo_of_terminal hterminal]
    exact hinactive
  | markStuck =>
    rw [apply, JobContext.markStuck, JobContext.transitionTo_of_terminal hterminal]
    exact hinactive
  | attemptRecovery =>
    rw [apply, JobContext.attemptRecovery_of_terminal hterminal]
    exact hinactive
  | cancelFor =>
    rw [apply, JobContext.cancelFor_of_terminal hterminal]
    exact hinactive
  | syncSandboxState => rfl

end ContextUpdate

/-! ## The history of a context -/

inductive TransitionAttempt where
  | transitionTo (now : Int) (newState : JobState) (reason : Option String)
  | markStuck (now : Int) (reason : String)
  | attemptRecovery (now : Int)

namespace JobContext

variable (ctx : JobContext)

def attempt : TransitionAttempt → Except String Unit × JobContext
  | .transitionTo now newState reason => ctx.transitionTo now newState reason
  | .markStuck now reason => ctx.markStuck now reason
  | .attemptRecovery now => ctx.attemptRecovery now

structure Traced : Prop where
  length_le : ctx.transitions.length ≤ maxTransitions
  chained : ctx.transitions.IsChain fun t next => next.source = t.target
  last : ∀ t ∈ ctx.transitions.getLast?, t.target = ctx.state
  completed : ctx.completedAt.isSome
    ↔ ctx.state ∈ [.completed, .submitted, .accepted, .failed, .cancelled]

theorem stamp_transitions (now : Int) : (ctx.stamp now).transitions = ctx.transitions := by
  unfold stamp
  split
  · split <;> rfl
  all_goals rfl

variable {ctx}

theorem Traced.transitionTo (h : ctx.Traced) (now : Int) (newState : JobState)
    (reason : Option String) : (ctx.transitionTo now newState reason).2.Traced := by
  unfold JobContext.transitionTo
  split
  · next hcan =>
    let t : StateTransition := ⟨ctx.state, newState, now, reason⟩
    have hkept : (ctx.transitions ++ [t]).IsChain fun t next => next.source = t.target := by
      refine isChain_append.mpr ⟨h.chained, isChain_singleton t, fun last hlast next hnext => ?_⟩
      cases hnext
      exact (h.last last hlast).symm
    refine ⟨?_, ?_, ?_, ?_⟩
    · rw [stamp_transitions]
      simp only [cap, length_drop]
      omega
    · simp only [stamp_transitions, cap]
      exact hkept.drop _
    · rw [stamp_transitions, stamp_state]
      intro last hlast
      have hin : last ∈ (ctx.transitions ++ [t]).getLast? := by
        simp only [cap, getLast?_drop] at hlast
        split at hlast
        · cases hlast
        · exact hlast
      simp only [getLast?_concat, Option.mem_some_iff] at hin
      rw [← hin]
    · have hcompleted := h.completed
      cases hstate : ctx.state <;> cases newState <;>
        simp_all [stamp, JobState.canTransitionTo]
      all_goals split <;> simp_all
  · exact h

theorem Traced.attempt (h : ctx.Traced) (a : TransitionAttempt) : (ctx.attempt a).2.Traced := by
  cases a with
  | transitionTo now newState reason => exact h.transitionTo now newState reason
  | markStuck now reason => exact h.transitionTo now .stuck _
  | attemptRecovery now =>
    unfold JobContext.attempt attemptRecovery
    dsimp only
    split
    · refine Traced.transitionTo ?_ now _ _
      exact ⟨h.length_le, h.chained, h.last, h.completed⟩
    · exact h

theorem attempt_error {e : String} {a : TransitionAttempt} (h : (ctx.attempt a).1 = .error e) :
    (ctx.attempt a).2 = ctx := by
  cases a with
  | transitionTo | markStuck =>
    simp only [JobContext.attempt, markStuck, JobContext.transitionTo] at h ⊢
    split at h
    · cases h
    · next hcan => rw [if_neg hcan]
  | attemptRecovery =>
    simp only [JobContext.attempt, attemptRecovery, JobContext.transitionTo] at h ⊢
    split at h
    · next hstuck => simp [hstuck, JobState.canTransitionTo] at h
    · next hstuck => rw [if_neg hstuck]

/-- **Attempts keep the history of a context**: it is short and a chain that ends in the state,
the job is stamped as completed where it is, and what is refused changes nothing; in a
terminal state everything is. -/
theorem attempts_traced (newId : String) (now : Int) (userId title description : String)
    (attempts : List TransitionAttempt) (next : TransitionAttempt) :
    let ctx := Run.run (fun ctx a => (attempt ctx a).2)
      (withUser newId now userId title description) attempts
    ctx.Traced ∧ (∀ e, (ctx.attempt next).1 = .error e → (ctx.attempt next).2 = ctx)
      ∧ (ctx.state.isTerminal = true → ∃ e, (ctx.attempt next).1 = .error e) := by
  refine ⟨Run.invariant_always (fun _ a h => h.attempt a) ?_ attempts, fun _ => attempt_error, ?_⟩
  · exact ⟨Nat.zero_le _, .nil, nofun, by simp [withUser]⟩
  · generalize Run.run _ _ _ = ctx
    intro hterminal
    have hcan := JobState.canTransitionTo_of_terminal hterminal
    cases next with
    | transitionTo | markStuck =>
      simp [JobContext.attempt, markStuck, JobContext.transitionTo, hcan]
    | attemptRecovery =>
      have hstuck : ctx.state ≠ .stuck := by
        intro h
        simp [h, JobState.isTerminal] at hterminal
      simp [JobContext.attempt, attemptRecovery, hstuck]

end JobContext

end TitanClaw.Context
