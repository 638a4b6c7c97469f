import Mathlib.Data.List.Basic
import TitanClaw.Lib.Run

/-! # The circuit breaker of the model providers

The breaker wraps a provider: a call first asks whether it is allowed, then goes
to the provider, then records how it went. The three parts of different calls
interleave freely. Times are nanoseconds of a monotone clock. -/

namespace TitanClaw.Llm

open List Run

structure CircuitBreakerConfig where
  /-- Consecutive transient failures before the circuit opens. -/
  failureThreshold : Nat := 5
  /-- How long the circuit stays open before it allows a probe. -/
  recoveryTimeout : Nat := 30000000000
  /-- Successful probes that close the circuit again. -/
  halfOpenSuccessesNeeded : Nat := 2

inductive CircuitState where
  | closed
  | open
  | halfOpen
  deriving DecidableEq

structure BreakerState where
  state : CircuitState := .closed
  consecutiveFailures : Nat := 0
  openedAt : Option Nat := none
  halfOpenSuccesses : Nat := 0

inductive LlmError where
  | requestFailed (provider reason : String)
  | rateLimited (provider : String) (retryAfter : Option Nat)
  | invalidResponse (provider reason : String)
  | contextLengthExceeded (used limit : Nat)
  | modelNotAvailable (provider model : String)
  | authFailed (provider : String)
  | sessionExpired (provider : String)
  | sessionRenewalFailed (provider reason : String)
  | http (e : String)
  | json (e : String)
  | io (e : String)

/-- The errors that say the provider is degraded. -/
def isTransient : LlmError → Bool
  | .requestFailed _ _ | .rateLimited _ _ | .invalidResponse _ _ | .sessionExpired _
  | .sessionRenewalFailed _ _ | .http _ | .json _ | .io _ => true
  | .contextLengthExceeded _ _ | .modelNotAvailable _ _ | .authFailed _ => false

/-! ## The parts of a call -/

/-- The difference of two durations; `none` where the subtraction panics. -/
def durationSub (a b : Nat) : Option Nat := if b ≤ a then some (a - b) else none

def wholeSecs (nanos : Nat) : Nat :=
  let secs := nanos / 1000000000
  let rest := nanos % 1000000000
  if rest < 500000000 ∨ rest = 500000000 ∧ secs % 2 = 0 then secs else secs + 1

inductive CheckResult where
  | admitted
  | rejected (e : LlmError)
  | panicked

variable (cfg : CircuitBreakerConfig) (modelName : String)

/-- Is a call allowed? The clock is read a second time for the text of a refusal:
`now` and `again` are the two readings. -/
def checkAllowed (now again : Nat) (s : BreakerState) : BreakerState × CheckResult :=
  match s.state with
  | .closed | .halfOpen => (s, .admitted)
  | .open =>
      match s.openedAt with
      | some openedAt =>
          if cfg.recoveryTimeout ≤ now - openedAt then
            ({ s with state := .halfOpen, halfOpenSuccesses := 0 }, .admitted)
          else
            match durationSub cfg.recoveryTimeout (again - openedAt) with
            | some remaining =>
                (s, .rejected (.requestFailed modelName
                  ("Circuit breaker open (" ++ toString s.consecutiveFailures
                    ++ " consecutive failures, recovery in " ++ toString (wholeSecs remaining)
                    ++ "s)")))
            | none => (s, .panicked)
      | none => ({ s with state := .closed }, .admitted)

def recordSuccess (s : BreakerState) : BreakerState :=
  match s.state with
  | .closed => { s with consecutiveFailures := 0 }
  | .halfOpen =>
      if cfg.halfOpenSuccessesNeeded ≤ s.halfOpenSuccesses + 1 then
        { state := .closed
          consecutiveFailures := 0
          openedAt := none
          halfOpenSuccesses := s.halfOpenSuccesses + 1 }
      else { s with halfOpenSuccesses := s.halfOpenSuccesses + 1 }
  | .open => { s with state := .closed, consecutiveFailures := 0, openedAt := none }

def recordFailure (now : Nat) (e : LlmError) (s : BreakerState) : BreakerState :=
  if isTransient e then
    match s.state with
    | .closed =>
        if cfg.failureThreshold ≤ s.consecutiveFailures + 1 then
          { s with
            state := .open
            consecutiveFailures := s.consecutiveFailures + 1
            openedAt := some now }
        else { s with consecutiveFailures := s.consecutiveFailures + 1 }
    | .halfOpen => { s with state := .open, openedAt := some now, halfOpenSuccesses := 0 }
    | .open => s
  else s

/-! ## Calls side by side -/

inductive CallPhase where
  | inFlight
  | ended (result : Except LlmError Unit)
  | panicked

inductive BreakerEvent where
  /-- The circuit has become open. -/
  | opened (time : Nat)
  /-- A call was let through to the provider. -/
  | admitted (call time : Nat)
  /-- A call panicked while it was being refused. -/
  | panicked (call time : Nat)
  deriving DecidableEq

/-- The breaker, the calls in order of their arrival, and what has happened
(newest first). -/
structure BreakerProvider where
  state : BreakerState := {}
  clock : Nat := 0
  calls : List CallPhase := []
  log : List BreakerEvent := []

inductive BreakerActKind where
  /-- A new call asks; `gap` passes between its two readings of the clock. -/
  | arrive (gap : Nat)
  /-- The provider answers call `i`, which records the answer. -/
  | answer (i : Nat) (result : Except LlmError Unit)

structure BreakerAct where
  wait : Nat
  kind : BreakerActKind

def openedEvents (now : Nat) (s s' : BreakerState) : List BreakerEvent :=
  if s.state ≠ .open ∧ s'.state = .open then [.opened now] else []

variable (p : BreakerProvider)

def BreakerProvider.arrive (now gap : Nat) : BreakerProvider :=
  match checkAllowed cfg modelName now (now + gap) p.state with
  | (s, .admitted) =>
      { state := s
        clock := now + gap
        calls := p.calls ++ [.inFlight]
        log := .admitted p.calls.length now :: p.log }
  | (s, .rejected e) =>
      { p with state := s, clock := now + gap, calls := p.calls ++ [.ended (.error e)] }
  | (s, .panicked) =>
      { state := s
        clock := now + gap
        calls := p.calls ++ [.panicked]
        log := .panicked p.calls.length (now + gap) :: p.log }

def BreakerProvider.answer (now i : Nat) (result : Except LlmError Unit) : BreakerProvider :=
  match p.calls[i]? with
  | some .inFlight =>
      let s := match result with
        | .ok () => recordSuccess cfg p.state
        | .error e => recordFailure cfg now e p.state
      { state := s
        clock := now
        calls := p.calls.set i (.ended result)
        log := openedEvents now p.state s ++ p.log }
  | _ => { p with clock := now }

def BreakerProvider.step (a : BreakerAct) : BreakerProvider :=
  match a.kind with
  | .arrive gap => p.arrive cfg modelName (p.clock + a.wait) gap
  | .answer i result => p.answer cfg (p.clock + a.wait) i result

variable {cfg : CircuitBreakerConfig} {modelName : String} {now again : Nat}
  {s : BreakerState} {p : BreakerProvider}

inductive Checked (cfg : CircuitBreakerConfig) (now again : Nat) (s : BreakerState) :
    BreakerState → CheckResult → Prop
  | pass (hstate : s.state ≠ .open) : Checked cfg now again s s .admitted
  | probe (openedAt : Nat) (hstate : s.state = .open) (hopened : s.openedAt = some openedAt)
      (hdue : cfg.recoveryTimeout ≤ now - openedAt) :
      Checked cfg now again s { s with state := .halfOpen, halfOpenSuccesses := 0 } .admitted
  | refuse (openedAt : Nat) (e : LlmError) (hstate : s.state = .open)
      (hopened : s.openedAt = some openedAt) (hearly : now - openedAt < cfg.recoveryTimeout)
      (hagain : again - openedAt ≤ cfg.recoveryTimeout) :
      Checked cfg now again s s (.rejected e)
  | panic (openedAt : Nat) (hstate : s.state = .open) (hopened : s.openedAt = some openedAt)
      (hearly : now - openedAt < cfg.recoveryTimeout)
      (hagain : cfg.recoveryTimeout < again - openedAt) :
      Checked cfg now again s s .panicked
  | recover (hstate : s.state = .open) (hopened : s.openedAt = none) :
      Checked cfg now again s { s with state := .closed } .admitted

section

variable (cfg : CircuitBreakerConfig)

theorem checkAllowed_checked (modelName : String) (now again : Nat) (s : BreakerState) :
    Checked cfg now again s (checkAllowed cfg modelName now again s).1
      (checkAllowed cfg modelName now again s).2 := by
  obtain ⟨state, consecutiveFailures, opened, halfOpenSuccesses⟩ := s
  cases state with
  | closed | halfOpen => exact .pass nofun
  | «open» =>
    cases opened with
    | none => exact .recover rfl rfl
    | some openedAt =>
      simp only [checkAllowed, durationSub]
      by_cases hdue : cfg.recoveryTimeout ≤ now - openedAt
      · simp only [if_pos hdue]
        exact .probe openedAt rfl rfl hdue
      · by_cases hagain : again - openedAt ≤ cfg.recoveryTimeout
        · simp only [if_neg hdue, if_pos hagain]
          exact .refuse openedAt _ rfl rfl (by omega) hagain
        · simp only [if_neg hdue, if_neg hagain]
          exact .panic openedAt rfl rfl (by omega) (by omega)

theorem recordFailure_cases (now : Nat) (e : LlmError) (s : BreakerState) :
    ((recordFailure cfg now e s).state = s.state
        ∧ (recordFailure cfg now e s).openedAt = s.openedAt)
      ∨ (s.state ≠ .open ∧ (recordFailure cfg now e s).state = .open
        ∧ (recordFailure cfg now e s).openedAt = some now) := by
  unfold recordFailure
  by_cases htransient : isTransient e = true
  · rw [if_pos htransient]
    cases hstate : s.state with
    | closed =>
      by_cases hfull : cfg.failureThreshold ≤ s.consecutiveFailures + 1
      · right
        simp [if_pos hfull]
      · left
        simp [if_neg hfull]
    | halfOpen => exact .inr ⟨by simp, rfl, rfl⟩
    | «open» => exact .inl ⟨hstate, rfl⟩
  · rw [if_neg htransient]
    exact .inl ⟨rfl, rfl⟩

theorem recordSuccess_not_open (h : s.state ≠ .open) : (recordSuccess cfg s).state ≠ .open := by
  unfold recordSuccess
  cases hstate : s.state with
  | closed => simp
  | halfOpen =>
    by_cases henough : cfg.halfOpenSuccessesNeeded ≤ s.halfOpenSuccesses + 1
    · simp [if_pos henough]
    · simp [if_neg henough]
  | «open» => exact absurd hstate h

end

/-- While the circuit is open no call gets through, and no refusal panics. -/
structure Shielded (cfg : CircuitBreakerConfig) (p : BreakerProvider) : Prop where
  shut : ∀ t, .opened t ∈ p.log → ∀ i t', .admitted i t' ∈ p.log → t < t' →
    t + cfg.recoveryTimeout ≤ t'
  calm : ∀ i t, .panicked i t ∉ p.log

/-- No call that was let through earlier succeeds while the circuit is open, and the
timeout does not pass between the two clock readings of a refusal. -/
structure NoOverlap (cfg : CircuitBreakerConfig) (p : BreakerProvider) (a : BreakerAct) : Prop where
  success : ∀ i, a.kind = .answer i (.ok ()) → p.calls[i]? = some .inFlight → p.state.state ≠ .open
  reading : ∀ gap openedAt, a.kind = .arrive gap → p.state.state = .open →
    p.state.openedAt = some openedAt →
    p.clock + a.wait - openedAt < cfg.recoveryTimeout →
    p.clock + a.wait + gap - openedAt ≤ cfg.recoveryTimeout

/-! ## The invariant -/

/-- While the circuit is open it has been so since its last opening; when it is not,
each opening is a timeout ago. -/
structure BreakerInv (cfg : CircuitBreakerConfig) (p : BreakerProvider) : Prop where
  shielded : Shielded cfg p
  isOpen : p.state.state = .open → ∃ openedAt, p.state.openedAt = some openedAt
    ∧ openedAt ≤ p.clock ∧ ∀ t, .opened t ∈ p.log → t ≤ openedAt
  notOpen : p.state.state ≠ .open → ∀ t, .opened t ∈ p.log → t + cfg.recoveryTimeout ≤ p.clock
  past : ∀ i t, .admitted i t ∈ p.log → t ≤ p.clock

theorem BreakerInv.opened_le (h : BreakerInv cfg p) {t : Nat} (ht : .opened t ∈ p.log) :
    t ≤ p.clock := by
  by_cases hstate : p.state.state = .open
  · obtain ⟨openedAt, -, hpast, hlast⟩ := h.isOpen hstate
    have hle := hlast t ht
    omega
  · have hle := h.notOpen hstate t ht
    omega

/-- A call that is let through when every opening is a timeout ago. -/
theorem Shielded.admitted (h : Shielded cfg p) {call : Nat}
    (hdue : ∀ t, .opened t ∈ p.log → t + cfg.recoveryTimeout ≤ now) (p' : BreakerProvider)
    (hlog : p'.log = .admitted call now :: p.log) : Shielded cfg p' where
  shut := by
    rw [hlog]
    intro t ht i t' ht' hlt
    have hopened : .opened t ∈ p.log := by simpa using ht
    rcases mem_cons.mp ht' with hnew | hold
    · cases hnew
      exact hdue t hopened
    · exact h.shut t hopened i t' hold hlt
  calm := by
    rw [hlog]
    intro i t hmem
    exact h.calm i t (by simpa using hmem)

theorem BreakerInv.letThrough (h : BreakerInv cfg p) {s' : BreakerState} (gap : Nat)
    (calls : List CallPhase) (hnow : p.clock ≤ now) (hstate : s'.state ≠ .open)
    (hdue : ∀ t, .opened t ∈ p.log → t + cfg.recoveryTimeout ≤ now) :
    BreakerInv cfg ⟨s', now + gap, calls, .admitted p.calls.length now :: p.log⟩ where
  shielded := h.shielded.admitted hdue _ rfl
  isOpen := fun hopen => absurd hopen hstate
  notOpen := by
    intro _ t ht
    have hle := hdue t (by simpa using ht)
    show t + cfg.recoveryTimeout ≤ now + gap
    omega
  past := by
    intro i t ht
    show t ≤ now + gap
    rcases mem_cons.mp ht with hnew | hold
    · cases hnew
      omega
    · have hle := h.past i t hold
      omega

theorem BreakerInv.arrive (h : BreakerInv cfg p) (modelName : String) (gap : Nat)
    (hnow : p.clock ≤ now)
    (hreading : ∀ openedAt, p.state.state = .open → p.state.openedAt = some openedAt →
      now - openedAt < cfg.recoveryTimeout → now + gap - openedAt ≤ cfg.recoveryTimeout) :
    BreakerInv cfg (p.arrive cfg modelName now gap) := by
  have hchecked := checkAllowed_checked cfg modelName now (now + gap) p.state
  unfold BreakerProvider.arrive
  generalize checkAllowed cfg modelName now (now + gap) p.state = r at hchecked
  obtain ⟨s', result⟩ := r
  cases hchecked with
  | pass hstate =>
    apply h.letThrough gap _ hnow hstate
    intro t ht
    have hle := h.notOpen hstate t ht
    omega
  | probe openedAt hstate hopened =>
    obtain ⟨last, hlast, hbefore, hle⟩ := h.isOpen hstate
    cases hopened.symm.trans hlast
    apply h.letThrough gap _ hnow (by simp)
    -- the circuit was not opened after `openedAt`, and that is a timeout ago
    intro t ht
    have hearlier := hle t ht
    omega
  | refuse _ _ hstate =>
    refine ⟨⟨h.shielded.shut, h.shielded.calm⟩, ?_, fun hne => absurd hstate hne, ?_⟩
    · intro _
      obtain ⟨last, hlast, hbefore, hle⟩ := h.isOpen hstate
      exact ⟨last, hlast, by show last ≤ now + gap; omega, hle⟩
    · intro i t ht
      have hle := h.past i t ht
      show t ≤ now + gap
      omega
  | panic openedAt hstate hopened hearly =>
    have hnot := hreading openedAt hstate hopened hearly
    omega
  | recover hstate hopened =>
    obtain ⟨last, hlast, -⟩ := h.isOpen hstate
    rw [hopened] at hlast
    cases hlast

/-- The circuit opens at `now`, after all that was let through. -/
theorem Shielded.opened (h : Shielded cfg p) (hnow : ∀ i t, .admitted i t ∈ p.log → t ≤ now)
    (p' : BreakerProvider) (hlog : p'.log = .opened now :: p.log) : Shielded cfg p' where
  shut := by
    rw [hlog]
    intro t ht i t' ht' hlt
    have hadmitted : .admitted i t' ∈ p.log := by simpa using ht'
    rcases mem_cons.mp ht with hnew | hold
    · cases hnew
      have hle := hnow i t' hadmitted
      omega
    · exact h.shut t hold i t' hadmitted hlt
  calm := by
    rw [hlog]
    intro i t hmem
    exact h.calm i t (by simpa using hmem)

section

variable (h : BreakerInv cfg p)

include h

section

variable (hnow : p.clock ≤ now)

include hnow

/-- Time passes, and the circuit stays as it is. -/
theorem BreakerInv.later (p' : BreakerProvider)
    (hclock : p'.clock = now) (hlog : p'.log = p.log) (hstate : p'.state.state = p.state.state)
    (hopened : p'.state.openedAt = p.state.openedAt) : BreakerInv cfg p' where
  shielded := ⟨by rw [hlog]; exact h.shielded.shut, by rw [hlog]; exact h.shielded.calm⟩
  isOpen := by
    intro hopen
    rw [hstate] at hopen
    obtain ⟨last, hlast, hbefore, hle⟩ := h.isOpen hopen
    exact ⟨last, by rw [hopened, hlast], by omega, by rw [hlog]; exact hle⟩
  notOpen := by
    rw [hstate, hlog, hclock]
    intro hne t ht
    have hle := h.notOpen hne t ht
    omega
  past := by
    rw [hlog, hclock]
    intro i t ht
    have hle := h.past i t ht
    omega

theorem BreakerInv.succeeded (hstate : p.state.state ≠ .open) (calls : List CallPhase) :
    BreakerInv cfg ⟨recordSuccess cfg p.state, now, calls,
      openedEvents now p.state (recordSuccess cfg p.state) ++ p.log⟩ := by
  have hsame := recordSuccess_not_open cfg hstate
  have hnone : openedEvents now p.state (recordSuccess cfg p.state) = [] := by
    simp [openedEvents, hsame]
  rw [hnone]
  refine ⟨⟨h.shielded.shut, h.shielded.calm⟩, fun hopen => absurd hopen hsame, ?_, ?_⟩
  · intro _ t ht
    have hle := h.notOpen hstate t ht
    show t + cfg.recoveryTimeout ≤ now
    omega
  · intro i t ht
    have hle := h.past i t ht
    show t ≤ now
    omega

theorem BreakerInv.failed (e : LlmError) (calls : List CallPhase) :
    BreakerInv cfg ⟨recordFailure cfg now e p.state, now, calls,
      openedEvents now p.state (recordFailure cfg now e p.state) ++ p.log⟩ := by
  rcases recordFailure_cases cfg now e p.state with ⟨hstate, hopened⟩ | ⟨hne, hopen, hopened⟩
  · have hnone : openedEvents now p.state (recordFailure cfg now e p.state) = [] := by
      simp [openedEvents, hstate]
    rw [hnone]
    exact h.later hnow _ rfl rfl hstate hopened
  · have hevent : openedEvents now p.state (recordFailure cfg now e p.state) = [.opened now] := by
      simp [openedEvents, hne, hopen]
    rw [hevent]
    have hbefore : ∀ i t, .admitted i t ∈ p.log → t ≤ now := by
      intro i t ht
      have hle := h.past i t ht
      omega
    refine ⟨h.shielded.opened hbefore _ rfl, ?_, fun hnot => absurd hopen hnot, ?_⟩
    · intro _
      refine ⟨now, hopened, le_rfl, ?_⟩
      intro t ht
      rcases mem_cons.mp ht with hnew | hold
      · cases hnew
        exact le_rfl
      · have hle := h.opened_le hold
        omega
    · intro i t ht
      exact hbefore i t (by simpa using ht)

end

theorem BreakerInv.step {a : BreakerAct} (modelName : String)
    (hguard : NoOverlap cfg p a) : BreakerInv cfg (p.step cfg modelName a) := by
  have hnow : p.clock ≤ p.clock + a.wait := by omega
  unfold BreakerProvider.step
  cases hkind : a.kind with
  | arrive gap =>
    exact h.arrive modelName gap hnow fun openedAt => hguard.reading gap openedAt hkind
  | answer i result =>
    show BreakerInv cfg (p.answer cfg (p.clock + a.wait) i result)
    unfold BreakerProvider.answer
    split
    next hcall =>
      cases result with
      | ok => exact h.succeeded hnow (hguard.success i hkind hcall) _
      | error e => exact h.failed hnow e _
    next => exact h.later hnow _ rfl rfl rfl rfl

end

variable (cfg)

theorem BreakerInv.fresh : BreakerInv cfg {} where
  shielded := ⟨nofun, nofun⟩
  isOpen := nofun
  notOpen := nofun
  past := nofun

/-- **Without overlap the breaker shields the provider**: in every state that calls
side by side reach, nothing was let through within the timeout of an opening, and
no refusal has panicked. -/
theorem open_circuit_shields (modelName : String) (acts pre : List BreakerAct)
    (hguard : Guarded (BreakerProvider.step cfg modelName) (NoOverlap cfg) {} acts)
    (hpre : pre <+: acts) : Shielded cfg (run (BreakerProvider.step cfg modelName) {} pre) := by
  have hstep : ∀ p a, BreakerInv cfg p → NoOverlap cfg p a →
      BreakerInv cfg (BreakerProvider.step cfg modelName p a) :=
    fun _ _ h hg => h.step modelName hg
  exact (invariant_reached hstep (.fresh cfg) hguard hpre).shielded

/-- One failure opens the circuit for ten units of time. -/
def quickConfig : CircuitBreakerConfig := ⟨1, 10, 1⟩

def probedCircuit : List BreakerAct :=
  [⟨0, .arrive 0⟩, ⟨1, .answer 0 (.error (.io "reset"))⟩, ⟨4, .arrive 1⟩, ⟨6, .arrive 0⟩,
    ⟨1, .answer 2 (.ok ())⟩]

def checkNoOverlap (p : BreakerProvider) (a : BreakerAct) : Bool :=
  match a.kind with
  | .arrive gap =>
      match p.state.openedAt with
      | some openedAt => p.clock + a.wait + gap - openedAt ≤ cfg.recoveryTimeout
          || cfg.recoveryTimeout ≤ p.clock + a.wait - openedAt
      | none => true
  | .answer _ (.ok ()) => p.state.state != .open
  | .answer _ (.error _) => true

variable {cfg}

theorem NoOverlap.of_check {a : BreakerAct} (h : checkNoOverlap cfg p a = true) :
    NoOverlap cfg p a where
  success := by
    intro i hkind _
    simpa [checkNoOverlap, hkind] using h
  reading := by
    intro gap openedAt hkind _ hopened hearly
    have hcheck : p.clock + a.wait + gap - openedAt ≤ cfg.recoveryTimeout
        ∨ cfg.recoveryTimeout ≤ p.clock + a.wait - openedAt := by
      simpa [checkNoOverlap, hkind, hopened] using h
    omega

theorem probed_circuit_shields :
    Shielded quickConfig (run (BreakerProvider.step quickConfig "gpt-4o") {} probedCircuit)
      ∧ (run (BreakerProvider.step quickConfig "gpt-4o") {} probedCircuit).log
        = [.admitted 2 12, .opened 1, .admitted 0 0] := by
  refine ⟨open_circuit_shields quickConfig "gpt-4o" probedCircuit probedCircuit ?_
    (prefix_refl _), by decide⟩
  exact guarded_of_checks (checkNoOverlap quickConfig) (fun _ _ h => .of_check h)
    (by decide)

/-- Two calls are in flight; the first fails and opens the circuit, the second then
succeeds and closes it, and a third is let through at once. -/
def lateSuccess : List BreakerAct :=
  [⟨0, .arrive 0⟩, ⟨0, .arrive 0⟩, ⟨1, .answer 0 (.error (.io "reset"))⟩,
    ⟨1, .answer 1 (.ok ())⟩, ⟨1, .arrive 0⟩]

def slowRefusal : List BreakerAct :=
  [⟨0, .arrive 0⟩, ⟨1, .answer 0 (.error (.io "reset"))⟩, ⟨9, .arrive 2⟩]

theorem late_success_lets_call_through :
    ¬ Shielded quickConfig (run (BreakerProvider.step quickConfig "gpt-4o") {} lateSuccess)
      ∧ ¬ Shielded quickConfig
        (run (BreakerProvider.step quickConfig "gpt-4o") {} slowRefusal) := by
  constructor
  · intro h
    have hshut := h.shut 1 (by decide) 2 3 (by decide) (by decide)
    exact absurd hshut (by decide)
  · intro h
    exact h.calm 1 12 (by decide)

end TitanClaw.Llm
