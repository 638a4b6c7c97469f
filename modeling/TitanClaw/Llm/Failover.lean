import Mathlib.Data.List.FinRange
import Mathlib.Data.List.MinMax
import TitanClaw.Llm.CircuitBreaker

/-! # Failover between model providers

The failover provider tries its providers one after the other. One that failed
often is in cooldown and is skipped, unless all of them are. The counters are
atomics shared by all calls: while a call waits for a provider, others may change
them. -/

namespace TitanClaw.Llm

open List

/-- The errors after which the next provider is tried. -/
def isRetryable : LlmError → Bool
  | .requestFailed _ _ | .rateLimited _ _ | .invalidResponse _ _ | .sessionRenewalFailed _ _
  | .modelNotAvailable _ _ | .http _ | .io _ => true
  | .authFailed _ | .sessionExpired _ | .contextLengthExceeded _ _ | .json _ => false

structure CooldownConfig where
  /-- In nanoseconds. -/
  cooldownDuration : Nat := 300000000000
  failureThreshold : UInt32 := 3

/-- The duration as the sixty-four bits it is compared in. -/
def CooldownConfig.cooldownNanos (cfg : CooldownConfig) : UInt64 :=
  UInt64.ofNat cfg.cooldownDuration

structure ProviderCooldown where
  /-- Consecutive retryable failures. -/
  failureCount : UInt32 := 0
  /-- When the cooldown was activated; zero for a provider that is not in cooldown. -/
  cooldownActivatedNanos : UInt64 := 0

namespace ProviderCooldown

variable (c : ProviderCooldown)

def isInCooldown (nowNanos cooldownNanos : UInt64) : Bool :=
  c.cooldownActivatedNanos != 0
    && decide (nowNanos.toNat - c.cooldownActivatedNanos.toNat < cooldownNanos.toNat)

/-- Count a failure, and tell whether the threshold is reached. Both additions wrap. -/
def recordFailure (threshold : UInt32) : ProviderCooldown × Bool :=
  ({ c with failureCount := c.failureCount + 1 }, decide (threshold ≤ c.failureCount + 1))

def activateCooldown (nowNanos : UInt64) : ProviderCooldown :=
  { c with cooldownActivatedNanos := if nowNanos = 0 then 1 else nowNanos }

def reset (_ : ProviderCooldown) : ProviderCooldown := {}

end ProviderCooldown

/-- A failover provider over `n` providers. -/
structure FailoverProvider (n : Nat) where
  cooldownConfig : CooldownConfig
  /-- The provider that last served a request. -/
  lastUsed : Fin n
  cooldowns : Fin n → ProviderCooldown

def requiresProvider : LlmError :=
  .requestFailed "failover" "FailoverProvider requires at least one provider"

/-- The error for a call that ends without a result or an error of a provider. -/
def invariantViolated : LlmError :=
  .requestFailed "failover"
    ("Invariant violated in FailoverProvider: providers were exhausted but no last_error was "
      ++ "recorded (this branch should be unreachable; possible causes: no provider attempts were "
      ++ "made or \x60available\x60 was unexpectedly empty).")

/-- What a call meets outside: the clock, and what each provider answers if it is
asked. -/
structure FailoverCall (n : Nat) (T : Type) where
  nowNanos : UInt64
  result : Fin n → Except LlmError T
  /-- The clock after the provider has failed. -/
  failedAt : Fin n → UInt64
  /-- What other calls do to the counters while the provider is asked. -/
  meanwhile : Fin n → FailoverProvider n → FailoverProvider n

inductive LoopEnd (T : Type) where
  | returned (result : Except LlmError T)
  | exhausted (lastError : Option LlmError)

def LoopEnd.result {T : Type} : LoopEnd T → Except LlmError T
  | .returned result => result
  | .exhausted lastError => .error (lastError.getD invariantViolated)

/-- The end of the loop, with the counters then and the providers that were asked. -/
structure Attempts (n : Nat) (T : Type) where
  ended : LoopEnd T
  after : FailoverProvider n
  attempted : List (Fin n)

namespace FailoverProvider

variable {n : Nat} {T : Type}

/-- A new provider; there is none over no providers. -/
def withCooldown (n : Nat) (cooldownConfig : CooldownConfig) :
    Except LlmError (FailoverProvider n) :=
  if h : 0 < n then .ok { cooldownConfig, lastUsed := ⟨0, h⟩, cooldowns := fun _ => {} }
  else .error requiresProvider

def isInCooldown (p : FailoverProvider n) (nowNanos : UInt64) (i : Fin n) : Bool :=
  (p.cooldowns i).isInCooldown nowNanos p.cooldownConfig.cooldownNanos

variable (p : FailoverProvider n) (i : Fin n)

def activatedAt : Nat := (p.cooldowns i).cooldownActivatedNanos.toNat

variable (nowNanos : UInt64)

def available : List (Fin n) := (List.finRange n).filter fun i => !p.isInCooldown nowNanos i

/-- The providers to try, in this order. -/
def select : Except LlmError (List (Fin n)) :=
  if (p.available nowNanos).isEmpty then
    match (List.finRange n).argmin p.activatedAt with
    | some oldest => .ok [oldest]
    | none => .error requiresProvider
  else .ok (p.available nowNanos)

def setCooldown (c : ProviderCooldown) : FailoverProvider n :=
  { p with cooldowns := Function.update p.cooldowns i c }

def succeeded : FailoverProvider n :=
  { p with lastUsed := i }.setCooldown i (p.cooldowns i).reset

def failed : FailoverProvider n :=
  let (c, reached) := (p.cooldowns i).recordFailure p.cooldownConfig.failureThreshold
  p.setCooldown i (if reached then c.activateCooldown nowNanos else c)

/-- The loop over the selected providers. -/
def attemptAll (call : FailoverCall n T) :
    List (Fin n) → Option LlmError → FailoverProvider n → Attempts n T
  | [], lastError, p => ⟨.exhausted lastError, p, []⟩
  | i :: rest, _, p =>
      let p := call.meanwhile i p
      match call.result i with
      | .ok response => ⟨.returned (.ok response), p.succeeded i, [i]⟩
      | .error err =>
          if !isRetryable err then ⟨.returned (.error err), p, [i]⟩
          else
            let later := attemptAll call rest (some err) (p.failed i (call.failedAt i))
            { later with attempted := i :: later.attempted }

def tryProviders (call : FailoverCall n T) : Attempts n T :=
  match p.select call.nowNanos with
  | .ok selected => attemptAll call selected none p
  | .error err => ⟨.returned (.error err), p, []⟩

end FailoverProvider

/-- Does the provider answer with an error after which the next one is tried? -/
def FailoverCall.retryable {n : Nat} {T : Type} (call : FailoverCall n T) (i : Fin n) : Bool :=
  match call.result i with
  | .ok _ => false
  | .error err => isRetryable err

/-- The selected providers were asked in order, up to the first that did not
answer with a retryable error; the result is that of the last one asked. -/
structure StopsAtFirst {n : Nat} {T : Type} (call : FailoverCall n T) (selected : List (Fin n))
    (attempts : Attempts n T) : Prop where
  inOrder : attempts.attempted <+: selected
  earlier : ∀ i ∈ attempts.attempted.dropLast, call.retryable i = true
  last : ∃ i, attempts.attempted.getLast? = some i ∧ attempts.ended.result = call.result i
    ∧ (call.retryable i = true → attempts.attempted = selected)
  hasResult : attempts.ended ≠ .exhausted none

namespace FailoverProvider

variable {n : Nat} {T : Type} {call : FailoverCall n T} {p : FailoverProvider n}

theorem attemptAll_final {i : Fin n} (h : call.retryable i = false) (rest : List (Fin n))
    (lastError : Option LlmError) (p : FailoverProvider n) :
    ∃ after, attemptAll call (i :: rest) lastError p = ⟨.returned (call.result i), after, [i]⟩ := by
  simp only [FailoverCall.retryable] at h
  cases hres : call.result i with
  | ok => exact ⟨_, by rw [attemptAll, hres]⟩
  | error =>
    rw [hres] at h
    exact ⟨_, by simp only [attemptAll, hres, h]; rfl⟩

theorem attemptAll_retryable {i : Fin n} (h : call.retryable i = true) (rest : List (Fin n))
    (lastError : Option LlmError) (p : FailoverProvider n) :
    ∃ err after, call.result i = .error err
      ∧ attemptAll call (i :: rest) lastError p
        = { attemptAll call rest (some err) after with
            attempted := i :: (attemptAll call rest (some err) after).attempted } := by
  simp only [FailoverCall.retryable] at h
  cases hres : call.result i with
  | ok => simp [hres] at h
  | error err =>
    rw [hres] at h
    exact ⟨err, _, rfl, by simp only [attemptAll, hres, h]; rfl⟩

theorem attemptAll_stops (i : Fin n) (rest : List (Fin n)) (lastError : Option LlmError)
    (p : FailoverProvider n) :
    StopsAtFirst call (i :: rest) (attemptAll call (i :: rest) lastError p) := by
  induction rest generalizing i lastError p with
  | nil =>
    cases hretry : call.retryable i with
    | false =>
      obtain ⟨after, heq⟩ := attemptAll_final hretry [] lastError p
      rw [heq]
      exact ⟨prefix_rfl, by simp, ⟨i, rfl, rfl, fun _ => rfl⟩, nofun⟩
    | true =>
      obtain ⟨err, after, hres, heq⟩ := attemptAll_retryable hretry [] lastError p
      rw [heq]
      exact ⟨prefix_rfl, by simp [attemptAll], ⟨i, rfl, hres.symm, fun _ => rfl⟩, nofun⟩
  | cons next rest ih =>
    cases hretry : call.retryable i with
    | false =>
      obtain ⟨after, heq⟩ := attemptAll_final hretry (next :: rest) lastError p
      rw [heq]
      refine ⟨⟨next :: rest, rfl⟩, by simp, ⟨i, rfl, rfl, fun h => ?_⟩, nofun⟩
      rw [hretry] at h
      cases h
    | true =>
      obtain ⟨err, after, -, heq⟩ := attemptAll_retryable hretry (next :: rest) lastError p
      have hlater := ih next (some err) after
      rw [heq]
      generalize attemptAll call (next :: rest) (some err) after = later at hlater
      obtain ⟨last, hlast, hresult, hall⟩ := hlater.last
      have hne : later.attempted ≠ [] := by
        intro hnil
        simp [hnil] at hlast
      refine ⟨(prefix_cons_inj i).mpr hlater.inOrder, ?_,
        ⟨last, ?_, hresult, fun h => congrArg (i :: ·) (hall h)⟩, hlater.hasResult⟩
      · show ∀ j ∈ (i :: later.attempted).dropLast, _
        rw [dropLast_cons_of_ne_nil hne]
        exact forall_mem_cons.mpr ⟨hretry, hlater.earlier⟩
      · show (i :: later.attempted).getLast? = _
        rw [getLast?_cons, hlast]
        rfl

theorem mem_available {nowNanos : UInt64} {i : Fin n} :
    i ∈ p.available nowNanos ↔ p.isInCooldown nowNanos i = false := by
  simp [available]

variable (p : FailoverProvider n) (nowNanos : UInt64)

/-- The providers out of cooldown, or else the one whose cooldown started first. -/
structure Selects (p : FailoverProvider n) (nowNanos : UInt64) (selected : List (Fin n)) :
    Prop where
  nonempty : selected ≠ []
  increasing : selected.Pairwise (· < ·)
  skips : (∃ i, p.isInCooldown nowNanos i = false) →
    ∀ i, i ∈ selected ↔ p.isInCooldown nowNanos i = false
  oldest : (∀ i, p.isInCooldown nowNanos i = true) →
    ∃ i, selected = [i] ∧ ∀ j, p.activatedAt i ≤ p.activatedAt j

theorem exists_select :
    ∃ selected, p.select nowNanos = .ok selected ∧ p.Selects nowNanos selected := by
  rw [select]
  by_cases hnone : p.available nowNanos = []
  · have hall : ∀ i, p.isInCooldown nowNanos i = true := by
      intro i
      by_contra hi
      have hmem := mem_available.mpr (Bool.eq_false_iff.mpr hi)
      rw [hnone] at hmem
      cases hmem
    rw [if_pos (isEmpty_iff.mpr hnone)]
    cases harg : (List.finRange n).argmin p.activatedAt with
    | none =>
      rw [argmin_eq_none] at harg
      have hmem := mem_finRange p.lastUsed
      rw [harg] at hmem
      cases hmem
    | some oldest =>
      refine ⟨[oldest], rfl, cons_ne_nil _ _, pairwise_singleton _ _, ?_, ?_⟩
      · rintro ⟨i, hi⟩
        rw [hall i] at hi
        cases hi
      · exact fun _ => ⟨oldest, rfl, fun j => le_of_mem_argmin (mem_finRange j) harg⟩
  · rw [if_neg (mt List.isEmpty_iff.mp hnone)]
    refine ⟨_, rfl, hnone, (pairwise_lt_finRange n).filter _, fun _ i => mem_available, ?_⟩
    intro hall
    obtain ⟨i, hi⟩ := exists_mem_of_ne_nil _ hnone
    rw [mem_available, hall i] at hi
    cases hi

/-- One call asks the selected providers up to the first final answer, each at most
once, and returns the answer of the last one asked. -/
theorem tryProviders_stops (call : FailoverCall n T) :
    ∃ selected, p.Selects call.nowNanos selected
      ∧ StopsAtFirst call selected (p.tryProviders call)
      ∧ (p.tryProviders call).attempted.Pairwise (· < ·) := by
  obtain ⟨selected, hselect, hspec⟩ := exists_select p call.nowNanos
  obtain ⟨i, rest, rfl⟩ := exists_cons_of_ne_nil hspec.nonempty
  have hstops : StopsAtFirst call (i :: rest) (p.tryProviders call) := by
    rw [tryProviders, hselect]
    exact attemptAll_stops i rest none p
  exact ⟨i :: rest, hspec, hstops, hspec.increasing.sublist hstops.inOrder.sublist⟩

end FailoverProvider

end TitanClaw.Llm
