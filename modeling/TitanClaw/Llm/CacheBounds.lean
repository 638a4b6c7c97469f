import TitanClaw.Llm.ResponseCache

/-! # The bounds of the response cache

Between the look-up of a call and its storing of the answer the lock is free, and other calls go
on. Each of the two is one step. -/

namespace TitanClaw.Llm

open AList Table CachedProvider

/-- The calls that have asked the inner provider, with their times. -/
structure ConcurrentCalls where
  provider : CachedProvider
  pending : List (CompletionRequest × Nat) := []

inductive CacheAct where
  | lookUp (request : CompletionRequest) (now : Nat)
  | finish (place : Nat) (order : Table.Iteration String CacheEntry)
      (result : Except LlmError CompletionResponse)

namespace ConcurrentCalls

variable (K : KeyCodec) (c : ConcurrentCalls)

def key (request : CompletionRequest) : String := cacheKey K c.provider.modelName request

def step : CacheAct → ConcurrentCalls
  | .lookUp request now =>
      match c.provider.cache.lookup (c.key K request) with
      | some entry =>
          if c.provider.isFresh now entry then
            { c with provider := (c.provider.hit (c.key K request) request now entry).1 }
          else
            { provider := { c.provider with cache := c.provider.cache.erase (c.key K request) }
              pending := c.pending ++ [(request, now)] }
      | none => { c with pending := c.pending ++ [(request, now)] }
  | .finish place order result =>
      match c.pending[place]? with
      | some (request, now) =>
          { provider := (c.provider.askInner order (c.key K request) request now result).1
            pending := c.pending.eraseIdx place }
      | none => c

def Within : Prop := c.provider.cache.entries.length ≤ max 1 c.provider.config.maxEntries

/-- What a step does to the cache. -/
structure StepBounded (act : CacheAct) : Prop where
  size : (c.step K act).Within
  fresh : ∀ answer, (c.step K act).provider.served = answer :: c.provider.served →
    ∃ request now entry, act = .lookUp request now
      ∧ c.provider.cache.lookup (c.key K request) = some entry
      ∧ now - entry.createdAt < c.provider.config.ttl ∧ answer.response = entry.response
  errors : ∀ place order e, act = .finish place order (.error e) →
    (c.step K act).provider.cache = c.provider.cache
  evicts : ∀ place order response request now, act = .finish place order (.ok response) →
    c.pending[place]? = some (request, now) → ∀ k entry, k ≠ c.key K request →
      c.provider.cache.lookup k = some entry → c.provider.isFresh now entry = true →
      (c.step K act).provider.cache.lookup k = none →
        c.provider.config.maxEntries
            ≤ (c.provider.cache.retain fun _ e => c.provider.isFresh now e).entries.length
          ∧ ∀ k' entry', k' ≠ c.key K request →
            (c.step K act).provider.cache.lookup k' = some entry' →
              entry.lastAccessed ≤ entry'.lastAccessed

variable {K c}

theorem lookUp_bounded (h : c.Within) (request : CompletionRequest) (now : Nat) :
    c.StepBounded K (.lookUp request now) := by
  cases hentry : c.provider.cache.lookup (c.key K request) with
  | none =>
    have hstep : c.step K (.lookUp request now)
        = { c with pending := c.pending ++ [(request, now)] } := by rw [step, hentry]
    exact ⟨hstep ▸ h, fun answer hserved => absurd hserved.symm (by simp [hstep]), nofun, nofun⟩
  | some entry =>
    by_cases hfresh : c.provider.isFresh now entry = true
    · have hstep : c.step K (.lookUp request now)
          = { c with provider := (c.provider.hit (c.key K request) request now entry).1 } := by
        simp only [step, hentry, if_pos hfresh]
      refine ⟨?_, fun answer hserved => ?_, nofun, nofun⟩
      · have hone := length_erase_add_one hentry
        rw [hstep]
        simp only [Within, hit, entries_insert, List.length_cons] at h hone ⊢
        exact hone.le.trans h
      · rw [hstep] at hserved
        cases hserved
        exact ⟨request, now, entry, rfl, hentry, of_decide_eq_true hfresh, rfl⟩
    · have hstep : c.step K (.lookUp request now)
          = ⟨{ c.provider with cache := c.provider.cache.erase (c.key K request) },
            c.pending ++ [(request, now)]⟩ := by
        simp only [step, hentry, if_neg hfresh]
      refine ⟨?_, fun answer hserved => absurd hserved.symm (by simp [hstep]), nofun, nofun⟩
      rw [hstep]
      exact (length_erase_le _ _).trans h

theorem finish_bounded (h : c.Within) (place : Nat) (order : Table.Iteration String CacheEntry)
    (result : Except LlmError CompletionResponse) :
    c.StepBounded K (.finish place order result) := by
  cases hcall : c.pending[place]? with
  | none =>
    have hstep : c.step K (.finish place order result) = c := by rw [step, hcall]
    refine ⟨hstep.symm ▸ h, fun answer hserved => absurd hserved.symm (by simp [hstep]),
      fun _ _ _ _ => by rw [hstep], fun _ _ _ request now hact hsome => ?_⟩
    cases hact
    rw [hcall] at hsome
    cases hsome
  | some call =>
    obtain ⟨request, now⟩ := call
    cases result with
    | error e =>
      have hstep : c.step K (.finish place order (.error e))
          = { c with pending := c.pending.eraseIdx place } := by simp only [step, hcall]; rfl
      exact ⟨hstep ▸ h, fun answer hserved => absurd hserved.symm (by simp [hstep]),
        fun _ _ _ _ => by rw [hstep], fun _ _ _ _ _ hact => by cases hact⟩
    | ok response =>
      have hstep : (c.step K (.finish place order (.ok response))).provider
          = (c.provider.askInner order (c.key K request) request now (.ok response)).1 := by
        simp only [step, hcall]
      refine ⟨?_, fun answer hserved => absurd hserved.symm ?_,
        (fun _ _ _ hact => by cases hact), ?_⟩
      · rw [Within, hstep]
        refine (length_insert_le _ _ _).trans ?_
        refine (Nat.add_le_add_right (length_eraseLeast (Nat.le_refl _)) 1).trans ?_
        show c.provider.config.maxEntries - 1 + 1 ≤ max 1 c.provider.config.maxEntries
        omega
      · simp [hstep, askInner]
      · intro _ _ _ request' now' hact hcall' k entry hk hentry hfresh hgone
        cases hact
        rw [hcall] at hcall'
        cases hcall'
        rw [hstep] at hgone ⊢
        have hkept : (c.provider.cache.retain fun _ e => c.provider.isFresh now e).lookup k
            = some entry := by
          rw [lookup_retain, hentry, Option.filter_some, if_pos hfresh]
        obtain ⟨hfull, hleast⟩ := eraseLeast_least hkept ((lookup_insert_ne hk).symm.trans hgone)
        exact ⟨hfull, fun k' entry' hk' hentry' =>
          hleast k' entry' ((lookup_insert_ne hk').symm.trans hentry')⟩

theorem stepBounded (h : c.Within) : ∀ act, c.StepBounded K act
  | .lookUp request now => lookUp_bounded h request now
  | .finish place order result => finish_bounded h place order result

/-- **Whatever the calls, the cache keeps to its bounds**. -/
theorem run_stepBounded (K : KeyCodec) (config : ResponseCacheConfig)
    (modelName activeModel : String) (acts : List CacheAct) (act : CacheAct) :
    (Run.run (step K) { provider := { config, modelName, activeModel } } acts).StepBounded K
      act := by
  have hstart : Within { provider := { config, modelName, activeModel } } := Nat.zero_le _
  have hstep : ∀ c act, Within c → Within (c.step K act) := fun _ act h => (stepBounded h act).size
  exact stepBounded (Run.invariant_always hstep hstart acts) act

end ConcurrentCalls

end TitanClaw.Llm
