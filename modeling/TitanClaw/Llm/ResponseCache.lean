import TitanClaw.Lib.Table
import TitanClaw.Llm.CircuitBreaker
import TitanClaw.Llm.Message

/-! # The response cache

The cache wraps a provider and keeps its completions for some time, under a hash
of the request and of the provider's model name. The name is the configured one:
it does not follow a change of the active model. Times are nanoseconds of a
monotone clock. -/

namespace TitanClaw.Llm

open List AList Table Run

structure CompletionRequest where
  messages : List ChatMessage
  maxTokens : Option UInt32 := none
  /-- The bits of the floating point number. -/
  temperature : Option UInt32 := none
  stopSequences : Option (List String) := none
  /-- Passed through to the provider. -/
  metadata : String → Option String := fun _ => none

inductive FinishReason where
  | stop
  | length
  | toolUse
  | contentFilter
  | unknown
  deriving DecidableEq

structure CompletionResponse where
  content : String
  inputTokens : UInt32 := 0
  outputTokens : UInt32 := 0
  finishReason : FinishReason := .stop
  responseId : Option String := none

structure ResponseCacheConfig where
  /-- In nanoseconds. -/
  ttl : Nat := 3600000000000
  maxEntries : Nat := 1000

structure CacheEntry where
  response : CompletionResponse
  createdAt : Nat
  lastAccessed : Nat
  hitCount : UInt64 := 0

/-- The hash in hexadecimal digits, and the text of a list of messages, if it has
one. -/
structure KeyCodec where
  sha256Hex : List UInt8 → String
  messagesJson : List ChatMessage → Option String

def textBytes (s : String) : List UInt8 := s.toUTF8.data.toList

def leBytes (n : UInt32) : List UInt8 :=
  [n.toUInt8, (n >>> 8).toUInt8, (n >>> 16).toUInt8, (n >>> 24).toUInt8]

/-- What is hashed. Neither the metadata nor the ends of the optional parts are in it. -/
def keyBytes (K : KeyCodec) (model : String) (request : CompletionRequest) : List UInt8 :=
  textBytes model ++ textBytes "|"
    ++ ((K.messagesJson request.messages).map textBytes).getD [] ++ textBytes "|"
    ++ (request.maxTokens.map leBytes).getD [] ++ textBytes "|"
    ++ (request.temperature.map leBytes).getD [] ++ textBytes "|"
    ++ (request.stopSequences.getD []).flatMap fun s => textBytes s ++ [0]

def cacheKey (K : KeyCodec) (model : String) (request : CompletionRequest) : String :=
  K.sha256Hex (keyBytes K model request)

/-! ## The cached provider -/

structure Answer where
  request : CompletionRequest
  model : String
  response : CompletionResponse

/-- An answer of the inner provider, with the time of the call. -/
structure Production extends Answer where
  time : Nat

/-- The cache with its inner provider, whose model name is fixed and whose active
model can be set. As in the machine there is a record that no step reads: what the
inner provider produced, and what was served from the cache. -/
structure CachedProvider where
  config : ResponseCacheConfig
  modelName : String
  activeModel : String
  cache : Table String CacheEntry := ∅
  produced : List Production := []
  served : List Answer := []

namespace CachedProvider

variable (s : CachedProvider)

def setModel (model : String) : CachedProvider :=
  { s with activeModel := model }

def isFresh (now : Nat) (entry : CacheEntry) : Bool := decide (now - entry.createdAt < s.config.ttl)

variable (order : Iteration String CacheEntry) (key : String)

def store (now : Nat) (response : CompletionResponse) : Table String CacheEntry :=
  let kept := s.cache.retain fun _ entry => s.isFresh now entry
  (kept.eraseLeast order (·.lastAccessed) s.config.maxEntries kept.entries.length).insert key
    { response, createdAt := now, lastAccessed := now }

variable (request : CompletionRequest)

def askInner (now : Nat) (result : Except LlmError CompletionResponse) :
    CachedProvider × Except LlmError CompletionResponse :=
  match result with
  | .error err => (s, .error err)
  | .ok response =>
      ({ s with
          cache := s.store order key now response
          produced := ⟨⟨request, s.activeModel, response⟩, now⟩ :: s.produced },
        .ok response)

/-- Serve an entry of the cache. -/
def hit (now : Nat) (entry : CacheEntry) : CachedProvider × Except LlmError CompletionResponse :=
  ({ s with
      cache := s.cache.insert key { entry with lastAccessed := now, hitCount := entry.hitCount + 1 }
      served := ⟨request, s.activeModel, entry.response⟩ :: s.served },
    .ok entry.response)

variable (K : KeyCodec) (s : CachedProvider)

/-- One completion at time `now`; `result` is what the inner provider answers if it
is asked. -/
def complete (request : CompletionRequest) (now : Nat)
    (order : Iteration String CacheEntry) (result : Except LlmError CompletionResponse) :
    CachedProvider × Except LlmError CompletionResponse :=
  let key := cacheKey K s.modelName request
  match s.cache.lookup key with
  | some entry =>
      if s.isFresh now entry then s.hit key request now entry
      else { s with cache := s.cache.erase key }.askInner order key request now result
  | none => s.askInner order key request now result

inductive Call where
  | setModel (model : String)
  | complete (request : CompletionRequest) (now : Nat)
      (order : Iteration String CacheEntry) (result : Except LlmError CompletionResponse)

def step : Call → CachedProvider
  | .setModel model => s.setModel model
  | .complete request now order result => (s.complete K request now order result).1

/-! ## Coherence -/

/-- Each response served from the cache was produced by the inner provider for the
same request, while the same model was active. -/
def Coherent : Prop := ∀ answer ∈ s.served, ∃ p ∈ s.produced, p.toAnswer = answer

/-- Whatever the inner provider produced under the key of this request, and not
longer ago than entries live, was for this request and under the active model. -/
def KeyedRight : Call → Prop
  | .setModel _ => True
  | .complete request now _ _ =>
      ∀ p ∈ s.produced, now - p.time < s.config.ttl →
        cacheKey K s.modelName p.request = cacheKey K s.modelName request →
        p.request = request ∧ p.model = s.activeModel

/-- Every entry is a response of the inner provider to a request with its key. -/
def Backed : Prop :=
  ∀ key entry, s.cache.lookup key = some entry →
    ∃ p ∈ s.produced, cacheKey K s.modelName p.request = key ∧ p.time = entry.createdAt
      ∧ p.response = entry.response

section Steps

variable {K : KeyCodec} {s : CachedProvider} {request : CompletionRequest} {now : Nat}
  {order : Iteration String CacheEntry} {result : Except LlmError CompletionResponse}

theorem Backed.of_sub {cache : Table String CacheEntry} (h : s.Backed K)
    (hsub : Sub cache s.cache) : { s with cache }.Backed K :=
  fun key entry hentry => h key entry (hsub key entry hentry)

theorem Backed.store {response : CompletionResponse} (h : s.Backed K) (order)
    (hnow : ∃ p ∈ s.produced, p.request = request ∧ p.time = now ∧ p.response = response) :
    { s with cache := s.store order (cacheKey K s.modelName request) now response }.Backed K := by
  intro key entry hentry
  by_cases hkey : key = cacheKey K s.modelName request
  · subst hkey
    rw [CachedProvider.store, lookup_insert] at hentry
    cases hentry
    obtain ⟨p, hp, rfl, htime, hresponse⟩ := hnow
    exact ⟨p, hp, rfl, htime, hresponse⟩
  · -- what is kept of the cache was in it before
    rw [CachedProvider.store, lookup_insert_ne hkey] at hentry
    exact h key entry (retain_sub _ _ key entry (eraseLeast_sub order _ _ _ _ key entry hentry))

theorem Backed.mono {produced : List Production} (h : s.Backed K)
    (hmore : ∀ p ∈ s.produced, p ∈ produced) : { s with produced }.Backed K := by
  intro key entry hentry
  obtain ⟨p, hp, hkey⟩ := h key entry hentry
  exact ⟨p, hmore p hp, hkey⟩

theorem askInner_invariant (h : s.Backed K ∧ s.Coherent) :
    let s' := (s.askInner order (cacheKey K s.modelName request) request now result).1
    s'.Backed K ∧ s'.Coherent := by
  cases result with
  | error => exact h
  | ok response =>
    have hmore : ∀ p ∈ s.produced,
        p ∈ (⟨⟨request, s.activeModel, response⟩, now⟩ : Production) :: s.produced :=
      fun p hp => mem_cons_of_mem _ hp
    refine ⟨(h.1.mono hmore).store order ⟨_, mem_cons_self, rfl, rfl, rfl⟩, ?_⟩
    intro answer hserved
    obtain ⟨p, hp, hanswer⟩ := h.2 answer hserved
    exact ⟨p, hmore p hp, hanswer⟩

theorem hit_invariant {entry : CacheEntry} (h : s.Backed K ∧ s.Coherent)
    (hright : s.KeyedRight K (.complete request now order result))
    (hentry : s.cache.lookup (cacheKey K s.modelName request) = some entry)
    (hfresh : s.isFresh now entry = true) :
    let s' := (s.hit (cacheKey K s.modelName request) request now entry).1
    s'.Backed K ∧ s'.Coherent := by
  obtain ⟨hbacked, hcoherent⟩ := h
  obtain ⟨p, hp, hkey, htime, hresponse⟩ := hbacked _ entry hentry
  refine ⟨?_, ?_⟩
  · intro key entry' hentry'
    by_cases hsame : key = cacheKey K s.modelName request
    · subst hsame
      rw [hit, lookup_insert] at hentry'
      cases hentry'
      exact ⟨p, hp, hkey, htime, hresponse⟩
    · rw [hit, lookup_insert_ne hsame] at hentry'
      exact hbacked key entry' hentry'
  · refine forall_mem_cons.mpr ⟨⟨p, hp, ?_⟩, hcoherent⟩
    have hage : now - p.time < s.config.ttl := by
      rw [htime]
      exact of_decide_eq_true hfresh
    obtain ⟨hrequest, hmodel⟩ := hright p hp hage hkey
    obtain ⟨⟨prequest, pmodel, presponse⟩, ptime⟩ := p
    cases hrequest
    cases hmodel
    cases hresponse
    rfl

theorem step_invariant (K : KeyCodec) (s : CachedProvider) (call : Call)
    (h : s.Backed K ∧ s.Coherent) (hright : s.KeyedRight K call) :
    (s.step K call).Backed K ∧ (s.step K call).Coherent := by
  cases call with
  | setModel => exact h
  | complete request now order result =>
    simp only [step, complete]
    split
    · rename_i entry hentry
      split
      · rename_i hfresh
        exact hit_invariant h hright hentry hfresh
      · exact askInner_invariant (s := { s with cache := s.cache.erase _ })
          ⟨h.1.of_sub (erase_sub _ _), h.2⟩
    · exact askInner_invariant h

end Steps

/-- In a run where no completion finds a live response to another request, or of
another model, under its key, everything served from the cache is right. -/
theorem run_coherent (config : ResponseCacheConfig) (modelName activeModel : String)
    (calls : List Call)
    (hright : Guarded (step K) (KeyedRight K) { config, modelName, activeModel } calls)
    (pre : List Call) (hpre : pre <+: calls) :
    (run (step K) { config, modelName, activeModel } pre).Coherent := by
  have hstep : ∀ (s : CachedProvider) (call : Call),
      s.Backed K ∧ s.Coherent → s.KeyedRight K call →
        (s.step K call).Backed K ∧ (s.step K call).Coherent := step_invariant K
  have hstart : ({ config, modelName, activeModel } : CachedProvider).Backed K
      ∧ ({ config, modelName, activeModel } : CachedProvider).Coherent := by
    refine ⟨fun key entry hentry => ?_, fun answer hanswer => ?_⟩
    · cases hentry
    · cases hanswer
  exact (invariant_reached hstep hstart hright hpre).2

/-! ## A change of the model -/

def plainKeys : KeyCodec where
  sha256Hex bytes := String.ofList (bytes.map fun b => Char.ofNat b.toNat)
  messagesJson messages := some (String.join (messages.map (·.content)))

def hello : CompletionRequest := { messages := [.user "hello"] }

def answerOf (model : String) : CompletionResponse := { content := "I am " ++ model }

def askHello (model : String) (now : Nat) : Call :=
  .complete hello now (.stored _ _) (.ok (answerOf model))

/-- The answer of the first model is served again while nothing changes. -/
theorem same_model_coherent :
    (run (step plainKeys) { config := {}, modelName := "a", activeModel := "a" }
      [askHello "a" 0, askHello "a" 1, .setModel "b"]).Coherent := by
  refine run_coherent plainKeys {} "a" "a" [askHello "a" 0, askHello "a" 1, .setModel "b"]
    ⟨?_, ?_, trivial, trivial⟩ _ prefix_rfl
  · intro p hp
    cases hp
  · intro p hp _ _
    obtain rfl := mem_singleton.mp hp
    exact ⟨rfl, rfl⟩

theorem other_model_served :
    ¬ (run (step plainKeys) { config := {}, modelName := "a", activeModel := "a" }
      [askHello "a" 0, .setModel "b", askHello "b" 1]).Coherent := by
  have hserved : (run (step plainKeys) { config := {}, modelName := "a", activeModel := "a" }
      [askHello "a" 0, .setModel "b", askHello "b" 1]).served = [⟨hello, "b", answerOf "a"⟩] := by
    simp [askHello, step, complete, askInner, store, setModel, hit, isFresh]
  have hproduced : (run (step plainKeys) { config := {}, modelName := "a", activeModel := "a" }
      [askHello "a" 0, .setModel "b", askHello "b" 1]).produced
        = [⟨⟨hello, "a", answerOf "a"⟩, 0⟩] := by
    simp [askHello, step, complete, askInner, store, setModel, hit, isFresh]
  intro h
  obtain ⟨p, hp, hanswer⟩ := h ⟨hello, "b", answerOf "a"⟩ (by rw [hserved]; exact mem_cons_self)
  rw [hproduced, mem_singleton] at hp
  subst hp
  exact absurd (congrArg Answer.model hanswer) (by decide)

end CachedProvider

end TitanClaw.Llm
