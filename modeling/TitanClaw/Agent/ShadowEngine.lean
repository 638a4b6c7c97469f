import TitanClaw.Agent.Conversation
import TitanClaw.Lib.Table

/-! # The shadow engine

After a turn the engine asks a model what the user may say next, and for answers to that, and
keeps the answers; an input for which it has one is answered with it, before the thread goes
its own way. There is one cache for all users. Instants are nanoseconds of a monotone
clock. -/

namespace TitanClaw.Agent

open Text Function

structure ShadowConfig where
  enabled : Bool
  ttl : Nat
  maxPredictions : Nat
  minInputChars : Nat
  maxParallel : Nat

structure ShadowCacheEntry where
  response : String
  createdAt : Nat
  /-- A record that no step reads: the user from whose turn the entry was speculated. -/
  speculatedFor : String
  deriving DecidableEq

structure ShadowEngine where
  cache : Table String ShadowCacheEntry := ∅
  /-- Of the semaphore. -/
  permits : Nat

inductive Speculation where
  /-- It needs a permit. -/
  | waiting (userInput assistantResponse : String)
  /-- The model is asked for prompts that may follow. -/
  | predicting (userInput assistantResponse : String)
  /-- The prompts that are left are looked at. -/
  | considering (predictions : List String)
  /-- The model is asked for an answer. -/
  | precomputing (prediction key : String) (rest : List String)
  | storing (key response : String) (rest : List String)

namespace ShadowEngine

def normalize (letters : CaseMap) (input : String) : String :=
  " ".intercalate (splitWhitespace (letters.toLowercase input))

variable (config : ShadowConfig)

def new : ShadowEngine where
  permits := max config.maxParallel 1

def isFresh (instant : Nat) (entry : ShadowCacheEntry) : Bool :=
  decide (instant - entry.createdAt ≤ config.ttl)

def tryGet (letters : CaseMap) (engine : ShadowEngine) (instant : Nat)
    (input : String) : Option ShadowCacheEntry × ShadowEngine :=
  if !config.enabled then (none, engine)
  else
    let key := normalize letters input
    match (engine.cache.lookup key).filter (isFresh config instant) with
    | some entry => (some entry, engine)
    | none => (none, { engine with cache := engine.cache.erase key })

variable (engine : ShadowEngine)

def pruneExpired (instant : Nat) : ShadowEngine :=
  if !config.enabled then engine
  else { engine with cache := engine.cache.retain fun _ entry => isFresh config instant entry }

def spawnSpeculation (userInput assistantResponse : String) : Option Speculation :=
  if !config.enabled || decide (userInput.length < config.minInputChars) then none
  else some (.waiting userInput assistantResponse)

def textsOf : JsonValue → Option (List String)
  | .arr items => items.mapM JsonValue.asStr?
  | _ => none

def trimStartMatches (c : Char) (s : String) : String := String.ofList (s.toList.dropWhile (· == c))

def followupPrompts (json : JsonCodec) (content : String) : List String :=
  let raw := trim content
  match (json.fromText raw).toOption.bind textsOf with
  | some prompts => prompts
  | none =>
      ((lines raw).map fun line =>
        trim (trimStartMatches '*' (trimStartMatches '-' (trim line)))).filter (!·.isEmpty)

/-- The permit goes back at the end of a speculation. -/
def release : ShadowEngine :=
  { engine with permits := engine.permits + 1 }

/-- A speculation goes on. `reply` is the model's, where it is asked. -/
def speculateForNextTurn (json : JsonCodec) (letters : CaseMap)
    (user : String) (engine : ShadowEngine) (instant : Nat) (reply : Except String String) :
    Speculation → ShadowEngine × Option Speculation
  | .waiting userInput assistantResponse =>
      if engine.permits = 0 then (engine, some (.waiting userInput assistantResponse))
      else
        ({ engine with permits := engine.permits - 1 },
          some (.predicting userInput assistantResponse))
  | .predicting _ _ =>
      match reply with
      | .error _ => (engine.release, none)
      | .ok content =>
          (engine,
            some (.considering ((followupPrompts json content).take (max config.maxPredictions 1))))
  | .considering [] => (engine.release, none)
  | .considering (prompt :: rest) =>
      let prediction := trim prompt
      if prediction.isEmpty then (engine, some (.considering rest))
      else
        let key := normalize letters prediction
        if (engine.cache.lookup key).isSome then (engine, some (.considering rest))
        else (engine, some (.precomputing prediction key rest))
  | .precomputing _ key rest =>
      match reply with
      | .error _ => (engine, some (.considering rest))
      | .ok response => (engine, some (.storing key response rest))
  | .storing key response rest =>
      ({ engine with cache := engine.cache.insert key ⟨response, instant, user⟩ },
        some (.considering rest))

end ShadowEngine

/-! ## Users

Every user has conversations of their own; what they share is the engine. -/

/-- An answer from the cache. -/
structure Served where
  user : String
  thread : String
  content : String
  entry : ShadowCacheEntry

structure ShadowUsers (R : Type) where
  engine : ShadowEngine
  conversations : String → String → Conversation R
  speculations : String → Nat → Option Speculation := fun _ _ => none
  /-- A record that no step reads. -/
  served : List Served := []

inductive ShadowEvent (R : Type) where
  /-- A thread of the user's goes on, in any way. The way of an input that the cache does not
  answer is the one it comes with. -/
  | command (user thread : String) (instant : Nat) (command : Command R)
  /-- A turn of the user's is complete, and a speculation is started. -/
  | speculate (user : String) (number : Nat) (userInput assistantResponse : String)
  | advance (user : String) (number instant : Nat) (reply : Except String String)
  | prune (instant : Nat)

variable {R : Type}

/-- The state of the thread lets an input get to the cache. -/
def Conversation.admits (c : Conversation R) : Bool :=
  match c.machine.control, c.thread.state with
  | .idle, .idle | .idle, .interrupted => true
  | _, _ => false

def UserInput.pastShadow (i : UserInput) : UserInput :=
  match i.route with
  | .shadow _ => { i with route := .agentic }
  | _ => i

namespace ShadowUsers

def new (config : ShadowConfig) (conversations : String → String → Conversation R) :
    ShadowUsers R where
  engine := .new config
  conversations

def setConversation (s : ShadowUsers R) (user thread : String) (c : Conversation R) :
    ShadowUsers R :=
  { s with
    conversations := update s.conversations user (update (s.conversations user) thread c) }

def setSpeculation (s : ShadowUsers R) (user : String) (number : Nat) (left : Option Speculation) :
    ShadowUsers R :=
  { s with
    speculations := update s.speculations user (update (s.speculations user) number left) }

variable (config : ShadowConfig) (D : Deps) (monitor : ContextMonitor) (s : ShadowUsers R)

def lookUpInput (user thread : String) (instant : Nat) (env : Env R)
    (i : UserInput) : ShadowUsers R :=
  let c := s.conversations user thread
  match s.engine.tryGet config D.letters instant i.content with
  | (some entry, engine) =>
      let c := c.step D monitor ⟨env, .input { i with route := .shadow entry.response }⟩
      { s with engine, served := ⟨user, thread, i.content, entry⟩ :: s.served }.setConversation
        user thread c
  | (none, engine) =>
      { s with engine }.setConversation user thread (c.step D monitor ⟨env, .input i.pastShadow⟩)

def step : ShadowEvent R → ShadowUsers R
  | .command user thread instant command =>
      let c := s.conversations user thread
      match command.order, c.admits with
      | .input i, true => s.lookUpInput config D monitor user thread instant command.env i
      | _, _ => s.setConversation user thread (c.step D monitor command)
  | .speculate user number userInput assistantResponse =>
      match s.speculations user number with
      | some _ => s
      | none =>
          s.setSpeculation user number
            (ShadowEngine.spawnSpeculation config userInput assistantResponse)
  | .advance user number instant reply =>
      match s.speculations user number with
      | none => s
      | some speculation =>
          let (engine, left) := ShadowEngine.speculateForNextTurn config D.json D.letters user
            s.engine instant reply speculation
          { s with engine }.setSpeculation user number left
  | .prune instant => { s with engine := s.engine.pruneExpired config instant }

end ShadowUsers

end TitanClaw.Agent
