import TitanClaw.Lib.Json

/-! # Lifecycle hooks

Hooks run in priority order; a rejection stops the chain, a modification is
passed on to the next hook, and a failure counts as the hook's failure mode
says. -/

namespace TitanClaw.Hooks

inductive HookPoint where
  | beforeInbound
  | beforeToolCall
  | beforeOutbound
  | onSessionStart
  | onSessionEnd
  | transformResponse
  deriving DecidableEq

inductive HookEvent where
  | inbound (userId channel content : String) (threadId : Option String)
  | toolCall (toolName : String) (parameters : JsonValue) (userId context : String)
  | outbound (userId channel content : String) (threadId : Option String)
  | sessionStart (userId sessionId : String)
  | sessionEnd (userId sessionId : String)
  | responseTransform (userId threadId response : String)

def HookEvent.hookPoint : HookEvent → HookPoint
  | .inbound .. => .beforeInbound
  | .toolCall .. => .beforeToolCall
  | .outbound .. => .beforeOutbound
  | .sessionStart .. => .onSessionStart
  | .sessionEnd .. => .onSessionEnd
  | .responseTransform .. => .transformResponse

variable (J : JsonCodec)

/-- Put a modification into the event's primary content. Parameters that do not
parse are left as they were. -/
def HookEvent.applyModification (modified : String) : HookEvent → HookEvent
  | .inbound userId channel _ threadId => .inbound userId channel modified threadId
  | .outbound userId channel _ threadId => .outbound userId channel modified threadId
  | .toolCall toolName parameters userId context =>
      match J.fromText modified with
      | .ok parsed => .toolCall toolName parsed userId context
      | .error _ => .toolCall toolName parameters userId context
  | .responseTransform userId threadId _ => .responseTransform userId threadId modified
  | event => event

def extractContent : HookEvent → String
  | .inbound _ _ content _ => content
  | .outbound _ _ content _ => content
  | .toolCall _ parameters _ _ => J.toText parameters
  | .responseTransform _ _ response => response
  | .sessionStart _ sessionId => sessionId
  | .sessionEnd _ sessionId => sessionId

inductive HookOutcome where
  | continue (modified : Option String)
  | reject (reason : String)

inductive HookFailureMode where
  | failOpen
  | failClosed

/-- Durations are whole seconds. -/
inductive HookError where
  | executionFailed (reason : String)
  | timeout (secs : Nat)
  | rejected (reason : String)

def HookError.toText : HookError → String
  | .executionFailed reason => "Hook execution failed: " ++ reason
  | .timeout secs => "Hook timed out after " ++ toString secs ++ "s"
  | .rejected reason => "Hook rejected: " ++ reason

/-- How one execution of a hook ends, the time limit included. -/
inductive HookRun where
  | finished (outcome : HookOutcome)
  | failed (e : HookError)
  | timedOut

structure Hook where
  name : String
  hookPoints : List HookPoint
  failureMode : HookFailureMode := .failOpen
  /-- In seconds. -/
  timeout : Nat := 5
  execute : HookEvent → HookRun

abbrev HookRegistry := List Hook

variable (hooks : HookRegistry)

def HookRegistry.matching (point : HookPoint) : List Hook :=
  hooks.filter (·.hookPoints.contains point)

/-- One hook's part of the chain: the event for the next hook, or the error
that ends the chain. -/
def runHook (current : HookEvent) (hook : Hook) : Except HookError HookEvent :=
  match hook.execute current with
  | .finished (.reject reason) => .error (.rejected reason)
  | .finished (.continue (some value)) => .ok (current.applyModification J value)
  | .finished (.continue none) => .ok current
  | .failed err =>
      match hook.failureMode with
      | .failOpen => .ok current
      | .failClosed =>
          .error (.executionFailed ("Hook '" ++ hook.name ++ "' failed: " ++ err.toText))
  | .timedOut =>
      match hook.failureMode with
      | .failOpen => .ok current
      | .failClosed => .error (.timeout hook.timeout)

def HookRegistry.run (event : HookEvent) : Except HookError HookOutcome :=
  match hooks.matching event.hookPoint with
  | [] => .ok (.continue none)
  | matching => do
      let last ← matching.foldlM (runHook J) event
      if extractContent J last ≠ extractContent J event then
        return .continue (some (extractContent J last))
      else return .continue none

end TitanClaw.Hooks
