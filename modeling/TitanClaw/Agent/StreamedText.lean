import TitanClaw.Agent.ThreadOps
import TitanClaw.Lib.Run

/-! # Text and tool calls in one stream

What the provider sends reaches the dispatcher as chunks of text. Those of tool calls
begin with a prefix, and so may the model's own text. -/

namespace TitanClaw.Agent

open Text List Run

inductive ProviderEvent where
  | text (fragment : String)
  | tool (ev : ToolStreamEvent)
  | other

/-- How the payload of an event is written and read. -/
structure EventCodec where
  write : ToolStreamEvent → String
  read : String → Option ToolStreamEvent

def toolStreamEventPrefix : String := "\x1eIRON_TOOL_EVENT:"

variable {R : Type} (C : EventCodec) (D : Deps) (f : Frame R)

def parseToolStreamEvent (chunk : String) : Option ToolStreamEvent :=
  (stripPrefix chunk toolStreamEventPrefix).bind C.read

variable (s : Machine R × List String)

/-- The machine, and what is sent on to the user. -/
def onChunk (chunk : String) : Machine R × List String :=
  match parseToolStreamEvent C chunk with
  | some ev => (stepStreamEvent D s.1 f ev, s.2)
  | none => (s.1, s.2 ++ [chunk])

def onEvent : ProviderEvent → Machine R × List String
  | .text fragment => onChunk C D f s fragment
  | .tool ev => onChunk C D f s (toolStreamEventPrefix ++ C.write ev)
  | .other => s

/-- Text is sent on, whatever it is. -/
def onEventAsSent : ProviderEvent → Machine R × List String
  | .text fragment => (s.1, s.2 ++ [fragment])
  | e => onEvent C D f s e

variable {C D f}

/-- Chunks taken for events are missing in what is sent on. -/
theorem length_sentOn_le (events : List ProviderEvent) {s r : Machine R × List String} {k : Nat}
    (h : s.2.length + k ≤ r.2.length) :
    (run (onEvent C D f) s events).2.length + k
      ≤ (run (onEventAsSent C D f) r events).2.length := by
  induction events generalizing s r with
  | nil => exact h
  | cons e _ ih =>
    refine ih ?_
    cases e with
    | other => exact h
    | text | tool =>
      simp only [onEvent, onEventAsSent, onChunk]
      split <;> simp only [length_append, length_singleton] <;> omega

/-- **No text is taken for a tool call** exactly if none has the form of one. -/
theorem texts_sentOn_iff (C : EventCodec) (D : Deps) (f : Frame R) (events : List ProviderEvent)
    (s : Machine R × List String) :
    run (onEvent C D f) s events = run (onEventAsSent C D f) s events
      ↔ ∀ fragment, .text fragment ∈ events → parseToolStreamEvent C fragment = none := by
  induction events generalizing s with
  | nil => simp
  | cons e events ih =>
    cases e with
    | other => simpa [onEventAsSent, onEvent] using ih s
    | tool ev => simpa [onEventAsSent, onEvent] using ih (onEvent C D f s (.tool ev))
    | text fragment =>
      cases hparse : parseToolStreamEvent C fragment with
      | none => simpa [onEventAsSent, onEvent, onChunk, hparse] using ih (s.1, s.2 ++ [fragment])
      | some ev =>
        refine iff_of_false (fun heq => ?_) (by simp [hparse])
        have hlt := length_sentOn_le (C := C) (D := D) (f := f) events (k := 1)
          (s := onEvent C D f s (.text fragment)) (r := (s.1, s.2 ++ [fragment]))
          (by simp [onEvent, onChunk, hparse])
        exact absurd (congrArg (fun s => s.2.length) heq) (Nat.ne_of_lt hlt)

def listingPayload : String :=
  "\x7b\"t\":\"tool_call\",\"id\":\"1\",\"internal_call_id\":\"1\",\"name\":\"shell\","
    ++ "\"arguments\":\x7b\"command\":\"ls\"\x7d\x7d"

/-- The model writes the chunk of a shell call: a task is spawned, and nothing is sent on. -/
theorem text_spawns_shell :
    let C : EventCodec := ⟨fun _ => listingPayload,
      fun payload => if payload = listingPayload then some (shellEvent "1" "ls") else none⟩
    let s := run (onEvent C pipedDeps ⟨helloMessage, .userInput, [], [], 0, false, 0⟩)
      (smallAgent, []) [.text (toolStreamEventPrefix ++ listingPayload)]
    s.1.tasks.map (fun task => (task.args.get? "command").bind JsonValue.asStr?) = [some "ls"]
      ∧ s.2 = [] := by
  decide +kernel

end TitanClaw.Agent
