import TitanClaw.Llm.Message

/-! # Threads and turns

A thread is a conversation; a turn is one user input with the tool calls made
for it and the response. Times are in seconds. -/

namespace TitanClaw.Agent

open Llm

inductive ThreadState where
  | idle
  | processing
  | awaitingApproval
  | completed
  | interrupted
  deriving DecidableEq

def ThreadState.toText : ThreadState → String
  | .idle => "Idle"
  | .processing => "Processing"
  | .awaitingApproval => "AwaitingApproval"
  | .completed => "Completed"
  | .interrupted => "Interrupted"

inductive TurnState where
  | processing
  | completed
  | failed
  | interrupted
  deriving DecidableEq

structure TurnToolCall where
  toolCallId : Option String
  name : String
  parameters : JsonValue
  result : Option JsonValue := none
  /-- Text that was sent back to the model. -/
  resultText : Option String := none
  error : Option String := none

structure Turn where
  turnNumber : Nat
  userInput : String
  response : Option String := none
  toolCalls : List TurnToolCall := []
  state : TurnState := .processing
  error : Option String := none

def modifyLast {α : Type} (f : α → α) (l : List α) : List α := l.modify (l.length - 1) f

variable (t : Turn)

def Turn.complete (response : String) : Turn :=
  { t with response := some response, state := .completed }

def Turn.fail (error : String) : Turn :=
  { t with error := some error, state := .failed }

def Turn.interrupt : Turn := { t with state := .interrupted }

def Turn.recordToolCall (toolCallId name : String) (params : JsonValue) : Turn :=
  { t with
    toolCalls := t.toolCalls ++
      [{ toolCallId := some toolCallId, name := name, parameters := params }] }

def Turn.recordToolResult (result : JsonValue) (resultText : Option String) : Turn :=
  { t with
    toolCalls := modifyLast
      (fun call => { call with result := some result, resultText := resultText })
      t.toolCalls }

def Turn.recordToolError (error : String) : Turn :=
  { t with
    toolCalls := modifyLast (fun call => { call with error := some error }) t.toolCalls }

structure PendingAuth where
  extensionName : String

/-- A tool call that waits for the user's approval. -/
structure PendingApproval where
  requestId : String
  toolName : String
  parameters : JsonValue
  description : String
  toolCallId : String
  /-- The context at the time of the request, to resume from. -/
  contextMessages : List ChatMessage

structure Thread where
  id : String
  state : ThreadState := .idle
  turns : List Turn := []
  updatedAt : Int := 0
  pendingApproval : Option PendingApproval := none
  pendingAuth : Option PendingAuth := none

namespace Thread

variable (t : Thread)

def withLastTurn (f : Turn → Turn) : Thread :=
  { t with turns := modifyLast f t.turns }

variable (now : Int)

def tryStartTurn (userInput : String) : Except String Thread :=
  match t.state with
  | .idle | .interrupted =>
      .ok { t with
        turns := t.turns ++ [{ turnNumber := t.turns.length, userInput := userInput }]
        state := .processing
        updatedAt := now }
  | other => .error ("cannot start turn while thread is in state " ++ other.toText)

def completeTurn (response : String) : Thread :=
  { t.withLastTurn (·.complete response) with state := .idle, updatedAt := now }

def failTurn (error : String) : Thread :=
  { t.withLastTurn (·.fail error) with state := .idle, updatedAt := now }

variable (pending : PendingApproval)

def awaitApproval : Thread :=
  { t with state := .awaitingApproval, pendingApproval := some pending, updatedAt := now }

def restorePendingApprovalWithoutTouch : Thread :=
  { t with state := .awaitingApproval, pendingApproval := some pending }

def clearPendingApproval : Thread :=
  { t with pendingApproval := none, state := .idle, updatedAt := now }

def enterAuthMode (extensionName : String) : Thread :=
  { t with pendingAuth := some ⟨extensionName⟩, updatedAt := now }

def interrupt : Thread :=
  { t.withLastTurn Turn.interrupt with state := .interrupted, updatedAt := now }

end Thread

variable (J : JsonCodec)

/-- The text under which an entry's outcome goes back to the model. -/
def TurnToolCall.resultContent (tc : TurnToolCall) : String :=
  match tc.error, tc.resultText, tc.result with
  | some err, _, _ => err
  | _, some text, _ => text
  | _, _, some value =>
      match J.toTextPretty value with
      | .ok s => s
      | .error _ => J.toText value
  | _, _, _ => "<tool output unavailable>"

/-- The call and result messages of the entries of a turn, from entry `idx` on. -/
def toolCallMessages (J : JsonCodec) (turnNumber : Nat) : Nat → List TurnToolCall → List ChatMessage
  | _, [] => []
  | idx, tc :: rest =>
      let callId := tc.toolCallId.getD ("turn-" ++ toString turnNumber ++ "-tool-" ++ toString idx)
      .assistantWithToolCalls none [⟨callId, tc.name, tc.parameters⟩]
        :: .toolResult callId tc.name (tc.resultContent J)
        :: toolCallMessages J turnNumber (idx + 1) rest

def Turn.messages (turn : Turn) : List ChatMessage :=
  .user turn.userInput :: toolCallMessages J turn.turnNumber 0 turn.toolCalls
    ++ match turn.response with
      | some response => [.assistant response]
      | none => []

def Thread.messages (t : Thread) : List ChatMessage := t.turns.flatMap (Turn.messages J)

end TitanClaw.Agent
