import TitanClaw.Lib.Json

/-! # Conversation messages

The messages, tool definitions and tool calls exchanged with the model. -/

namespace TitanClaw.Llm

inductive Role where
  | system
  | user
  | assistant
  | tool
  deriving DecidableEq

structure ToolDefinition where
  name : String
  description : String
  parameters : JsonValue

structure ToolCall where
  id : String
  name : String
  arguments : JsonValue

structure ChatMessage where
  role : Role
  content : String
  toolCallId : Option String
  name : Option String
  toolCalls : Option (List ToolCall)

namespace ChatMessage

variable (content : String)

def system : ChatMessage := ⟨.system, content, none, none, none⟩

def user : ChatMessage := ⟨.user, content, none, none, none⟩

def assistant : ChatMessage := ⟨.assistant, content, none, none, none⟩

def assistantWithToolCalls (content : Option String) (toolCalls : List ToolCall) : ChatMessage :=
  ⟨.assistant, content.getD "", none, none,
    if toolCalls.isEmpty then none else some toolCalls⟩

def toolResult (toolCallId name content : String) : ChatMessage :=
  ⟨.tool, content, some toolCallId, some name, none⟩

end ChatMessage

end TitanClaw.Llm
