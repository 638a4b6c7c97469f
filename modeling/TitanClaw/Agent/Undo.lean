import TitanClaw.Agent.ThreadOps

/-! # Undo, redo and compaction

A checkpoint is the list of messages of a thread. Undo, redo and resume put the
messages of a checkpoint back into turns; the messages a thread gives to the
model are what is stored, so the two directions have to fit. -/

namespace TitanClaw.Agent

open Llm List Option Turn ChatMessage

variable {R : Type}

/-! ## Turns from messages -/

/-- The turns of a list of messages, numbered from `n` on: each user message
starts one, and an assistant message right behind it is the response. Everything
else is passed over. -/
def restoreTurns : Nat → List ChatMessage → List Turn
  | _, [] => []
  | n, [msg] => if msg.role = .user then [{ turnNumber := n, userInput := msg.content }] else []
  | n, msg :: next :: rest =>
      if msg.role = .user then
        let turn : Turn := { turnNumber := n, userInput := msg.content }
        if next.role = .assistant then turn.complete next.content :: restoreTurns (n + 1) rest
        else turn :: restoreTurns (n + 1) (next :: rest)
      else restoreTurns n (next :: rest)

namespace Thread

variable (t : Thread)

def turnNumber : Nat := t.turns.length + 1

def restoreFromMessages (now : Int) (messages : List ChatMessage) : Thread :=
  { t with turns := restoreTurns 0 messages, state := .idle, updatedAt := now }

def truncateTurns (keep : Nat) : Thread :=
  if keep < t.turns.length then
    { t with
      turns := (t.turns.drop (t.turns.length - keep)).mapIdx
        fun i turn => { turn with turnNumber := i } }
  else t

/-- What was said: each turn's input with its response. -/
def exchanges : List (String × Option String) :=
  t.turns.map fun turn => (turn.userInput, turn.response)

def userInputs : List String := t.turns.map (·.userInput)

end Thread

/-! ## The undo manager -/

/-- The state of a conversation at some time. -/
structure Checkpoint where
  id : String
  turnNumber : Nat
  messages : List ChatMessage
  description : String

def defaultMaxCheckpoints : Nat := 20

/-- Past and future checkpoints, both with the newest last. -/
structure UndoManager where
  undoStack : List Checkpoint := []
  redoStack : List Checkpoint := []
  maxCheckpoints : Nat := defaultMaxCheckpoints
  bounded : undoStack.length ≤ maxCheckpoints := by exact Nat.zero_le _

namespace UndoManager

variable (m : UndoManager)

def pushUndo (checkpoint : Checkpoint) : UndoManager where
  undoStack := (m.undoStack ++ [checkpoint]).drop (m.undoStack.length + 1 - m.maxCheckpoints)
  redoStack := m.redoStack
  maxCheckpoints := m.maxCheckpoints
  bounded := by
    rw [length_drop, length_append, length_singleton]
    omega

def checkpoint (checkpoint : Checkpoint) : UndoManager :=
  { m with redoStack := [] }.pushUndo checkpoint

def canUndo : Bool := !m.undoStack.isEmpty

def canRedo : Bool := !m.redoStack.isEmpty

def undoCount : Nat := m.undoStack.length

/-- The undo stack without its newest checkpoints from position `pos` on. -/
def takeUndo (pos : Nat) (redoStack : List Checkpoint) : UndoManager where
  undoStack := m.undoStack.take pos
  redoStack := redoStack
  maxCheckpoints := m.maxCheckpoints
  bounded := (length_take_le' pos m.undoStack).trans m.bounded

variable (current : Checkpoint)

/-- Take the newest checkpoint back, and keep the current state for a redo. -/
def undo : Option (Checkpoint × UndoManager) :=
  m.undoStack.getLast?.map fun checkpoint =>
    (checkpoint, m.takeUndo (m.undoStack.length - 1) (m.redoStack ++ [current]))

/-- Bring an undone state back, and keep the current one for an undo. -/
def redo : Option (Checkpoint × UndoManager) :=
  m.redoStack.getLast?.map fun checkpoint =>
    (checkpoint, { m with redoStack := m.redoStack.dropLast }.pushUndo current)

/-- Go back to a checkpoint; everything after it is dropped. -/
def restore (checkpointId : String) : Option (Checkpoint × UndoManager) :=
  match m.undoStack.findIdx? (·.id == checkpointId) with
  | none => none
  | some pos => m.undoStack[pos]?.map fun checkpoint => (checkpoint, m.takeUndo pos [])

def clear : UndoManager := m.takeUndo 0 []

def checkpoints : List Checkpoint := m.undoStack ++ m.redoStack

end UndoManager

/-! ## Compaction -/

inductive CompactionStrategy where
  | summarize (keepRecent : Nat)
  | truncate (keepRecent : Nat)
  | moveToWorkspace

/-- The monitor of the context's size. The token count is an estimate in floating
point; nothing here depends on how it is made. -/
structure ContextMonitor where
  estimateTokens : List ChatMessage → Nat
  /-- How full the context is, in percent with one decimal. -/
  usagePercent : List ChatMessage → String
  suggestCompaction : List ChatMessage → Option CompactionStrategy

/-- What a compaction meets outside: the model's summary, and whether there is a
workspace and it can be written. -/
structure CompactionEnv where
  summary : Except String String
  workspace : Option Bool

structure Compacted where
  thread : Thread
  turnsRemoved : Nat
  summaryWritten : Bool

def CompactionStrategy.keepRecent (e : CompactionEnv) : CompactionStrategy → Nat
  | .summarize keep => keep
  | .truncate keep => keep
  | .moveToWorkspace => if e.workspace.isSome then 10 else 5

/-- Truncate the thread, if it has more turns than are kept. -/
def compactTo (t : Thread) (keep : Nat) (summaryWritten : Bool) : Compacted :=
  ⟨t.truncateTurns keep, t.turns.length - keep, decide (keep < t.turns.length) && summaryWritten⟩

def compact (e : CompactionEnv) (t : Thread) (strategy : CompactionStrategy) :
    Except String Compacted :=
  let keep := strategy.keepRecent e
  match strategy with
  | .summarize _ =>
      if t.turns.length ≤ keep then .ok (compactTo t keep false)
      else e.summary.map fun _ => compactTo t keep (e.workspace == some true)
  | .truncate _ => .ok (compactTo t keep false)
  | .moveToWorkspace => .ok (compactTo t keep (e.workspace == some true))

/-! ## What is archived -/

def formatTurn (turn : Turn) : String :=
  "**Turn " ++ toString (turn.turnNumber + 1) ++ "**\nUser: " ++ turn.userInput ++ "\n"
    ++ ((turn.response.map fun response => "Agent: " ++ response ++ "\n").getD "")
    ++ if turn.toolCalls.isEmpty then ""
      else "Tools: " ++ ", ".intercalate (turn.toolCalls.map (·.name)) ++ "\n"

def formatTurnsForStorage (turns : List Turn) : String := "\n".intercalate (turns.map formatTurn)

section Archive

variable (e : CompactionEnv) (t : Thread)

/-- What a move to the workspace leaves there. -/
def archivedContext : Option String :=
  if e.workspace = some true ∧ 10 < t.turns.length then
    some (formatTurnsForStorage (t.turns.take (t.turns.length - 10)))
  else none

def Archived (result : Compacted) : Prop :=
  (result.thread.turns.length < t.turns.length →
    archivedContext e t
      = some (formatTurnsForStorage (t.turns.take (t.turns.length - result.thread.turns.length))))
    ∧ (e.workspace = some false → result.thread.turns = t.turns)

end Archive

/-! ## Commands -/

/-- A thread with its undo manager. As in the machine there is a record that no
step reads: the checkpoints taken of this thread, and those handed back to it. -/
structure Conversation (R : Type) where
  machine : Machine R
  undo : UndoManager := {}
  recorded : List Checkpoint := []
  returned : List Checkpoint := []

namespace Conversation

abbrev thread (c : Conversation R) : Thread := c.machine.thread

def reply (c : Conversation R) (r : SubmissionResult) : Conversation R :=
  { c with machine := c.machine.reply r }

variable (J : JsonCodec) (env : Env R) (c : Conversation R)

/-- A checkpoint of the thread as it is. -/
def snapshot (label : String) : Checkpoint :=
  ⟨env.newId, c.thread.turnNumber, c.thread.messages J, label ++ toString c.thread.turnNumber⟩

def restored (checkpoint : Checkpoint) (undo : UndoManager) : Conversation R :=
  let thread := c.thread.restoreFromMessages env.now checkpoint.messages
  { c with
    machine := { c.machine with thread, records := thread.turns.map fun _ => [] }
    undo
    returned := checkpoint :: c.returned }

/-- The start of undo, redo and resume: an expired approval is given up instead,
and a thread that awaits one is left alone. -/
def unlessAwaiting (refusal : String) (go : Conversation R) : Conversation R :=
  if c.thread.state = .awaitingApproval then
    if isApprovalExpired c.thread.updatedAt env.now then
      { c with
        machine := c.machine.cancelPending env.now "approval timeout"
          "Approval request expired. The pending tool execution was canceled." }
    else c.reply (.error refusal)
  else go

/-- Undo and redo: a checkpoint is put back, and the current state is kept. -/
def takeBack (refusal nothing failure : String) (can : Bool)
    (take : Checkpoint → Option (Checkpoint × UndoManager))
    (done : Checkpoint → UndoManager → String) : Conversation R :=
  c.unlessAwaiting env refusal <|
    if !can then c.reply (.ok (some nothing))
    else
      match take (c.snapshot J env "Turn ") with
      | some (checkpoint, undo) =>
          { c with recorded := c.snapshot J env "Turn " :: c.recorded }.restored env checkpoint
            undo |>.reply (.ok (some (done checkpoint undo)))
      | none => c.reply (.error failure)

def processUndo : Conversation R :=
  c.takeBack J env
    ("Cannot undo while waiting for approval. "
      ++ "Approve, deny, or interrupt the pending tool first.")
    "Nothing to undo." "Undo failed." c.undo.canUndo c.undo.undo
    fun checkpoint undo => "Undone to turn " ++ toString checkpoint.turnNumber ++ ". "
      ++ toString undo.undoCount ++ " undo(s) remaining."

def processRedo : Conversation R :=
  c.takeBack J env
    ("Cannot redo while waiting for approval. "
      ++ "Approve, deny, or interrupt the pending tool first.")
    "Nothing to redo." "Redo failed." c.undo.canRedo c.undo.redo
    fun checkpoint _ => "Redone to turn " ++ toString checkpoint.turnNumber ++ "."

def processResume (checkpointId : String) : Conversation R :=
  c.unlessAwaiting env ("Cannot resume while waiting for approval. "
      ++ "Approve, deny, or /interrupt first.") <|
    match c.undo.restore checkpointId with
    | some (checkpoint, undo) =>
        c.restored env checkpoint undo
          |>.reply (.ok (some ("Resumed from checkpoint: " ++ checkpoint.description)))
    | none => c.reply (.error "Checkpoint not found.")

/-- The record keeps the calls of the turns that stay. -/
def compacted (thread : Thread) : Conversation R :=
  { c with
    machine := { c.machine with
      thread
      records := c.machine.records.drop (c.thread.turns.length - thread.turns.length) } }

def processCompact (monitor : ContextMonitor) (e : CompactionEnv)
    (c : Conversation R) : Conversation R :=
  let messages := c.thread.messages J
  let strategy := (monitor.suggestCompaction messages).getD (.summarize 5)
  match compact e c.thread strategy with
  | .ok result =>
      (c.compacted result.thread).reply (.ok (some
        ("Compacted: " ++ toString result.turnsRemoved ++ " turns removed, "
          ++ toString (monitor.estimateTokens messages) ++ " → "
          ++ toString (monitor.estimateTokens (result.thread.messages J)) ++ " tokens (was "
          ++ monitor.usagePercent messages ++ "% full)"
          ++ if result.summaryWritten then ", summary saved to workspace" else "")))
  | .error err => c.reply (.error ("Compaction failed: " ++ err))

def processClear : Conversation R :=
  { c with
    machine := { c.machine with
      thread := { c.thread with turns := [] }.clearPendingApproval env.now
      records := [] }
    undo := c.undo.clear }.reply (.ok (some "Thread cleared."))

end Conversation

/-! ## Messages and back

What `restoreTurns` makes of the messages of a thread. The first call of a turn
is an assistant message without text, right behind the user's, and it is taken
for the response. -/

section Restoring

variable {J : JsonCodec} {n : Nat} {rest : List ChatMessage}

theorem restoreTurns_skip {msg : ChatMessage} (hrole : msg.role ≠ .user) :
    restoreTurns n (msg :: rest) = restoreTurns n rest := by
  cases rest with
  | nil | cons => simp [restoreTurns, hrole]

theorem restoreTurns_skip_all {msgs : List ChatMessage} (hroles : ∀ msg ∈ msgs, msg.role ≠ .user) :
    restoreTurns n (msgs ++ rest) = restoreTurns n rest := by
  induction msgs with
  | nil => rfl
  | cons _ _ ih =>
    obtain ⟨hmsg, hmsgs⟩ := forall_mem_cons.mp hroles
    rw [cons_append, restoreTurns_skip hmsg, ih hmsgs]

theorem restoreTurns_answered {input : String} {next : ChatMessage}
    (hrole : next.role = .assistant) :
    restoreTurns n (.user input :: next :: rest)
      = { turnNumber := n, userInput := input, response := some next.content,
          state := .completed } :: restoreTurns (n + 1) rest := by
  simp [restoreTurns, user, hrole, complete]

def StartsTurn (msgs : List ChatMessage) : Prop := ∀ msg ∈ msgs.head?, msg.role = .user

theorem restoreTurns_unanswered {input : String} (hrest : StartsTurn rest) :
    restoreTurns n (.user input :: rest)
      = { turnNumber := n, userInput := input } :: restoreTurns (n + 1) rest := by
  cases rest with
  | nil => rfl
  | cons next =>
    have hnext : next.role = .user := hrest next rfl
    simp [restoreTurns, user, hnext]

theorem startsTurn_flatMap (turns : List Turn) : StartsTurn (turns.flatMap (messages J)) := by
  cases turns with
  | nil => simp [StartsTurn]
  | cons => simp [StartsTurn, messages, user]

theorem toolCallMessages_role (turnNumber idx : Nat) (calls : List TurnToolCall) :
    ∀ msg ∈ toolCallMessages J turnNumber idx calls, msg.role ≠ .user := by
  induction calls generalizing idx with
  | nil => simp [toolCallMessages]
  | cons _ _ ih =>
    intro msg hmsg
    simp only [toolCallMessages, mem_cons] at hmsg
    rcases hmsg with rfl | rfl | hrest
    · simp [assistantWithToolCalls]
    · simp [toolResult]
    · exact ih _ msg hrest

variable (turn : Turn)

def Turn.restoredResponse : Option String :=
  if turn.toolCalls.isEmpty then turn.response else some ""

def Turn.restored (n : Nat) (turn : Turn) : Turn :=
  match turn.restoredResponse with
  | some response => { turnNumber := n, userInput := turn.userInput : Turn }.complete response
  | none => { turnNumber := n, userInput := turn.userInput }

theorem restoreTurns_turn (hrest : StartsTurn rest) :
    restoreTurns n (turn.messages J ++ rest) = turn.restored n :: restoreTurns (n + 1) rest := by
  cases hcalls : turn.toolCalls with
  | nil =>
    cases hanswer : turn.response with
    | none =>
      simp only [messages, hcalls, hanswer, toolCallMessages, restored,
        restoredResponse, isEmpty_nil, if_true]
      exact restoreTurns_unanswered hrest
    | some =>
      simp only [messages, hcalls, hanswer, toolCallMessages, restored,
        restoredResponse, isEmpty_nil, if_true]
      exact restoreTurns_answered rfl
  | cons _ calls =>
    -- the first call is taken for the response, and all that follows is passed over
    have hcallRoles := toolCallMessages_role (J := J) turn.turnNumber 1 calls
    simp only [messages, hcalls, toolCallMessages, restored, restoredResponse,
      isEmpty_cons, cons_append, append_assoc]
    rw [restoreTurns_answered rfl, restoreTurns_skip (by simp [toolResult]),
      restoreTurns_skip_all hcallRoles]
    cases turn.response with
    | none => rfl
    | some =>
      rw [singleton_append, restoreTurns_skip (by simp [assistant])]
      rfl

/-- The messages of a thread become its turns again, with other responses. -/
theorem restoreTurns_flatMap (turns : List Turn) :
    restoreTurns n (turns.flatMap (messages J))
      = turns.mapIdx fun i turn => turn.restored (n + i) := by
  induction turns generalizing n with
  | nil => rfl
  | cons turn turns ih =>
    rw [flatMap_cons, restoreTurns_turn turn (startsTurn_flatMap turns), ih, mapIdx_cons]
    simp only [Nat.add_zero, Nat.add_assoc, Nat.add_comm 1]

theorem Turn.restored_userInput : (turn.restored n).userInput = turn.userInput := by
  rw [restored]
  cases turn.restoredResponse with
  | none | some => rfl

theorem Turn.restored_response : (turn.restored n).response = turn.restoredResponse := by
  rw [restored]
  cases turn.restoredResponse with
  | none | some => rfl

def Turn.KeepsResponse : Prop := turn.toolCalls = [] ∨ turn.response = some ""

theorem Turn.keepsResponse_iff : turn.restoredResponse = turn.response ↔ turn.KeepsResponse := by
  rw [restoredResponse, KeepsResponse]
  by_cases hcalls : turn.toolCalls = []
  · simp [hcalls]
  simp only [List.isEmpty_iff, hcalls, if_false, false_or]
  exact eq_comm

variable (t t' : Thread) (now : Int)

theorem exchanges_restore_messages : (t'.restoreFromMessages now (t.messages J)).exchanges
      = t.turns.map fun turn => (turn.userInput, turn.restoredResponse) := by
  simp only [Thread.exchanges, Thread.restoreFromMessages, Thread.messages, restoreTurns_flatMap]
  apply ext_getElem?
  intro i
  simp only [getElem?_map, getElem?_mapIdx, Option.map_map]
  cases t.turns[i]? with
  | none => rfl
  | some turn => simp [turn.restored_userInput, turn.restored_response]

theorem userInputs_restore_messages :
    (t'.restoreFromMessages now (t.messages J)).userInputs = t.userInputs := by
  have hfirst := congrArg (map Prod.fst) (exchanges_restore_messages (J := J) t t' now)
  rwa [Thread.exchanges, List.map_map, List.map_map] at hfirst

/-- The exchanges survive exactly if each turn's response does. -/
theorem exchanges_restore_iff : (t'.restoreFromMessages now (t.messages J)).exchanges = t.exchanges
      ↔ ∀ turn ∈ t.turns, turn.KeepsResponse := by
  rw [exchanges_restore_messages, Thread.exchanges, map_inj_left]
  apply forall₂_congr
  intro turn _
  rw [Prod.mk.injEq, turn.keepsResponse_iff, eq_self_iff_true, true_and]

end Restoring

/-! ## Undo and redo -/

section UndoRedo

variable {J : JsonCodec} {env : Env R} {c : Conversation R} {checkpoint : Checkpoint}

theorem UndoManager.exists_getLast? {m : UndoManager} (h : m.canUndo = true) :
    ∃ checkpoint, m.undoStack.getLast? = some checkpoint := by
  cases hlast : m.undoStack.getLast? with
  | some checkpoint => exact ⟨checkpoint, rfl⟩
  | none =>
    rw [getLast?_eq_none_iff] at hlast
    simp [UndoManager.canUndo, hlast] at h

section

variable (hstate : c.thread.state ≠ .awaitingApproval)

include hstate

theorem Conversation.unlessAwaiting_of_ne {refusal : String} {go : Conversation R} : c.unlessAwaiting env refusal go = go :=
  if_neg hstate

theorem Conversation.takeBack_spec {refusal nothing failure : String} {can : Bool}
    {take : Checkpoint → Option (Checkpoint × UndoManager)}
    {done : Checkpoint → UndoManager → String} {undo : UndoManager} (hcan : can = true)
    (htake : take (c.snapshot J env "Turn ") = some (checkpoint, undo)) :
    let c' := c.takeBack J env refusal nothing failure can take done
    c'.thread = c.thread.restoreFromMessages env.now checkpoint.messages ∧ c'.undo = undo := by
  simp only [takeBack, unlessAwaiting_of_ne hstate, hcan, htake]
  exact ⟨rfl, rfl⟩

/-- An undo puts the newest checkpoint back, and the state it leaves is the next
to redo. -/
theorem Conversation.processUndo_spec (hlast : c.undo.undoStack.getLast? = some checkpoint) :
    (c.processUndo J env).thread = c.thread.restoreFromMessages env.now checkpoint.messages
      ∧ (c.processUndo J env).undo = c.undo.takeUndo (c.undo.undoStack.length - 1)
        (c.undo.redoStack ++ [c.snapshot J env "Turn "]) := by
  have hcan : c.undo.canUndo = true := by
    cases hstack : c.undo.undoStack with
    | nil => simp [hstack] at hlast
    | cons => simp [UndoManager.canUndo, hstack]
  exact takeBack_spec hstate hcan (by rw [UndoManager.undo, hlast, map_some])

theorem Conversation.processUndo_of_empty
    (hempty : c.undo.undoStack = []) : (c.processUndo J env).thread = c.thread := by
  rw [processUndo, takeBack, unlessAwaiting_of_ne hstate]
  simp [UndoManager.canUndo, hempty, reply, Machine.reply]

theorem Conversation.processRedo_thread (hlast : c.undo.redoStack.getLast? = some checkpoint) :
    (c.processRedo J env).thread = c.thread.restoreFromMessages env.now checkpoint.messages := by
  have hcan : c.undo.canRedo = true := by
    cases hstack : c.undo.redoStack with
    | nil => simp [hstack] at hlast
    | cons => simp [UndoManager.canRedo, hstack]
  exact (takeBack_spec hstate hcan (by rw [UndoManager.redo, hlast, map_some])).1

end

/-- Undo and redo bring back the messages of the thread, and so the exchanges of
exactly the turns without calls. -/
theorem undo_redo_restores_iff (J : JsonCodec) (undoEnv redoEnv : Env R) (c : Conversation R)
    (hstate : c.thread.state ≠ .awaitingApproval) (hcan : c.undo.canUndo = true) :
    (((c.processUndo J undoEnv).processRedo J redoEnv).thread.exchanges = c.thread.exchanges
        ↔ ∀ turn ∈ c.thread.turns, turn.KeepsResponse)
      ∧ ∀ now, (c.thread.restoreFromMessages now (c.thread.messages J)).exchanges
          = c.thread.exchanges ↔ ∀ turn ∈ c.thread.turns, turn.KeepsResponse := by
  refine ⟨?_, fun now => exchanges_restore_iff c.thread c.thread now⟩
  obtain ⟨checkpoint, hlast⟩ := UndoManager.exists_getLast? hcan
  obtain ⟨hthread, hundo⟩ : (c.processUndo J undoEnv).thread = _
      ∧ (c.processUndo J undoEnv).undo = _ := Conversation.processUndo_spec hstate hlast
  have hidle : (c.processUndo J undoEnv).thread.state ≠ .awaitingApproval := by
    rw [hthread]
    nofun
  have hredo : (c.processUndo J undoEnv).undo.redoStack.getLast?
      = some (c.snapshot J undoEnv "Turn ") := by
    rw [hundo]
    exact getLast?_concat
  rw [Conversation.processRedo_thread hidle hredo]
  exact exchanges_restore_iff c.thread _ redoEnv.now

/-- A conversation of the small agent with these turns, and a checkpoint before
them. -/
def talked (turns : List Turn) : Conversation Unit where
  machine := { smallAgent with thread := { id := "t", turns } }
  undo := UndoManager.checkpoint {} ⟨"cp-1", 1, [], "Before turn 1"⟩

def answeredTurn : Turn :=
  { turnNumber := 0, userInput := "hello", response := some "hi", state := .completed }

def failedTurn : Turn :=
  { turnNumber := 1, userInput := "and now?", state := .failed, error := some "no model" }

theorem plain_turns_come_back :
    (((talked [answeredTurn, failedTurn]).processUndo commandJson smallEnv).processRedo
        commandJson smallEnv).thread.exchanges
      = [("hello", some "hi"), ("and now?", none)] :=
  (undo_redo_restores_iff commandJson smallEnv smallEnv (talked [answeredTurn, failedTurn])
    (by decide) (by decide)).1.mpr (by simp [talked, KeepsResponse, answeredTurn, failedTurn])

def echoedTurn : Turn where
  turnNumber := 0
  userInput := "say hi"
  response := some "I said hi."
  toolCalls := [
    { toolCallId := some "call-1"
      name := "echo"
      parameters := .obj [("message", .str "hi")]
      result := some (.str "hi")
      resultText := some "hi" }]
  state := .completed

/-- After undo and redo the response of the turn is empty. -/
theorem echoed_response_lost :
    (talked [echoedTurn]).undo.canUndo = true
      ∧ (talked [echoedTurn]).thread.state = .idle
      ∧ (((talked [echoedTurn]).processUndo commandJson smallEnv).processRedo commandJson
          smallEnv).thread.exchanges = [("say hi", some "")]
      ∧ (talked [echoedTurn]).thread.exchanges = [("say hi", some "I said hi.")] := by
  decide

end UndoRedo

end TitanClaw.Agent
