import Mathlib.Logic.Function.Basic
import TitanClaw.Agent.Conversation

/-! # Sessions of many users

Threads belong to the sessions of users, and a message is taken to its thread by
user, channel and the channel's own thread id. Undo managers are kept in one map
for all users, under the thread's UUID alone; some channels let the sender choose
that UUID. UUIDs are written as their texts. -/

namespace TitanClaw.Agent

open Llm Function

variable {R : Type}

/-! ## The manager -/

structure ThreadKey where
  userId : String
  channel : String
  externalThreadId : Option String
  deriving DecidableEq

/-- The record at the end is not the program's: who had a checkpoint taken, and
to whom one was handed back. -/
structure SessionManager (R : Type) where
  /-- The threads in each user's session; a user without a session has none. -/
  threads : String → String → Option (Machine R) := fun _ _ => none
  threadMap : List (ThreadKey × String) := []
  undoManagers : String → Option UndoManager := fun _ => none
  recorded : List (String × Checkpoint) := []
  returned : List (String × Checkpoint) := []

namespace SessionManager

variable (s : SessionManager R) (threadId : String)

def getUndoManager : UndoManager := (s.undoManagers threadId).getD {}

def ensureUndoManager : SessionManager R :=
  { s with
    undoManagers := update s.undoManagers threadId (some (s.getUndoManager threadId)) }

def insertThread (userId threadId : String) (machine : Machine R) : SessionManager R :=
  { s with
    threads := update s.threads userId (update (s.threads userId) threadId (some machine)) }

def createThread (userId newId : String) : SessionManager R :=
  s.insertThread userId newId { thread := { id := newId } }

def createThreadWithId (userId threadId : String) : SessionManager R :=
  if (s.threads userId threadId).isSome then s else s.createThread userId threadId

def mapThread (key : ThreadKey) (threadId : String) : SessionManager R :=
  { s with threadMap := (key, threadId) :: s.threadMap.filter (·.1 != key) }

variable (parseUuid : String → Option String) (s : SessionManager R)

/-- Only the gateway's UUIDs are kept; other channels get a fresh one. -/
def createAndMapThread (key : ThreadKey) (newId : String) : SessionManager R × String :=
  let chosen := if key.channel = "gateway" then key.externalThreadId.bind parseUuid else none
  match chosen with
  | some uuid => ((s.createThreadWithId key.userId uuid).mapThread key uuid, uuid)
  | none => ((s.createThread key.userId newId).mapThread key newId, newId)

def resolveThread (key : ThreadKey) (newId : String) : SessionManager R × String :=
  let created (s : SessionManager R) :=
    let made := s.createAndMapThread parseUuid key newId
    (made.1.ensureUndoManager made.2, made.2)
  match s.threadMap.lookup key with
  | some threadId =>
      if (s.threads key.userId threadId).isSome then (s, threadId)
      else created { s with threadMap := s.threadMap.filter (·.1 != key) }
  | none => created s

variable (userId channel threadId : String)

def registerThread : SessionManager R :=
  let key : ThreadKey := ⟨userId, channel, some threadId⟩
  let s := match s.threadMap.lookup key with
    | some existing =>
        if existing ≠ threadId ∧ (s.threads userId existing).isNone then s.mapThread key threadId
        else s
    | none => s.mapThread key threadId
  s.ensureUndoManager threadId

/-- A thread id that is a UUID names a thread of the database, on any channel;
its history is loaded unless the session has the thread already. -/
def maybeHydrateThread
    (userId channel externalThreadId : String) (now : Int) (history : List ChatMessage) :
    SessionManager R :=
  match parseUuid externalThreadId with
  | none => s
  | some uuid =>
      if (s.threads userId uuid).isSome then s
      else
        let thread : Thread := { id := uuid }
        let thread :=
          if history.isEmpty then thread else thread.restoreFromMessages now history
        (s.insertThread userId uuid { thread }).registerThread userId channel uuid

/-- Put a thread and its undo manager back. -/
def commit (userId threadId : String) (c : Conversation R) : SessionManager R :=
  { s.insertThread userId threadId c.machine with
    undoManagers := update s.undoManagers threadId (some c.undo)
    recorded := c.recorded.map (userId, ·) ++ s.recorded
    returned := c.returned.map (userId, ·) ++ s.returned }

/-- Run a command on a thread of the user. An absent undo manager and an empty
one are the same to every command. -/
def process (D : Deps) (monitor : ContextMonitor) (s : SessionManager R)
    (userId threadId : String) (command : Command R) : SessionManager R :=
  match s.threads userId threadId with
  | none => s
  | some machine =>
      s.commit userId threadId
        (Conversation.step D monitor { machine, undo := s.getUndoManager threadId } command)

def removeThreadReferences : SessionManager R :=
  let threadMap := s.threadMap.filter fun entry =>
    !(entry.1.userId == userId && entry.1.channel == channel && entry.2 == threadId)
  { s with
    threadMap
    undoManagers :=
      if threadMap.any (·.2 == threadId) then s.undoManagers
      else update s.undoManagers threadId none }

def deleteThread (userId threadId : String) : SessionManager R :=
  { s with
    threads := update s.threads userId
      (update (s.threads userId) threadId none) }.removeThreadReferences userId
    "gateway" threadId

def pruneStaleSessions (stale : List String) : SessionManager R :=
  { s with
    threads := fun userId => if userId ∈ stale then fun _ => none else s.threads userId
    threadMap := s.threadMap.filter fun entry => !stale.contains entry.1.userId
    undoManagers := fun threadId =>
      if stale.any fun userId => (s.threads userId threadId).isSome then none
      else s.undoManagers threadId }

end SessionManager

/-- A message of a user, with the thread id its channel gives. -/
structure Incoming (R : Type) where
  userId : String
  channel : String
  threadId : Option String
  /-- What the database has under the thread id. -/
  history : List ChatMessage
  newThreadId : String
  command : Command R

inductive ManagerEvent (R : Type) where
  | message (message : Incoming R)
  /-- A machine that is under way goes on. -/
  | progress (userId threadId : String) (command : Command R)
  | newThread (userId newId : String)
  | delete (userId threadId : String)
  | prune (stale : List String)

def SessionManager.handleMessage (D : Deps) (monitor : ContextMonitor)
    (parseUuid : String → Option String) (s : SessionManager R) (m : Incoming R) :
    SessionManager R :=
  let s := match m.threadId with
    | some threadId =>
        s.maybeHydrateThread parseUuid m.userId m.channel threadId m.command.env.now m.history
    | none => s
  let resolved := s.resolveThread parseUuid ⟨m.userId, m.channel, m.threadId⟩ m.newThreadId
  resolved.1.process D monitor m.userId resolved.2 m.command

def SessionManager.step (D : Deps) (monitor : ContextMonitor)
    (parseUuid : String → Option String) (s : SessionManager R) :
    ManagerEvent R → SessionManager R
  | .message m => s.handleMessage D monitor parseUuid m
  | .progress userId threadId command => s.process D monitor userId threadId command
  | .newThread userId newId => s.createThread userId newId
  | .delete userId threadId => s.deleteThread userId threadId
  | .prune stale => s.pruneStaleSessions stale

/-! ## Other users

A message of one user leaves the threads of the others alone. -/

section Others

variable {s : SessionManager R} {other userId threadId : String}
  {parseUuid : String → Option String}

theorem insertThread_others (hother : other ≠ userId) (machine : Machine R) :
    (s.insertThread userId threadId machine).threads other = s.threads other :=
  update_of_ne hother _ _

theorem createThreadWithId_others (hother : other ≠ userId) :
    (s.createThreadWithId userId threadId).threads other = s.threads other := by
  rw [SessionManager.createThreadWithId]
  split
  · rfl
  · exact insertThread_others hother _

theorem createAndMapThread_others {key : ThreadKey} {newId : String} (hother : other ≠ key.userId) :
    (s.createAndMapThread parseUuid key newId).1.threads other = s.threads other := by
  simp only [SessionManager.createAndMapThread]
  split
  · exact createThreadWithId_others hother
  · exact insertThread_others hother _

theorem resolveThread_others {key : ThreadKey} {newId : String} (hother : other ≠ key.userId) :
    (s.resolveThread parseUuid key newId).1.threads other = s.threads other := by
  simp only [SessionManager.resolveThread]
  split
  · split
    · rfl
    · exact createAndMapThread_others hother
  · exact createAndMapThread_others hother

theorem registerThread_threads (s : SessionManager R) (userId channel threadId : String) :
    (s.registerThread userId channel threadId).threads = s.threads := by
  simp only [SessionManager.registerThread, SessionManager.ensureUndoManager]
  split
  · split
    · rfl
    · rfl
  · rfl

theorem maybeHydrateThread_others {channel externalThreadId : String} {now : Int}
    {history : List ChatMessage} (hother : other ≠ userId) :
    (s.maybeHydrateThread parseUuid userId channel externalThreadId now history).threads other
      = s.threads other := by
  rw [SessionManager.maybeHydrateThread]
  split
  · rfl
  split
  · rfl
  rw [registerThread_threads]
  exact insertThread_others hother _

theorem process_others {D : Deps} {monitor : ContextMonitor} {command : Command R}
    (hother : other ≠ userId) :
    (s.process D monitor userId threadId command).threads other = s.threads other := by
  rw [SessionManager.process]
  split
  · rfl
  · exact insertThread_others hother _

theorem handleMessage_others {D : Deps} {monitor : ContextMonitor} {m : Incoming R}
    (hother : other ≠ m.userId) :
    (s.handleMessage D monitor parseUuid m).threads other = s.threads other := by
  refine (process_others hother).trans ((resolveThread_others hother).trans ?_)
  split
  · exact maybeHydrateThread_others hother
  · rfl

end Others

end TitanClaw.Agent
