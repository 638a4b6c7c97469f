import TitanClaw.Lib.Faulty
import TitanClaw.Lib.Table

/-! # Persisting a turn

A turn is written to the database by a task of its own: it makes sure of the
conversation, adds the user's message, and adds the assistant's if there is one. The
three are separate statements, and adding a message is itself two of them, the row
and the conversation's time of last activity. When any of them fails the whole
sequence is tried again, up to three times. -/

namespace TitanClaw.Agent

open Faulty List Bool Adds

structure ConversationMessage where
  id : String
  conversationId : String
  role : String
  content : String

structure ConversationRow where
  channel : String
  userId : String
  threadId : Option String
  lastActivity : Int

/-- The two tables of conversations; messages in the order they were written. -/
structure ConversationStore where
  conversations : Table String ConversationRow := ∅
  messages : List ConversationMessage := []

namespace ConversationStore

variable (now : Int) (id channel userId : String) (threadId : Option String)
  (store : ConversationStore)

/-- A new conversation, or a new time of last activity for the one that is there. -/
def ensureRow : ConversationStore :=
  let row :=
    match store.conversations.lookup id with
    | none => { channel, userId, threadId, lastActivity := now }
    | some row => { row with lastActivity := now }
  { store with conversations := store.conversations.insert id row }

def touchRow : ConversationStore :=
  match store.conversations.lookup id with
  | none => store
  | some row =>
      { store with
        conversations := store.conversations.insert id { row with lastActivity := now } }

def insertMessage (message : ConversationMessage) (store : ConversationStore) : ConversationStore :=
  { store with messages := store.messages ++ [message] }

theorem ensureRow_messages :
    (store.ensureRow now id channel userId threadId).messages = store.messages := rfl

theorem touchRow_messages : (store.touchRow now id).messages = store.messages := by
  unfold touchRow
  split <;> rfl

end ConversationStore

/-! ## The store's calls -/

/-- What the world adds to one call of `addConversationMessage`: the new row's id, the
clock, and how its two statements end. Errors are their texts. -/
structure MessageReplies where
  id : String
  now : Int := 0
  insert : Reply String := .answered
  touch : Reply String := .answered

namespace MessageReplies

variable (replies : MessageReplies)

def ok : Bool := replies.insert.ok && replies.touch.ok

def rows (conversationId role content : String) : List ConversationMessage :=
  if replies.insert.reached then [⟨replies.id, conversationId, role, content⟩] else []

theorem rows_of_ok {replies : MessageReplies} (h : replies.ok = true)
    (conversationId role content : String) :
    replies.rows conversationId role content = [⟨replies.id, conversationId, role, content⟩] :=
  if_pos (Reply.reached_of_ok (and_eq_true_iff.1 h).1)

end MessageReplies

variable (replies : MessageReplies)

def addConversationMessage (conversationId role content : String) :
    StoreProg ConversationStore String String := do
  call replies.insert (ConversationStore.insertMessage ⟨replies.id, conversationId, role, content⟩)
  call replies.touch (ConversationStore.touchRow replies.now conversationId)
  pure replies.id

/-- The row may be there although the call failed: touching the conversation comes after. -/
theorem addConversationMessage_adds (conversationId role content : String) :
    Adds ConversationStore.messages
      (addConversationMessage replies conversationId role content) replies.ok
      (replies.rows conversationId role content) := by
  have hinsert : Adds ConversationStore.messages
      (call replies.insert
        (ConversationStore.insertMessage ⟨replies.id, conversationId, role, content⟩))
      replies.insert.ok (replies.rows conversationId role content) :=
    call _ fun store => rfl
  have htouch := call_of_same replies.touch
    (ConversationStore.touchRow_messages replies.now conversationId)
  have h := hinsert.bind fun _ => htouch.bind fun _ => pure replies.id
  exact h.congr (by simp [MessageReplies.ok]) (by simp)

/-! ## The task -/

structure PersistedTurn where
  threadId : String
  userId : String
  userInput : String
  response : Option String
  channel : String

structure AttemptReplies where
  now : Int := 0
  ensure : Reply String := .answered
  user : MessageReplies
  assistant : MessageReplies

namespace PersistedTurn

variable (turn : PersistedTurn) (replies : AttemptReplies)

/-- One pass through the three calls. -/
def attempt : StoreProg ConversationStore String PUnit := do
  call replies.ensure
    (ConversationStore.ensureRow replies.now turn.threadId "gateway" turn.userId none)
  let _ ← addConversationMessage replies.user turn.threadId "user" turn.userInput
  match turn.response with
  | none => pure ⟨⟩
  | some resp =>
      let _ ← addConversationMessage replies.assistant turn.threadId "assistant" resp
      pure ⟨⟩

structure SynthesisEvent where
  userId : String
  threadId : String
  userInput : String
  assistantResponse : String

inductive Ending where
  /-- There is no database. -/
  | unstored
  | saved
  /-- All attempts failed, and the channel is told. -/
  | warned (channel status : String)

structure Persisted where
  enqueued : Option SynthesisEvent
  ending : Ending
  store : Option ConversationStore

def warning (lastErr : Option String) : String :=
  "Warning: response completed, but chat history could not be saved after retries"
    ++ (lastErr.elim "" fun e => " (" ++ e ++ ")")

def enqueued (synthesizer : Bool) : Option SynthesisEvent :=
  match turn.response, synthesizer with
  | some resp, true => some ⟨turn.userId, turn.threadId, turn.userInput, resp⟩
  | _, _ => none

def attempts (replies : Nat → AttemptReplies) : List AttemptReplies := (List.range' 1 3).map replies

def persistTurn (synthesizer : Bool) (store : Option ConversationStore)
    (replies : Nat → AttemptReplies) : Persisted :=
  match store with
  | none => ⟨turn.enqueued synthesizer, .unstored, none⟩
  | some store =>
      match retry turn.attempt (attempts replies) none store with
      | (.ok _, after) => ⟨turn.enqueued synthesizer, .saved, some after⟩
      | (.error lastErr, after) =>
          ⟨turn.enqueued synthesizer, .warned turn.channel (warning lastErr), some after⟩

/-! ## What an attempt leaves behind -/

def messages : List (String × String × String) :=
  (turn.threadId, "user", turn.userInput)
    :: turn.response.toList.map fun resp => (turn.threadId, "assistant", resp)

/-- None of the calls of the attempt fails. -/
def succeeds : Bool :=
  replies.ensure.ok && (replies.user.ok && (turn.response.isNone || replies.assistant.ok))

/-- The attempt comes to its first INSERT, and it takes place. -/
def leavesUserMessage : Bool := replies.ensure.ok && replies.user.insert.reached

def rows : List ConversationMessage :=
  if replies.ensure.ok then
    replies.user.rows turn.threadId "user" turn.userInput
      ++ if replies.user.ok then
          turn.response.toList.flatMap (replies.assistant.rows turn.threadId "assistant")
        else []
  else []

theorem attempt_adds :
    Adds ConversationStore.messages (turn.attempt replies) (turn.succeeds replies)
      (turn.rows replies) := by
  have hensure := call_of_same replies.ensure
    (ConversationStore.ensureRow_messages replies.now turn.threadId "gateway" turn.userId none)
  have huser := addConversationMessage_adds replies.user turn.threadId "user" turn.userInput
  unfold attempt succeeds rows
  cases turn.response with
  | none =>
    have h := hensure.bind fun _ => huser.bind fun _ => pure PUnit.unit
    exact h.congr (by simp) (by simp)
  | some resp =>
    have hassistant := addConversationMessage_adds replies.assistant turn.threadId "assistant" resp
    have h := hensure.bind fun _ => huser.bind fun _ => hassistant.bind fun _ => pure PUnit.unit
    exact h.congr (by simp) (by simp)

/-- An attempt that succeeds leaves the turn's messages. -/
theorem rows_of_succeeds {turn : PersistedTurn} {replies : AttemptReplies}
    (h : turn.succeeds replies = true) :
    (turn.rows replies).map (fun m => (m.conversationId, m.role, m.content)) = turn.messages := by
  obtain ⟨hensure, huser, hassistant⟩ : replies.ensure.ok = true ∧ replies.user.ok = true
      ∧ (turn.response.isNone || replies.assistant.ok) = true := by
    simpa [succeeds] using h
  rw [rows, if_pos hensure, if_pos huser, MessageReplies.rows_of_ok huser, messages]
  cases hresponse : turn.response with
  | none => rfl
  | some =>
    have hok : replies.assistant.ok = true := by simpa [hresponse] using hassistant
    simp [MessageReplies.rows_of_ok hok]

/-- An attempt leaves something exactly if it leaves the user's message. -/
theorem rows_eq_nil_iff : turn.rows replies = [] ↔ leavesUserMessage replies = false := by
  unfold rows leavesUserMessage MessageReplies.rows
  cases hensure : replies.ensure.ok with
  | false => simp
  | true =>
    cases hreached : replies.user.insert.reached with
    | true => simp
    | false =>
      -- without the user's row the call has failed, and the attempt ends there
      have huser : replies.user.ok = false := by
        rw [MessageReplies.ok, and_eq_false_iff]
        by_contra hok
        push Not at hok
        have hinsert := Reply.reached_of_ok (eq_true_of_not_eq_false hok.1)
        rw [hreached] at hinsert
        cases hinsert
      simp [huser]

def Gains (before after : ConversationStore) : Prop :=
  ∃ rows, after.messages = before.messages ++ rows
    ∧ rows.map (fun m => (m.conversationId, m.role, m.content)) = turn.messages

/-- The attempts that fail, up to the first that succeeds. -/
def abandoned (replies : Nat → AttemptReplies) : List AttemptReplies :=
  (attempts replies).takeWhile fun r => !turn.succeeds r

variable {turn}

/-- A task that succeeds adds what the abandoned attempts left, and then the turn. -/
theorem persistTurn_messages {synthesizer : Bool}
    {before after : ConversationStore} {replies : Nat → AttemptReplies}
    (hsaved : (turn.persistTurn synthesizer (some before) replies).ending = .saved)
    (hafter : (turn.persistTurn synthesizer (some before) replies).store = some after) :
    ∃ r, turn.succeeds r = true ∧ after.messages
      = before.messages ++ ((turn.abandoned replies).flatMap turn.rows ++ turn.rows r) := by
  obtain ⟨hok, hlog⟩ := retry_adds (attempt_adds turn) (attempts replies) none before
  simp only [persistTurn] at hsaved hafter
  rcases h : retry turn.attempt (attempts replies) none before with ⟨lastErr | _, after'⟩
  · rw [h] at hsaved
    cases hsaved
  · rw [h] at hafter hok hlog
    obtain rfl : after' = after := Option.some.inj hafter
    -- some attempt succeeds, so the first that does is there
    have hany : (attempts replies).any turn.succeeds = true := hok.symm
    obtain ⟨r, hr⟩ : ∃ r, (attempts replies).find? turn.succeeds = some r := by
      rw [← Option.isSome_iff_exists, find?_isSome]
      simpa using hany
    refine ⟨r, find?_some hr, ?_⟩
    rw [hr] at hlog
    exact hlog

/-- A task that ends in success has left the turn's messages, each once and in order,
exactly if every attempt it abandoned had failed before the user's message was written. -/
theorem persistTurn_gains_iff (turn : PersistedTurn) (synthesizer : Bool)
    (before : ConversationStore) {after : ConversationStore} (replies : Nat → AttemptReplies)
    (hsaved : (turn.persistTurn synthesizer (some before) replies).ending = .saved)
    (hafter : (turn.persistTurn synthesizer (some before) replies).store = some after) :
    turn.Gains before after ↔ ∀ r ∈ turn.abandoned replies, leavesUserMessage r = false := by
  obtain ⟨r, hr, hmessages⟩ := persistTurn_messages hsaved hafter
  have hturn := rows_of_succeeds hr
  calc turn.Gains before after
      ↔ (turn.abandoned replies).flatMap turn.rows = [] := by
        constructor
        · rintro ⟨rows, hrows, hmap⟩
          -- the abandoned rows come on top of the turn's, so they are counted out
          have hsame := append_cancel_left (hmessages.symm.trans hrows)
          have hlength := congrArg length (hmap.trans hturn.symm)
          rw [← hsame, length_map, length_map, length_append] at hlength
          exact length_eq_zero_iff.mp (by omega)
        · intro hnone
          rw [hnone, nil_append] at hmessages
          exact ⟨turn.rows r, hmessages, hturn⟩
    _ ↔ ∀ r ∈ turn.abandoned replies, leavesUserMessage r = false := by
        rw [flatMap_eq_nil_iff]
        exact forall₂_congr fun r _ => rows_eq_nil_iff turn r

def answered : PersistedTurn := ⟨"t", "alice", "hi", some "hello", "cli"⟩

def awayAtFirst : Nat → AttemptReplies
  | 1 =>
      { ensure := .rejected "pool timed out"
        user := { id := "u1" }
        assistant := { id := "a1" } }
  | _ => { user := { id := "u2" }, assistant := { id := "a2" } }

theorem awayAtFirst_gains :
    ∃ after, (answered.persistTurn true (some {}) awayAtFirst).ending = .saved
      ∧ (answered.persistTurn true (some {}) awayAtFirst).store = some after
      ∧ answered.Gains {} after := by
  refine ⟨_, rfl, rfl, ?_⟩
  rw [persistTurn_gains_iff answered true {} awayAtFirst rfl rfl]
  decide

/-- The first attempt fails between the two messages, and the second goes well. -/
def lateFailure : Nat → AttemptReplies
  | 1 =>
      { user := { id := "u1" }
        assistant := { id := "a1", insert := .rejected "connection closed" } }
  | _ => { user := { id := "u2" }, assistant := { id := "a2" } }

theorem lateFailure_twice :
    ∃ after, (answered.persistTurn true (some {}) lateFailure).ending = .saved
      ∧ (answered.persistTurn true (some {}) lateFailure).store = some after
      ∧ after.messages = [⟨"u1", "t", "user", "hi"⟩, ⟨"u2", "t", "user", "hi"⟩,
          ⟨"a2", "t", "assistant", "hello"⟩]
      ∧ ¬ answered.Gains {} after := by
  refine ⟨_, rfl, rfl, rfl, ?_⟩
  rintro ⟨rows, hrows, hmap⟩
  have hlength := congrArg length hmap
  rw [← (show _ = rows from hrows)] at hlength
  revert hlength
  decide

end PersistedTurn

end TitanClaw.Agent
