import TitanClaw.Agent.Conversation

/-! # Undoing an input

The checkpoint of a turn is taken on the way to the loop, after compaction; the
shadow cache and the reflex tools add their turns without one. So what an undo
brings back depends on the way the last input took. -/

namespace TitanClaw.Agent

open Llm List Run Thread Conversation CompactionStrategy

variable {R : Type}

def ActKind.isProgress : ActKind → Bool
  | .main | .early _ | .streamEvent _ | .reply _ => true
  | _ => false

def Order.isProgress : Order → Bool
  | .agent kind _ => kind.isProgress
  | _ => false

/-- A user input with what the machine does for it. -/
structure Exchange (R : Type) where
  env : Env R
  input : UserInput
  steps : List (Command R)
  progress : ∀ s ∈ steps, s.order.isProgress = true

def Conversation.exchange (D : Deps) (monitor : ContextMonitor) (c : Conversation R)
    (x : Exchange R) : Conversation R :=
  run (step D monitor) c (⟨x.env, .input x.input⟩ :: x.steps)

def InputRoute.makesTurn : InputRoute → Bool
  | .direct _ => false
  | _ => true

def Completes (D : Deps) (monitor : ContextMonitor) (c : Conversation R) (x : Exchange R) : Prop :=
  let c' := c.exchange D monitor x
  x.input.route.makesTurn = true ∧ c'.machine.control = .idle ∧ c'.thread.state = .idle
    ∧ ∃ turn ∈ c'.thread.turns.getLast?, turn.state = .completed

def Checkpoint.userInputs (checkpoint : Checkpoint) : List String :=
  (checkpoint.messages.filter (·.role == .user)).map (·.content)

/-- The model's summary is needed and does not come. -/
def CompactionStrategy.fails (e : CompactionEnv) : CompactionStrategy → Bool
  | .summarize _ => e.summary.toOption.isNone
  | _ => false

def DropsNothing (J : JsonCodec) (monitor : ContextMonitor) (e : CompactionEnv) (t : Thread) :
    Prop :=
  ∀ strategy, monitor.suggestCompaction (t.messages J) = some strategy →
    t.turns.length ≤ strategy.keepRecent e ∨ strategy.fails e = true

/-- The input goes to the loop and nothing is dropped; or the newest checkpoint
happens to be of a time with the same inputs. -/
def Recoverable (J : JsonCodec) (monitor : ContextMonitor) (c : Conversation R)
    (i : UserInput) : Prop :=
  match i.route with
  | .agentic => DropsNothing J monitor i.compaction c.thread
  | _ => ∃ checkpoint, c.undo.undoStack.getLast? = some checkpoint
      ∧ checkpoint.userInputs = c.thread.userInputs

/-- The thread is idle between two messages. -/
structure AtRest (c : Conversation R) : Prop where
  control : c.machine.control = .idle
  state : c.thread.state = .idle
  limit : 0 < c.undo.maxCheckpoints

section Undoing

variable {D : Deps} {monitor : ContextMonitor} {c : Conversation R}

theorem restoreTurns_userInputs (n : Nat) (msgs : List ChatMessage) :
    (restoreTurns n msgs).map (·.userInput) = (msgs.filter (·.role == .user)).map (·.content) := by
  fun_induction restoreTurns n msgs with
  | case1 n => rfl
  | case2 n msg hrole | case3 n msg hrole => simp [hrole]
  | case4 =>
    rename_i hrole turn hnext ih
    simp [hrole, hnext, ih, turn, Turn.complete]
  | case5 =>
    rename_i hrole turn hnext ih
    simp [hrole, ih, turn]
  | case6 n msg next rest hrole ih => simp [hrole, ih]

theorem Thread.userInputs_of_heads {t t' : Thread} (h : t'.heads = t.heads) :
    t'.userInputs = t.userInputs := by
  have hmap : ∀ t : Thread, t.userInputs = t.heads.map (·.2) := by simp [userInputs, heads]
  rw [hmap, hmap, h]

/-- While the machine goes on, the heads and the undo manager stay. -/
theorem progress_run (steps : List (Command R)) (hsteps : ∀ s ∈ steps, s.order.isProgress = true) :
    (Run.run (Conversation.step D monitor) c steps).thread.heads = c.thread.heads
      ∧ (Run.run (Conversation.step D monitor) c steps).undo = c.undo := by
  induction steps generalizing c with
  | nil => exact ⟨rfl, rfl⟩
  | cons s _ ih =>
    obtain ⟨hs, hrest⟩ := forall_mem_cons.mp hsteps
    obtain ⟨hheads, hundo⟩ := ih (c := c.step D monitor s) hrest
    rw [run_cons, hheads, hundo]
    obtain ⟨env, order⟩ := s
    cases order with
    | agent _ hkind => exact ⟨step_heads _ hkind, rfl⟩
    | input | undo | redo | resume | compact | clear => cases hs

theorem Thread.truncateTurns_userInputs (t : Thread) (keep : Nat) :
    (t.truncateTurns keep).userInputs = t.userInputs ↔ t.turns.length ≤ keep := by
  rw [truncateTurns]
  split
  · rename_i hlt
    constructor
    · intro h
      have hlength := congrArg length h
      simp only [userInputs, length_map, length_mapIdx, length_drop] at hlength
      omega
    · intro hle
      omega
  · rename_i hge
    exact iff_of_true rfl (Nat.not_lt.mp hge)

theorem compact_spec (e : CompactionEnv) (t : Thread) (strategy : CompactionStrategy) :
    (∃ result, compact e t strategy = .ok result
        ∧ result.thread = t.truncateTurns (strategy.keepRecent e)
        ∧ (strategy.fails e = true → t.turns.length ≤ strategy.keepRecent e))
      ∨ ∃ err, compact e t strategy = .error err ∧ strategy.fails e = true := by
  cases hcompact : compact e t strategy with
  | ok result =>
    refine .inl ⟨result, rfl, compact_keeps hcompact, ?_⟩
    intro hfails
    cases strategy with
    | summarize =>
      by_contra hlength
      cases hsummary : e.summary with
      | ok => simp [fails, hsummary, Except.toOption] at hfails
      | error => simp [compact, hlength, hsummary, Except.map] at hcompact
    | truncate | moveToWorkspace => cases hfails
  | error err =>
    cases strategy with
    | summarize =>
      cases hsummary : e.summary with
      | error => simp [fails, hsummary, Except.toOption]
      | ok =>
        rw [compact, hsummary] at hcompact
        split at hcompact
        · cases hcompact
        · cases hcompact
    | truncate | moveToWorkspace => cases hcompact

theorem autoCompact_userInputs (J : JsonCodec) (e : CompactionEnv) (t : Thread) :
    (autoCompact J monitor e t).userInputs = t.userInputs ↔ DropsNothing J monitor e t := by
  rw [DropsNothing]
  cases hsuggest : monitor.suggestCompaction (t.messages J) with
  | none => simp [autoCompact, hsuggest]
  | some strategy =>
    rcases compact_spec e t strategy with ⟨result, hok, hthread, hfails⟩ | ⟨err, herror, hfails⟩
    · simp only [autoCompact, hsuggest, hok, hthread, truncateTurns_userInputs,
        Option.some.injEq, forall_eq']
      constructor
      · exact .inl
      · intro h
        rcases h with hlength | hfailed
        · exact hlength
        · exact hfails hfailed
    · simp [autoCompact, hsuggest, herror, hfails]

/-- After an input that went to the loop the newest checkpoint is of the
compacted thread. -/
theorem agenticTurn_undo (D : Deps) (monitor : ContextMonitor) (env : Env R) (hrest : AtRest c)
    (i : UserInput) :
    ∃ checkpoint, (c.agenticTurn D monitor env i).undo.undoStack.getLast? = some checkpoint
      ∧ checkpoint.messages
        = (autoCompact D.json monitor i.compaction c.thread).messages D.json := by
  have hlimit := hrest.limit
  refine ⟨(c.compacted (autoCompact D.json monitor i.compaction c.thread)).snapshot D.json env
    "Before turn ", ?_, rfl⟩
  show (drop (c.undo.undoStack.length + 1 - c.undo.maxCheckpoints)
    (c.undo.undoStack ++ [_])).getLast? = some _
  rw [getLast?_drop, if_neg (by simp; omega)]
  exact getLast?_concat

variable (env : Env R)

/-- An input answered from the cache or by a reflex adds its turn, and that is all. -/
theorem completedTurn_spec (hrest : AtRest c) (content response : String) :
    (c.completedTurn env content response).thread.userInputs = c.thread.userInputs ++ [content]
      ∧ (c.completedTurn env content response).undo = c.undo := by
  have hstate : c.thread.state = .idle := hrest.state
  rw [completedTurn]
  simp only [tryStartTurn, hstate]
  refine ⟨?_, rfl⟩
  refine (userInputs_of_heads (heads_completeTurn _ _ _)).trans ?_
  simp [userInputs]

theorem restored_userInputs (t : Thread) (now : Int) (checkpoint : Checkpoint) :
    (t.restoreFromMessages now checkpoint.messages).userInputs = checkpoint.userInputs :=
  restoreTurns_userInputs 0 checkpoint.messages

/-- Undo after an input answered without the loop. -/
theorem undo_completed_iff {after : Conversation R} {content : String}
    (hinputs : after.thread.userInputs = c.thread.userInputs ++ [content])
    (hundo : after.undo = c.undo) (hstate : after.thread.state ≠ .awaitingApproval)
    (undoEnv : Env R) :
    (after.processUndo D.json undoEnv).thread.userInputs = c.thread.userInputs
      ↔ ∃ checkpoint, c.undo.undoStack.getLast? = some checkpoint
        ∧ checkpoint.userInputs = c.thread.userInputs := by
  cases hlast : c.undo.undoStack.getLast? with
  | none =>
    have hempty : after.undo.undoStack = [] := by
      rw [hundo]
      exact getLast?_eq_none_iff.mp hlast
    rw [processUndo_of_empty hstate hempty, hinputs]
    simp
  | some checkpoint =>
    have hafter : after.undo.undoStack.getLast? = some checkpoint := by
      rw [hundo]
      exact hlast
    rw [(processUndo_spec hstate hafter).1, restored_userInputs]
    simp

theorem undo_exchange_iff (hrest : AtRest c) (x : Exchange R)
    (hcompletes : Completes D monitor c x) (undoEnv : Env R) :
    ((c.exchange D monitor x).processUndo D.json undoEnv).thread.userInputs = c.thread.userInputs
      ↔ Recoverable D.json monitor c x.input := by
  obtain ⟨hturn, -, hidle, -⟩ := hcompletes
  have hstate : (c.exchange D monitor x).thread.state ≠ .awaitingApproval := by
    rw [hidle]
    nofun
  obtain ⟨hheads, hundo⟩ : (c.exchange D monitor x).thread.heads
        = (c.step D monitor ⟨x.env, .input x.input⟩).thread.heads
      ∧ (c.exchange D monitor x).undo = (c.step D monitor ⟨x.env, .input x.input⟩).undo :=
    progress_run x.steps x.progress
  have hfirst : c.step D monitor ⟨x.env, .input x.input⟩
      = c.processUserInput D monitor x.env x.input := by
    simp only [Conversation.step, hrest.control]
  have hinput : c.thread.state = .idle := hrest.state
  rw [hfirst] at hheads hundo
  -- the ways without a checkpoint differ only in where the response is from
  have hcompleted : ∀ response, c.processUserInput D monitor x.env x.input
        = c.completedTurn x.env x.input.content response →
      (((c.exchange D monitor x).processUndo D.json undoEnv).thread.userInputs = c.thread.userInputs
        ↔ ∃ checkpoint, c.undo.undoStack.getLast? = some checkpoint
          ∧ checkpoint.userInputs = c.thread.userInputs) := by
    intro response hprocess
    obtain ⟨hinputs, hsame⟩ := completedTurn_spec x.env hrest x.input.content response
    rw [hprocess] at hheads hundo
    exact undo_completed_iff ((userInputs_of_heads hheads).trans hinputs)
      (hundo.trans hsame) hstate undoEnv
  cases hroute : x.input.route with
  | shadow cached =>
    simp only [Recoverable, hroute]
    exact hcompleted cached (by simp only [processUserInput, hinput, hroute])
  | reflex output =>
    simp only [Recoverable, hroute]
    exact hcompleted output (by simp only [processUserInput, hinput, hroute])
  | direct =>
    rw [hroute] at hturn
    cases hturn
  | agentic =>
    simp only [Recoverable, hroute]
    simp only [processUserInput, hinput, hroute] at hundo
    obtain ⟨checkpoint, hlast, hmessages⟩ := agenticTurn_undo D monitor x.env hrest x.input
    rw [← hundo] at hlast
    rw [(processUndo_spec hstate hlast).1, hmessages, userInputs_restore_messages,
      autoCompact_userInputs]

theorem completedTurn_undo (content response : String) :
    (c.completedTurn env content response).undo = c.undo := by
  rw [completedTurn]
  split
  · rfl
  · rfl

theorem processUserInput_limit (i : UserInput) :
    (c.processUserInput D monitor env i).undo.maxCheckpoints = c.undo.maxCheckpoints := by
  apply processUserInput_cases (P := fun c' => c'.undo.maxCheckpoints = c.undo.maxCheckpoints)
  · intro response
    rw [completedTurn_undo]
  · intro result
    rfl
  · rfl
  · rfl

theorem AtRest.exchange (hrest : AtRest c) {x : Exchange R}
    (hcompletes : Completes D monitor c x) : AtRest (c.exchange D monitor x) := by
  obtain ⟨-, hcontrol, hstate, -⟩ := hcompletes
  refine ⟨hcontrol, hstate, ?_⟩
  have hundo : (c.exchange D monitor x).undo
      = (c.step D monitor ⟨x.env, .input x.input⟩).undo := (progress_run x.steps x.progress).2
  simp only [Conversation.step, hrest.control] at hundo
  rw [hundo, processUserInput_limit]
  exact hrest.limit

end Undoing

/-- After any run of inputs that each end as a completed turn, an undo brings the
list of inputs back to what it was before the last one exactly if that one is
recoverable. -/
theorem last_input_undone_iff (D : Deps) (monitor : ContextMonitor) (c : Conversation R)
    (hrest : AtRest c) (earlier : List (Exchange R)) (last : Exchange R)
    (hcompletes : Guarded (exchange D monitor) (Completes D monitor) c
      (earlier ++ [last])) (undoEnv : Env R) :
    let before := run (exchange D monitor) c earlier
    ((before.exchange D monitor last).processUndo D.json undoEnv).thread.userInputs
        = before.thread.userInputs
      ↔ Recoverable D.json monitor before last.input := by
  obtain ⟨hearlier, hlast, -⟩ := guarded_append.mp hcompletes
  have hstep : ∀ (c : Conversation R) (x : Exchange R), AtRest c → Completes D monitor c x →
      AtRest (c.exchange D monitor x) :=
    fun _ _ h hx => h.exchange hx
  exact undo_exchange_iff (invariant_run hstep hrest hearlier) last hlast undoEnv

/-! ## Two inputs -/

def newConversation : Conversation Unit where
  machine := smallAgent

def agentCommand (kind : ActKind) (hkind : kind.isInput = false) : Command Unit :=
  ⟨smallEnv, .agent kind hkind⟩

def textSteps : List (Command Unit) :=
  let round := [agentCommand .main rfl, agentCommand (.reply (.ok (.text "hi"))) rfl]
  round ++ round ++ round

def helloExchange : Exchange Unit where
  env := smallEnv
  input := ⟨helloMessage, "hello", .agentic, ⟨.ok "", none⟩⟩
  steps := textSteps
  progress := by decide

theorem hello_undone :
    (((newConversation.exchange pipedDeps quietMonitor helloExchange).exchange pipedDeps
        quietMonitor helloExchange).processUndo pipedDeps.json smallEnv).thread.userInputs
      = ["hello"] := by
  have hundone := last_input_undone_iff pipedDeps quietMonitor newConversation
    ⟨rfl, rfl, by decide⟩ [helloExchange] helloExchange
    ⟨⟨rfl, rfl, rfl, _, rfl, rfl⟩, ⟨rfl, rfl, rfl, _, rfl, rfl⟩, trivial⟩ smallEnv
  exact hundone.mpr nofun

def cachedExchange : Exchange Unit where
  env := smallEnv
  input := ⟨helloMessage, "hello", .shadow "hi", ⟨.ok "", none⟩⟩
  steps := []
  progress := by decide

theorem cached_input_undoes_two :
    Guarded (exchange pipedDeps quietMonitor) (Completes pipedDeps quietMonitor)
        newConversation [helloExchange, cachedExchange]
      ∧ (newConversation.exchange pipedDeps quietMonitor helloExchange).thread.userInputs
        = ["hello"]
      ∧ (((newConversation.exchange pipedDeps quietMonitor helloExchange).exchange pipedDeps
          quietMonitor cachedExchange).processUndo pipedDeps.json smallEnv).thread.userInputs
        = [] :=
  ⟨⟨⟨rfl, rfl, rfl, _, rfl, rfl⟩, ⟨rfl, rfl, rfl, _, rfl, rfl⟩, trivial⟩, by decide, by decide⟩

end TitanClaw.Agent
