import TitanClaw.Agent.Transitions
import TitanClaw.Agent.Undo

/-! # Conversations

A thread with its undo manager, under everything a user can send: input by any
of its paths, approvals, undo, redo, resume, interrupt, compaction and clearing.
The loop and the approvals are the machine's; a message meets the thread only
when the machine is idle. -/

namespace TitanClaw.Agent

open Llm List Thread Machine

variable {R : Type}

/-! ## User input -/

/-- The way of an input that the thread's state admits. The cache, the
validation, the command router and the reflex registry decide it. -/
inductive InputRoute where
  /-- The shadow cache holds a response. -/
  | shadow (cached : String)
  /-- Rejected, or a command: answered without a turn. -/
  | direct (result : SubmissionResult)
  /-- A reflex tool has run. -/
  | reflex (output : String)
  | agentic

structure UserInput where
  message : IncomingMessage
  content : String
  route : InputRoute
  compaction : CompactionEnv

def autoCompact (J : JsonCodec) (monitor : ContextMonitor) (e : CompactionEnv) (t : Thread) :
    Thread :=
  match monitor.suggestCompaction (t.messages J) with
  | none => t
  | some strategy =>
      match compact e t strategy with
      | .ok result => result.thread
      | .error _ => t

namespace Conversation

def completedTurn (env : Env R) (c : Conversation R) (content response : String) : Conversation R :=
  match c.thread.tryStartTurn env.now content with
  | .error e => c.reply (.error e)
  | .ok thread =>
      { c with
        machine := { c.machine with
          thread := thread.completeTurn env.now response
          records := c.machine.records ++ [[]] } }.reply (.response response)

def agenticTurn (D : Deps) (monitor : ContextMonitor) (env : Env R) (c : Conversation R)
    (i : UserInput) : Conversation R :=
  let c := c.compacted (autoCompact D.json monitor i.compaction c.thread)
  let checkpoint := c.snapshot D.json env "Before turn "
  { c with
    machine := stepInput D env c.machine i.message i.content
    undo := c.undo.checkpoint checkpoint
    recorded := checkpoint :: c.recorded }

def processUserInput (D : Deps) (monitor : ContextMonitor) (env : Env R)
    (c : Conversation R) (i : UserInput) : Conversation R :=
  match c.thread.state with
  | .idle | .interrupted =>
      match i.route with
      | .shadow cached => c.completedTurn env i.content cached
      | .direct result => c.reply result
      | .reflex output => c.completedTurn env i.content output
      | .agentic => c.agenticTurn D monitor env i
  | _ => { c with machine := stepInput D env c.machine i.message i.content }

theorem processUserInput_cases {D : Deps} {monitor : ContextMonitor} {env : Env R}
    {c : Conversation R} {i : UserInput} {P : Conversation R → Prop}
    (hcompleted : ∀ response, P (c.completedTurn env i.content response))
    (hdirect : ∀ result, P (c.reply result)) (hagentic : P (c.agenticTurn D monitor env i))
    (hrefused : P { c with machine := stepInput D env c.machine i.message i.content }) :
    P (c.processUserInput D monitor env i) := by
  have hroutes : P (match i.route with
      | .shadow cached => c.completedTurn env i.content cached
      | .direct result => c.reply result
      | .reflex output => c.completedTurn env i.content output
      | .agentic => c.agenticTurn D monitor env i) := by
    split
    · exact hcompleted _
    · exact hdirect _
    · exact hcompleted _
    · exact hagentic
  unfold processUserInput
  split
  · exact hroutes
  · exact hroutes
  · exact hrefused

end Conversation

def ActKind.isInput : ActKind → Bool
  | .input _ _ => true
  | _ => false

inductive Order where
  /-- The machine goes on, or gets an approval or an interrupt. -/
  | agent (kind : ActKind) (hkind : kind.isInput = false)
  | input (i : UserInput)
  | undo
  | redo
  | resume (checkpointId : String)
  | compact (e : CompactionEnv)
  | clear

structure Command (R : Type) where
  env : Env R
  order : Order

/-- One step; a message that comes while the machine is busy changes nothing yet. -/
def Conversation.step (D : Deps) (monitor : ContextMonitor) (c : Conversation R)
    (command : Command R) : Conversation R :=
  match command.order, c.machine.control with
  | .agent kind _, _ => { c with machine := Agent.step D c.machine ⟨command.env, kind⟩ }
  | .input i, .idle => c.processUserInput D monitor command.env i
  | .undo, .idle => c.processUndo D.json command.env
  | .redo, .idle => c.processRedo D.json command.env
  | .resume checkpointId, .idle => c.processResume command.env checkpointId
  | .compact e, .idle => c.processCompact D.json monitor e
  | .clear, .idle => c.processClear command.env
  | _, _ => c

/-! ## The heads of the turns

The number and the input of each turn. Only the start of a turn and the commands
that rebuild the turns change them. -/

def Thread.heads (t : Thread) : List (Nat × String) :=
  t.turns.map fun turn => (turn.turnNumber, turn.userInput)

section Heads

variable {D : Deps} {env : Env R} {m : Machine R}

theorem Thread.heads_withLastTurn {f : Turn → Turn}
    (hnumber : ∀ turn, (f turn).turnNumber = turn.turnNumber)
    (hinput : ∀ turn, (f turn).userInput = turn.userInput) (t : Thread) :
    (t.withLastTurn f).heads = t.heads := by
  have hmap := modifyLast_map (g := fun head => head)
    (h := fun turn : Turn => (turn.turnNumber, turn.userInput))
    (fun turn => by rw [hnumber, hinput]) t.turns
  exact hmap.trans (modify_id _ _)

variable (t : Thread) (now : Int)

@[simp] theorem Thread.heads_completeTurn (response : String) :
    (t.completeTurn now response).heads = t.heads :=
  t.heads_withLastTurn (f := (·.complete response)) (fun _ => rfl) fun _ => rfl

@[simp] theorem Thread.heads_failTurn (error : String) : (t.failTurn now error).heads = t.heads :=
  t.heads_withLastTurn (f := (·.fail error)) (fun _ => rfl) fun _ => rfl

@[simp] theorem Thread.heads_interrupt : (t.interrupt now).heads = t.heads :=
  t.heads_withLastTurn (f := Turn.interrupt) (fun _ => rfl) fun _ => rfl

theorem Thread.tryStartTurn_ok {t t' : Thread} {now : Int} {input : String}
    (h : t.tryStartTurn now input = .ok t') :
    t'.heads = t.heads ++ [(t.turns.length, input)]
      ∧ t'.pendingApproval = t.pendingApproval ∧ t.state ≠ .awaitingApproval := by
  cases hstate : t.state with
  | idle | interrupted =>
    simp only [tryStartTurn, hstate] at h
    cases h
    exact ⟨by simp [heads], rfl, by simp⟩
  | processing | awaitingApproval | completed => simp [tryStartTurn, hstate] at h

@[simp] theorem Thread.heads_awaitApproval (p : PendingApproval) :
    (t.awaitApproval now p).heads = t.heads := rfl

@[simp] theorem Thread.heads_clearPendingApproval :
    (t.clearPendingApproval now).heads = t.heads := rfl

@[simp] theorem Thread.heads_enterAuthMode (name : String) :
    (t.enterAuthMode now name).heads = t.heads := rfl

variable (m)

@[simp] theorem Machine.heads_recordOutcome (pos : Nat) (o : CallOutcome) :
    (m.recordOutcome pos o).thread.heads = m.thread.heads := by
  apply heads_withLastTurn
  · intro turn
    cases o with
    | output | error => rfl
  · intro turn
    cases o with
    | output | error => rfl

variable (calls : List ToolCall)

theorem Turn.recordToolCalls_head (turn : Turn) :
    (calls.foldl (fun t tc => t.recordToolCall tc.id tc.name tc.arguments) turn).turnNumber
        = turn.turnNumber
      ∧ (calls.foldl (fun t tc => t.recordToolCall tc.id tc.name tc.arguments) turn).userInput
        = turn.userInput := by
  induction calls generalizing turn with
  | nil => exact ⟨rfl, rfl⟩
  | cons tc _ ih => exact ih (turn.recordToolCall tc.id tc.name tc.arguments)

@[simp] theorem Machine.heads_recordCalls : (m.recordCalls calls).thread.heads = m.thread.heads :=
  m.thread.heads_withLastTurn (fun turn => (turn.recordToolCalls_head calls).1)
    fun turn => (turn.recordToolCalls_head calls).2

@[simp] theorem Machine.heads_endPending (pos : Nat) (toolError message : String) :
    (m.endPending now pos toolError message).thread.heads = m.thread.heads := by
  simp [endPending]

@[simp] theorem Machine.heads_cancelPending (toolError message : String) :
    (m.cancelPending now toolError message).thread.heads = m.thread.heads := by
  simp [cancelPending]

@[simp] theorem Machine.heads_answer (f : Frame R) (tc : ToolCall)
    (rest : List ToolCall) (pos : Nat) (content : String) (ran : Option JsonValue) :
    (m.answer f tc rest pos content ran).thread.heads = m.thread.heads := rfl

variable {m}

@[simp] theorem Machine.heads_returnFromLoop (D : Deps) (env : Env R) (m : Machine R)
    (f : Frame R) (result : Except Error AgenticLoopResult) :
    (m.returnFromLoop D env f result).thread.heads = m.thread.heads := by
  unfold returnFromLoop
  split
  · rfl
  split
  · simp
  · simp
  · simp

variable (f : Frame R)

theorem loopTop_heads : (loopTop D env m f).thread.heads = m.thread.heads := by
  rw [loopTop]
  split
  · simp
  split
  · simp
  split
  · simp
  · rfl

theorem loopReply_heads (reply : Except String RespondResult) :
    (loopReply D env m f reply).thread.heads = m.thread.heads := by
  unfold loopReply
  split
  · simp
  · split
    · simp
    split
    · rfl
    · simp
  · simp

theorem loopCall_heads (stage : Stage) (tc : ToolCall) (rest : List ToolCall)
    (pos : Nat) : (stepLoop D env m f (.call stage tc rest pos)).thread.heads = m.thread.heads := by
  cases stage with
  | route =>
    simp only [stepLoop, loopRoute]
    split
    · rfl
    · simp
  | hooks =>
    simp only [stepLoop, loopHooks]
    split
    · simp
    · rfl
    · rfl
  | approve =>
    simp only [stepLoop, loopApprove]
    split
    · simp
    · rfl
  | execute =>
    simp only [stepLoop, loopExecute]
    split
    · rfl
    split
    · rfl
    · rfl
  | running => rfl
  | record =>
    simp only [stepLoop, loopRecord]
    split
    · simp
    · simp

theorem stepResume_heads (r : Resume) (stage : ResumeStage) :
    (stepResume D env m r stage).thread.heads = m.thread.heads := by
  cases stage with
  | route =>
    simp only [stepResume, resumeRoute]
    split
    · rfl
    · simp
  | hooks =>
    simp only [stepResume, resumeHooks]
    split
    · rfl
    · rfl
    · simp
  | recheck =>
    simp only [stepResume, resumeRecheck]
    split
    · simp
    · rfl
  | execute =>
    simp only [stepResume, resumeExecute]
    split
    · rfl
    · rfl
  | running => rfl
  | record =>
    simp only [stepResume, resumeRecord]
    split
    · simp
    · simp

theorem stepEarly_thread (i : Nat) : (stepEarly D env m i).thread = m.thread := by
  have h : EarlyStep D env m i (stepEarly D env m i) := stepEarly_step
  generalize stepEarly D env m i = m' at h ⊢
  cases h with
  | none | skipped | started | executed => rfl

theorem stepInterrupt_heads : (stepInterrupt env m).thread.heads = m.thread.heads := by
  rw [stepInterrupt]
  split
  · exact m.thread.heads_interrupt env.now
  · simp
  · rfl

variable (message : IncomingMessage)

theorem stepApproval_heads (requestId : Option String) (approved always : Bool) :
    (stepApproval env m message requestId approved always).thread.heads = m.thread.heads := by
  rw [stepApproval]
  split
  · rfl
  split
  · simp
  split
  · rfl
  split
  · rfl
  split
  · rfl
  split
  · rfl
  · simp

/-- Whatever the machine does short of an input, the heads stay. -/
theorem step_heads (a : Act R) (hkind : a.kind.isInput = false) :
    (step D m a).thread.heads = m.thread.heads := by
  rw [step]
  split
  next f at_ hmain hcontrol =>
    cases at_ with
    | top => exact loopTop_heads f
    | waiting => rfl
    | call stage tc rest pos => exact loopCall_heads f stage tc rest pos
  next r stage hmain hcontrol => exact stepResume_heads r stage
  next i hearly => exact congrArg heads (stepEarly_thread i)
  next => rfl
  next result f hreply hcontrol => exact loopReply_heads f result
  next message content hinput hcontrol => simp [hinput, ActKind.isInput] at hkind
  next => exact stepApproval_heads _ _ _ _
  next => exact stepInterrupt_heads
  next => rfl
  next => rfl

theorem stepInput_heads (content : String) :
    (stepInput D env m message content).thread.heads = m.thread.heads
      ++ if m.thread.state = .idle ∨ m.thread.state = .interrupted
        then [(m.thread.turns.length, content)] else [] := by
  rw [stepInput]
  split
  · rename_i hexpired
    simp [hexpired.1]
  · cases hstate : m.thread.state with
    | processing | awaitingApproval | completed => simp [reply]
    | idle | interrupted => simp [tryStartTurn, hstate, heads]

end Heads

/-! ## Turn numbers -/

/-- Every turn carries its position. -/
def Thread.Numbered (t : Thread) : Prop :=
  ∀ (i : Nat) (head : Nat × String), t.heads[i]? = some head → head.1 = i

theorem Thread.numbered_iff {t : Thread} :
    t.Numbered ↔ ∀ (i : Nat) (turn : Turn), t.turns[i]? = some turn → turn.turnNumber = i := by
  constructor
  · intro h i turn hturn
    exact h i (turn.turnNumber, turn.userInput) (by simp [heads, hturn])
  · intro h i head hhead
    rw [heads, getElem?_map] at hhead
    obtain ⟨turn, hturn, rfl⟩ := Option.map_eq_some_iff.mp hhead
    exact h i turn hturn

theorem Thread.Numbered.of_heads {t t' : Thread} (h : t.Numbered) (hheads : t'.heads = t.heads) :
    t'.Numbered := by
  rw [Numbered, hheads]
  exact h

theorem Thread.Numbered.of_append {t t' : Thread} {input : String} (h : t.Numbered)
    (hheads : t'.heads = t.heads ++ [(t.turns.length, input)]) : t'.Numbered := by
  have hlength : t.heads.length = t.turns.length := length_map _
  intro i head hhead
  rw [hheads] at hhead
  rcases Nat.lt_or_ge i t.heads.length with hlt | hge
  · rw [getElem?_append_left hlt] at hhead
    exact h i head hhead
  · rw [getElem?_append_right hge, getElem?_singleton] at hhead
    split at hhead
    · cases hhead
      show t.turns.length = i
      omega
    · cases hhead

theorem restoreTurns_numbered {n i : Nat} {msgs : List ChatMessage} {turn : Turn}
    (h : (restoreTurns n msgs)[i]? = some turn) : turn.turnNumber = n + i := by
  -- the recursion of `restoreTurns`: a turn is made at position 0, or later in the rest
  have hcons : ∀ {n i : Nat} {first : Turn} {rest : List Turn}, first.turnNumber = n →
      (∀ {i}, rest[i]? = some turn → turn.turnNumber = n + 1 + i) →
      (first :: rest)[i]? = some turn → turn.turnNumber = n + i := by
    intro n i first rest hfirst hrest hturn
    cases i with
    | zero =>
      cases hturn
      exact hfirst
    | succ =>
      have := hrest hturn
      omega
  fun_induction restoreTurns n msgs generalizing i with
  | case1 | case3 => cases h
  | case2 => exact hcons rfl (fun hnone => by cases hnone) h
  | case4 | case5 =>
    rename_i ih
    exact hcons rfl ih h
  | case6 _ _ _ _ _ ih => exact ih h

theorem Thread.numbered_restore (t : Thread) (now : Int) (msgs : List ChatMessage) :
    (t.restoreFromMessages now msgs).Numbered := by
  rw [numbered_iff]
  intro i turn hturn
  have hnumber := restoreTurns_numbered hturn
  omega

theorem Thread.Numbered.truncate {t : Thread} (h : t.Numbered) (keep : Nat) :
    (t.truncateTurns keep).Numbered := by
  rw [truncateTurns]
  split
  · rw [numbered_iff]
    intro i turn hturn
    rw [getElem?_mapIdx] at hturn
    obtain ⟨old, -, rfl⟩ := Option.map_eq_some_iff.mp hturn
    rfl
  · exact h

/-! ## Every state of a conversation -/

/-- Something pends exactly while the thread awaits approval, and the turns carry
their positions. -/
structure Conversation.Sound (c : Conversation R) : Prop where
  settled : Settled c.machine
  numbered : c.thread.Numbered

section Sound

variable {D : Deps} {monitor : ContextMonitor} {env : Env R} {c : Conversation R}

theorem compact_keeps {e : CompactionEnv} {t : Thread} {strategy : CompactionStrategy}
    {result : Compacted} (h : compact e t strategy = .ok result) :
    result.thread = t.truncateTurns (strategy.keepRecent e) := by
  cases strategy with
  | summarize =>
    rw [compact] at h
    split at h
    · cases h
      rfl
    · cases hsummary : e.summary with
      | error => simp [hsummary, Except.map] at h
      | ok =>
        rw [hsummary] at h
        cases h
        rfl
  | truncate | moveToWorkspace =>
    cases h
    rfl

theorem autoCompact_cases (J : JsonCodec) (monitor : ContextMonitor) (e : CompactionEnv)
    (t : Thread) :
    autoCompact J monitor e t = t ∨ ∃ keep, autoCompact J monitor e t = t.truncateTurns keep := by
  unfold autoCompact
  split
  · exact .inl rfl
  split
  · rename_i hcompact
    exact .inr ⟨_, compact_keeps hcompact⟩
  · exact .inl rfl

theorem Thread.truncateTurns_rest (t : Thread) (keep : Nat) :
    (t.truncateTurns keep).pendingApproval = t.pendingApproval
      ∧ (t.truncateTurns keep).state = t.state := by
  rw [truncateTurns]
  split
  · exact ⟨rfl, rfl⟩
  · exact ⟨rfl, rfl⟩

theorem Settled.with_thread {m m' : Machine R} (h : Settled m) (hcontrol : m'.control = m.control)
    (hpending : m'.thread.pendingApproval = m.thread.pendingApproval)
    (hstate : m'.thread.state = m.thread.state) : Settled m' where
  pending := by
    rw [hpending, hstate]
    exact h.pending
  running hne := by
    rw [hstate]
    exact h.running (by rwa [hcontrol] at hne)

section

variable (h : c.Sound)

include h

theorem Conversation.Sound.reply (r : SubmissionResult) : (c.reply r).Sound :=
  ⟨h.settled.with_thread rfl rfl rfl, h.numbered⟩

theorem Conversation.Sound.truncated (keep : Nat) :
    (c.compacted (c.thread.truncateTurns keep)).Sound := by
  obtain ⟨hpending, hstate⟩ := c.thread.truncateTurns_rest keep
  exact ⟨h.settled.with_thread rfl hpending hstate, h.numbered.truncate keep⟩

/-- A checkpoint is put back only while nothing pends. -/
theorem Conversation.Sound.restored (hcontrol : c.machine.control = .idle)
    (hstate : c.thread.state ≠ .awaitingApproval) (checkpoint : Checkpoint)
    (undo : UndoManager) : (c.restored env checkpoint undo).Sound := by
  have hpending := h.settled.pending_none hstate
  refine ⟨⟨?_, fun hne => absurd hcontrol hne⟩, c.thread.numbered_restore _ _⟩
  show c.thread.pendingApproval.isSome ↔ ThreadState.idle = .awaitingApproval
  simp [hpending]

theorem Conversation.Sound.unlessAwaiting {refusal : String}
    {go : Conversation R} (hgo : c.thread.state ≠ .awaitingApproval → go.Sound) :
    (c.unlessAwaiting env refusal go).Sound := by
  rw [Conversation.unlessAwaiting]
  split
  · split
    · refine ⟨.of_ended ⟨rfl, rfl, rfl⟩ rfl, ?_⟩
      exact h.numbered.of_heads (heads_cancelPending _ _ _ _)
    · exact h.reply _
  · rename_i hstate
    exact hgo hstate

theorem Conversation.Sound.takeBack (hcontrol : c.machine.control = .idle)
    {J : JsonCodec} {refusal nothing failure : String} {can : Bool}
    {take : Checkpoint → Option (Checkpoint × UndoManager)}
    {done : Checkpoint → UndoManager → String} :
    (c.takeBack J env refusal nothing failure can take done).Sound := by
  apply h.unlessAwaiting
  intro hstate
  have hrecorded : Sound { c with recorded := c.snapshot J env "Turn " :: c.recorded } :=
    ⟨h.settled, h.numbered⟩
  split
  · exact h.reply _
  split
  · exact (hrecorded.restored hcontrol hstate _ _).reply _
  · exact h.reply _

theorem Conversation.Sound.processResume (hcontrol : c.machine.control = .idle)
    (checkpointId : String) : (c.processResume env checkpointId).Sound := by
  apply h.unlessAwaiting
  intro hstate
  split
  · exact (h.restored hcontrol hstate _ _).reply _
  · exact h.reply _

theorem Conversation.Sound.processCompact (J : JsonCodec) (e : CompactionEnv) :
    (c.processCompact J monitor e).Sound := by
  simp only [Conversation.processCompact]
  split
  · rename_i result hcompact
    rw [compact_keeps hcompact]
    exact (h.truncated _).reply _
  · exact h.reply _

end

theorem Conversation.sound_processClear (hcontrol : c.machine.control = .idle) :
    (c.processClear env).Sound := by
  refine ⟨.of_ended ⟨rfl, rfl, rfl⟩ hcontrol, ?_⟩
  intro i head hhead
  cases hhead

variable (h : c.Sound)

include h

section

variable (hcontrol : c.machine.control = .idle)

include hcontrol

theorem Conversation.Sound.completedTurn
    (content response : String) : (c.completedTurn env content response).Sound := by
  rw [Conversation.completedTurn]
  split
  · exact h.reply _
  rename_i thread hstart
  obtain ⟨hheads, hpending, hstate⟩ := tryStartTurn_ok hstart
  have hnone := h.settled.pending_none hstate
  apply Sound.reply
  refine ⟨.of_ended ⟨rfl, hpending.trans hnone, rfl⟩ hcontrol, ?_⟩
  exact h.numbered.of_append ((thread.heads_completeTurn _ _).trans hheads)

theorem Conversation.Sound.stepInput (D : Deps) (env : Env R) (i : UserInput) :
    Sound { c with machine := stepInput D env c.machine i.message i.content } := by
  refine ⟨(stepInput_step (D := D) (a := ⟨env, .input i.message i.content⟩) h.settled
    hcontrol).settled h.settled, ?_⟩
  have hheads : (Agent.stepInput D env c.machine i.message i.content).thread.heads = _ :=
    stepInput_heads i.message i.content
  split at hheads
  · exact h.numbered.of_append hheads
  rw [append_nil] at hheads
  exact h.numbered.of_heads hheads

theorem Conversation.Sound.agenticTurn (i : UserInput) : (c.agenticTurn D monitor env i).Sound := by
  have hcompacted : (c.compacted (autoCompact D.json monitor i.compaction c.thread)).Sound := by
    rcases autoCompact_cases D.json monitor i.compaction c.thread with hsame | ⟨keep, hkeep⟩
    · rw [hsame]
      exact ⟨h.settled.with_thread rfl rfl rfl, h.numbered⟩
    · rw [hkeep]
      exact h.truncated keep
  have hstarted := hcompacted.stepInput hcontrol D env i
  exact ⟨hstarted.settled, hstarted.numbered⟩

theorem Conversation.Sound.processUserInput (i : UserInput) :
    (c.processUserInput D monitor env i).Sound :=
  processUserInput_cases (fun _ => h.completedTurn hcontrol _ _) (fun _ => h.reply _)
    (h.agenticTurn hcontrol i) (h.stepInput hcontrol D env i)

end

theorem Conversation.Sound.step (command : Command R) : (c.step D monitor command).Sound := by
  rw [Conversation.step]
  split
  · rename_i kind hkind _
    exact ⟨step_settled h.settled _, h.numbered.of_heads (step_heads _ hkind)⟩
  · exact h.processUserInput ‹_› _
  · exact h.takeBack ‹_›
  · exact h.takeBack ‹_›
  · exact h.processResume ‹_› _
  · exact h.processCompact _ _
  · exact sound_processClear ‹_›
  · exact h

end Sound

/-- In every run from a new thread, or from one loaded with its history, the
thread awaits approval exactly while one pends, and the turns carry their
positions. -/
theorem thread_state_fits_always (D : Deps) (monitor : ContextMonitor) (id : String) (now : Int)
    (history : List ChatMessage) (undo : UndoManager) (commands : List (Command R)) :
    let c := Run.run (Conversation.step D monitor)
      { machine := { thread := { id : Thread }.restoreFromMessages now history }, undo } commands
    (c.thread.state = .awaitingApproval ↔ c.thread.pendingApproval.isSome)
      ∧ ∀ (i : Nat) (turn : Turn), c.thread.turns[i]? = some turn → turn.turnNumber = i := by
  intro c
  have hstep : ∀ (c : Conversation R) (command : Command R), c.Sound →
      (c.step D monitor command).Sound := fun _ command h => h.step command
  have hc : c.Sound := by
    apply Run.invariant_always hstep
    exact ⟨.of_ended ⟨rfl, rfl, rfl⟩ rfl, numbered_restore _ now history⟩
  exact ⟨hc.settled.pending.symm, numbered_iff.mp hc.numbered⟩

def quietMonitor : ContextMonitor where
  estimateTokens _ := 0
  usagePercent _ := "0.0"
  suggestCompaction _ := none

end TitanClaw.Agent
