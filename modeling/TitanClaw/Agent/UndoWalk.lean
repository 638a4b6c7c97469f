import TitanClaw.Agent.Undo
import TitanClaw.Lib.Run

/-! # Walking along the checkpoints

Undo and redo move the current state along one line of checkpoints: each takes a
checkpoint from one stack and leaves the current state on the other. As long as
the two stacks together fit the capacity nothing is trimmed on the way, so a walk
back can be walked forth again. -/

namespace TitanClaw.Agent

open Llm List Option Run

abbrev ConversationState := Nat × List ChatMessage

def Checkpoint.state (c : Checkpoint) : ConversationState := (c.turnNumber, c.messages)

def Checkpoint.ofCurrent (id : String) (current : ConversationState) : Checkpoint :=
  ⟨id, current.1, current.2, "Turn " ++ toString current.1⟩

namespace UndoManager

/-- A new manager with this capacity. -/
def withMaxCheckpoints (max : Nat) : UndoManager := { maxCheckpoints := max }

variable (m : UndoManager)

def redoCount : Nat := m.redoStack.length

/-- The steps that can be taken in one direction or the other. -/
def total : Nat := m.undoCount + m.redoCount

/-- An operation, with the id of the checkpoint it makes. -/
inductive Op where
  | checkpoint (id : String) (current : ConversationState) (description : String)
  | undo (id : String) (current : ConversationState)
  | redo (id : String) (current : ConversationState)
  | restore (checkpointId : String)

/-- The manager after an operation; one that finds no checkpoint changes nothing. -/
def apply : Op → UndoManager
  | .checkpoint id current description => m.checkpoint ⟨id, current.1, current.2, description⟩
  | .undo id current => ((m.undo (.ofCurrent id current)).map Prod.snd).getD m
  | .redo id current => ((m.redo (.ofCurrent id current)).map Prod.snd).getD m
  | .restore checkpointId => ((m.restore checkpointId).map Prod.snd).getD m

/-! ## Single operations -/

section Single

variable {m m' : UndoManager} {current checkpoint : Checkpoint}

theorem pushUndo_of_room (h : m.undoStack.length < m.maxCheckpoints) :
    (m.pushUndo checkpoint).undoStack = m.undoStack ++ [checkpoint] := by
  have hkeep : m.undoStack.length + 1 - m.maxCheckpoints = 0 := by omega
  show (m.undoStack ++ [checkpoint]).drop _ = _
  rw [hkeep, drop_zero]

theorem undo_spec (h : m.undo current = some (checkpoint, m')) :
    m.undoStack = m'.undoStack ++ [checkpoint] ∧ m'.redoStack = m.redoStack ++ [current]
      ∧ m'.maxCheckpoints = m.maxCheckpoints := by
  obtain ⟨last, hlast, heq⟩ := map_eq_some_iff.mp h
  cases heq
  refine ⟨?_, rfl, rfl⟩
  show m.undoStack = m.undoStack.take (m.undoStack.length - 1) ++ [checkpoint]
  rw [← dropLast_eq_take]
  exact (dropLast_append_getLast? checkpoint hlast).symm

theorem redo_spec (hroom : m.total ≤ m.maxCheckpoints)
    (h : m.redo current = some (checkpoint, m')) :
    m.redoStack = m'.redoStack ++ [checkpoint] ∧ m'.undoStack = m.undoStack ++ [current]
      ∧ m'.maxCheckpoints = m.maxCheckpoints := by
  obtain ⟨last, hlast, heq⟩ := map_eq_some_iff.mp h
  cases heq
  have hsplit := (dropLast_append_getLast? checkpoint hlast).symm
  refine ⟨hsplit, pushUndo_of_room ?_, rfl⟩
  -- the checkpoint that leaves the redo stack makes the room
  have hlen : m.redoStack.length = m.redoStack.dropLast.length + 1 := by
    rw [hsplit, dropLast_concat, length_append, length_singleton]
  simp only [total, undoCount, redoCount] at hroom
  show m.undoStack.length < m.maxCheckpoints
  omega

theorem restore_spec {checkpointId : String} (h : m.restore checkpointId = some (checkpoint, m')) :
    m'.undoStack.length ≤ m.undoStack.length ∧ m'.redoStack = []
      ∧ m'.maxCheckpoints = m.maxCheckpoints := by
  simp only [restore] at h
  split at h
  · cases h
  obtain ⟨found, -, heq⟩ := map_eq_some_iff.mp h
  cases heq
  exact ⟨length_take_le' _ _, rfl, rfl⟩

theorem undo_total (h : m.undo current = some (checkpoint, m')) : m'.total = m.total := by
  obtain ⟨hundo, hredo, -⟩ := undo_spec h
  simp only [total, undoCount, redoCount, hundo, hredo, length_append, length_singleton]
  omega

theorem redo_total (hroom : m.total ≤ m.maxCheckpoints)
    (h : m.redo current = some (checkpoint, m')) : m'.total = m.total := by
  obtain ⟨hredo, hundo, -⟩ := redo_spec hroom h
  simp only [total, undoCount, redoCount, hundo, hredo, length_append, length_singleton]
  omega

theorem exists_undo (h : 0 < m.undoCount) (current : Checkpoint) :
    ∃ checkpoint m', m.undo current = some (checkpoint, m') := by
  have hcan : m.canUndo = true := by
    cases hstack : m.undoStack with
    | nil => simp [undoCount, hstack] at h
    | cons => simp [canUndo, hstack]
  obtain ⟨checkpoint, hlast⟩ := exists_getLast? hcan
  exact ⟨checkpoint, _, by rw [undo, hlast]; rfl⟩

end Single

theorem apply_undo_total (id : String) (current : ConversationState) :
    (m.apply (.undo id current)).total = m.total := by
  rw [apply]
  cases h : m.undo (.ofCurrent id current) with
  | none => rfl
  | some => exact undo_total h

theorem apply_redo_total {m : UndoManager} (hroom : m.total ≤ m.maxCheckpoints) (id : String)
    (current : ConversationState) : (m.apply (.redo id current)).total = m.total := by
  rw [apply]
  cases h : m.redo (.ofCurrent id current) with
  | none => rfl
  | some => exact redo_total hroom h

/-- No operation changes the capacity, and none lets the stacks outgrow it. -/
theorem apply_bounded {n : Nat} (m : UndoManager) (op : Op)
    (h : m.maxCheckpoints = n ∧ m.total ≤ n) :
    (m.apply op).maxCheckpoints = n ∧ (m.apply op).total ≤ n := by
  obtain ⟨rfl, hroom⟩ := h
  cases op with
  | checkpoint id current description =>
    -- the redo stack is cleared, and the undo stack alone is trimmed to the capacity
    exact ⟨rfl, (m.apply (.checkpoint id current description)).bounded⟩
  | undo id current =>
    refine ⟨?_, (apply_undo_total m id current).trans_le hroom⟩
    rw [apply]
    cases h : m.undo (.ofCurrent id current) with
    | none => rfl
    | some => exact (undo_spec h).2.2
  | redo id current =>
    refine ⟨?_, (apply_redo_total hroom id current).trans_le hroom⟩
    rw [apply]
    cases h : m.redo (.ofCurrent id current) with
    | none => rfl
    | some => exact (redo_spec hroom h).2.2
  | restore checkpointId =>
    rw [apply]
    cases h : m.restore checkpointId with
    | none => exact ⟨rfl, hroom⟩
    | some r =>
      obtain ⟨hundo, hredo, hmax⟩ := restore_spec h
      refine ⟨hmax, ?_⟩
      show r.2.undoStack.length + r.2.redoStack.length ≤ m.maxCheckpoints
      rw [hredo, length_nil]
      exact (Nat.add_zero _).trans_le (hundo.trans m.bounded)

theorem run_bounded (n : Nat) (ops : List Op) :
    (run apply (withMaxCheckpoints n) ops).maxCheckpoints = n
      ∧ (run apply (withMaxCheckpoints n) ops).total ≤ n := by
  have hstart : (withMaxCheckpoints n).maxCheckpoints = n ∧ (withMaxCheckpoints n).total ≤ n :=
    ⟨rfl, Nat.zero_le n⟩
  exact invariant_always apply_bounded hstart ops

/-! ## Walks -/

/-- Take one step after the other, each from the state the step before returned;
the ids are those of the checkpoints left behind. -/
def walk (move : UndoManager → Checkpoint → Option (Checkpoint × UndoManager)) :
    List String → ConversationState × UndoManager → Option (ConversationState × UndoManager)
  | [], s => some s
  | id :: ids, (current, m) =>
      (move m (.ofCurrent id current)).bind fun r => walk move ids (r.1.state, r.2)

theorem walk_append {move : UndoManager → Checkpoint → Option (Checkpoint × UndoManager)}
    (ids ids' : List String) (s : ConversationState × UndoManager) :
    walk move (ids ++ ids') s = (walk move ids s).bind (walk move ids') := by
  induction ids generalizing s with
  | nil => rfl
  | cons _ _ ih => simp only [cons_append, walk, bind_assoc, ih]

/-- The same states on both stacks; the checkpoints may have other ids. -/
structure SameStates (m m' : UndoManager) : Prop where
  undo : m'.undoStack.map Checkpoint.state = m.undoStack.map Checkpoint.state
  redo : m'.redoStack.map Checkpoint.state = m.redoStack.map Checkpoint.state
  max : m'.maxCheckpoints = m.maxCheckpoints

theorem SameStates.total {m m' : UndoManager} (h : SameStates m m') : m'.total = m.total := by
  have hundo := congrArg length h.undo
  have hredo := congrArg length h.redo
  rw [length_map, length_map] at hundo hredo
  show m'.undoStack.length + m'.redoStack.length = m.undoStack.length + m.redoStack.length
  rw [hundo, hredo]

theorem redo_of_undo {m mid back : UndoManager} {current checkpoint : Checkpoint} (id : String)
    (hroom : m.total ≤ m.maxCheckpoints) (hundo : m.undo current = some (checkpoint, mid))
    (hback : SameStates mid back) :
    ∃ (found : Checkpoint) (m' : UndoManager),
      back.redo (.ofCurrent id checkpoint.state) = some (found, m')
        ∧ found.state = current.state ∧ SameStates m m' := by
  obtain ⟨hundoStack, hredoStack, hmax⟩ := undo_spec hundo
  -- the newest state to redo is the one the undo left
  have hredo : back.redoStack.map Checkpoint.state
      = m.redoStack.map Checkpoint.state ++ [current.state] := by
    rw [hback.redo, hredoStack, map_append, map_singleton]
  obtain ⟨rest, last, hsplit, hrest, hlast⟩ := map_eq_append_iff.mp hredo
  obtain ⟨found, rfl, hfound⟩ := map_eq_singleton_iff.mp hlast
  obtain ⟨m', hstep⟩ : ∃ m', back.redo (.ofCurrent id checkpoint.state) = some (found, m') :=
    ⟨_, by rw [redo, hsplit, getLast?_concat]; rfl⟩
  have hbackRoom : back.total ≤ back.maxCheckpoints := by
    rw [hback.total, hback.max, undo_total hundo, hmax]
    exact hroom
  obtain ⟨hredo', hundo', hmax'⟩ := redo_spec hbackRoom hstep
  have hrest' : m'.redoStack = rest := (append_left_inj [found]).mp (hredo'.symm.trans hsplit)
  refine ⟨found, m', hstep, hfound, ?_, ?_, ?_⟩
  · rw [hundo', map_append, hback.undo, hundoStack, map_append]
    rfl
  · rw [hrest', hrest]
  · rw [hmax', hback.max, hmax]

theorem walk_redo_undo {m : UndoManager} {current : ConversationState}
    {undoIds redoIds : List String} (hroom : m.total ≤ m.maxCheckpoints)
    (hlen : redoIds.length = undoIds.length) (hk : undoIds.length ≤ m.undoCount) :
    ∃ (mid : ConversationState × UndoManager) (m' : UndoManager),
      walk undo undoIds (current, m) = some mid ∧ walk redo redoIds mid = some (current, m')
        ∧ SameStates m m' := by
  -- the first undo is taken back by the last redo
  induction undoIds generalizing m current redoIds with
  | nil =>
    obtain rfl := length_eq_zero_iff.mp hlen
    exact ⟨(current, m), m, rfl, rfl, rfl, rfl, rfl⟩
  | cons id undoIds ih =>
    have hpos : 0 < m.undoCount := Nat.lt_of_lt_of_le (Nat.succ_pos _) hk
    obtain ⟨checkpoint, next, hundo⟩ := exists_undo hpos (.ofCurrent id current)
    obtain ⟨hundoStack, -, hmax⟩ := undo_spec hundo
    obtain rfl | ⟨redoIds, last, rfl⟩ := eq_nil_or_concat redoIds
    · cases hlen
    have hnextRoom : next.total ≤ next.maxCheckpoints := by
      rw [undo_total hundo, hmax]
      exact hroom
    have hnextLen : redoIds.length = undoIds.length := by simpa using hlen
    have hnextCount : undoIds.length ≤ next.undoCount := by
      simp only [undoCount, hundoStack, length_append, length_cons, length_nil] at hk ⊢
      omega
    obtain ⟨mid, back, hwalk, hreturn, hsame⟩ :=
      @ih next checkpoint.state redoIds hnextRoom hnextLen hnextCount
    obtain ⟨found, m', hredo, hfound, hsame'⟩ := redo_of_undo last hroom hundo hsame
    refine ⟨mid, m', ?_, ?_, hsame'⟩
    · rw [walk, hundo]
      exact hwalk
    · rw [concat_eq_append, walk_append, hreturn, bind_some, walk, hredo]
      exact congrArg (fun state => some (state, m')) hfound

/-- Over every run of a manager the two stacks together stay within the capacity,
undo and redo move between them only, and k redos take back k undos. -/
theorem run_total_and_inverse (n : Nat) (ops : List Op) :
    let m := run apply (withMaxCheckpoints n) ops
    m.undoCount + m.redoCount ≤ n
      ∧ (∀ id current, (m.apply (.undo id current)).total = m.total
          ∧ (m.apply (.redo id current)).total = m.total)
      ∧ ∀ (current : ConversationState) (undoIds redoIds : List String),
          redoIds.length = undoIds.length → undoIds.length ≤ m.undoCount →
          ∃ (mid : ConversationState × UndoManager) (m' : UndoManager),
            walk undo undoIds (current, m) = some mid
              ∧ walk redo redoIds mid = some (current, m')
              ∧ m'.undoStack.map Checkpoint.state = m.undoStack.map Checkpoint.state
              ∧ m'.redoStack.map Checkpoint.state = m.redoStack.map Checkpoint.state := by
  intro m
  obtain ⟨hmax, htotal⟩ := run_bounded n ops
  have hroom : m.total ≤ m.maxCheckpoints := htotal.trans_eq hmax.symm
  refine ⟨htotal, fun id current => ⟨apply_undo_total m id current,
    apply_redo_total hroom id current⟩, ?_⟩
  intro current undoIds redoIds hlen hk
  obtain ⟨mid, m', hback, hforth, hsame⟩ := walk_redo_undo hroom hlen hk
  exact ⟨mid, m', hback, hforth, hsame.undo, hsame.redo⟩

theorem two_turns_walked :
    let m := run apply (withMaxCheckpoints 2)
      [.checkpoint "a" (0, []) "Before turn 0", .checkpoint "b" (1, [.user "hi"]) "Before turn 1"]
    m.undoCount = 2
      ∧ ∃ (mid : ConversationState × UndoManager) (m' : UndoManager),
          walk undo ["c", "d"] ((2, [.user "hi", .user "and"]), m) = some mid
            ∧ walk redo ["e", "f"] mid = some ((2, [.user "hi", .user "and"]), m')
            ∧ m'.undoStack.map Checkpoint.state = m.undoStack.map Checkpoint.state
            ∧ m'.redoStack.map Checkpoint.state = m.redoStack.map Checkpoint.state :=
  ⟨rfl, (run_total_and_inverse 2 _).2.2 _ ["c", "d"] ["e", "f"] rfl (by decide)⟩

end UndoManager

end TitanClaw.Agent
