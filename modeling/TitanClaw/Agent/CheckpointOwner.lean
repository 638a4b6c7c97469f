import TitanClaw.Agent.SessionManager

/-! # Whose checkpoints

A checkpoint goes back to the user whose thread it was taken of, as long as no two
users meet under one UUID. -/

namespace TitanClaw.Agent

open Llm List Function SessionManager UndoManager Conversation Run

variable {R : Type} (s : SessionManager R)

def SessionManager.HandsOwn : Prop :=
  ∀ userId userId' checkpoint, (userId, checkpoint) ∈ s.recorded →
    (userId', checkpoint) ∈ s.returned → userId = userId'

/-- No other user has a thread of this UUID, or a checkpoint under it. -/
def SessionManager.Unclaimed (userId threadId : String) : Prop :=
  ∀ other, other ≠ userId → s.threads other threadId = none
    ∧ ∀ checkpoint ∈ (s.getUndoManager threadId).checkpoints, (other, checkpoint) ∉ s.recorded

def SessionManager.FreshId (command : Command R) : Prop :=
  ∀ entry ∈ s.recorded, entry.2.id ≠ command.env.newId

def UuidsApart (parseUuid : String → Option String) (s : SessionManager R) : ManagerEvent R → Prop
  | .message m =>
      (∀ threadId ∈ m.threadId, ∀ uuid ∈ parseUuid threadId, s.Unclaimed m.userId uuid)
        ∧ s.Unclaimed m.userId m.newThreadId ∧ s.FreshId m.command
  | .progress _ _ command => s.FreshId command
  | .newThread userId newId => s.Unclaimed userId newId
  | .delete _ _ => True
  | .prune _ => True

/-! ## What a command does to checkpoints -/

section Checkpoints

variable {D : Deps} {monitor : ContextMonitor} {env : Env R}
  {m : UndoManager} {new checkpoint : Checkpoint}

theorem UndoManager.mem_pushUndo (h : checkpoint ∈ (m.pushUndo new).checkpoints) :
    checkpoint ∈ m.checkpoints ∨ checkpoint = new := by
  rcases mem_append.mp h with hundo | hredo
  · rcases mem_append.mp (mem_of_mem_drop hundo) with hold | hnew
    · exact .inl (mem_append_left _ hold)
    · exact .inr (mem_singleton.mp hnew)
  · exact .inl (mem_append_right _ hredo)

theorem UndoManager.mem_checkpoint (h : checkpoint ∈ (m.checkpoint new).checkpoints) :
    checkpoint ∈ m.checkpoints ∨ checkpoint = new := by
  rcases mem_pushUndo h with hold | hnew
  · rcases mem_append.mp hold with hundo | hredo
    · exact .inl (mem_append_left _ hundo)
    · cases hredo
  · exact .inr hnew

variable (m) (current : Checkpoint)

/-- A checkpoint taken from the manager was there, and at most the current state
joins the others. -/
def TakesFrom (result : Option (Checkpoint × UndoManager)) : Prop :=
  ∀ taken m', result = some (taken, m') → taken ∈ m.checkpoints
    ∧ ∀ checkpoint ∈ m'.checkpoints, checkpoint ∈ m.checkpoints ∨ checkpoint = current

theorem UndoManager.mem_takeUndo {m : UndoManager} {pos : Nat} {redoStack : List Checkpoint}
    {checkpoint : Checkpoint} (h : checkpoint ∈ (m.takeUndo pos redoStack).checkpoints) :
    checkpoint ∈ m.undoStack ∨ checkpoint ∈ redoStack := by
  rcases mem_append.mp h with hundo | hredo
  · exact .inl (mem_of_mem_take hundo)
  · exact .inr hredo

theorem UndoManager.undo_takes : TakesFrom m current (m.undo current) := by
  intro taken m' h
  obtain ⟨last, hlast, heq⟩ := Option.map_eq_some_iff.mp h
  cases heq
  refine ⟨mem_append_left _ (mem_of_getLast? hlast), ?_⟩
  intro checkpoint hmem
  rcases mem_takeUndo hmem with hundo | hredo
  · exact .inl (mem_append_left _ hundo)
  rcases mem_append.mp hredo with hold | hnew
  · exact .inl (mem_append_right _ hold)
  · exact .inr (mem_singleton.mp hnew)

theorem UndoManager.redo_takes : TakesFrom m current (m.redo current) := by
  intro taken m' h
  obtain ⟨last, hlast, heq⟩ := Option.map_eq_some_iff.mp h
  cases heq
  refine ⟨mem_append_right _ (mem_of_getLast? hlast), ?_⟩
  intro checkpoint hmem
  rcases mem_pushUndo hmem with hold | hnew
  · rcases mem_append.mp hold with hundo | hredo
    · exact .inl (mem_append_left _ hundo)
    · exact .inl (mem_append_right _ (mem_of_mem_dropLast hredo))
  · exact .inr hnew

theorem UndoManager.restore_takes (checkpointId : String) {taken : Checkpoint}
    {m' : UndoManager} (h : m.restore checkpointId = some (taken, m')) :
    taken ∈ m.checkpoints ∧ ∀ checkpoint ∈ m'.checkpoints, checkpoint ∈ m.checkpoints := by
  rw [restore] at h
  split at h
  · cases h
  obtain ⟨target, htarget, heq⟩ := Option.map_eq_some_iff.mp h
  cases heq
  refine ⟨mem_append_left _ (mem_of_getElem? htarget), ?_⟩
  intro checkpoint hmem
  rcases mem_takeUndo hmem with hundo | hredo
  · exact mem_append_left _ hundo
  · cases hredo

/-- What a step may do to the checkpoints: those it takes have the step's id, those
in the manager were there or are taken now, those handed back were there. -/
structure Conversation.Touches (id : String) (c c' : Conversation R) : Prop where
  recorded : ∀ checkpoint ∈ c'.recorded, checkpoint ∈ c.recorded ∨ checkpoint.id = id
  kept : ∀ checkpoint ∈ c'.undo.checkpoints,
    checkpoint ∈ c.undo.checkpoints ∨ checkpoint ∈ c'.recorded
  returned : ∀ checkpoint ∈ c'.returned, checkpoint ∈ c.returned ∨ checkpoint ∈ c.undo.checkpoints

namespace Conversation

variable {c c' : Conversation R} {id : String}

theorem Touches.same (hundo : c'.undo = c.undo) (hrecorded : c'.recorded = c.recorded)
    (hreturned : c'.returned = c.returned) : Touches id c c' where
  recorded _ h := .inl (hrecorded ▸ h)
  kept _ h := .inl (hundo ▸ h)
  returned _ h := .inl (hreturned ▸ h)

theorem Touches.unlessAwaiting {refusal : String} {go : Conversation R}
    (h : Touches id c go) : Touches id c (c.unlessAwaiting env refusal go) := by
  rw [Conversation.unlessAwaiting]
  split
  · split
    · exact .same rfl rfl rfl
    · exact .same rfl rfl rfl
  · exact h

theorem takeBack_touches {J : JsonCodec} {refusal nothing failure : String} {can : Bool}
    {take : Checkpoint → Option (Checkpoint × UndoManager)}
    {done : Checkpoint → UndoManager → String}
    (htake : ∀ current, TakesFrom c.undo current (take current)) :
    Touches env.newId c (c.takeBack J env refusal nothing failure can take done) := by
  apply Touches.unlessAwaiting
  split
  · exact .same rfl rfl rfl
  split
  · rename_i taken undo hresult
    obtain ⟨htaken, hkept⟩ := htake _ taken undo hresult
    constructor
    · intro checkpoint h
      rcases mem_cons.mp h with rfl | hold
      · exact .inr rfl
      · exact .inl hold
    · intro checkpoint h
      rcases hkept checkpoint h with hold | rfl
      · exact .inl hold
      · exact .inr mem_cons_self
    · intro checkpoint h
      rcases mem_cons.mp h with rfl | hold
      · exact .inr htaken
      · exact .inl hold
  · exact .same rfl rfl rfl

theorem processResume_touches (checkpointId : String) :
    Touches id c (c.processResume env checkpointId) := by
  apply Touches.unlessAwaiting
  split
  · rename_i taken undo hresult
    obtain ⟨htaken, hkept⟩ := c.undo.restore_takes checkpointId hresult
    refine ⟨fun _ h => .inl h, fun checkpoint h => .inl (hkept checkpoint h), ?_⟩
    intro checkpoint h
    rcases mem_cons.mp h with rfl | hold
    · exact .inr htaken
    · exact .inl hold
  · exact .same rfl rfl rfl

theorem processClear_touches : Touches id c (c.processClear env) where
  recorded _ h := .inl h
  kept checkpoint h := by
    rcases mem_takeUndo h with hundo | hredo
    · exact .inl (mem_append_left _ hundo)
    · cases hredo
  returned _ h := .inl h

theorem processCompact_touches {J : JsonCodec} {e : CompactionEnv} :
    Touches id c (c.processCompact J monitor e) := by
  simp only [processCompact]
  split
  · exact .same rfl rfl rfl
  · exact .same rfl rfl rfl

theorem completedTurn_touches (content response : String) :
    Touches id c (c.completedTurn env content response) := by
  rw [completedTurn]
  split
  · exact .same rfl rfl rfl
  · exact .same rfl rfl rfl

theorem agenticTurn_touches (i : UserInput) :
    Touches env.newId c (c.agenticTurn D monitor env i) where
  recorded checkpoint h := by
    rcases mem_cons.mp h with rfl | hold
    · exact .inr rfl
    · exact .inl hold
  kept checkpoint h := by
    rcases mem_checkpoint h with hold | rfl
    · exact .inl hold
    · exact .inr mem_cons_self
  returned _ h := .inl h

theorem processUserInput_touches (i : UserInput) :
    Touches env.newId c (c.processUserInput D monitor env i) :=
  processUserInput_cases (fun _ => completedTurn_touches _ _) (fun _ => .same rfl rfl rfl)
    (agenticTurn_touches i) (.same rfl rfl rfl)

theorem step_touches (command : Command R) :
    Touches command.env.newId c (c.step D monitor command) := by
  rw [step]
  split
  · exact .same rfl rfl rfl
  · exact processUserInput_touches _
  · exact takeBack_touches c.undo.undo_takes
  · exact takeBack_touches c.undo.redo_takes
  · exact processResume_touches _
  · exact processCompact_touches
  · exact processClear_touches
  · exact .same rfl rfl rfl

end Conversation

end Checkpoints

/-! ## Who has what -/

/-- No thread has two owners; all checkpoints under a thread, and all that were
handed back, are recorded, for the owner only. -/
structure Isolated (s : SessionManager R) : Prop where
  owner : ∀ u u' t, (s.threads u t).isSome → (s.threads u' t).isSome → u = u'
  mine : ∀ u t, (s.threads u t).isSome → ∀ checkpoint ∈ (s.getUndoManager t).checkpoints,
    ∀ u', (u', checkpoint) ∈ s.recorded → u' = u
  logged : ∀ t, ∀ checkpoint ∈ (s.getUndoManager t).checkpoints, ∃ u, (u, checkpoint) ∈ s.recorded
  handed : ∀ u checkpoint, (u, checkpoint) ∈ s.returned →
    (∃ u', (u', checkpoint) ∈ s.recorded) ∧ ∀ u', (u', checkpoint) ∈ s.recorded → u' = u

/-- A step that takes no checkpoint: the user may get threads that nobody else has
a claim to, and whatever else is there is lost or stays. -/
structure Claims (userId : String) (s s' : SessionManager R) : Prop where
  held : ∀ u t, (s'.threads u t).isSome → (s.threads u t).isSome ∨ u = userId ∧ s.Unclaimed userId t
  managers : ∀ t, ∀ checkpoint ∈ (s'.getUndoManager t).checkpoints,
    checkpoint ∈ (s.getUndoManager t).checkpoints
  recorded : s'.recorded = s.recorded
  returned : s'.returned = s.returned

section Managing

variable {s s' : SessionManager R} {userId threadId : String}
  {parseUuid : String → Option String}

theorem Claims.refl : Claims userId s s := ⟨fun _ _ h => .inl h, fun _ _ h => h, rfl, rfl⟩

theorem SessionManager.Unclaimed.claims (h : s.Unclaimed userId threadId)
    (hclaims : Claims userId s s') : s'.Unclaimed userId threadId := by
  intro other hother
  obtain ⟨hnone, hforeign⟩ := h other hother
  constructor
  · cases hsome : s'.threads other threadId with
    | none => rfl
    | some =>
      rcases hclaims.held other threadId (by simp [hsome]) with hold | ⟨hself, -⟩
      · simp [hnone] at hold
      · exact absurd hself hother
  · intro checkpoint hmem
    rw [hclaims.recorded]
    exact hforeign checkpoint (hclaims.managers threadId checkpoint hmem)

theorem Isolated.claims (h : Isolated s) (hclaims : Claims userId s s') : Isolated s' where
  owner := by
    intro u u' t hu hu'
    rcases hclaims.held u t hu with hold | ⟨rfl, hunclaimed⟩
    · rcases hclaims.held u' t hu' with hold' | ⟨rfl, hunclaimed⟩
      · exact h.owner u u' t hold hold'
      by_contra hne
      simp [(hunclaimed u hne).1] at hold
    · rcases hclaims.held u' t hu' with hold' | ⟨rfl, -⟩
      · by_contra hne
        simp [(hunclaimed u' (Ne.symm hne)).1] at hold'
      · rfl
  mine := by
    intro u t hu checkpoint hmem u' hrecorded
    have hold := hclaims.managers t checkpoint hmem
    rw [hclaims.recorded] at hrecorded
    rcases hclaims.held u t hu with hheld | ⟨rfl, hunclaimed⟩
    · exact h.mine u t hheld checkpoint hold u' hrecorded
    by_contra hne
    exact (hunclaimed u' hne).2 checkpoint hold hrecorded
  logged := by
    intro t checkpoint hmem
    rw [hclaims.recorded]
    exact h.logged t checkpoint (hclaims.managers t checkpoint hmem)
  handed := by
    rw [hclaims.recorded, hclaims.returned]
    exact h.handed

theorem claims_insertThread (h : s.Unclaimed userId threadId) (machine : Machine R) :
    Claims userId s (s.insertThread userId threadId machine) where
  held := by
    intro u t hsome
    by_cases hu : u = userId
    · subst hu
      by_cases ht : t = threadId
      · subst ht
        exact .inr ⟨rfl, h⟩
      · left
        simpa [insertThread, update_of_ne ht] using hsome
    · left
      simpa [insertThread, update_of_ne hu] using hsome
  managers _ _ h := h
  recorded := rfl
  returned := rfl

theorem Claims.mapThread (h : Claims userId s s') (key : ThreadKey) (threadId : String) :
    Claims userId s (s'.mapThread key threadId) :=
  ⟨h.held, h.managers, h.recorded, h.returned⟩

/-- A mapping that goes first is nothing a claim reads. -/
theorem Claims.of_threadMap {threadMap : List (ThreadKey × String)}
    (h : Claims userId { s with threadMap } s') : Claims userId s s' :=
  ⟨h.held, h.managers, h.recorded, h.returned⟩

theorem getUndoManager_ensure (s : SessionManager R) (threadId t : String) :
    (s.ensureUndoManager threadId).getUndoManager t = s.getUndoManager t := by
  by_cases ht : t = threadId
  · subst ht
    simp [ensureUndoManager, getUndoManager]
  · simp [ensureUndoManager, getUndoManager, update_of_ne ht]

theorem Claims.ensureUndoManager (h : Claims userId s s') (threadId : String) :
    Claims userId s (s'.ensureUndoManager threadId) where
  held := h.held
  managers := by
    intro t checkpoint hmem
    rw [getUndoManager_ensure] at hmem
    exact h.managers t checkpoint hmem
  recorded := h.recorded
  returned := h.returned

theorem claims_createThread (h : s.Unclaimed userId threadId) :
    Claims userId s (s.createThread userId threadId) :=
  claims_insertThread h _

theorem claims_createThreadWithId (h : s.Unclaimed userId threadId) :
    Claims userId s (s.createThreadWithId userId threadId) := by
  rw [createThreadWithId]
  split
  · exact .refl
  · exact claims_createThread h

theorem claims_createAndMapThread {key : ThreadKey} {newId : String}
    (huuid : ∀ threadId ∈ key.externalThreadId, ∀ uuid ∈ parseUuid threadId,
      s.Unclaimed key.userId uuid) (hnew : s.Unclaimed key.userId newId) :
    Claims key.userId s (s.createAndMapThread parseUuid key newId).1 := by
  simp only [createAndMapThread]
  split
  · rename_i uuid hchosen
    split at hchosen
    · obtain ⟨threadId, hthread, hparse⟩ := Option.bind_eq_some_iff.mp hchosen
      exact (claims_createThreadWithId (huuid threadId hthread uuid hparse)).mapThread _ _
    · cases hchosen
  · exact (claims_createThread hnew).mapThread _ _

theorem claims_resolveThread (key : ThreadKey) {newId : String}
    (huuid : ∀ threadId ∈ key.externalThreadId, ∀ uuid ∈ parseUuid threadId,
      s.Unclaimed key.userId uuid) (hnew : s.Unclaimed key.userId newId) :
    Claims key.userId s (s.resolveThread parseUuid key newId).1 := by
  simp only [resolveThread]
  split
  · split
    · exact .refl
    apply Claims.ensureUndoManager
    exact Claims.of_threadMap (claims_createAndMapThread huuid hnew)
  · exact (claims_createAndMapThread huuid hnew).ensureUndoManager _

theorem Claims.registerThread (h : Claims userId s s') (channel threadId : String) :
    Claims userId s (s'.registerThread userId channel threadId) := by
  apply Claims.ensureUndoManager
  split
  · split
    · exact h.mapThread _ _
    · exact h
  · exact h.mapThread _ _

theorem claims_maybeHydrateThread {channel externalThreadId : String}
    (huuid : ∀ uuid ∈ parseUuid externalThreadId, s.Unclaimed userId uuid) (now : Int)
    (history : List ChatMessage) :
    Claims userId s
      (s.maybeHydrateThread parseUuid userId channel externalThreadId now history) := by
  rw [maybeHydrateThread]
  split
  · exact .refl
  rename_i uuid hparse
  split
  · exact .refl
  · exact (claims_insertThread (huuid uuid hparse) _).registerThread _ _

theorem claims_deleteThread : Claims userId s (s.deleteThread userId threadId) where
  held := by
    intro u t hsome
    left
    by_cases hu : u = userId
    · subst hu
      by_cases ht : t = threadId
      · subst ht
        simp [deleteThread, removeThreadReferences] at hsome
      · simpa [deleteThread, removeThreadReferences, update_of_ne ht] using hsome
    · simpa [deleteThread, removeThreadReferences, update_of_ne hu] using hsome
  managers := by
    intro t checkpoint hmem
    simp only [deleteThread, removeThreadReferences, getUndoManager] at hmem
    split at hmem
    · exact hmem
    by_cases ht : t = threadId
    · subst ht
      simp [checkpoints] at hmem
    · rwa [update_of_ne ht] at hmem
  recorded := rfl
  returned := rfl

theorem claims_pruneStaleSessions (userId : String) (stale : List String) :
    Claims userId s (s.pruneStaleSessions stale) where
  held := by
    intro u t hsome
    left
    simp only [pruneStaleSessions] at hsome
    split at hsome
    · cases hsome
    · exact hsome
  managers := by
    intro t checkpoint hmem
    simp only [pruneStaleSessions, getUndoManager] at hmem
    split at hmem
    · simp [checkpoints] at hmem
    · exact hmem
  recorded := rfl
  returned := rfl

/-! ## Commands -/

theorem mem_tagged {userId u : String} {checkpoint : Checkpoint}
    {new : List Checkpoint} {old : List (String × Checkpoint)} :
    (u, checkpoint) ∈ new.map (userId, ·) ++ old
      ↔ u = userId ∧ checkpoint ∈ new ∨ (u, checkpoint) ∈ old := by
  rw [mem_append, mem_map]
  constructor
  · intro h
    rcases h with ⟨checkpoint', hmem, heq⟩ | hold
    · cases heq
      exact .inl ⟨rfl, hmem⟩
    · exact .inr hold
  · intro h
    rcases h with ⟨rfl, hmem⟩ | hold
    · exact .inl ⟨checkpoint, hmem, rfl⟩
    · exact .inr hold

section Commit

variable {c : Conversation R}

theorem commit_threads (hheld : (s.threads userId threadId).isSome) (u t : String) :
    ((s.commit userId threadId c).threads u t).isSome ↔ (s.threads u t).isSome := by
  by_cases hu : u = userId
  · subst hu
    by_cases ht : t = threadId
    · subst ht
      simp [commit, insertThread, hheld]
    · simp [commit, insertThread, update_of_ne ht]
  · simp [commit, insertThread, update_of_ne hu]

/-- The checkpoints under a thread after a command: under another thread they are
the same. -/
theorem mem_commit_manager {t : String} {checkpoint : Checkpoint}
    (hkept : ∀ checkpoint ∈ c.undo.checkpoints,
      checkpoint ∈ (s.getUndoManager threadId).checkpoints ∨ checkpoint ∈ c.recorded)
    (h : checkpoint ∈ ((s.commit userId threadId c).getUndoManager t).checkpoints) :
    checkpoint ∈ (s.getUndoManager t).checkpoints ∨ t = threadId ∧ checkpoint ∈ c.recorded := by
  by_cases ht : t = threadId
  · subst ht
    simp only [getUndoManager, commit, update_self, Option.getD_some] at h
    rcases hkept checkpoint h with hold | hnew
    · exact .inl hold
    · exact .inr ⟨rfl, hnew⟩
  · simp only [getUndoManager, commit, update_of_ne ht] at h
    exact .inl h

/-- What a command takes is new, and what it hands back was under the user's
thread. -/
theorem Isolated.commit (h : Isolated s) (hheld : (s.threads userId threadId).isSome)
    (hnew : ∀ checkpoint ∈ c.recorded, ∀ u, (u, checkpoint) ∉ s.recorded)
    (hkept : ∀ checkpoint ∈ c.undo.checkpoints,
      checkpoint ∈ (s.getUndoManager threadId).checkpoints ∨ checkpoint ∈ c.recorded)
    (hback : ∀ checkpoint ∈ c.returned, checkpoint ∈ (s.getUndoManager threadId).checkpoints) :
    Isolated (s.commit userId threadId c) where
  owner := by
    intro u u' t hu hu'
    rw [commit_threads hheld] at hu hu'
    exact h.owner u u' t hu hu'
  mine := by
    intro u t hu checkpoint hmem u' hrecorded
    rw [commit_threads hheld] at hu
    rcases mem_commit_manager hkept hmem with hold | ⟨rfl, htaken⟩
    · rcases mem_tagged.mp hrecorded with ⟨-, htaken⟩ | hbefore
      · obtain ⟨u'', hlogged⟩ := h.logged t checkpoint hold
        exact absurd hlogged (hnew checkpoint htaken u'')
      · exact h.mine u t hu checkpoint hold u' hbefore
    · rcases mem_tagged.mp hrecorded with ⟨rfl, -⟩ | hbefore
      · exact h.owner u' u t hheld hu
      · exact absurd hbefore (hnew checkpoint htaken u')
  logged := by
    intro t checkpoint hmem
    rcases mem_commit_manager hkept hmem with hold | ⟨rfl, htaken⟩
    · obtain ⟨u, hlogged⟩ := h.logged t checkpoint hold
      exact ⟨u, mem_tagged.mpr (.inr hlogged)⟩
    · exact ⟨userId, mem_tagged.mpr (.inl ⟨rfl, htaken⟩)⟩
  handed := by
    intro u checkpoint hreturned
    -- handed back now or before, the checkpoint was recorded before the command
    obtain ⟨⟨u₀, hlogged⟩, hown⟩ : (∃ u', (u', checkpoint) ∈ s.recorded)
        ∧ ∀ u', (u', checkpoint) ∈ s.recorded → u' = u := by
      rcases mem_tagged.mp hreturned with ⟨rfl, hnow⟩ | hbefore
      · exact ⟨h.logged threadId checkpoint (hback checkpoint hnow),
          h.mine u threadId hheld checkpoint (hback checkpoint hnow)⟩
      · exact h.handed u checkpoint hbefore
    refine ⟨⟨u₀, mem_tagged.mpr (.inr hlogged)⟩, ?_⟩
    intro u' hrecorded
    rcases mem_tagged.mp hrecorded with ⟨-, htaken⟩ | hbefore
    · exact absurd hlogged (hnew checkpoint htaken u₀)
    · exact hown u' hbefore

end Commit

theorem Isolated.process (h : Isolated s) {D : Deps} {monitor : ContextMonitor}
    {command : Command R} (hfresh : s.FreshId command) :
    Isolated (s.process D monitor userId threadId command) := by
  rw [SessionManager.process]
  split
  · exact h
  rename_i machine hmachine
  have htouches : Touches command.env.newId _
      (Conversation.step D monitor { machine, undo := s.getUndoManager threadId } command) :=
    step_touches command
  apply h.commit
  · simp [hmachine]
  · intro checkpoint hmem u hold
    rcases htouches.recorded checkpoint hmem with hnone | hid
    · cases hnone
    · exact hfresh _ hold hid
  · exact htouches.kept
  · intro checkpoint hmem
    rcases htouches.returned checkpoint hmem with hnone | hthere
    · cases hnone
    · exact hthere

/-- A message is hydrated, resolved and processed; the UUIDs it brings stay
unclaimed by others on the way. -/
theorem Isolated.handleMessage (h : Isolated s) {D : Deps} {monitor : ContextMonitor}
    {m : Incoming R} (hguard : UuidsApart parseUuid s (.message m)) :
    Isolated (s.handleMessage D monitor parseUuid m) := by
  obtain ⟨huuid, hnew, hfresh⟩ := hguard
  obtain ⟨hydrated, hhydrate, heq⟩ : ∃ hydrated, Claims m.userId s hydrated
      ∧ s.handleMessage D monitor parseUuid m
        = (hydrated.resolveThread parseUuid ⟨m.userId, m.channel, m.threadId⟩
            m.newThreadId).1.process D monitor m.userId
          (hydrated.resolveThread parseUuid ⟨m.userId, m.channel, m.threadId⟩
            m.newThreadId).2 m.command := by
    cases hthread : m.threadId with
    | none => exact ⟨s, .refl, by simp only [SessionManager.handleMessage, hthread]⟩
    | some threadId =>
      have hclaims : Claims m.userId s (s.maybeHydrateThread parseUuid m.userId m.channel
          threadId m.command.env.now m.history) :=
        claims_maybeHydrateThread (huuid threadId hthread) _ _
      exact ⟨_, hclaims, by simp only [SessionManager.handleMessage, hthread]⟩
  rw [heq]
  have hresolve := claims_resolveThread ⟨m.userId, m.channel, m.threadId⟩
    (fun threadId hthread uuid hparse => (huuid threadId hthread uuid hparse).claims hhydrate)
    (hnew.claims hhydrate)
  apply ((h.claims hhydrate).claims hresolve).process
  intro entry hentry
  rw [hresolve.recorded, hhydrate.recorded] at hentry
  exact hfresh entry hentry

theorem Isolated.step (h : Isolated s) {D : Deps} {monitor : ContextMonitor}
    {event : ManagerEvent R} (hguard : UuidsApart parseUuid s event) :
    Isolated (s.step D monitor parseUuid event) := by
  cases event with
  | message => exact h.handleMessage hguard
  | progress => exact h.process hguard
  | newThread => exact h.claims (claims_createThread hguard)
  | delete => exact h.claims claims_deleteThread
  | prune stale => exact h.claims (claims_pruneStaleSessions "" stale)

theorem isolated_new : Isolated ({} : SessionManager R) where
  owner _ _ _ h := by cases h
  mine _ _ h := by cases h
  logged _ _ h := by cases h
  handed _ _ h := by cases h

theorem unclaimed_of_alone (hthreads : ∀ other, other ≠ userId → s.threads other = fun _ => none)
    (hrecorded : ∀ u ∈ s.recorded.map (·.1), u = userId) (t : String) : s.Unclaimed userId t := by
  intro other hother
  refine ⟨congrFun (hthreads other hother) t, ?_⟩
  intro checkpoint _ hmem
  exact hother (hrecorded other (mem_map.mpr ⟨_, hmem, rfl⟩))

end Managing

/-- In every run from a new manager in which the users' UUIDs stay apart, nobody is
handed a checkpoint of somebody else. -/
theorem checkpoints_stay_with_user (D : Deps) (monitor : ContextMonitor)
    (parseUuid : String → Option String) (events : List (ManagerEvent R))
    (happart : Guarded (SessionManager.step D monitor parseUuid) (UuidsApart parseUuid) {} events) :
    ∀ pre, pre <+: events → (run (SessionManager.step D monitor parseUuid) {} pre).HandsOwn := by
  intro pre hpre
  have hstep : ∀ (s : SessionManager R) (event : ManagerEvent R), Isolated s →
      UuidsApart parseUuid s event → Isolated (s.step D monitor parseUuid event) :=
    fun _ _ h hguard => h.step hguard
  have hisolated := invariant_reached hstep isolated_new happart hpre
  intro userId userId' checkpoint hrecorded hreturned
  exact (hisolated.handed userId' checkpoint hreturned).2 userId hrecorded

/-! ## Two users and one UUID -/

def threadUuid : String := "6f1c2b3a-0d4e-4f5a-8b6c-7d8e9f0a1b2c"

def readsThreadUuid (s : String) : Option String := if s = threadUuid then some s else none

def uuidMessage (userId channel : String) (order : Order) (newId : String) : Incoming Unit where
  userId
  channel
  threadId := some threadUuid
  history := []
  newThreadId := "t-" ++ newId
  command := ⟨{ smallEnv with newId }, order⟩

def secretInput (route : InputRoute) : Order :=
  .input ⟨⟨"alice", "gateway", "my secret"⟩, "my secret", route, ⟨.ok "", none⟩⟩

def aliceEvents : List (ManagerEvent Unit) :=
  [.message (uuidMessage "alice" "gateway" (secretInput (.shadow "noted")) "id-1"),
    .message (uuidMessage "alice" "gateway" (secretInput .agentic) "id-2")]

theorem alice_keeps_own :
    (run (SessionManager.step pipedDeps quietMonitor readsThreadUuid) {} aliceEvents).HandsOwn := by
  -- Alice is alone, so every UUID is free for her
  let first := uuidMessage "alice" "gateway" (secretInput (.shadow "noted")) "id-1"
  have halone : ∀ t, (SessionManager.step pipedDeps quietMonitor readsThreadUuid {}
      (.message first)).Unclaimed "alice" t := by
    apply unclaimed_of_alone
    · intro other hother
      show (handleMessage pipedDeps quietMonitor readsThreadUuid {}
        first).threads other = ({} : SessionManager Unit).threads other
      exact handleMessage_others hother
    · intro u hu
      cases hu
  have hempty : ∀ t, ({} : SessionManager Unit).Unclaimed "alice" t := fun _ _ _ => ⟨rfl, nofun⟩
  exact checkpoints_stay_with_user pipedDeps quietMonitor readsThreadUuid aliceEvents
    ⟨⟨fun _ _ _ _ => hempty _, hempty _, nofun⟩, ⟨fun _ _ _ _ => halone _, halone _, nofun⟩,
      trivial⟩ aliceEvents (prefix_refl _)

/-- What is recorded before Alice goes on. -/
def secretCheckpoint : Checkpoint :=
  ⟨"id-2", 2, [.user "my secret", .assistant "noted"], "Before turn 2"⟩

/-- Bob sends an undo on the webhook channel with the UUID of Alice's thread, and gets
her messages. -/
theorem bob_undoes_alice :
    let s := run (SessionManager.step pipedDeps quietMonitor readsThreadUuid) {}
      (aliceEvents ++ [.message (uuidMessage "bob" "http" .undo "id-3")])
    ¬ s.HandsOwn ∧ (s.threads "bob" threadUuid).map (·.thread.userInputs) = some ["my secret"] := by
  intro s
  constructor
  · intro hown
    have hrecorded : s.recorded[1]? = some ("alice", secretCheckpoint) := rfl
    have hreturned : s.returned[0]? = some ("bob", secretCheckpoint) := rfl
    have hsame := hown "alice" "bob" secretCheckpoint (mem_of_getElem? hrecorded)
      (mem_of_getElem? hreturned)
    exact absurd hsame (by decide)
  · rfl

end TitanClaw.Agent
