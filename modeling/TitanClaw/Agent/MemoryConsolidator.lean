import Mathlib.Data.List.Sort
import TitanClaw.Lib.Faulty
import TitanClaw.Lib.Json

/-! # The memory consolidator

A run goes through the episodic records that are still active and promotes each: a
summary of a routine's run into a semantic record, a candidate for a playbook into a
playbook, new or with one success more; any other record is demoted. What is derived
from a record is written first, and the record is archived afterwards, in another
statement. Times are nanoseconds of the wall clock. -/

namespace TitanClaw.Agent

open Faulty

inductive MemoryType where
  | working
  | episodic
  | semantic
  | procedural
  | profile
  deriving DecidableEq

inductive MemorySourceKind where
  | workerPlanExecution
  | schedulerSubtask
  | dispatcherToolExecution
  | approvalFlow
  | routineRun
  | profileSynthesis
  | toolMemoryWrite
  | consolidator
  | userApi
  | cli
  deriving DecidableEq

inductive MemorySensitivity where
  | publicData
  | internal
  | sensitive
  | credentialAdjacent

inductive MemoryRecordStatus where
  | active
  | demoted
  | expired
  | archived
  | rejected
  deriving DecidableEq

def MemoryType.text : MemoryType → String
  | working => "working"
  | episodic => "episodic"
  | semantic => "semantic"
  | procedural => "procedural"
  | profile => "profile"

def MemoryRecordStatus.text : MemoryRecordStatus → String
  | active => "active"
  | demoted => "demoted"
  | expired => "expired"
  | archived => "archived"
  | rejected => "rejected"

structure MemoryRecord where
  id : String
  ownerUserId : String
  goalId : Option String := none
  planId : Option String := none
  planStepId : Option String := none
  jobId : Option String := none
  threadId : Option String := none
  memoryType : MemoryType
  sourceKind : MemorySourceKind
  category : String
  title : String
  summary : String
  payload : JsonValue := .null
  provenance : JsonValue := .null
  confidence : Float32
  sensitivity : MemorySensitivity
  ttlSecs : Option Int := none
  status : MemoryRecordStatus
  workspaceDocPath : Option String := none
  workspaceDocumentId : Option String := none
  createdAt : Int
  updatedAt : Int
  expiresAt : Option Int := none

inductive ConsolidationAction where
  | promoteSemantic
  | generatePlaybook
  | archiveSummary
  | demote
  | reject

structure MemoryEvent where
  id : String
  memoryRecordId : String
  eventKind : String
  actor : String
  reasonCodes : List String
  action : Option ConsolidationAction
  before : JsonValue
  after : JsonValue
  createdAt : Int

inductive ProceduralPlaybookStatus where
  | draft
  | active
  | paused
  | retired

structure ProceduralPlaybook where
  id : String
  ownerUserId : String
  name : String
  taskClass : String
  triggerSignals : JsonValue
  stepsTemplate : JsonValue
  toolPreferences : JsonValue
  constraints : JsonValue
  successCount : Int
  failureCount : Int
  confidence : Float32
  status : ProceduralPlaybookStatus
  requiresApproval : Bool
  sourceMemoryRecordIds : JsonValue
  createdAt : Int
  updatedAt : Int

inductive ConsolidationRunStatus where
  | running
  | completed
  | failed
  | partlyFailed

structure ConsolidationRun where
  id : String
  ownerUserId : Option String := none
  status : ConsolidationRunStatus := .running
  startedAt : Int
  finishedAt : Option Int := none
  batchSize : Int
  processedCount : Int := 0
  promotedCount : Int := 0
  playbooksCreatedCount : Int := 0
  archivedCount : Int := 0
  errorCount : Int := 0
  checkpointCursor : Option String := none
  notes : Option String := none

/-! ## The store -/

structure MemoryStore where
  records : List MemoryRecord := []
  events : List MemoryEvent := []
  playbooks : List ProceduralPlaybook := []
  runs : List ConsolidationRun := []
  /-- The records for whose sake a playbook was written with one success more, a record
  that no function reads. -/
  increments : List String := []

namespace MemoryStore

/-- The id is the primary key. -/
def createMemoryRecord (record : MemoryRecord) (store : MemoryStore) : MemoryStore :=
  if store.records.any (·.id == record.id) then store
  else { store with records := store.records ++ [record] }

def updateMemoryRecordStatus (id : String) (status : MemoryRecordStatus) (now : Int)
    (store : MemoryStore) : MemoryStore :=
  { store with
    records := store.records.map fun record =>
      if record.id = id then { record with status, updatedAt := now } else record }

def recordMemoryEvent (event : MemoryEvent) (store : MemoryStore) : MemoryStore :=
  { store with events := store.events ++ [event] }

def createOrUpdateProceduralPlaybook (playbook : ProceduralPlaybook) (source : String)
    (store : MemoryStore) : MemoryStore :=
  { store with
    playbooks :=
      if store.playbooks.any (·.id == playbook.id) then
        store.playbooks.map fun old =>
          if old.id = playbook.id then { playbook with createdAt := old.createdAt } else old
      else store.playbooks ++ [playbook]
    increments := store.increments ++ [source] }

/-- The newest first. -/
def listProceduralPlaybooksForUser (userId : String) (store : MemoryStore) :
    List ProceduralPlaybook :=
  (store.playbooks.filter (·.ownerUserId == userId)).insertionSort fun a b =>
    b.updatedAt < a.updatedAt ∨ (b.updatedAt = a.updatedAt ∧ b.id ≤ a.id)

/-- The oldest first. -/
def listPendingEpisodicForConsolidation (limit : Nat) (now : Int) (store : MemoryStore) :
    List MemoryRecord :=
  let pending := store.records.filter fun record =>
    decide (record.memoryType = .episodic) && decide (record.status = .active)
      && record.expiresAt.all (now < ·)
  (pending.insertionSort fun a b =>
    a.createdAt < b.createdAt ∨ (a.createdAt = b.createdAt ∧ a.id ≤ b.id)).take limit

variable (run : ConsolidationRun) (store : MemoryStore)

def recordConsolidationRun : MemoryStore :=
  { store with runs := store.runs ++ [run] }

def updateConsolidationRun : MemoryStore :=
  { store with runs := store.runs.map fun old => if old.id = run.id then run else old }

end MemoryStore

/-! ## Processing a record -/

structure ProcessOutcome where
  promoted : Bool
  archived : Bool
  playbookCreated : Bool
  action : ConsolidationAction

/-- What the world adds when a record is processed: the time, new ids, and how the calls of
the store end. -/
structure ProcessInput where
  now : Int := 0
  newId : String := ""
  eventId : String := ""
  listPlaybooks : Option String := none
  /-- The call that writes the semantic record or the playbook. -/
  derive : Reply String := .answered
  archive : Reply String := .answered
  event : Reply String := .answered

def floatMax (a b : Float32) : Float32 := if a < b then b else a

def floatMin (a b : Float32) : Float32 := if b < a then b else a

variable (rfc3339 : Int → String) (record : MemoryRecord) (input : ProcessInput)

def semanticRecord : MemoryRecord :=
  { id := input.newId
    ownerUserId := record.ownerUserId
    goalId := record.goalId
    planId := record.planId
    jobId := record.jobId
    threadId := record.threadId
    memoryType := .semantic
    sourceKind := .consolidator
    category := "semantic_summary"
    title := "Consolidated: " ++ record.title
    summary := record.summary
    payload := .obj
      [("payload", record.payload),
       ("source_category", .str record.category),
       ("source_memory_record_id", .str record.id),
       ("summary", .str record.summary)]
    provenance := .obj
      [("source", .str "memory_consolidator.run_once"),
       ("source_memory_record_id", .str record.id),
       ("timestamp", .str (rfc3339 input.now))]
    confidence := floatMin (floatMax record.confidence 0.6) 0.95
    sensitivity := record.sensitivity
    status := .active
    createdAt := input.now
    updatedAt := input.now }

def maxI32 : Int := 2147483647

def updatedPlaybook (now : Int) (playbook : ProceduralPlaybook) : ProceduralPlaybook :=
  let sourceIds := (playbook.sourceMemoryRecordIds.asArr?).getD []
  { playbook with
    successCount := min (playbook.successCount + 1) maxI32
    confidence := floatMin (floatMax playbook.confidence record.confidence) 0.95
    updatedAt := now
    sourceMemoryRecordIds := .arr
      (if sourceIds.any (·.asStr? == some record.id) then sourceIds
       else sourceIds ++ [.str record.id]) }

def newPlaybook (routineName playbookName taskClass : String) : ProceduralPlaybook :=
  { id := input.newId
    ownerUserId := record.ownerUserId
    name := playbookName
    taskClass
    triggerSignals := .obj
      [("routine_name", .str routineName),
       ("trigger_type", (record.payload.get? "trigger_type").getD .null)]
    stepsTemplate := .obj
      [("candidate_steps_hint", (record.payload.get? "candidate_steps_hint").getD .null),
       ("source_category", .str record.category)]
    toolPreferences := .obj []
    constraints := .obj []
    successCount := 1
    failureCount := 0
    confidence := floatMin (floatMax record.confidence 0.65) 0.9
    status := .draft
    requiresApproval := false
    sourceMemoryRecordIds := .arr [.str record.id]
    createdAt := input.now
    updatedAt := input.now }

def promoteRoutinePlaybookCandidate : StoreProg MemoryStore String Bool := do
  let taskClass := ((record.payload.get? "task_class").bind (·.asStr?)).getD "routine_automation"
  let routineName := ((record.payload.get? "routine_name").bind (·.asStr?)).getD record.title
  let playbookName := "Routine: " ++ routineName
  let existing ← query (input.listPlaybooks.map ("list procedural playbooks: " ++ ·))
    (MemoryStore.listProceduralPlaybooksForUser record.ownerUserId)
  match existing.find? fun p => p.name == playbookName && p.taskClass == taskClass with
  | some playbook =>
      call (input.derive.mapError ("update procedural playbook: " ++ ·))
        (MemoryStore.createOrUpdateProceduralPlaybook (updatedPlaybook record input.now playbook)
          record.id)
      pure false
  | none =>
      call (input.derive.mapError ("create procedural playbook: " ++ ·))
        (MemoryStore.createOrUpdateProceduralPlaybook
          (newPlaybook record input routineName playbookName taskClass) record.id)
      pure true

def processPlaybookCandidate : StoreProg MemoryStore String ProcessOutcome := do
  let playbookCreated ← promoteRoutinePlaybookCandidate record input
  call (input.archive.mapError ("archive playbook candidate source record: " ++ ·))
    (MemoryStore.updateMemoryRecordStatus record.id .archived input.now)
  pure ⟨true, true, playbookCreated, .generatePlaybook⟩

def processRunSummary : StoreProg MemoryStore String ProcessOutcome := do
  call (input.derive.mapError ("create semantic record: " ++ ·))
    (MemoryStore.createMemoryRecord (semanticRecord rfc3339 record input))
  call (input.archive.mapError ("archive source record: " ++ ·))
    (MemoryStore.updateMemoryRecordStatus record.id .archived input.now)
  pure ⟨true, true, false, .promoteSemantic⟩

/-- Any other record. -/
def processOther : StoreProg MemoryStore String ProcessOutcome := do
  call (input.archive.mapError ("demote source record: " ++ ·))
    (MemoryStore.updateMemoryRecordStatus record.id .demoted input.now)
  pure ⟨false, false, false, .demote⟩

def consolidatedEvent (outcome : ProcessOutcome) : MemoryEvent :=
  let status : MemoryRecordStatus := if outcome.archived then .archived else .demoted
  { id := input.eventId
    memoryRecordId := record.id
    eventKind := "consolidated"
    actor := "memory_consolidator_v2"
    reasonCodes := ["phase2_consolidation"]
    action := some outcome.action
    before := .obj
      [("memory_type", .str record.memoryType.text), ("status", .str record.status.text)]
    after := .obj [("promoted", .bool outcome.promoted), ("status", .str status.text)]
    createdAt := input.now }

/-- What is derived from the record is written, and the record is marked. -/
def consolidate : StoreProg MemoryStore String ProcessOutcome :=
  if record.category = "routine_playbook_candidate" then processPlaybookCandidate record input
  else if record.category = "routine_run_summary" then processRunSummary rfc3339 record input
  else processOther record input

def processRecord : StoreProg MemoryStore String ProcessOutcome := do
  let outcome ← consolidate rfc3339 record input
  call (input.event.mapError ("record memory event: " ++ ·))
    (MemoryStore.recordMemoryEvent (consolidatedEvent record input outcome))
  pure outcome

/-! ## A run -/

/-- What the world adds to a run; each record is processed at most once in it, so the ids
tell what belongs to which. -/
structure RunInput where
  runId : String := ""
  now : Int := 0
  recordRun : Reply String := .answered
  listNow : Int := 0
  listPending : Option String := none
  process : String → ProcessInput := fun _ => {}
  finishedAt : Int := 0
  updateRun : Reply String := .answered

namespace ConsolidationRun

def start (batchSize : UInt32) (id : String) (now : Int) : ConsolidationRun :=
  { id, startedAt := now, batchSize := batchSize.toInt32.toInt }

variable (run : ConsolidationRun)

def countOutcome (cursor : String) (outcome : ProcessOutcome) : ConsolidationRun :=
  { run with
    processedCount := run.processedCount + 1
    promotedCount := run.promotedCount + if outcome.promoted then 1 else 0
    playbooksCreatedCount := run.playbooksCreatedCount + if outcome.playbookCreated then 1 else 0
    archivedCount := run.archivedCount + if outcome.archived then 1 else 0
    checkpointCursor := some cursor }

def countError : ConsolidationRun :=
  { run with errorCount := run.errorCount + 1 }

def finish (finishedAt : Int) : ConsolidationRun :=
  { run with
    finishedAt := some finishedAt
    status :=
      if run.errorCount = 0 then .completed
      else if 0 < run.processedCount then .partlyFailed
      else .failed
    notes :=
      if run.processedCount = 0 ∧ run.errorCount = 0 then some "No pending episodic records"
      else run.notes }

end ConsolidationRun

def processRecords (input : RunInput) :
    List MemoryRecord → ConsolidationRun → MemoryStore → ConsolidationRun × MemoryStore
  | [], run, store => (run, store)
  | record :: records, run, store =>
      let cursor := rfc3339 record.createdAt ++ "/" ++ record.id
      match exec (processRecord rfc3339 record (input.process record.id)) store with
      | (.ok outcome, store') =>
          processRecords input records (run.countOutcome cursor outcome) store'
      | (.error _, store') => processRecords input records run.countError store'

def runOnce (batchSize : UInt32) (input : RunInput) :
    StoreProg MemoryStore String ConsolidationRun := do
  let run := ConsolidationRun.start batchSize input.runId input.now
  call (input.recordRun.mapError ("record run: " ++ ·)) (MemoryStore.recordConsolidationRun run)
  let records ← query (input.listPending.map ("list pending episodic: " ++ ·))
    (MemoryStore.listPendingEpisodicForConsolidation batchSize.toNat input.listNow)
  let run ← modifyGet fun store =>
    (processRecords rfc3339 input records run store).map (·.finish input.finishedAt) id
  call (input.updateRun.mapError ("update run: " ++ ·)) (MemoryStore.updateConsolidationRun run)
  pure run

end TitanClaw.Agent
