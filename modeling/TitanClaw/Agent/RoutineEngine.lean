import TitanClaw.Agent.Machine
import TitanClaw.Lib.Faulty
import TitanClaw.Lib.Interleave
import TitanClaw.Lib.Slots

/-! # The routine engine

Checks of triggers go through the routines one by one: an event check through those it finds
in the cache, a tick of the cron ticker through those the store says are due. A routine that
passes its guardrails is fired: a task is spawned that records the run, counts it, executes it,
completes its record and at last updates the routine. The guardrails read the record and the
count, so they see a run only when its task has come that far. Every access to the store, the
cache or the counter is a section; between two of them anything else goes on, and time passes.

Times are in milliseconds, which is what the store keeps of them. -/

namespace TitanClaw.Agent.Routines

open Text Faulty

/-! ## Routines and their runs -/

inductive Trigger where
  | cron (schedule : String)
  | event (channel : Option String) (pattern : String)
  | webhook (path secret : Option String)
  | manual

inductive TriggerType where
  | cron | event | webhook | manual
  deriving DecidableEq

def Trigger.typeTag : Trigger → TriggerType
  | cron _ => .cron
  | event _ _ => .event
  | webhook _ _ => .webhook
  | manual => .manual

/-- The durations are in seconds. -/
structure RoutineGuardrails where
  cooldown : Nat := 300
  maxConcurrent : Nat := 1
  dedupWindow : Option Nat := none
  deriving DecidableEq

structure Routine where
  id : String
  name : String
  enabled : Bool := true
  trigger : Trigger
  guardrails : RoutineGuardrails := {}
  lastRunAt : Option Int := none
  nextFireAt : Option Int := none
  runCount : Nat := 0
  consecutiveFailures : Nat := 0
  state : JsonValue := .obj []

inductive RunStatus where
  | running | ok | attention | failed
  deriving DecidableEq

structure RoutineRun where
  id : String
  routineId : String
  triggerType : TriggerType
  triggerDetail : Option String := none
  startedAt : Int
  completedAt : Option Int := none
  status : RunStatus := .running
  resultSummary : Option String := none
  tokensUsed : Option Int := none

/-! ## The store -/

structure RoutineStore where
  routines : List Routine
  runs : List RoutineRun := []

namespace RoutineStore

variable (db : RoutineStore) (id : String)

def getRoutine : Option Routine := db.routines.find? (·.id == id)

def listEventRoutines : List Routine :=
  db.routines.filter fun routine => routine.enabled && routine.trigger.typeTag == .event

def listDueCronRoutines (now : Int) : List Routine :=
  db.routines.filter fun routine =>
    routine.enabled && routine.trigger.typeTag == .cron && routine.nextFireAt.any (· ≤ now)

def countRunningRoutineRuns (routineId : String) : Nat :=
  db.runs.countP fun run => run.routineId == routineId && run.status == .running

/-- The id is the primary key. -/
def createRoutineRun (run : RoutineRun) : Option RoutineStore :=
  if db.runs.any (·.id == run.id) then none else some { db with runs := db.runs ++ [run] }

def completeRoutineRun (status : RunStatus)
    (resultSummary : Option String) (tokensUsed : Option Int) (now : Int) : RoutineStore :=
  { db with
    runs := db.runs.map fun run =>
      if run.id = id then { run with completedAt := some now, status, resultSummary, tokensUsed }
      else run }

def updateRoutineRuntime (lastRunAt : Int)
    (nextFireAt : Option Int) (runCount consecutiveFailures : Nat) (state : JsonValue) :
    RoutineStore :=
  { db with
    routines := db.routines.map fun routine =>
      if routine.id = id then
        { routine with
          lastRunAt := some lastRunAt, nextFireAt, runCount, consecutiveFailures, state }
      else routine }

end RoutineStore

/-! ## The engine -/

structure CachedRoutine where
  id : String
  routine : Routine
  isMatch : String → Bool

/-- Where the task of a run is, by what it does next. -/
inductive Phase where
  | record
  | count
  | executing
  | complete (status : RunStatus) (summary : Option String) (tokens : Option Int)
  | update (status : RunStatus)
  | ended (at_ : Int)
  deriving DecidableEq

/-- A spawned task. Whether its run got a record and which message it was fired for are kept
here, but no section reads them. -/
structure RunTask where
  routine : Routine
  run : RoutineRun
  phase : Phase
  recorded : Bool
  message : Option IncomingMessage := none

inductive Returned where
  | fired (count : Nat)
  | manual (result : Except String String)

structure Engine where
  now : Int
  store : RoutineStore
  runningCount : Nat := 0
  eventCache : List CachedRoutine := []
  spawned : List RunTask := []
  returned : List Returned := []

/-- The configuration, the regular expressions and the cron schedules; the next time of a
schedule is a later one. -/
structure EngineDeps where
  maxConcurrentRoutines : Nat
  regex : String → Option (String → Bool)
  nextCronFire : String → Int → Except String (Option Int)
  nextCronFire_later : ∀ schedule now fire, nextCronFire schedule now = .ok (some fire) → now < fire

variable (D : EngineDeps)

def EngineDeps.nextFire (trigger : Trigger) (now : Int) : Option Int :=
  match trigger with
  | .cron schedule => ((D.nextCronFire schedule now).toOption).join
  | _ => none

theorem EngineDeps.nextFire_later {trigger : Trigger} {now fire : Int}
    (h : D.nextFire trigger now = some fire) : now < fire := by
  cases trigger with
  | cron schedule =>
    cases hnext : D.nextCronFire schedule now with
    | error => simp [nextFire, hnext, Except.toOption] at h
    | ok =>
      simp only [nextFire, hnext, Except.toOption, Option.join_some] at h
      exact D.nextCronFire_later schedule now fire (h ▸ hnext)
  | event | webhook | manual => cases h

/-- What is left of a check, or the place of a spawned task that is to go on. -/
inductive Task where
  | refresh
  | storeCache (cache : List CachedRoutine)
  | event (message : IncomingMessage)
  | eventNext (message : IncomingMessage) (fired : Nat) (rest : List CachedRoutine)
  | eventCount (message : IncomingMessage) (fired : Nat) (routine : Routine)
      (rest : List CachedRoutine)
  | eventFire (message : IncomingMessage) (fired : Nat) (routine : Routine)
      (rest : List CachedRoutine)
  | cron
  | cronNext (rest : List Routine)
  | cronCount (routine : Routine) (rest : List Routine)
  | manual (routineId : String)
  | manualCount (routine : Routine)
  | manualCreate (routine : Routine)
  | poll (place : Nat)

/-- How the work of a run ends. -/
inductive Execution where
  | returned (result : Except String (RunStatus × Option String × Option Int))
  | panicked

/-- What a section gets from outside: the time that has passed, how its statement ends, a
fresh id, the outcome of the work. -/
structure SectionInput where
  elapsed : Nat := 0
  queryFault : Option String := none
  write : Reply String := .answered
  newId : String := ""
  execution : Execution := .returned (.ok (.ok, none, none))

/-- A cooldown that is too long for a `chrono::Duration` counts as 300 seconds. -/
def cooldownSeconds (guardrails : RoutineGuardrails) : Nat :=
  if guardrails.cooldown ≤ 9223372036854775 then guardrails.cooldown else 300

def checkCooldown (now : Int) (routine : Routine) : Bool :=
  match routine.lastRunAt with
  | some lastRun => !decide (now - lastRun < 1000 * cooldownSeconds routine.guardrails)
  | none => true

def truncate (s : String) (max : Nat) : String :=
  if len s ≤ max then s else slice s 0 (floorCharBoundary s max) ++ "..."

def CachedRoutine.admits (now : Int) (message : IncomingMessage) (cached : CachedRoutine) : Bool :=
  let channelFits :=
    match cached.routine.trigger with
    | .event (some channel) _ => channel == message.channel
    | _ => true
  channelFits && cached.isMatch message.content && checkCooldown now cached.routine

def eventCacheOf (routines : List Routine) : List CachedRoutine :=
  routines.filterMap fun routine =>
    match routine.trigger with
    | .event _ pattern => (D.regex pattern).map (⟨routine.id, routine, ·⟩)
    | _ => none

namespace Engine

variable (D : EngineDeps) (s : Engine)

def tick (elapsed : Nat) : Engine := { s with now := s.now + elapsed }

def return_ (result : Returned) : Engine :=
  { s with returned := result :: s.returned }

def checkConcurrent (routine : Routine) (queryFault : Option String) : Bool :=
  queryFault.isNone && s.store.countRunningRoutineRuns routine.id < routine.guardrails.maxConcurrent

def newRun (id : String) (routine : Routine) (triggerType : TriggerType)
    (triggerDetail : Option String) : RoutineRun :=
  { id, routineId := routine.id, triggerType, triggerDetail, startedAt := s.now }

def spawn (task : RunTask) : Engine := { s with spawned := s.spawned ++ [task] }

def spawnFire (newId : String) (routine : Routine) (triggerType : TriggerType)
    (triggerDetail : Option String) (message : Option IncomingMessage) : Engine :=
  s.spawn
    { routine
      run := s.newRun newId routine triggerType triggerDetail
      phase := .record
      recorded := false
      message }

def recordRun (reply : Reply String) (run : RoutineRun) : Engine × Bool × Except String Unit :=
  match reply with
  | .rejected e => (s, false, .error e)
  | .answered =>
      match s.store.createRoutineRun run with
      | none => (s, false, .error "UNIQUE constraint failed: routine_runs.id")
      | some store => ({ s with store }, true, .ok ())
  | .lost e =>
      match s.store.createRoutineRun run with
      | none => (s, false, .error "UNIQUE constraint failed: routine_runs.id")
      | some store => ({ s with store }, true, .error e)

/-- The next section of a spawned task. -/
def poll (task : RunTask) (input : SectionInput) : Engine × RunTask :=
  match task.phase with
  | .record =>
      match s.recordRun input.write task.run with
      | (s, recorded, .ok ()) => (s, { task with phase := .count, recorded })
      | (s, recorded, .error _) => (s, { task with phase := .ended s.now, recorded })
  | .count => ({ s with runningCount := s.runningCount + 1 }, { task with phase := .executing })
  | .executing =>
      match input.execution with
      -- nothing after the work is reached: the count stays up
      | .panicked => (s, { task with phase := .ended s.now })
      | .returned result =>
          let (status, summary, tokens) :=
            match result with
            | .ok execution => execution
            | .error e => (.failed, some e, none)
          ({ s with runningCount := s.runningCount - 1 },
            { task with phase := .complete status summary tokens })
  | .complete status summary tokens =>
      let store :=
        if input.write.reached then
          s.store.completeRoutineRun task.run.id status summary tokens s.now
        else s.store
      ({ s with store }, { task with phase := .update status })
  | .update status =>
      let nextFire := D.nextFire task.routine.trigger s.now
      let newFailures :=
        if status = .failed then task.routine.consecutiveFailures + 1 else 0
      let store :=
        if input.write.reached then
          s.store.updateRoutineRuntime task.routine.id s.now nextFire (task.routine.runCount + 1)
            newFailures task.routine.state
        else s.store
      ({ s with store }, { task with phase := .ended s.now })
  | .ended _ => (s, task)

variable (task : Task) (input : SectionInput)

/-- A section, at the time it is taken. -/
def act : Engine × Option Task :=
  match task with
  | .refresh =>
      match input.queryFault with
      | some _ => (s, none)
      | none => (s, some (.storeCache (eventCacheOf D s.store.listEventRoutines)))
  | .storeCache cache => ({ s with eventCache := cache }, none)
  | .event message => (s, some (.eventNext message 0 s.eventCache))
  | .eventNext _ fired [] => (s.return_ (.fired fired), none)
  | .eventNext message fired (cached :: rest) =>
      if cached.admits s.now message then (s, some (.eventCount message fired cached.routine rest))
      else (s, some (.eventNext message fired rest))
  | .eventCount message fired routine rest =>
      if s.checkConcurrent routine input.queryFault then
        (s, some (.eventFire message fired routine rest))
      else (s, some (.eventNext message fired rest))
  | .eventFire message fired routine rest =>
      if s.runningCount ≥ D.maxConcurrentRoutines then (s, some (.eventNext message fired rest))
      else
        (s.spawnFire input.newId routine .event (some (truncate message.content 200))
            (some message),
          some (.eventNext message (fired + 1) rest))
  | .cron =>
      match input.queryFault with
      | some _ => (s, none)
      | none => (s, some (.cronNext (s.store.listDueCronRoutines s.now)))
  | .cronNext [] => (s, none)
  | .cronNext (routine :: rest) =>
      if s.runningCount ≥ D.maxConcurrentRoutines then (s, none)
      else if checkCooldown s.now routine then (s, some (.cronCount routine rest))
      else (s, some (.cronNext rest))
  | .cronCount routine rest =>
      if s.checkConcurrent routine input.queryFault then
        let detail :=
          match routine.trigger with
          | .cron schedule => some schedule
          | _ => none
        (s.spawnFire input.newId routine .cron detail none, some (.cronNext rest))
      else (s, some (.cronNext rest))
  | .manual routineId =>
      match input.queryFault with
      | some e => (s.return_ (.manual (.error ("DB error: " ++ e))), none)
      | none =>
          match s.store.getRoutine routineId with
          | none => (s.return_ (.manual (.error ("routine " ++ routineId ++ " not found"))), none)
          | some routine =>
              if !routine.enabled then
                (s.return_ (.manual (.error ("routine '" ++ routine.name ++ "' is disabled"))),
                  none)
              else (s, some (.manualCount routine))
  | .manualCount routine =>
      if s.checkConcurrent routine input.queryFault then (s, some (.manualCreate routine))
      else
        (s.return_ (.manual
            (.error ("routine '" ++ routine.name ++ "' already at max concurrent runs"))),
          none)
  | .manualCreate routine =>
      let run := s.newRun input.newId routine .manual none
      match s.recordRun input.write run with
      | (s, _, .error e) =>
          (s.return_ (.manual (.error ("failed to create run record: " ++ e))), none)
      | (s, recorded, .ok ()) =>
          ((s.spawn { routine, run, phase := .count, recorded }).return_ (.manual (.ok run.id)),
            none)
  | .poll place =>
      match s.spawned[place]? with
      | none => (s, none)
      | some task =>
          let (after, task) := s.poll D task input
          ({ after with spawned := after.spawned.set place task }, none)

def sect : Engine × Option Task := (s.tick input.elapsed).act D task input

/-- A message comes in, the ticker ticks, someone fires a routine or has the cache refreshed,
or the runtime takes a spawned task one section further. -/
inductive Call where
  | refreshEventCache
  | checkEventTriggers (message : IncomingMessage)
  | checkCronTriggers
  | fireManual (routineId : String)
  | pollSpawned (place : Nat)

def Call.whole : Call → Task
  | refreshEventCache => .refresh
  | checkEventTriggers message => .event message
  | checkCronTriggers => .cron
  | fireManual routineId => .manual routineId
  | pollSpawned place => .poll place

abbrev Config := Interleave.Config Engine Task

abbrev Label := Interleave.Label Call SectionInput

def step : Config → Label → Config := Interleave.step Call.whole (sect D)

def start (now : Int) (store : RoutineStore) : Config := { shared := { now, store } }

/-! ## What a section can do -/

/-- What a section of a spawned task does to the engine and to the task. -/
inductive Polls (s : Engine) (input : SectionInput) (t : RunTask) : Engine → RunTask → Prop where
  | recorded {store : RoutineStore} {phase : Phase} (hphase : t.phase = .record)
      (hstore : s.store.createRoutineRun t.run = some store)
      (hnext : phase = .count ∨ phase = .ended s.now) :
      Polls s input t { s with store } { t with phase, recorded := true }
  | notRecorded (hphase : t.phase = .record) :
      Polls s input t s { t with phase := .ended s.now, recorded := false }
  | counted (hphase : t.phase = .count) :
      Polls s input t { s with runningCount := s.runningCount + 1 } { t with phase := .executing }
  | panicked (hphase : t.phase = .executing) : Polls s input t s { t with phase := .ended s.now }
  | executed {status : RunStatus} {summary : Option String} {tokens : Option Int}
      (hphase : t.phase = .executing) :
      Polls s input t { s with runningCount := s.runningCount - 1 }
        { t with phase := .complete status summary tokens }
  | completed {status : RunStatus} {summary : Option String} {tokens : Option Int}
      (hphase : t.phase = .complete status summary tokens) :
      Polls s input t
        { s with store := s.store.completeRoutineRun t.run.id status summary tokens s.now }
        { t with phase := .update status }
  | notCompleted {status : RunStatus} {summary : Option String} {tokens : Option Int}
      (hphase : t.phase = .complete status summary tokens) :
      Polls s input t s { t with phase := .update status }
  | updated {status : RunStatus} {nextFire : Option Int} {runCount failures : Nat}
      {state : JsonValue} (hphase : t.phase = .update status)
      (hlater : ∀ fire, nextFire = some fire → s.now < fire) :
      Polls s input t
        { s with
          store := s.store.updateRoutineRuntime t.routine.id s.now nextFire runCount failures
            state }
        { t with phase := .ended s.now }
  | notUpdated {status : RunStatus} (hphase : t.phase = .update status)
      (hreached : input.write.reached = false) :
      Polls s input t s { t with phase := .ended s.now }
  | ended {at_ : Int} (hphase : t.phase = .ended at_) : Polls s input t s t

theorem poll_polls (t : RunTask) (input : SectionInput) :
    Polls s input t (s.poll D t input).1 (s.poll D t input).2 := by
  unfold poll
  cases hphase : t.phase with
  | record =>
    cases hstore : s.store.createRoutineRun t.run with
    | none =>
      cases hreply : input.write with
      | rejected => exact .notRecorded hphase
      | answered | lost =>
        simp only [recordRun, hstore]
        exact .notRecorded hphase
    | some =>
      cases hreply : input.write with
      | rejected => exact .notRecorded hphase
      | answered =>
        simp only [recordRun, hstore]
        exact .recorded hphase hstore (.inl rfl)
      | lost =>
        simp only [recordRun, hstore]
        exact .recorded hphase hstore (.inr rfl)
  | count => exact .counted hphase
  | executing =>
    cases input.execution with
    | panicked => exact .panicked hphase
    | returned => exact .executed hphase
  | complete =>
    by_cases hreached : input.write.reached = true
    · simp only [hreached, if_true]
      exact .completed hphase
    · simp only [hreached]
      exact .notCompleted hphase
  | update =>
    by_cases hreached : input.write.reached = true
    · simp only [hreached, if_true]
      exact .updated hphase fun fire => D.nextFire_later
    · simp only [hreached]
      exact .notUpdated hphase (Bool.eq_false_iff.mpr hreached)
  | ended => exact .ended hphase

inductive Fires (s : Engine) (input : SectionInput) :
    Task → Routine → TriggerType → Option IncomingMessage → Prop where
  | event {message : IncomingMessage} {fired : Nat} {routine : Routine}
      {rest : List CachedRoutine} (hcount : s.runningCount < D.maxConcurrentRoutines) :
      Fires s input (.eventFire message fired routine rest) routine .event (some message)
  | cron {routine : Routine} {rest : List Routine}
      (hconcurrent : s.checkConcurrent routine input.queryFault = true) :
      Fires s input (.cronCount routine rest) routine .cron none

/-- What a section does to the engine. -/
inductive Moves (s : Engine) (input : SectionInput) : Task → Engine → Prop where
  | idle {task : Task} (eventCache : List CachedRoutine) (returned : List Returned) :
      Moves s input task { s with eventCache, returned }
  | fired {task : Task} {routine : Routine} {triggerType : TriggerType}
      {message : Option IncomingMessage} (detail : Option String)
      (hfires : Fires D s input task routine triggerType message) :
      Moves s input task (s.spawnFire input.newId routine triggerType detail message)
  | manual {routine : Routine} {store : RoutineStore}
      (hstore : s.store.createRoutineRun (s.newRun input.newId routine .manual none) = some store)
      (returned : List Returned) :
      Moves s input (.manualCreate routine)
        { s.spawn
            { routine, run := s.newRun input.newId routine .manual none, phase := .count
              recorded := true } with
          store, returned }
  /-- The run of a manual fire is recorded, but the fire does not learn of it. -/
  | manualLost {routine : Routine} {store : RoutineStore}
      (hstore : s.store.createRoutineRun (s.newRun input.newId routine .manual none) = some store)
      (returned : List Returned) :
      Moves s input (.manualCreate routine) { s with store, returned }
  | polled {place : Nat} {t t' : RunTask} {s' : Engine} (hplace : s.spawned[place]? = some t)
      (hpolls : Polls s input t s' t') :
      Moves s input (.poll place) { s' with spawned := s.spawned.set place t' }

theorem Polls.spawned_eq {s s' : Engine} {input : SectionInput} {t t' : RunTask}
    (h : Polls s input t s' t') : s'.spawned = s.spawned := by
  cases h <;> rfl

theorem act_moves : Moves D s input task (s.act D task input).1 := by
  cases task with
  | refresh | eventCount | cron | manualCount =>
    simp only [act]
    split <;> exact .idle _ _
  | storeCache | event => exact .idle _ _
  | eventNext _ _ rest =>
    cases rest with
    | nil => exact .idle _ _
    | cons =>
      simp only [act]
      split <;> exact .idle _ _
  | eventFire =>
    simp only [act]
    split
    · exact .idle _ _
    · next hcount => exact .fired _ (.event (not_le.mp hcount))
  | cronNext rest =>
    cases rest with
    | nil => exact .idle _ _
    | cons =>
      simp only [act]
      split
      · exact .idle _ _
      · split <;> exact .idle _ _
  | cronCount =>
    simp only [act]
    split
    · next hconcurrent => exact .fired _ (.cron hconcurrent)
    · exact .idle _ _
  | manual =>
    simp only [act]
    split
    · exact .idle _ _
    split
    · exact .idle _ _
    · split <;> exact .idle _ _
  | manualCreate routine =>
    simp only [act]
    cases hstore : s.store.createRoutineRun (s.newRun input.newId routine .manual none) with
    | none =>
      cases input.write with
      | rejected => exact .idle _ _
      | answered | lost =>
        simp only [recordRun, hstore]
        exact .idle _ _
    | some =>
      cases input.write with
      | rejected => exact .idle _ _
      | answered =>
        simp only [recordRun, hstore]
        exact .manual hstore _
      | lost =>
        simp only [recordRun, hstore]
        exact .manualLost hstore _
  | poll place =>
    simp only [act]
    cases hplace : s.spawned[place]? with
    | none => exact .idle _ _
    | some t =>
      have hpolls := poll_polls D s t input
      have hmoves : Moves D s input (.poll place) _ := .polled hplace hpolls
      rwa [← hpolls.spawned_eq] at hmoves

/-- What a check goes on with. -/
inductive Next (s : Engine) : Task → Task → Prop where
  | refreshed {cache : List CachedRoutine} : Next s .refresh (.storeCache cache)
  | matching {message : IncomingMessage} {task : Task} {fired : Nat} {rest : List CachedRoutine} :
      Next s task (.eventNext message fired rest)
  | admitted {message : IncomingMessage} {fired : Nat} {cached : CachedRoutine}
      {rest : List CachedRoutine} (hadmits : cached.admits s.now message = true) :
      Next s (.eventNext message fired (cached :: rest))
        (.eventCount message fired cached.routine rest)
  | eventCounted {message : IncomingMessage} {fired : Nat} {routine : Routine}
      {rest : List CachedRoutine} :
      Next s (.eventCount message fired routine rest) (.eventFire message fired routine rest)
  | listed : Next s .cron (.cronNext (s.store.listDueCronRoutines s.now))
  | skipped {routine : Routine} {rest : List Routine} :
      Next s (.cronNext (routine :: rest)) (.cronNext rest)
  | cooled {routine : Routine} {rest : List Routine} :
      Next s (.cronNext (routine :: rest)) (.cronCount routine rest)
  | cronCounted {routine : Routine} {rest : List Routine} :
      Next s (.cronCount routine rest) (.cronNext rest)
  | found {routineId : String} {routine : Routine} :
      Next s (.manual routineId) (.manualCount routine)
  | manualCounted {routine : Routine} : Next s (.manualCount routine) (.manualCreate routine)

theorem act_next {s : Engine} {task next : Task} {input : SectionInput}
    (h : (s.act D task input).2 = some next) : Next s task next := by
  cases task with
  | refresh =>
    simp only [act] at h
    split at h
    · cases h
    cases h
    exact .refreshed
  | storeCache => cases h
  | event =>
    cases h
    exact .matching
  | eventNext _ _ rest =>
    cases rest with
    | nil => cases h
    | cons =>
      simp only [act] at h
      split at h
      · next hadmits =>
        cases h
        exact .admitted hadmits
      · cases h
        exact .matching
  | eventCount =>
    simp only [act] at h
    split at h
    · cases h
      exact .eventCounted
    · cases h
      exact .matching
  | eventFire =>
    simp only [act] at h
    split at h
    · cases h
      exact .matching
    · cases h
      exact .matching
  | cron =>
    simp only [act] at h
    split at h
    · cases h
    cases h
    exact .listed
  | cronNext rest =>
    cases rest with
    | nil => cases h
    | cons =>
      simp only [act] at h
      split at h
      · cases h
      split at h
      · cases h
        exact .cooled
      · cases h
        exact .skipped
  | cronCount =>
    simp only [act] at h
    split at h
    · cases h
      exact .cronCounted
    · cases h
      exact .cronCounted
  | manual =>
    simp only [act] at h
    split at h
    · cases h
    split at h
    · cases h
    split at h
    · cases h
    cases h
    exact .found
  | manualCount =>
    simp only [act] at h
    split at h
    · cases h
      exact .manualCounted
    · cases h
  | manualCreate | poll =>
    simp only [act] at h
    split at h
    · cases h
    · cases h

/-! ### What stays as it is -/

section

variable {D} {s s' : Engine} {input : SectionInput} {task : Task} {t t' : RunTask}

theorem Polls.routine_eq (h : Polls s input t s' t') : t'.routine = t.routine := by cases h <;> rfl

theorem Polls.run_eq (h : Polls s input t s' t') : t'.run = t.run := by cases h <;> rfl

theorem le_tick (s : Engine) (elapsed : Nat) : s.now ≤ (s.tick elapsed).now :=
  Int.le_add_of_nonneg_right (Int.natCast_nonneg elapsed)

theorem Polls.now_eq (h : Polls s input t s' t') : s'.now = s.now := by cases h <;> rfl

theorem Moves.now_eq (h : Moves D s input task s') : s'.now = s.now := by
  cases h with
  | polled _ hpolls => exact hpolls.now_eq
  | _ => rfl

/-- Nothing that the engine writes to a routine changes its guardrails. -/
theorem Polls.forall_routines (h : Polls s input t s' t') {P : String → RoutineGuardrails → Prop}
    (hall : ∀ routine ∈ s.store.routines, P routine.id routine.guardrails) :
    ∀ routine ∈ s'.store.routines, P routine.id routine.guardrails := by
  cases h with
  | recorded _ hstore =>
    unfold RoutineStore.createRoutineRun at hstore
    split at hstore
    · cases hstore
    cases hstore
    exact hall
  | updated =>
    refine List.forall_mem_map.mpr fun routine hroutine => ?_
    split
    · exact hall routine hroutine
    · exact hall routine hroutine
  | notRecorded | counted | panicked | executed | completed | notCompleted | notUpdated | ended =>
    exact hall

end

def minutely (maxConcurrentRoutines : Nat) : EngineDeps where
  maxConcurrentRoutines
  regex _ := none
  nextCronFire _ now := .ok (some (now + 60000))
  nextCronFire_later schedule now fire h := by
    obtain rfl : now + 60000 = fire := by simpa using h
    omega

def dueNow : RoutineStore :=
  { routines :=
      [{ id := "r", name := "minute", trigger := .cron "0 * * * * *", nextFireAt := some 0 }] }

def tickOnce (id : Nat) (newId : String) : List Label :=
  [.start id .checkCronTriggers, .advance id {}, .advance id {}, .advance id { newId }]

/-- So many sections of the task at this place. -/
def pollTimes (first place count : Nat) : List Label :=
  (List.range count).flatMap fun i =>
    [.start (first + i) (.pollSpawned place), .advance (first + i) {}]

end Engine

end TitanClaw.Agent.Routines
