import TitanClaw.Context.Manager
import TitanClaw.Lib.Slots

/-! # The job scheduler

A job that is scheduled gets a worker, an entry in the table of running jobs, and a task that
removes the entry when the worker is done. That task looks at the table under the read lock,
and removes the entry later under the write lock, by the id of the job. If the job was removed
and scheduled again in between, the entry that it removes is the one of the new worker.

What is done under the write lock is one step. -/

namespace TitanClaw.Agent

open Context List Option AList Table Run

inductive WorkerStatus where
  | running | finished | aborted
  deriving DecidableEq

structure WorkerTask where
  jobId : String
  status : WorkerStatus := .running
  deriving DecidableEq

def WorkerTask.endWith (status : WorkerStatus) (worker : WorkerTask) : WorkerTask :=
  if worker.status = .running then { worker with status } else worker

inductive CleanupPhase where
  | looking | removing | ended
  deriving DecidableEq

structure CleanupTask where
  jobId : String
  phase : CleanupPhase := .looking

structure Scheduler where
  maxParallelJobs : Nat
  contextManager : ContextManager
  jobs : Table String Nat := ∅
  workers : List WorkerTask := []
  cleanups : List CleanupTask := []

namespace Scheduler

variable (s : Scheduler)

/-- `JoinHandle::is_finished`. -/
def isFinished (handle : Nat) : Bool := s.workers[handle]?.any (·.status != .running)

def schedule (jobId : String) (now : Int) : Except JobError Unit × Scheduler :=
  if (s.jobs.lookup jobId).isSome then (.ok (), s)
  else if s.maxParallelJobs ≤ s.jobs.entries.length then
    (.error (.maxJobsExceeded s.maxParallelJobs), s)
  else
    match s.contextManager.contexts.lookup jobId with
    | none => (.error (.notFound jobId), s)
    | some ctx =>
        let (result, ctx) := ctx.transitionTo now .inProgress (some "Scheduled for execution")
        let contextManager := (s.contextManager.updateContext jobId fun _ => ctx).2
        match result with
        | .error reason => (.error (.contextError jobId reason), { s with contextManager })
        | .ok () =>
            (.ok (),
              { s with
                contextManager
                jobs := s.jobs.insert jobId s.workers.length
                workers := s.workers ++ [{ jobId }]
                cleanups := s.cleanups ++ [{ jobId }] })

def abort (handle : Nat) : List WorkerTask := s.workers.modify handle (·.endWith .aborted)

def stop (jobId : String) (now : Int) : Except JobError Unit × Scheduler :=
  match s.jobs.lookup jobId with
  | none => (.ok (), s)
  | some handle =>
      let s := { s with jobs := s.jobs.erase jobId, workers := s.abort handle }
      let (result, contextManager) := s.contextManager.updateContext jobId fun ctx =>
        (ctx.transitionTo now .cancelled (some "Stopped by scheduler")).2
      (result, { s with contextManager })

def cleanupFinished : Scheduler :=
  { s with jobs := s.jobs.retain fun _ handle => !s.isFinished handle }

def lookCleanup (task : CleanupTask) : CleanupTask :=
  let finished : Bool :=
    match s.jobs.lookup task.jobId with
    | some handle => s.isFinished handle
    | none => true
  if task.phase = .looking ∧ finished then { task with phase := .removing } else task

inductive Step where
  | schedule (jobId : String) (now : Int)
  | stop (jobId : String) (now : Int)
  | cleanupFinished
  /-- The next section of a cleanup task. -/
  | look (cleanup : Nat)
  | remove (cleanup : Nat)
  | finish (handle : Nat)
  /-- Whatever else happens to the contexts of the jobs. -/
  | contexts (contextManager : ContextManager)

def step : Step → Scheduler
  | .schedule jobId now => (s.schedule jobId now).2
  | .stop jobId now => (s.stop jobId now).2
  | .cleanupFinished => s.cleanupFinished
  | .look cleanup => { s with cleanups := s.cleanups.modify cleanup s.lookCleanup }
  | .remove cleanup =>
      match s.cleanups[cleanup]? with
      | some ⟨jobId, .removing⟩ =>
          { s with
            jobs := s.jobs.erase jobId
            cleanups := s.cleanups.set cleanup ⟨jobId, .ended⟩ }
      | _ => s
  | .finish handle => { s with workers := s.workers.modify handle (·.endWith .finished) }
  | .contexts contextManager => { s with contextManager }

/-! ## Running workers and their entries -/

/-- Every worker that runs is the one in the entry of its job. -/
def Tracked : Prop :=
  ∀ handle worker, s.workers[handle]? = some worker → worker.status = .running →
    s.jobs.lookup worker.jobId = some handle

def running : Nat := s.workers.countP (·.status == .running)

/-- A cleanup task that removes the entry of its job finds the worker of a run that is over,
or none. -/
def RemovesFinished : Step → Prop
  | .remove cleanup =>
      ∀ task ∈ s.cleanups[cleanup]?, task.phase = .removing →
        ∀ handle ∈ s.jobs.lookup task.jobId, s.isFinished handle = true
  | _ => True

instance (s : Scheduler) (label : Step) : Decidable (s.RemovesFinished label) := by
  unfold RemovesFinished
  split <;> infer_instance

/-- A handle of a worker of the job. -/
def Owns (workers : List WorkerTask) (jobId : String) (handle : Nat) : Prop :=
  ∃ worker, workers[handle]? = some worker ∧ worker.jobId = jobId

/-- The entries are those of workers of their jobs, and there are not too many. -/
structure Entries (s : Scheduler) : Prop where
  own : ∀ jobId handle, s.jobs.lookup jobId = some handle → Owns s.workers jobId handle
  bounded : s.jobs.entries.length ≤ s.maxParallelJobs

section

variable {s : Scheduler} {jobId : String} {handle : Nat} {worker : WorkerTask}

theorem isFinished_iff (h : s.workers[handle]? = some worker) :
    s.isFinished handle = true ↔ worker.status ≠ .running := by
  simp [isFinished, h]

/-! ### What the steps do to workers and entries -/

variable (s)

theorem schedule_cases (jobId : String) (now : Int) :
    ∃ contextManager, (s.schedule jobId now).2 = { s with contextManager }
      ∨ s.jobs.lookup jobId = none ∧ s.jobs.entries.length < s.maxParallelJobs
        ∧ (s.schedule jobId now).2
          = { s with
              contextManager
              jobs := s.jobs.insert jobId s.workers.length
              workers := s.workers ++ [{ jobId }]
              cleanups := s.cleanups ++ [{ jobId }] } := by
  unfold schedule
  split
  · exact ⟨s.contextManager, .inl rfl⟩
  next hnone =>
  split
  · exact ⟨s.contextManager, .inl rfl⟩
  next hroom =>
  split
  · exact ⟨s.contextManager, .inl rfl⟩
  next ctx _ =>
  dsimp only
  split
  · exact ⟨_, .inl rfl⟩
  refine ⟨_, .inr ⟨?_, not_le.mp hroom, rfl⟩⟩
  exact not_isSome_iff_eq_none.mp hnone

theorem stop_cases (jobId : String) (now : Int) : (s.stop jobId now).2 = s
      ∨ ∃ handle contextManager, s.jobs.lookup jobId = some handle
        ∧ (s.stop jobId now).2
          = { s with contextManager, jobs := s.jobs.erase jobId, workers := s.abort handle } := by
  unfold stop
  split
  · exact .inl rfl
  · next handle hhandle => exact .inr ⟨handle, _, hhandle, rfl⟩

theorem remove_cases (cleanup : Nat) : (∃ jobId, s.cleanups[cleanup]? = some ⟨jobId, .removing⟩
        ∧ s.step (.remove cleanup)
          = { s with
              jobs := s.jobs.erase jobId
              cleanups := s.cleanups.set cleanup ⟨jobId, .ended⟩ })
      ∨ (∀ task ∈ s.cleanups[cleanup]?, task.phase ≠ .removing) ∧ s.step (.remove cleanup) = s := by
  simp only [step]
  split
  · next jobId hcleanup => exact .inl ⟨jobId, hcleanup, rfl⟩
  next hnot =>
  refine .inr ⟨fun task htask hphase => ?_, rfl⟩
  obtain ⟨jobId, phase⟩ := task
  subst hphase
  exact hnot jobId htask

theorem step_maxParallelJobs (label : Step) :
    (s.step label).maxParallelJobs = s.maxParallelJobs := by
  cases label with
  | schedule jobId now =>
    obtain ⟨contextManager, hsame | ⟨-, -, hnew⟩⟩ := schedule_cases s jobId now
    · simp only [step, hsame]
    · simp only [step, hnew]
  | stop jobId now =>
    rcases stop_cases s jobId now with hsame | ⟨handle, contextManager, -, hstopped⟩
    · simp only [step, hsame]
    · simp only [step, hstopped]
  | remove cleanup =>
    rcases remove_cases s cleanup with ⟨jobId, -, hremoved⟩ | ⟨-, hsame⟩
    · rw [hremoved]
    · rw [hsame]
  | _ => rfl

variable {s} {workers : List WorkerTask}

/-- A worker that still runs after another has ended did so before. -/
theorem running_of_modify {status : WorkerStatus} (hstatus : status ≠ .running) {ended : Nat}
    (h : (workers.modify ended (·.endWith status))[handle]? = some worker)
    (hrunning : worker.status = .running) : workers[handle]? = some worker ∧ handle ≠ ended := by
  rw [getElem?_modify, Option.map_eq_map, Option.map_eq_some_iff] at h
  obtain ⟨before, hbefore, rfl⟩ := h
  split at hrunning
  · next heq =>
    unfold WorkerTask.endWith at hrunning
    split at hrunning
    · exact absurd hrunning hstatus
    · next hended => exact absurd hrunning hended
  · next hne =>
    rw [if_neg hne]
    exact ⟨hbefore, Ne.symm hne⟩

theorem owns_modify (h : Owns workers jobId handle) (status : WorkerStatus) (ended : Nat) :
    Owns (workers.modify ended (·.endWith status)) jobId handle := by
  obtain ⟨worker, hworker, hid⟩ := h
  refine ⟨_, by rw [getElem?_modify, hworker, Option.map_eq_map, Option.map_some], ?_⟩
  split
  · unfold WorkerTask.endWith
    split
    · exact hid
    · exact hid
  · exact hid

theorem owns_append (h : Owns workers jobId handle)
    (new : WorkerTask) : Owns (workers ++ [new]) jobId handle := by
  obtain ⟨worker, hworker, hid⟩ := h
  refine ⟨worker, ?_, hid⟩
  rw [List.getElem?_append_left (List.getElem?_eq_some_iff.mp hworker).1, hworker]

theorem step_entries (h : s.Entries) (label : Step) : (s.step label).Entries := by
  cases label with
  | schedule jobId now =>
    obtain ⟨contextManager, hsame | ⟨hnone, hroom, hnew⟩⟩ := schedule_cases s jobId now
    · simp only [step, hsame]
      exact ⟨h.own, h.bounded⟩
    · simp only [step, hnew]
      refine ⟨fun other handle hlookup => ?_, ?_⟩
      · by_cases hother : other = jobId
        · subst hother
          rw [lookup_insert] at hlookup
          cases hlookup
          exact ⟨_, getElem?_concat_length, rfl⟩
        · rw [lookup_insert_ne hother] at hlookup
          exact owns_append (h.own other handle hlookup) _
      · exact (length_insert_le jobId _ s.jobs).trans hroom
  | stop jobId now =>
    rcases stop_cases s jobId now with hsame | ⟨handle, contextManager, -, hstopped⟩
    · simp only [step, hsame]
      exact h
    · simp only [step, hstopped]
      refine ⟨fun other handle hlookup => ?_, (length_erase_le _ _).trans h.bounded⟩
      exact owns_modify (h.own other handle (erase_sub jobId s.jobs _ _ hlookup)) _ _
  | cleanupFinished =>
    refine ⟨fun other handle hlookup => ?_, (length_filter_le _ _).trans h.bounded⟩
    exact h.own other handle (retain_sub _ s.jobs _ _ hlookup)
  | remove cleanup =>
    rcases remove_cases s cleanup with ⟨jobId, -, hremoved⟩ | ⟨-, hsame⟩
    · rw [hremoved]
      refine ⟨fun other handle hlookup => ?_, (length_erase_le _ _).trans h.bounded⟩
      exact h.own other handle (erase_sub jobId s.jobs _ _ hlookup)
    · rw [hsame]
      exact h
  | finish =>
    exact ⟨fun jobId other hlookup => owns_modify (h.own jobId other hlookup) _ _, h.bounded⟩
  | look | contexts => exact ⟨h.own, h.bounded⟩

/-- Only the removal of an entry by a cleanup task can take it from a worker that runs. -/
theorem step_tracked_iff (hentries : s.Entries) (h : s.Tracked) (label : Step) :
    (s.step label).Tracked ↔ s.RemovesFinished label := by
  cases label with
  | schedule jobId now =>
    refine iff_of_true ?_ trivial
    obtain ⟨contextManager, hsame | ⟨hnone, hroom, hnew⟩⟩ := schedule_cases s jobId now
    · simp only [step, hsame]
      exact h
    · simp only [step, hnew]
      intro handle worker hworker hrunning
      -- the new worker is the last one; no other one of the job runs
      rcases Nat.lt_trichotomy handle s.workers.length with hlt | rfl | hgt
      · rw [getElem?_append_left hlt] at hworker
        have hentry := h handle worker hworker hrunning
        have hother : worker.jobId ≠ jobId := by
          intro heq
          rw [heq, hnone] at hentry
          cases hentry
        rw [lookup_insert_ne hother, hentry]
      · rw [getElem?_concat_length] at hworker
        cases hworker
        exact lookup_insert _
      · rw [getElem?_eq_none (by simpa using Nat.succ_le_of_lt hgt)] at hworker
        cases hworker
  | stop jobId now =>
    refine iff_of_true ?_ trivial
    rcases stop_cases s jobId now with hsame | ⟨handle, contextManager, hlookup, hstopped⟩
    · simp only [step, hsame]
      exact h
    · simp only [step, hstopped]
      intro other worker hworker hrunning
      obtain ⟨hbefore, hne⟩ := running_of_modify (by decide) hworker hrunning
      have hentry := h other worker hbefore hrunning
      have hother : worker.jobId ≠ jobId := by
        intro heq
        rw [heq, hlookup] at hentry
        exact hne (Option.some.inj hentry).symm
      rw [lookup_erase_ne hother, hentry]
  | cleanupFinished =>
    refine iff_of_true (fun handle worker hworker hrunning => ?_) trivial
    have hlive : s.isFinished handle = false :=
      Bool.eq_false_iff.mpr fun hfinished => (isFinished_iff hworker).mp hfinished hrunning
    show (s.jobs.retain _).lookup worker.jobId = _
    rw [lookup_retain, h handle worker hworker hrunning, filter_some, hlive]
    rfl
  | remove cleanup =>
    rcases remove_cases s cleanup with ⟨jobId, hcleanup, hremoved⟩ | ⟨hnot, hsame⟩
    · rw [hremoved]
      constructor
      · intro hafter task htask _ handle hhandle
        rw [hcleanup] at htask
        cases htask
        -- a worker that runs would have lost its entry
        obtain ⟨worker, hworker, hid⟩ := hentries.own jobId handle hhandle
        rw [isFinished_iff hworker]
        intro hrunning
        have hlost := hafter handle worker hworker hrunning
        rw [hid] at hlost
        exact absurd hlost (by rw [lookup_erase]; exact some_ne_none _ ∘ Eq.symm)
      · intro hguard handle worker hworker hrunning
        have hentry := h handle worker hworker hrunning
        have hother : worker.jobId ≠ jobId := by
          rintro rfl
          exact (isFinished_iff hworker).mp (hguard _ hcleanup rfl handle hentry) hrunning
        rw [lookup_erase_ne hother, hentry]
    · rw [hsame]
      exact iff_of_true h fun task htask hphase => absurd hphase (hnot task htask)
  | finish =>
    refine iff_of_true (fun other worker hworker hrunning => ?_) trivial
    exact h other worker (running_of_modify (by decide) hworker hrunning).1 hrunning
  | look | contexts => exact iff_of_true h trivial

/-- The workers that run have an entry each. -/
theorem Tracked.running_le (h : s.Tracked) : s.running ≤ s.jobs.entries.length := by
  have hdistinct : s.workers.Pairwise fun a b =>
      (a.status == .running) = true → (b.status == .running) = true → a.jobId ≠ b.jobId := by
    rw [pairwise_iff_getElem]
    intro i j hi hj hij hfirst hsecond hsame
    have hentry := h i s.workers[i] (getElem?_eq_getElem hi) (beq_iff_eq.mp hfirst)
    have hentry' := h j s.workers[j] (getElem?_eq_getElem hj) (beq_iff_eq.mp hsecond)
    rw [hsame, hentry'] at hentry
    exact absurd (Option.some.inj hentry) hij.ne'
  have hnodup : ((s.workers.filter (·.status == .running)).map (·.jobId)).Nodup :=
    pairwise_map.mpr (pairwise_filter.mpr hdistinct)
  rw [running, countP_eq_length_filter, ← length_map (·.jobId)]
  refine length_le_of_nodup hnodup fun jobId hjob => ?_
  obtain ⟨worker, hworker, rfl⟩ := mem_map.mp hjob
  obtain ⟨hmem, hrunning⟩ := mem_filter.mp hworker
  obtain ⟨handle, hhandle⟩ := mem_iff_getElem?.mp hmem
  have hentry := h handle worker hhandle (beq_iff_eq.mp hrunning)
  exact lookup_isSome.mp (by rw [hentry]; rfl)

end

/-- Over every interleaving of calls and cleanup tasks, the workers that run are in the table
exactly if no cleanup task removes the entry of one; and then they are no more than the
limit. -/
theorem tracked_iff (maxParallelJobs : Nat) (contextManager : ContextManager) (steps : List Step) :
    ((∀ pre, pre <+: steps → (run step { maxParallelJobs, contextManager } pre).Tracked)
      ↔ Guarded step RemovesFinished { maxParallelJobs, contextManager } steps)
    ∧ (Guarded step RemovesFinished { maxParallelJobs, contextManager } steps →
      ∀ pre, pre <+: steps →
        (run step { maxParallelJobs, contextManager } pre).running ≤ maxParallelJobs) := by
  have hentries : Entries { maxParallelJobs, contextManager } :=
    ⟨fun _ _ h => absurd h (by simp), Nat.zero_le _⟩
  have hnew : Tracked { maxParallelJobs, contextManager } := fun _ _ h => absurd h (by simp)
  have hkept : ∀ (s : Scheduler) label, s.maxParallelJobs = maxParallelJobs ∧ s.Entries →
      (s.step label).maxParallelJobs = maxParallelJobs ∧ (s.step label).Entries :=
    fun s label h => ⟨(step_maxParallelJobs s label).trans h.1, step_entries h.2 label⟩
  have hstep : ∀ (s : Scheduler) label, s.maxParallelJobs = maxParallelJobs ∧ s.Entries →
      s.Tracked → ((s.step label).Tracked ↔ s.RemovesFinished label) :=
    fun _ label hkept h => step_tracked_iff hkept.2 h label
  have hiff : (∀ pre, pre <+: steps →
      (run step { maxParallelJobs, contextManager } pre).Tracked)
        ↔ Guarded step RemovesFinished { maxParallelJobs, contextManager } steps :=
    reached_iff_guarded_of_aux hkept hstep ⟨rfl, hentries⟩ hnew
  refine ⟨hiff, fun hguarded pre hpre => ?_⟩
  obtain ⟨hmax, hreached⟩ := invariant_always hkept ⟨rfl, hentries⟩ pre
  calc (run step { maxParallelJobs, contextManager } pre).running
      ≤ (run step { maxParallelJobs, contextManager } pre).jobs.entries.length :=
        (hiff.mpr hguarded pre hpre).running_le
    _ ≤ (run step { maxParallelJobs, contextManager } pre).maxParallelJobs := hreached.bounded
    _ = maxParallelJobs := hmax

/-- Even so there are never more entries than the limit, and each is of a worker of its job. -/
theorem entries_within_limit (maxParallelJobs : Nat) (contextManager : ContextManager)
    (steps : List Step) : let s := run step { maxParallelJobs, contextManager } steps
    s.maxParallelJobs = maxParallelJobs ∧ s.Entries := by
  have hkept (s : Scheduler) (label : Step) (h : s.maxParallelJobs = maxParallelJobs ∧ s.Entries) :
      (s.step label).maxParallelJobs = maxParallelJobs ∧ (s.step label).Entries :=
    ⟨(step_maxParallelJobs s label).trans h.1, step_entries h.2 label⟩
  exact invariant_always hkept ⟨rfl, fun _ _ h => (by cases h), Nat.zero_le _⟩ steps

/-! ### A job that is scheduled again -/

def jobsWith (state : JobState) : ContextManager where
  contexts :=
    (AList.singleton "k" (.withUser "k" 0 "alice" "Other" "")).insert "j"
      { JobContext.withUser "j" 0 "alice" "Report" "" with state }
  maxJobs := 5

/-- One job at a time. -/
def oneAtATime : Scheduler where
  maxParallelJobs := 1
  contextManager := jobsWith .pending

/-- The worker gives up and leaves the job stuck, and the cleanup task sees that it is done. -/
def stuckJob : List Step := [.schedule "j" 0, .contexts (jobsWith .stuck), .finish 0, .look 0]

def scheduledAgain : List Step := stuckJob ++ [.remove 0, .schedule "j" 1, .schedule "k" 2]

theorem scheduledAgain_tracked :
    (run step oneAtATime scheduledAgain).running = 1
      ∧ (run step oneAtATime scheduledAgain).Tracked :=
  ⟨by decide, (tracked_iff 1 (jobsWith .pending) scheduledAgain).1.mpr (by decide)
    scheduledAgain (prefix_refl _)⟩

/-- Before it does, `cleanup_finished` removes the entry and the job is scheduled again. -/
def removedLate : List Step :=
  stuckJob ++ [.cleanupFinished, .schedule "j" 1, .remove 0, .schedule "k" 2]

/-- The new worker runs on without an entry, and beside it one more than the limit. -/
theorem removedLate_exceeds :
    (run step oneAtATime removedLate).workers = [⟨"j", .finished⟩, ⟨"j", .running⟩, ⟨"k", .running⟩]
      ∧ (run step oneAtATime removedLate).jobs.lookup "j" = none
      ∧ ¬ (run step oneAtATime removedLate).Tracked
      ∧ (run step oneAtATime removedLate).running = 2 := by
  have hworkers : (run step oneAtATime removedLate).workers
      = [⟨"j", .finished⟩, ⟨"j", .running⟩, ⟨"k", .running⟩] := by decide
  have hgone : (run step oneAtATime removedLate).jobs.lookup "j" = none := by decide
  refine ⟨hworkers, hgone, fun h => ?_, by decide⟩
  have hentry := h 1 ⟨"j", .running⟩ (by rw [hworkers]; rfl) rfl
  cases hentry

end Scheduler

end TitanClaw.Agent
