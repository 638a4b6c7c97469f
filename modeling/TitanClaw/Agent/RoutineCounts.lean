import TitanClaw.Agent.RoutineCooldown
import TitanClaw.Agent.RoutineRecords

/-! # The counters of a routine

The last thing a run does is to write the counters of its routine. It takes them from the
routine as it was when the run was fired, for an event fire as the cache had it, and writes
them one higher, whatever the store has by then. A run that ends while another one is under
way, or that was fired from a cache older than the last run, is lost in the counters. -/

namespace TitanClaw.Agent.Routines

open List Option Interleave Run RoutineStore

/-! ## Runs that begin and end -/

/-- A run is under way from the first thing `execute_routine` does to the last. -/
def Phase.underway : Phase → Bool
  | executing | complete _ _ _ | update _ => true
  | record | count | ended _ => false

inductive RunEvent where
  | began (routineId : String)
  | ended (routineId : String) (failed : Bool)
  deriving DecidableEq

/-- What the next section of the task means for its run. A run whose work panics has failed. -/
def RunTask.emits (t : RunTask) (input : SectionInput) : List RunEvent :=
  match t.phase with
  | .count => [.began t.routine.id]
  | .executing =>
      match input.execution with
      | .panicked => [.ended t.routine.id true]
      | .returned _ => []
  | .update status => [.ended t.routine.id (status == .failed)]
  | _ => []

def begun (id : String) (log : List RunEvent) : Nat := log.count (.began id)

/-- Whether the runs of the routine have failed, in the order in which they ended. -/
def outcomes (id : String) (log : List RunEvent) : List Bool :=
  log.filterMap fun
    | .ended routineId failed => if routineId = id then some failed else none
    | .began _ => none

/-- The failed runs since the last one that did not fail; if there is none, those from before
count too. -/
def failuresSince (before : Nat) (failed : List Bool) : Nat :=
  if failed.all id then before + failed.length else (failed.reverse.takeWhile id).length

theorem failuresSince_concat (before : Nat) (failed : List Bool) (last : Bool) :
    failuresSince before (failed ++ [last])
      = if last then failuresSince before failed + 1 else 0 := by
  unfold failuresSince
  rw [reverse_append, reverse_singleton, singleton_append, all_append]
  cases last with
  | false => simp
  | true =>
    rw [takeWhile_cons_of_pos rfl]
    by_cases hall : failed.all id = true
    · simp [hall, Nat.add_assoc]
    · simp [hall]

section Log

variable {id : String} {log : List RunEvent}

@[simp] theorem outcomes_began (other : String) :
    outcomes id (log ++ [.began other]) = outcomes id log := by
  simp [outcomes]

@[simp] theorem outcomes_ended (failed : Bool) :
    outcomes id (log ++ [.ended id failed]) = outcomes id log ++ [failed] := by
  simp [outcomes]

theorem outcomes_ended_of_ne {other : String} (h : other ≠ id) (failed : Bool) :
    outcomes id (log ++ [.ended other failed]) = outcomes id log := by
  simp [outcomes, h]

end Log

/-! ## The counters -/

structure Counts (log : List RunEvent) (before after : Routine) : Prop where
  id : after.id = before.id
  runs : after.runCount = before.runCount + (outcomes before.id log).length
  failures : after.consecutiveFailures
    = failuresSince before.consecutiveFailures (outcomes before.id log)

namespace Engine

/-- The same of all the routines in the store, from what they were at the beginning. -/
def Counted (initial : List Routine) (s : Engine) (log : List RunEvent) : Prop :=
  List.Forall₂ (Counts log) initial s.store.routines

def underway (s : Engine) (id : String) : Nat :=
  s.spawned.countP fun t => t.routine.id == id && t.phase.underway

def emits (s : Engine) (task : Task) (input : SectionInput) : List RunEvent :=
  match task with
  | .poll place => (s.spawned[place]?).elim [] (·.emits input)
  | _ => []

end Engine

/-- The work of a run comes back. A run writes its counters while the store has those that the
run was fired with, and the statement takes effect. -/
def RunTask.WritesBack (t : RunTask) (row : Routine) (input : SectionInput) : Prop :=
  match t.phase with
  | .executing =>
      match input.execution with
      | .panicked => False
      | .returned _ => True
  | .update status =>
      input.write.reached = true ∧ t.routine.runCount = row.runCount
        ∧ (status = .failed → t.routine.consecutiveFailures = row.consecutiveFailures)
  | _ => True

instance (t : RunTask) (row : Routine) (input : SectionInput) :
    Decidable (t.WritesBack row input) := by
  unfold RunTask.WritesBack
  split
  · split <;> infer_instance
  · infer_instance
  · infer_instance

namespace Engine

def WritesBack (s : Engine) (task : Task) (input : SectionInput) : Prop :=
  match task with
  | .poll place =>
      ∀ t ∈ s.spawned[place]?, ∀ row ∈ s.store.routines, row.id = t.routine.id →
        t.WritesBack row input
  | _ => True

instance (s : Engine) (task : Task) (input : SectionInput) : Decidable (s.WritesBack task input) :=
  match task with
  | .poll place =>
      inferInstanceAs (Decidable (∀ t ∈ s.spawned[place]?, ∀ row ∈ s.store.routines,
        row.id = t.routine.id → t.WritesBack row input))
  | .refresh | .storeCache _ | .event _ | .eventNext .. | .eventCount .. | .eventFire .. | .cron
  | .cronNext _ | .cronCount .. | .manual _ | .manualCount _ | .manualCreate _ => .isTrue trivial

section

variable {D : EngineDeps} {s s' : Engine} {input : SectionInput} {t t' : RunTask} {place : Nat}
  {task : Task} {initial : List Routine} {log : List RunEvent}

/-- Two lists that agree place by place agree in another way exactly if the second has what
that takes at every place. -/
theorem forall₂_iff_forall {R S : Routine → Routine → Prop} {P : Routine → Prop}
    {as bs : List Routine} (h : List.Forall₂ R as bs) (hS : ∀ a b, R a b → (S a b ↔ P b)) :
    List.Forall₂ S as bs ↔ ∀ b ∈ bs, P b := by
  induction h with
  | nil => simp
  | cons hab _ ih => rw [forall₂_cons, forall_mem_cons, ih, hS _ _ hab]

theorem Polls.routines_eq (h : Polls s input t s' t')
    (hphase : ∀ status, t.phase ≠ .update status) : s'.store.routines = s.store.routines := by
  cases h with
  | recorded _ hstore =>
    obtain ⟨-, rfl⟩ := createRoutineRun_some hstore
    rfl
  | updated hupdate => exact absurd hupdate (hphase _)
  | _ => rfl

theorem Moves.routines_eq (h : Moves D s input task s') (htask : ∀ place, task ≠ .poll place) :
    s'.store.routines = s.store.routines := by
  cases h with
  | idle | fired => rfl
  | manual hstore | manualLost hstore =>
    obtain ⟨-, rfl⟩ := createRoutineRun_some hstore
    rfl
  | polled => exact absurd rfl (htask _)

theorem emits_of_ne (htask : ∀ place, task ≠ .poll place) : s.emits task input = [] := by
  cases task with
  | poll place => exact absurd rfl (htask place)
  | _ => rfl

theorem writesBack_of_ne (htask : ∀ place, task ≠ .poll place) : s.WritesBack task input := by
  cases task with
  | poll place => exact absurd rfl (htask place)
  | _ => trivial

/-- A run of this routine ends, and the row is as it was. -/
theorem counts_unwritten_iff {before row : Routine} (h : Counts log before row) (id : String)
    (failed : Bool) : Counts (log ++ [.ended id failed]) before row ↔ (row.id = id → False) := by
  by_cases hid : row.id = id
  · refine iff_of_false (fun hafter => ?_) fun hnot => hnot hid
    have hruns := hafter.runs
    rw [h.id] at hid
    rw [← hid, outcomes_ended, length_append, h.runs, length_singleton] at hruns
    omega
  · refine iff_of_true ?_ fun hsame => absurd hsame hid
    rw [h.id] at hid
    refine ⟨h.id, ?_, ?_⟩
    · rw [outcomes_ended_of_ne (Ne.symm hid), h.runs]
    · rw [outcomes_ended_of_ne (Ne.symm hid), h.failures]

/-- A run of this routine ends, and the row gets counters that are one higher than those of
the run. -/
theorem counts_written_iff {before row : Routine} (h : Counts log before row) (t : RunTask)
    (status : RunStatus) (now : Int) (nextFire : Option Int) (state : JsonValue) :
    Counts (log ++ [.ended t.routine.id (status == .failed)]) before
        (if row.id = t.routine.id then
          { row with
            lastRunAt := some now, nextFireAt := nextFire, runCount := t.routine.runCount + 1
            consecutiveFailures :=
              if status = .failed then t.routine.consecutiveFailures + 1 else 0
            state }
        else row)
      ↔ (row.id = t.routine.id → t.routine.runCount = row.runCount
        ∧ (status = .failed → t.routine.consecutiveFailures = row.consecutiveFailures)) := by
  by_cases hid : row.id = t.routine.id
  · have hbefore := h.id.symm.trans hid
    have hruns := h.runs
    have hfailures := h.failures
    rw [if_pos hid, forall_prop_of_true hid]
    rw [hbefore] at hruns hfailures
    constructor
    · intro hafter
      have hruns' := hafter.runs
      have hfailures' := hafter.failures
      rw [hbefore, outcomes_ended, length_append, length_singleton] at hruns'
      rw [hbefore, outcomes_ended, failuresSince_concat, ← hfailures] at hfailures'
      refine ⟨?_, fun hfailed => ?_⟩
      · have hnew : t.routine.runCount + 1
            = before.runCount + ((outcomes t.routine.id log).length + 1) := hruns'
        omega
      · subst hfailed
        exact Nat.succ.inj hfailures'
    · rintro ⟨hcount, hfailed⟩
      refine ⟨h.id, ?_, ?_⟩
      · rw [hbefore, outcomes_ended, length_append, length_singleton]
        show t.routine.runCount + 1 = _
        omega
      · rw [hbefore, outcomes_ended, failuresSince_concat, ← hfailures]
        by_cases hstatus : status = .failed
        · simp [hstatus, hfailed hstatus]
        · simp [hstatus]
  · rw [if_neg hid]
    refine (counts_unwritten_iff h _ _).trans (iff_of_true ?_ ?_)
    · exact fun hsame => absurd hsame hid
    · exact fun hsame => absurd hsame hid

/-- The log has no further run that ended. -/
theorem Counts.same {log' : List RunEvent} (h : ∀ id, outcomes id log' = outcomes id log)
    {before after : Routine} (hcounts : Counts log before after) : Counts log' before after := by
  refine ⟨hcounts.id, ?_, ?_⟩
  · rw [h, hcounts.runs]
  · rw [h, hcounts.failures]

theorem poll_counted_iff (h : s.Counted initial log) (t : RunTask) :
    List.Forall₂ (Counts (log ++ t.emits input)) initial (s.poll D t input).1.store.routines
      ↔ ∀ row ∈ s.store.routines, row.id = t.routine.id → t.WritesBack row input := by
  have hsame : (∀ status, t.phase ≠ .update status) →
      (s.poll D t input).1.store.routines = s.store.routines := (poll_polls D s t input).routines_eq
  -- all but two of the sections end no run and write no routine
  have hquiet : (∀ status, t.phase ≠ .update status) →
      (∀ id, outcomes id (log ++ t.emits input) = outcomes id log) →
      (∀ row, t.WritesBack row input) →
      (List.Forall₂ (Counts (log ++ t.emits input)) initial (s.poll D t input).1.store.routines
        ↔ ∀ row ∈ s.store.routines, row.id = t.routine.id → t.WritesBack row input) := by
    intro hphase hlog hguard
    rw [hsame hphase]
    exact iff_of_true (h.imp fun _ _ => Counts.same hlog) fun row _ _ => hguard row
  have hunwritten : ∀ failed, List.Forall₂ (Counts (log ++ [.ended t.routine.id failed])) initial
      s.store.routines ↔ ∀ row ∈ s.store.routines, row.id = t.routine.id → False :=
    fun failed => forall₂_iff_forall h fun _ _ hcounts => counts_unwritten_iff hcounts _ failed
  cases hphase : t.phase with
  | record | count | complete | ended =>
    exact hquiet (by simp [hphase]) (by simp [RunTask.emits, hphase])
      (by simp [RunTask.WritesBack, hphase])
  | executing =>
    cases hexecution : input.execution with
    | returned =>
      exact hquiet (by simp [hphase]) (by simp [RunTask.emits, hphase, hexecution])
        (by simp [RunTask.WritesBack, hphase, hexecution])
    | panicked =>
      rw [hsame (by simp [hphase])]
      simp only [RunTask.emits, RunTask.WritesBack, hphase, hexecution]
      exact hunwritten true
  | update status =>
    simp only [RunTask.emits, RunTask.WritesBack, hphase, poll]
    by_cases hreached : input.write.reached = true
    · simp only [hreached, if_true, true_and, updateRoutineRuntime]
      rw [forall₂_map_right_iff]
      exact forall₂_iff_forall h fun _ _ hcounts => counts_written_iff hcounts t status _ _ _
    · simp only [hreached, Bool.false_eq_true, if_false, false_and]
      exact hunwritten _

theorem sect_counted_iff (h : s.Counted initial log) (task : Task) (input : SectionInput) :
    (s.sect D task input).1.Counted initial (log ++ s.emits task input)
      ↔ s.WritesBack task input := by
  by_cases hpoll : ∃ place, task = .poll place
  · obtain ⟨place, rfl⟩ := hpoll
    have hticked : (s.tick input.elapsed).Counted initial log := h
    simp only [sect, act, emits, WritesBack]
    cases hplace : s.spawned[place]? with
    | none =>
      have hnone : (s.tick input.elapsed).spawned[place]? = none := hplace
      simp only [hnone, elim_none, append_nil]
      exact iff_of_true hticked (by simp)
    | some t =>
      have hsome : (s.tick input.elapsed).spawned[place]? = some t := hplace
      simp only [hsome, elim_some, mem_some, forall_eq']
      exact poll_counted_iff hticked t
  · have htask : ∀ place, task ≠ .poll place := fun place heq => hpoll ⟨place, heq⟩
    have hroutines : (s.sect D task input).1.store.routines = s.store.routines :=
      (act_moves D (s.tick input.elapsed) task input).routines_eq htask
    rw [emits_of_ne htask, append_nil, Counted, hroutines]
    exact iff_of_true h (writesBack_of_ne htask)

/-! ## Every run that has begun has ended or is under way -/

/-- The runs of a routine, by where they are. -/
def Accounted (s : Engine) (log : List RunEvent) : Prop :=
  ∀ id, begun id log = (outcomes id log).length + s.underway id

theorem begun_append (id : String) (log more : List RunEvent) :
    begun id (log ++ more) = begun id log + begun id more := count_append

theorem outcomes_append (id : String) (log more : List RunEvent) :
    outcomes id (log ++ more) = outcomes id log ++ outcomes id more := filterMap_append

/-- A run that has not been counted is not under way after a section either. -/
theorem Polls.underway_record (h : Polls s input t s' t') (hphase : t.phase = .record) :
    t'.phase.underway = false := by
  cases h with
  | recorded _ _ hnext => rcases hnext with rfl | rfl <;> rfl
  | notRecorded => rfl
  | counted hother | panicked hother | executed hother | completed hother | notCompleted hother
  | updated hother | notUpdated hother | ended hother => rw [hphase] at hother; cases hother

/-- A section begins its run, or keeps it under way, or ends it. -/
theorem poll_accounted (D : EngineDeps) (s : Engine) (t : RunTask) (input : SectionInput)
    (id : String) :
    begun id (t.emits input) + (if t.routine.id == id && t.phase.underway then 1 else 0)
      = (outcomes id (t.emits input)).length
        + if (s.poll D t input).2.routine.id == id && (s.poll D t input).2.phase.underway then 1
          else 0 := by
  have hpolls := poll_polls D s t input
  rw [hpolls.routine_eq]
  by_cases hid : t.routine.id = id
  · cases hphase : t.phase with
    | record =>
      rw [hpolls.underway_record hphase]
      simp [RunTask.emits, hphase, Phase.underway, begun, outcomes]
    | executing =>
      cases hexecution : input.execution with
      | panicked | returned =>
        simp [RunTask.emits, hphase, hexecution, poll, Phase.underway, begun, outcomes, hid]
    | _ => simp [RunTask.emits, hphase, poll, Phase.underway, begun, outcomes, hid]
  · cases hphase : t.phase with
    | executing =>
      cases hexecution : input.execution with
      | panicked | returned =>
        simp [RunTask.emits, hphase, hexecution, Phase.underway, begun, outcomes, hid]
    | _ => simp [RunTask.emits, hphase, Phase.underway, begun, outcomes, hid]

theorem Moves.underway_eq (h : Moves D s input task s') (htask : ∀ place, task ≠ .poll place)
    (id : String) : s'.underway id = s.underway id := by
  have hspawn : ∀ new, new.phase.underway = false →
      (s.spawn new).underway id = s.underway id := by
    intro new hnew
    simp [underway, spawn, hnew]
  cases h with
  | idle | manualLost => rfl
  | fired => exact hspawn _ rfl
  | manual => exact hspawn ⟨_, _, .count, true, none⟩ rfl
  | polled => exact absurd rfl (htask _)

theorem sect_accounted (h : s.Accounted log) (task : Task) (input : SectionInput) :
    (s.sect D task input).1.Accounted (log ++ s.emits task input) := by
  intro id
  by_cases hpoll : ∃ place, task = .poll place
  · obtain ⟨place, rfl⟩ := hpoll
    simp only [sect, act, emits]
    cases hplace : s.spawned[place]? with
    | none =>
      have hnone : (s.tick input.elapsed).spawned[place]? = none := hplace
      simp only [hnone, elim_none, append_nil]
      exact h id
    | some t =>
      have hsome : (s.tick input.elapsed).spawned[place]? = some t := hplace
      simp only [hsome, elim_some]
      have hpolled := poll_accounted D (s.tick input.elapsed) t input id
      have hset := Slots.countP_set hplace ((s.tick input.elapsed).poll D t input).2
        fun t => t.routine.id == id && t.phase.underway
      have hspawned := (poll_polls D (s.tick input.elapsed) t input).spawned_eq
      have hbefore := h id
      rw [begun_append, outcomes_append, length_append]
      unfold underway at hbefore ⊢
      rw [hspawned]
      show _ = _ + (s.spawned.set place _).countP _
      omega
  · have htask : ∀ place, task ≠ .poll place := fun place heq => hpoll ⟨place, heq⟩
    have hsame : (s.sect D task input).1.underway id = s.underway id :=
      (act_moves D (s.tick input.elapsed) task input).underway_eq htask id
    rw [emits_of_ne htask, append_nil, hsame]
    exact h id

end

variable (D : EngineDeps) (now : Int) (store : RoutineStore) (labels : List Label)

def runLog : List RunEvent := outputs (step D) (emitted emits) (start now store) labels

/-- Once no run of the routine is under way, its counters have grown by all that have begun. -/
structure CountsAll (s : Engine) (log : List RunEvent) (before after : Routine) : Prop where
  id : after.id = before.id
  runs : s.underway before.id = 0 → after.runCount = before.runCount + begun before.id log
  failures : s.underway before.id = 0 → after.consecutiveFailures
    = failuresSince before.consecutiveFailures (outcomes before.id log)

theorem accounted_run :
    (run (step D) (start now store) labels).shared.Accounted (runLog D now store labels) := by
  have hstep : ∀ (c : Config) (log : List RunEvent) (label : Label), c.shared.Accounted log →
      (step D c label).shared.Accounted (log ++ emitted emits c label) :=
    fun c log label h => log_step h (sect_accounted h) label
  have hstart : (start now store).shared.Accounted [] := fun _ => rfl
  exact invariant_outputs hstep hstart labels

/-- However fires and runs interleave, the counters are right in every state exactly if every
run writes them over the ones it was fired with. -/
theorem runtime_counts_iff : ((∀ pre, pre <+: labels →
        (run (step D) (start now store) pre).shared.Counted store.routines (runLog D now store pre))
      ↔ Guarded (step D) (Sections WritesBack) (start now store) labels)
    ∧ (Guarded (step D) (Sections WritesBack) (start now store) labels →
      ∀ pre, pre <+: labels →
        List.Forall₂
          (CountsAll (run (step D) (start now store) pre).shared (runLog D now store pre))
          store.routines (run (step D) (start now store) pre).shared.store.routines) := by
  have hstep : ∀ (c : Config) (log : List RunEvent) (label : Label),
      c.shared.Counted store.routines log →
        ((step D c label).shared.Counted store.routines (log ++ emitted emits c label)
          ↔ Sections WritesBack c label) :=
    fun c log label h => log_step_iff h (sect_counted_iff h) label
  have hstart : (start now store).shared.Counted store.routines [] :=
    forall₂_same.mpr fun row _ => ⟨rfl, rfl, rfl⟩
  have hiff : (∀ pre, pre <+: labels →
      (run (step D) (start now store) pre).shared.Counted store.routines (runLog D now store pre))
      ↔ Guarded (step D) (Sections WritesBack) (start now store) labels :=
    outputs_iff_guarded hstep hstart
  refine ⟨hiff, fun hguarded pre hpre => ?_⟩
  have haccounted := accounted_run D now store pre
  refine (hiff.mpr hguarded pre hpre).imp fun before after hcounts => ?_
  have hall := haccounted before.id
  refine ⟨hcounts.id, fun hnone => ?_, fun _ => hcounts.failures⟩
  rw [hcounts.runs]
  unfold runLog at hall ⊢
  omega

def deployRun (id place elapsed : Nat) (newId : String) : List Label :=
  deployMessage id elapsed newId ++ pollTimes (id + 1) place 5

/-- The cache is refreshed between the two. -/
def countedRuns : List Label :=
  refreshed 0 ++ deployRun 1 0 0 "a" ++ refreshed 7 ++ deployRun 8 1 300000 "b"

theorem countedRuns_counted :
    begun "r" (runLog matchAll 0 (onDeploy none) countedRuns) = 2
      ∧ List.Forall₂
        (CountsAll (run (step matchAll) (start 0 (onDeploy none)) countedRuns).shared
          (runLog matchAll 0 (onDeploy none) countedRuns))
        (onDeploy none).routines
        (run (step matchAll) (start 0 (onDeploy none)) countedRuns).shared.store.routines :=
  ⟨by decide, (runtime_counts_iff matchAll 0 (onDeploy none) countedRuns).2 (by decide) countedRuns
    (prefix_refl countedRuns)⟩

def uncountedRuns : List Label := refreshed 0 ++ deployRun 1 0 0 "a" ++ deployRun 7 1 300000 "b"

theorem uncountedRuns_lost :
    begun "r" (runLog matchAll 0 (onDeploy none) uncountedRuns) = 2
      ∧ outcomes "r" (runLog matchAll 0 (onDeploy none) uncountedRuns) = [false, false]
      ∧ (run (step matchAll) (start 0 (onDeploy none)) uncountedRuns).shared.underway "r" = 0
      ∧ (onDeploy none).routines.map (·.runCount) = [0]
      ∧ (run (step matchAll) (start 0 (onDeploy none))
          uncountedRuns).shared.store.routines.map (·.runCount) = [1] := by
  decide

end Engine

end TitanClaw.Agent.Routines
