import TitanClaw.Agent.RoutineRecords

/-! # How many runs execute at the same time

Both limits are checked before a run is fired, against a counter and against records that the
task of the run writes only later, and a manual fire checks one of them only. The limits are
kept if each fire has room for the runs that were fired before and are not counted or recorded
yet. -/

namespace TitanClaw.Agent.Routines

open List Bool Interleave Slots Run

/-- The task has been fired and has not executed its run yet. -/
def Phase.ahead : Phase → Bool
  | record | count | executing => true
  | complete _ _ _ | update _ | ended _ => false

/-- The task has been fired and is not counted yet. -/
def Phase.uncounted : Phase → Bool
  | record | count => true
  | executing | complete _ _ _ | update _ | ended _ => false

namespace Engine

variable (s : Engine)

/-- The tasks at work on a run. -/
def executing : Nat := s.spawned.countP (·.phase == .executing)

def executingOf (id : String) : Nat :=
  s.spawned.countP fun t => t.routine.id == id && t.phase == .executing

/-- The tasks that the counter does not count yet. -/
def uncounted : Nat := s.spawned.countP (·.phase.uncounted)

/-- The tasks of a routine whose run is not recorded yet. -/
def unrecorded (id : String) : Nat :=
  s.spawned.countP fun t => t.routine.id == id && t.phase == .record

structure WithinLimits (D : EngineDeps) (s : Engine) : Prop where
  all : s.executing ≤ D.maxConcurrentRoutines
  each : ∀ routine ∈ s.store.routines, s.executingOf routine.id ≤ routine.guardrails.maxConcurrent

/-- Both checks pass, also if the runs that are on their way are counted. -/
structure HasRoom (D : EngineDeps) (s : Engine) (id : String) : Prop where
  all : s.runningCount + s.uncounted < D.maxConcurrentRoutines
  each : ∀ routine ∈ s.store.routines, routine.id = id →
    s.store.countRunningRoutineRuns id + s.unrecorded id < routine.guardrails.maxConcurrent

instance (D : EngineDeps) (s : Engine) (id : String) : Decidable (s.HasRoom D id) :=
  decidable_of_iff
    (s.runningCount + s.uncounted < D.maxConcurrentRoutines
      ∧ ∀ routine ∈ s.store.routines, routine.id = id →
        s.store.countRunningRoutineRuns id + s.unrecorded id < routine.guardrails.maxConcurrent)
    ⟨fun h => ⟨h.1, h.2⟩, fun h => ⟨h.all, h.each⟩⟩

def FiresInRoom (D : EngineDeps) (s : Engine) (task : Task) (input : SectionInput) : Prop :=
  match task with
  | .eventFire _ _ routine _ => s.runningCount < D.maxConcurrentRoutines → s.HasRoom D routine.id
  | .cronCount routine _ =>
      s.checkConcurrent routine input.queryFault = true → s.HasRoom D routine.id
  | .manualCreate routine => s.HasRoom D routine.id
  | _ => True

instance (D : EngineDeps) (s : Engine) (task : Task) (input : SectionInput) :
    Decidable (s.FiresInRoom D task input) :=
  match task with
  | .eventFire _ _ routine _ =>
      inferInstanceAs
        (Decidable (s.runningCount < D.maxConcurrentRoutines → s.HasRoom D routine.id))
  | .cronCount routine _ =>
      inferInstanceAs
        (Decidable (s.checkConcurrent routine input.queryFault = true → s.HasRoom D routine.id))
  | .manualCreate routine => inferInstanceAs (Decidable (s.HasRoom D routine.id))
  | .refresh | .storeCache _ | .event _ | .eventNext .. | .eventCount .. | .cron | .cronNext _
  | .manual _ | .manualCount _ | .poll _ => .isTrue trivial

structure InRoom (D : EngineDeps) (s : Engine) : Prop where
  all : s.runningCount + s.uncounted ≤ D.maxConcurrentRoutines
  each : ∀ routine ∈ s.store.routines,
    s.spawned.countP (fun t => t.routine.id == routine.id && t.phase.ahead)
      ≤ routine.guardrails.maxConcurrent

section

variable {D : EngineDeps} {s s' : Engine} {input : SectionInput} {t t' : RunTask} {place : Nat}
  {task : Task} {id : String}

theorem InRoom.withinLimits (h : s.InRoom D) (hsound : s.Sound) : s.WithinLimits D := by
  refine ⟨?_, fun routine hroutine => le_trans (countP_mono_left fun t _ ht => ?_)
    (h.each routine hroutine)⟩
  · have hcounted : s.executing ≤ s.runningCount := hsound.counted
    have hall := h.all
    omega
  · rw [and_eq_true, beq_iff_eq, beq_iff_eq] at ht
    rw [and_eq_true, beq_iff_eq, ht.2]
    exact ⟨ht.1, rfl⟩

/-- The tasks of a routine that are on their way or at work. -/
theorem countP_ahead_le (hsound : s.Sound) (id : String) :
    s.spawned.countP (fun t => t.routine.id == id && t.phase.ahead)
      ≤ s.store.countRunningRoutineRuns id + s.unrecorded id := by
  have hlive := hsound.countP_live_le id
  rw [countP_eq_countP_filter_add s.spawned _ fun t => t.phase == .record,
    countP_filter, countP_filter, Nat.add_comm]
  refine Nat.add_le_add (le_trans (countP_mono_left fun t _ ht => ?_) hlive)
    (countP_mono_left fun t _ ht => ?_)
  · simp only [and_eq_true, beq_iff_eq, not_eq_true', beq_eq_false_iff_ne] at ht ⊢
    obtain ⟨⟨hid, hahead⟩, hphase⟩ := ht
    cases hp : t.phase <;> simp_all [Phase.ahead, Phase.live]
  · simp only [and_eq_true] at ht ⊢
    exact ⟨ht.1.1, ht.2⟩

theorem Polls.ahead (h : Polls s input t s' t') (hahead : t'.phase.ahead = true) :
    t.phase.ahead = true := by
  cases h with
  | recorded hphase | counted hphase => rw [hphase]; rfl
  | ended => exact hahead
  | notRecorded | panicked | executed | completed | notCompleted | updated | notUpdated =>
    cases hahead

/-- A task goes from the uncounted to the counted, or leaves one of the two. -/
theorem Polls.uncounted_le (h : Polls s input t s' t') (hplace : s.spawned[place]? = some t) :
    s'.runningCount + (s.spawned.set place t').countP (·.phase.uncounted)
      ≤ s.runningCount + s.uncounted := by
  cases h with
  | counted hphase =>
    have hset : _ + (if t.phase.uncounted then 1 else 0) = s.uncounted + 0 :=
      countP_set hplace { t with phase := .executing } (·.phase.uncounted)
    have hold : t.phase.uncounted = true := by rw [hphase]; rfl
    rw [if_pos hold] at hset
    show s.runningCount + 1 + _ ≤ _
    omega
  | recorded hphase =>
    refine Nat.add_le_add_left (countP_set_le hplace fun _ => ?_) _
    rw [hphase]
    rfl
  | executed =>
    exact Nat.add_le_add (Nat.sub_le _ 1) (countP_set_le hplace fun hnew => by cases hnew)
  | notRecorded | panicked | completed | notCompleted | updated | notUpdated =>
    exact Nat.add_le_add_left (countP_set_le hplace fun hnew => by cases hnew) _
  | ended => exact Nat.add_le_add_left (countP_set_le hplace fun hnew => hnew) _

theorem InRoom.polled (h : s.InRoom D) (hplace : s.spawned[place]? = some t)
    (hpolls : Polls s input t s' t') : InRoom D { s' with spawned := s.spawned.set place t' } := by
  refine ⟨(hpolls.uncounted_le hplace).trans h.all, ?_⟩
  have heach : ∀ routine ∈ s.store.routines,
      (s.spawned.set place t').countP (fun x => x.routine.id == routine.id && x.phase.ahead)
        ≤ routine.guardrails.maxConcurrent := by
    intro routine hroutine
    refine (countP_set_le hplace fun hnew => ?_).trans (h.each routine hroutine)
    rw [and_eq_true, hpolls.routine_eq] at hnew
    rw [and_eq_true]
    exact ⟨hnew.1, hpolls.ahead hnew.2⟩
  exact hpolls.forall_routines
    (P := fun id guardrails =>
      (s.spawned.set place t').countP (fun x => x.routine.id == id && x.phase.ahead)
        ≤ guardrails.maxConcurrent) heach

theorem InRoom.spawn (h : s.InRoom D) (hsound : s.Sound) (hroom : s.HasRoom D t.routine.id) :
    (s.spawn t).InRoom D := by
  refine ⟨?_, fun routine hroutine => ?_⟩
  · have hall := hroom.all
    have hone : [t].countP (·.phase.uncounted) ≤ 1 := countP_le_length
    show s.runningCount + (s.spawned ++ [t]).countP _ ≤ _
    rw [countP_append]
    unfold uncounted at hall
    omega
  · show (s.spawned ++ [t]).countP _ ≤ _
    rw [countP_append]
    by_cases hid : routine.id = t.routine.id
    · have hahead := countP_ahead_le hsound routine.id
      have heach := hroom.each routine hroutine hid
      have hone : [t].countP (fun x => x.routine.id == routine.id && x.phase.ahead) ≤ 1 :=
        countP_le_length
      rw [← hid] at heach
      omega
    · have hzero : [t].countP (fun x => x.routine.id == routine.id && x.phase.ahead) = 0 := by
        simp [Ne.symm hid]
      rw [hzero]
      exact h.each routine hroutine

theorem InRoom.moves (h : s.InRoom D) (hsound : s.Sound) (hguard : s.FiresInRoom D task input)
    (hmoves : Moves D s input task s') : s'.InRoom D := by
  cases hmoves with
  | idle => exact ⟨h.all, h.each⟩
  | fired _ hfires =>
    cases hfires with
    | event hcount => exact h.spawn hsound (hguard hcount)
    | cron hconcurrent => exact h.spawn hsound (hguard hconcurrent)
  | @manual routine _ hstore =>
    have hspawned := h.spawn hsound hguard
      (t := ⟨routine, s.newRun input.newId routine .manual none, .count, true, none⟩)
    obtain ⟨-, rfl⟩ := RoutineStore.createRoutineRun_some hstore
    exact ⟨hspawned.all, hspawned.each⟩
  | manualLost hstore =>
    obtain ⟨-, rfl⟩ := RoutineStore.createRoutineRun_some hstore
    exact ⟨h.all, h.each⟩
  | polled hplace hpolls => exact h.polled hplace hpolls

theorem HasRoom.tick (h : s.HasRoom D id) (elapsed : Nat) : (s.tick elapsed).HasRoom D id :=
  ⟨h.all, h.each⟩

theorem FiresInRoom.tick (h : s.FiresInRoom D task input) (elapsed : Nat) :
    (s.tick elapsed).FiresInRoom D task input := by
  cases task with
  | eventFire => exact fun hcount => (h hcount).tick elapsed
  | cronCount => exact fun hconcurrent => (h hconcurrent).tick elapsed
  | manualCreate => exact HasRoom.tick h elapsed
  | _ => trivial

theorem sect_inRoom (hsound : s.Sound) (h : s.InRoom D) (hguard : s.FiresInRoom D task input) :
    (s.sect D task input).1.Sound ∧ (s.sect D task input).1.InRoom D := by
  have hmoves := act_moves D (s.tick input.elapsed) task input
  have hticked : (s.tick input.elapsed).InRoom D := ⟨h.all, h.each⟩
  exact ⟨(hsound.tick _).moves hmoves, hticked.moves (hsound.tick _) (hguard.tick _) hmoves⟩

end

variable (D : EngineDeps)

/-- However checks, fires and runs interleave, and whatever fails, the limits are kept as long
as each fire has room. -/
theorem run_withinLimits (now : Int) (store : RoutineStore) {labels : List Label}
    (hguarded : Guarded (step D) (Sections (FiresInRoom D)) (start now store) labels)
    {pre : List Label} (hpre : pre <+: labels) :
    (run (step D) (start now store) pre).shared.WithinLimits D := by
  let Inv (s : Engine) : Prop := s.Sound ∧ s.InRoom D
  let TaskInv (_ : Engine) (_ : Task) : Prop := True
  have hstep : ∀ (c : Config) (label : Label), Holds Inv TaskInv c →
      Sections (FiresInRoom D) c label → Holds Inv TaskInv (step D c label) :=
    holds_step (fun _ _ _ _ _ => trivial) fun c id task input h htask hguard =>
      ⟨sect_inRoom h.shared.1 h.shared.2 (hguard task htask), fun _ _ => trivial,
        fun _ _ => trivial⟩
  have hstart : Holds Inv TaskInv (start now store) :=
    ⟨⟨sound_start now store, Nat.zero_le _, fun _ _ => Nat.zero_le _⟩, fun _ _ _ => trivial⟩
  have hreached := (invariant_reached hstep hstart hguarded hpre).shared
  exact hreached.2.withinLimits hreached.1

/-- A tick fires the routine and its run begins to execute; the next tick finds it running. -/
def firedInTurn : List Label :=
  tickOnce 0 "a" ++ pollTimes 1 0 2 ++ [.start 3 .checkCronTriggers, .advance 3 {}, .advance 3 {}]

theorem firedInTurn_withinLimits :
    (run (step (minutely 1)) (start 0 dueNow) firedInTurn).shared.executing = 1
      ∧ (run (step (minutely 1)) (start 0 dueNow) firedInTurn).shared.WithinLimits (minutely 1) :=
  ⟨by decide, run_withinLimits (minutely 1) 0 _ (by decide) (prefix_refl firedInTurn)⟩

/-- The second tick comes before the task of the first has recorded its run. -/
def firedTwice : List Label :=
  tickOnce 0 "a" ++ tickOnce 1 "b" ++ pollTimes 2 0 2 ++ pollTimes 4 1 2

theorem firedTwice_exceeds :
    ¬ (run (step (minutely 1)) (start 0 dueNow) firedTwice).shared.WithinLimits (minutely 1) := by
  intro h
  have hall := h.all
  revert hall
  decide

end Engine

end TitanClaw.Agent.Routines
