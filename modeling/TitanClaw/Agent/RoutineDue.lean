import TitanClaw.Agent.RoutineRecords

/-! # One run for each due time

A tick fires the routines whose next time has come. The next time moves on only when the run
has been executed and completed, in a last statement of its own; what keeps other ticks from
firing the routine in the meantime is the record of the run, which is there and says "running"
for a part of that time only. -/

namespace TitanClaw.Agent.Routines

open List Option Bool Interleave Slots RunTask Run RoutineStore

def Phase.isUpdate : Phase → Bool
  | update _ => true
  | record | count | executing | complete _ _ _ | ended _ => false

def RunTask.firedFor (id : String) (due : Int) (t : RunTask) : Bool :=
  t.run.triggerType == .cron && t.routine.id == id && t.routine.nextFireAt == some due

def RunTask.claims (id : String) (due : Int) (t : RunTask) : Bool :=
  t.firedFor id due && (t.phase == .record || t.recorded)

def RoutineStore.Moved (db : RoutineStore) (id : String) (due : Option Int) : Prop :=
  ∀ row ∈ db.routines, row.id = id → row.nextFireAt ≠ due

namespace Engine

variable (s : Engine)

def dueRuns (id : String) (due : Int) : Nat :=
  s.spawned.countP fun t => t.firedFor id due && t.recorded

/-- A tick fires a routine while the store still has the time that the tick has read, and
while every run for it is either recorded and not completed, so that the count sees it, or is
over; and the update after such a run takes effect. -/
def FiresOnce (task : Task) (input : SectionInput) : Prop :=
  match task with
  | .cronCount routine _ =>
      s.checkConcurrent routine input.queryFault = true →
        (∃ row ∈ s.store.routines, row.id = routine.id ∧ row.nextFireAt = routine.nextFireAt)
          ∧ ∀ t ∈ s.spawned, t.run.triggerType = .cron → t.routine.id = routine.id →
            t.routine.nextFireAt = routine.nextFireAt → t.phase ≠ .record ∧ t.phase.isUpdate = false
  | .poll place =>
      ∀ t ∈ s.spawned[place]?, t.run.triggerType = .cron → t.phase.isUpdate = true →
        input.write.reached = true
  | _ => True

instance (s : Engine) (task : Task) (input : SectionInput) :
    Decidable (s.FiresOnce task input) := by
  unfold FiresOnce
  split <;> infer_instance

/-- What a tick has read from the store. -/
def IsDue (now : Int) (routine : Routine) : Prop :=
  routine.guardrails = {} ∧ ∃ due, routine.nextFireAt = some due ∧ due ≤ now

def TaskDue : Task → Prop
  | .cronNext rest => ∀ routine ∈ rest, IsDue s.now routine
  | .cronCount routine rest => ∀ other ∈ routine :: rest, IsDue s.now other
  | _ => True

structure Once (s : Engine) : Prop where
  default : ∀ routine ∈ s.store.routines, routine.guardrails = {}
  once : ∀ id due, s.spawned.countP (claims id due) ≤ 1
  due : ∀ t ∈ s.spawned, t.run.triggerType = .cron → IsDue s.now t.routine
  /-- What keeps the run from being fired again. -/
  held : ∀ t ∈ s.spawned, t.run.triggerType = .cron → t.recorded = true →
    t.phase.isUpdate = true ∨ s.store.Running t.run
      ∨ s.store.Moved t.routine.id t.routine.nextFireAt

section

variable {D : EngineDeps} {s s' : Engine} {input : SectionInput} {t t' : RunTask} {place : Nat}
  {task : Task} {routine : Routine}

theorem IsDue.later {now now' : Int} (h : IsDue now routine) (hnow : now ≤ now') :
    IsDue now' routine := by
  obtain ⟨hdefault, due, hdue, hle⟩ := h
  exact ⟨hdefault, due, hdue, hle.trans hnow⟩

theorem moved_update (hdue : IsDue s.now routine) {id : String} {nextFire : Option Int}
    {runCount failures : Nat} {state : JsonValue}
    (hlater : ∀ fire, nextFire = some fire → s.now < fire)
    (hmoved : routine.id = id ∨ s.store.Moved routine.id routine.nextFireAt) :
    (s.store.updateRoutineRuntime id s.now nextFire runCount failures state).Moved routine.id
      routine.nextFireAt := by
  obtain ⟨-, due, hnext, hle⟩ := hdue
  refine forall_mem_map.mpr fun row hrow => ?_
  split
  · intro _ hsame
    have hfire := hlater due (hsame.trans hnext)
    omega
  · next hid =>
    intro hrowid
    rcases hmoved with rfl | hmoved
    · exact absurd hrowid hid
    · exact hmoved row hrow hrowid

theorem Polls.claims (h : Polls s input t s' t') {id : String} {due : Int}
    (hclaims : t'.claims id due = true) : t.claims id due = true := by
  have hfired : t'.firedFor id due = t.firedFor id due := by
    unfold firedFor
    rw [h.run_eq, h.routine_eq]
  unfold RunTask.claims at hclaims ⊢
  rw [hfired, Bool.and_eq_true] at hclaims
  rw [hclaims.1, Bool.true_and, Bool.or_eq_true]
  have hown := hclaims.2
  cases h with
  | recorded hphase | notRecorded hphase => exact .inl (by rw [hphase]; rfl)
  | counted | panicked | executed | completed | notCompleted | updated | notUpdated =>
    exact .inr hown
  | ended => exact (or_eq_true _ _).mp hown

/-- A task that has a record and is not past it is held by it. -/
theorem Once.polled (h : s.Once) (hsound : s.Sound) (hplace : s.spawned[place]? = some t)
    (hguard : s.FiresOnce (.poll place) input) (hpolls : Polls s input t s' t') :
    Once { s' with spawned := s.spawned.set place t' } := by
  have ht : t ∈ s.spawned := mem_of_getElem? hplace
  have hdue : ∀ x ∈ s.spawned.set place t', x.run.triggerType = .cron → IsDue s'.now x.routine := by
    rw [hpolls.now_eq]
    refine forall_set h.due (fun x _ hx => hx) ?_
    rw [hpolls.run_eq, hpolls.routine_eq]
    exact h.due t ht
  refine ⟨hpolls.forall_routines (P := fun _ guardrails => guardrails = {}) h.default,
    fun id due => (countP_set_le hplace hpolls.claims).trans (h.once id due), hdue, ?_⟩
  -- an own record that is there and running holds the run wherever its task is
  have hlive : t.phase.live = true → s.store.Running t.run :=
    fun hphase => (hsound.live t ht hphase).2
  cases hpolls with
  | recorded _ hstore =>
    refine forall_set h.held (fun x _ hx hcron hrecorded => ?_) fun _ _ =>
      .inr (.inl (running_created hstore (hsound.own t ht).2))
    rcases hx hcron hrecorded with hupdate | hrunning | hmoved
    · exact .inl hupdate
    · exact .inr (.inl (hrunning.create hstore))
    obtain ⟨-, rfl⟩ := createRoutineRun_some hstore
    exact .inr (.inr hmoved)
  | notRecorded => exact forall_set h.held (fun x _ hx => hx) fun _ hrecorded => by cases hrecorded
  | counted hphase | panicked hphase | executed hphase =>
    exact forall_set h.held (fun x _ hx => hx) fun _ _ => .inr (.inl (hlive (by rw [hphase]; rfl)))
  | completed hphase =>
    refine forall_set_of_pairwise (fun _ _ => Apart.symm) hsound.apart hplace ?_ fun _ _ => .inl rfl
    intro x hx hapart hcron hrecorded
    rcases h.held x hx hcron hrecorded with hupdate | hrunning | hmoved
    · exact .inl hupdate
    · have htrecorded := (hsound.live t ht (by rw [hphase]; rfl)).1
      exact .inr (.inl (hrunning.complete _ _ _ _ (hapart htrecorded hrecorded).symm))
    · exact .inr (.inr hmoved)
  | notCompleted => exact forall_set h.held (fun x _ hx => hx) fun _ _ => .inl rfl
  | updated _ hlater =>
    refine forall_set h.held (fun x hx hxheld hcron hrecorded => ?_) fun hcron _ =>
      .inr (.inr (moved_update (h.due t ht hcron) hlater (.inl rfl)))
    rcases hxheld hcron hrecorded with hupdate | hrunning | hmoved
    · exact .inl hupdate
    · exact .inr (.inl hrunning)
    · exact .inr (.inr (moved_update (h.due x hx hcron) hlater (.inr hmoved)))
  | notUpdated hphase hreached =>
    refine forall_set h.held (fun x _ hx => hx) fun hcron _ => ?_
    have hwritten := hguard t hplace hcron (by rw [hphase]; rfl)
    rw [hreached] at hwritten
    cases hwritten
  | ended => exact forall_set h.held (fun x _ hx => hx) (h.held t ht)

theorem countRunning_pos {db : RoutineStore} {run : RoutineRun} (h : db.Running run) :
    0 < db.countRunningRoutineRuns run.routineId := by
  obtain ⟨row, hrow, -, hroutine, hstatus⟩ := h
  refine countP_pos_iff.mpr ⟨row, hrow, ?_⟩
  rw [hroutine, hstatus]
  simp

/-- While the count lets the routine pass, no run for its time is on the way or done. -/
theorem Once.unclaimed (h : s.Once) (hsound : s.Sound) (hdue : IsDue s.now routine)
    (hconcurrent : s.checkConcurrent routine input.queryFault = true) {rest : List Routine}
    (hguard : s.FiresOnce (.cronCount routine rest) input) {due : Int}
    (hnext : routine.nextFireAt = some due) :
    s.spawned.countP (claims routine.id due) = 0 := by
  obtain ⟨⟨row, hrow, hrowid, hrownext⟩, hseen⟩ := hguard hconcurrent
  refine countP_eq_zero.mpr fun t ht hclaims => ?_
  simp only [claims, firedFor, and_eq_true, or_eq_true, beq_iff_eq] at hclaims
  obtain ⟨⟨⟨hcron, hid⟩, htnext⟩, hown⟩ := hclaims
  obtain ⟨hrecord, hupdate⟩ := hseen t ht hcron hid (htnext.trans hnext.symm)
  have hrecorded : t.recorded = true := hown.resolve_left hrecord
  rcases h.held t ht hcron hrecorded with hphase | hrunning | hmoved
  · rw [hupdate] at hphase
    cases hphase
  · have hpos := countRunning_pos hrunning
    rw [(hsound.own t ht).1, hid] at hpos
    simp only [checkConcurrent, hdue.1, and_eq_true, decide_eq_true_eq] at hconcurrent
    omega
  · exact hmoved row hrow (hrowid.trans hid.symm) (hrownext.trans (hnext.trans htnext.symm))

/-- A task that no tick fired, or one for a time that nothing has claimed. -/
theorem Once.spawn (h : s.Once) (hdue : t.run.triggerType = .cron → IsDue s.now t.routine)
    (hfree : t.run.triggerType = .cron → ∀ due, t.routine.nextFireAt = some due →
      s.spawned.countP (claims t.routine.id due) = 0)
    (hrecorded : t.run.triggerType = .cron → t.recorded = false) : (s.spawn t).Once := by
  refine ⟨h.default, fun id due => ?_, ?_, ?_⟩
  · show (s.spawned ++ [t]).countP _ ≤ 1
    rw [countP_append, countP_singleton]
    split
    · next hclaims =>
      simp only [claims, firedFor, and_eq_true, beq_iff_eq] at hclaims
      obtain ⟨⟨⟨hcron, rfl⟩, hnext⟩, -⟩ := hclaims
      rw [hfree hcron due hnext]
    · exact h.once id due
  · exact forall_mem_append.mpr ⟨h.due, forall_mem_singleton.mpr hdue⟩
  · refine forall_mem_append.mpr ⟨h.held, forall_mem_singleton.mpr fun hcron htrue => ?_⟩
    rw [hrecorded hcron] at htrue
    cases htrue

theorem Once.create (h : s.Once) {run : RoutineRun} {store : RoutineStore}
    (hstore : s.store.createRoutineRun run = some store) : Once { s with store } := by
  refine ⟨?_, h.once, h.due, fun t ht hcron hrecorded => ?_⟩
  · obtain ⟨-, rfl⟩ := createRoutineRun_some hstore
    exact h.default
  · rcases h.held t ht hcron hrecorded with hupdate | hrunning | hmoved
    · exact .inl hupdate
    · exact .inr (.inl (hrunning.create hstore))
    obtain ⟨-, rfl⟩ := createRoutineRun_some hstore
    exact .inr (.inr hmoved)

theorem Once.moves (h : s.Once) (hsound : s.Sound) (htask : s.TaskDue task)
    (hguard : s.FiresOnce task input) (hmoves : Moves D s input task s') : s'.Once := by
  cases hmoves with
  | idle => exact ⟨h.default, h.once, h.due, h.held⟩
  | @fired _ routine _ _ _ hfires =>
    cases hfires with
    | event =>
      exact h.spawn (fun hcron => by cases hcron) (fun hcron => by cases hcron)
        fun hcron => by cases hcron
    | cron hconcurrent =>
      have hdue : IsDue s.now routine := htask routine mem_cons_self
      exact h.spawn (fun _ => hdue)
        (fun _ due hnext => h.unclaimed hsound hdue hconcurrent hguard hnext) fun _ => rfl
  | @manual routine _ hstore =>
    have hspawned := (h.create hstore).spawn
      (t := ⟨routine, s.newRun input.newId routine .manual none, .count, true, none⟩)
      (fun hcron => by cases hcron) (fun hcron => by cases hcron) fun hcron => by cases hcron
    exact ⟨hspawned.default, hspawned.once, hspawned.due, hspawned.held⟩
  | manualLost hstore =>
    have hcreated := h.create hstore
    exact ⟨hcreated.default, hcreated.once, hcreated.due, hcreated.held⟩
  | polled hplace hpolls => exact h.polled hsound hplace hguard hpolls

theorem isDue_of_listed (hdefault : ∀ routine ∈ s.store.routines, routine.guardrails = {}) :
    ∀ routine ∈ s.store.listDueCronRoutines s.now, IsDue s.now routine := by
  intro routine hroutine
  obtain ⟨hmem, hlisted⟩ := mem_filter.mp hroutine
  rw [and_eq_true, any_eq_true_iff_get] at hlisted
  obtain ⟨-, hsome, hle⟩ := hlisted
  exact ⟨hdefault routine hmem, _, (some_get hsome).symm, of_decide_eq_true hle⟩

/-- What a tick goes on with is what it has read. -/
theorem Next.taskDue {next : Task} (h : Next s task next)
    (hdefault : ∀ routine ∈ s.store.routines, routine.guardrails = {}) (htask : s.TaskDue task) :
    s.TaskDue next := by
  cases h with
  | listed => exact isDue_of_listed hdefault
  | cooled => exact htask
  | skipped | cronCounted => exact fun other hother => htask other (mem_cons_of_mem _ hother)
  | _ => trivial

theorem TaskDue.later (h : s.TaskDue task) (hnow : s.now ≤ s'.now) : s'.TaskDue task := by
  cases task with
  | cronNext => exact fun routine hroutine => (h routine hroutine).later hnow
  | cronCount => exact fun other hother => (h other hother).later hnow
  | _ => trivial

theorem Once.tick (h : s.Once) (elapsed : Nat) : (s.tick elapsed).Once :=
  ⟨h.default, h.once, fun t ht hcron => (h.due t ht hcron).later (le_tick s elapsed), h.held⟩

theorem sect_once (hsound : s.Sound) (h : s.Once) (htask : s.TaskDue task)
    (hguard : s.FiresOnce task input) :
    ((s.sect D task input).1.Sound ∧ (s.sect D task input).1.Once)
      ∧ (∀ next, (s.sect D task input).2 = some next → (s.sect D task input).1.TaskDue next)
      ∧ ∀ other, s.TaskDue other → (s.sect D task input).1.TaskDue other := by
  have hmoves := act_moves D (s.tick input.elapsed) task input
  have hlater := le_tick s input.elapsed
  have hnow : (s.tick input.elapsed).now = (s.sect D task input).1.now := hmoves.now_eq.symm
  have htask' := htask.later hlater
  have hguard' : (s.tick input.elapsed).FiresOnce task input := hguard
  refine ⟨⟨(hsound.tick _).moves hmoves,
    (h.tick _).moves (hsound.tick _) htask' hguard' hmoves⟩, fun next hnext => ?_,
    fun other hother => hother.later (hlater.trans hnow.le)⟩
  exact ((act_next D hnext).taskDue h.default htask').later hnow.le

end

variable (D : EngineDeps)

/-- However ticks, fires and runs interleave, and whatever fails, each time at which a routine
was due has led to at most one run, as long as ticks and updates meet the condition. -/
theorem run_dueOnce (now : Int) (store : RoutineStore)
    (hdefault : ∀ routine ∈ store.routines, routine.guardrails = {}) {labels : List Label}
    (hguarded : Guarded (step D) (Sections FiresOnce) (start now store) labels)
    {pre : List Label} (hpre : pre <+: labels) (id : String) (due : Int) :
    (run (step D) (start now store) pre).shared.dueRuns id due ≤ 1 := by
  let Inv (s : Engine) : Prop := s.Sound ∧ s.Once
  have hstep : ∀ (c : Config) (label : Label), Holds Inv TaskDue c →
      Sections FiresOnce c label → Holds Inv TaskDue (step D c label) := by
    refine holds_step (fun c id call _ _ => ?_) fun c id task input h htask hguard =>
      sect_once h.shared.1 h.shared.2 (h.tasks id task htask) (hguard task htask)
    cases call <;> trivial
  have hstart : Holds Inv TaskDue (start now store) :=
    ⟨⟨sound_start now store, hdefault, fun _ _ => Nat.zero_le 1, forall_mem_nil _,
      forall_mem_nil _⟩, fun id task h => by cases h⟩
  have honce := (invariant_reached hstep hstart hguarded hpre).shared.2.once id due
  refine le_trans (countP_mono_left fun t _ ht => ?_) honce
  rw [and_eq_true] at ht
  rw [claims, ht.1, ht.2, Bool.or_true, Bool.and_self]

def runsThrough : List Label := tickOnce 0 "a" ++ pollTimes 1 0 5 ++ tickOnce 6 "b"

theorem runsThrough_dueOnce :
    0 < (run (step (minutely 10)) (start 0 dueNow) runsThrough).shared.dueRuns "r" 0
      ∧ (run (step (minutely 10)) (start 0 dueNow) runsThrough).shared.dueRuns "r" 0 ≤ 1 :=
  ⟨by decide, run_dueOnce (minutely 10) 0 dueNow (by decide) (by decide)
    (prefix_refl runsThrough) "r" 0⟩

/-- The second tick comes when the run is completed, and the routine not updated yet. -/
def ticksBetween : List Label :=
  tickOnce 0 "a" ++ pollTimes 1 0 4 ++ tickOnce 5 "b" ++ pollTimes 6 1 1

theorem ticksBetween_runsTwice :
    (run (step (minutely 10)) (start 0 dueNow) ticksBetween).shared.dueRuns "r" 0 = 2 := by
  decide

end Engine

end TitanClaw.Agent.Routines
