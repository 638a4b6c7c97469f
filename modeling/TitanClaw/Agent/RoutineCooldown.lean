import TitanClaw.Agent.RoutineEngine

/-! # Time between event fires

An event check compares the time with the end of the last run as the cache has it. The end of
a run is written to the store, and the cache is filled from the store only when routines are
created, changed or deleted, so the check knows of a run only if that happened since. The
window for messages of the same content is read by no check. -/

namespace TitanClaw.Agent.Routines

open List Interleave Run

def Phase.endedAt : Phase → Option Int
  | ended at_ => some at_
  | record | count | executing | complete _ _ _ | update _ => none

namespace RunTask

/-- The run of the first was over for the cooldown when the second was fired, and two fires
for one content are the window apart. -/
structure Spaced (a b : RunTask) : Prop where
  cooldown : ∃ ended ∈ a.phase.endedAt,
    ended + 1000 * b.routine.guardrails.cooldown ≤ b.run.startedAt
  dedup : ∀ window ∈ b.routine.guardrails.dedupWindow,
    a.message.map (·.content) = b.message.map (·.content) →
      a.run.startedAt + 1000 * window ≤ b.run.startedAt

def EventSpaced (a b : RunTask) : Prop :=
  a.run.triggerType = .event → b.run.triggerType = .event → a.routine.id = b.routine.id → a.Spaced b

instance (a b : RunTask) : Decidable (a.Spaced b) :=
  decidable_of_iff
    ((∃ ended ∈ a.phase.endedAt, ended + 1000 * b.routine.guardrails.cooldown ≤ b.run.startedAt)
      ∧ ∀ window ∈ b.routine.guardrails.dedupWindow,
        a.message.map (·.content) = b.message.map (·.content) →
          a.run.startedAt + 1000 * window ≤ b.run.startedAt)
    ⟨fun h => ⟨h.1, h.2⟩, fun h => ⟨h.cooldown, h.dedup⟩⟩

instance (a b : RunTask) : Decidable (a.EventSpaced b) := by
  unfold EventSpaced
  infer_instance

end RunTask

namespace Engine

def EventsSpaced (s : Engine) : Prop := s.spawned.Pairwise RunTask.EventSpaced

instance (s : Engine) : Decidable s.EventsSpaced := by
  unfold EventsSpaced
  infer_instance

/-- An event check fires a routine whose runs so far are over and known to the cache, with
durations that the check can tell apart. -/
def FiresCooled (D : EngineDeps) (s : Engine) (task : Task) (_ : SectionInput) : Prop :=
  match task with
  | .eventFire _ _ routine _ =>
      s.runningCount < D.maxConcurrentRoutines →
        cooldownSeconds routine.guardrails = routine.guardrails.cooldown
          ∧ (∀ window ∈ routine.guardrails.dedupWindow, window ≤ routine.guardrails.cooldown)
          ∧ ∀ t ∈ s.spawned, t.run.triggerType = .event → t.routine.id = routine.id →
            ∃ ended ∈ t.phase.endedAt, ∃ lastRun ∈ routine.lastRunAt, ended ≤ lastRun
  | _ => True

instance (D : EngineDeps) (s : Engine) (task : Task) (input : SectionInput) :
    Decidable (s.FiresCooled D task input) := by
  unfold FiresCooled
  split <;> infer_instance

def Cooled (now : Int) (routine : Routine) : Prop :=
  ∀ lastRun ∈ routine.lastRunAt, lastRun + 1000 * cooldownSeconds routine.guardrails ≤ now

def TaskCooled (s : Engine) : Task → Prop
  | .eventCount _ _ routine _ => Cooled s.now routine
  | .eventFire _ _ routine _ => Cooled s.now routine
  | _ => True

structure Spacing (s : Engine) : Prop where
  spaced : s.EventsSpaced
  past : ∀ t ∈ s.spawned,
    t.run.startedAt ≤ s.now ∧ ∀ ended ∈ t.phase.endedAt, t.run.startedAt ≤ ended

section

variable {D : EngineDeps} {s s' : Engine} {input : SectionInput} {t t' : RunTask} {place : Nat}
  {task : Task} {routine : Routine}

theorem cooled_of_check {now : Int} (h : checkCooldown now routine = true) :
    Cooled now routine := by
  intro lastRun hlast
  rw [Option.mem_def] at hlast
  simp only [checkCooldown, hlast, Bool.not_eq_true', decide_eq_false_iff_not] at h
  omega

theorem Cooled.later {now now' : Int} (h : Cooled now routine) (hnow : now ≤ now') :
    Cooled now' routine :=
  fun lastRun hlast => (h lastRun hlast).trans hnow

theorem TaskCooled.later (h : s.TaskCooled task) (hnow : s.now ≤ s'.now) : s'.TaskCooled task := by
  cases task with
  | eventCount | eventFire => exact Cooled.later h hnow
  | _ => trivial

theorem Next.taskCooled {next : Task} (h : Next s task next) (htask : s.TaskCooled task) :
    s.TaskCooled next := by
  cases h with
  | admitted hadmits => exact cooled_of_check (Bool.and_eq_true_iff.mp hadmits).2
  | eventCounted => exact htask
  | _ => trivial

section

variable (h : Polls s input t s' t')

include h

theorem Polls.ended_eq {ended : Int} (hended : ended ∈ t.phase.endedAt) : t' = t := by
  cases h with
  | ended => rfl
  | recorded hphase | notRecorded hphase | counted hphase | panicked hphase | executed hphase
  | completed hphase | notCompleted hphase | updated hphase | notUpdated hphase =>
    rw [hphase] at hended
    cases hended

theorem Polls.message_eq : t'.message = t.message := by cases h <;> rfl

theorem Polls.endedAt {ended : Int}
    (hended : ended ∈ t'.phase.endedAt) : ended ∈ t.phase.endedAt ∨ ended = s.now := by
  cases h with
  | ended => exact .inl hended
  | recorded _ _ hnext =>
    rcases hnext with rfl | rfl
    · cases hended
    · exact .inr (Option.some.inj hended).symm
  | notRecorded | panicked | updated | notUpdated => exact .inr (Option.some.inj hended).symm
  | counted | executed | completed | notCompleted => cases hended

end

variable (h : s.Spacing)

include h

theorem Spacing.polled (hplace : s.spawned[place]? = some t)
    (hpolls : Polls s input t s' t') : Spacing { s' with spawned := s.spawned.set place t' } := by
  have hpast := h.past t (mem_of_getElem? hplace)
  refine ⟨Slots.pairwise_set h.spaced hplace ?_ ?_, ?_⟩
  · intro x _ hx hevent hxevent hid
    rw [hpolls.run_eq] at hevent
    rw [hpolls.routine_eq] at hid
    have hspaced := hx hevent hxevent hid
    obtain ⟨ended, hended, -⟩ := hspaced.cooldown
    rw [hpolls.ended_eq hended]
    exact hspaced
  · intro x _ hx hxevent hevent hid
    rw [hpolls.run_eq] at hevent
    rw [hpolls.routine_eq] at hid
    obtain ⟨hcooldown, hdedup⟩ := hx hxevent hevent hid
    constructor
    · rw [hpolls.routine_eq, hpolls.run_eq]
      exact hcooldown
    · rw [hpolls.routine_eq, hpolls.run_eq, hpolls.message_eq]
      exact hdedup
  · show ∀ x ∈ s.spawned.set place t', x.run.startedAt ≤ s'.now ∧ _
    rw [hpolls.now_eq]
    refine Slots.forall_set h.past (fun x _ hx => hx) ?_
    rw [hpolls.run_eq]
    refine ⟨hpast.1, fun ended hended => ?_⟩
    rcases hpolls.endedAt hended with hold | rfl
    · exact hpast.2 ended hold
    · exact hpast.1

theorem Spacing.spawn (hspaced : ∀ x ∈ s.spawned, x.EventSpaced t)
    (hstarted : t.run.startedAt = s.now) (hphase : t.phase.endedAt = none) :
    (s.spawn t).Spacing := by
  refine ⟨pairwise_append.mpr ⟨h.spaced, pairwise_singleton _ t, fun x hx y hy => ?_⟩,
    forall_mem_append.mpr ⟨h.past, forall_mem_singleton.mpr ⟨hstarted.le, ?_⟩⟩⟩
  · rw [mem_singleton.mp hy]
    exact hspaced x hx
  · rw [hphase]
    exact fun ended hended => by cases hended

/-- The check has seen the end of every earlier run, and has waited for the cooldown since. -/
theorem Spacing.eventSpaced (hcooled : Cooled s.now routine)
    (hfits : cooldownSeconds routine.guardrails = routine.guardrails.cooldown)
    (hwindow : ∀ window ∈ routine.guardrails.dedupWindow, window ≤ routine.guardrails.cooldown)
    (hknown : ∀ t ∈ s.spawned, t.run.triggerType = .event → t.routine.id = routine.id →
      ∃ ended ∈ t.phase.endedAt, ∃ lastRun ∈ routine.lastRunAt, ended ≤ lastRun)
    {new : RunTask} (hroutine : new.routine = routine) (hstarted : new.run.startedAt = s.now) :
    ∀ x ∈ s.spawned, x.EventSpaced new := by
  intro x hx hxevent _ hid
  rw [hroutine] at hid
  obtain ⟨ended, hended, lastRun, hlast, hle⟩ := hknown x hx hxevent hid
  have hsince := hcooled lastRun hlast
  have hstart := (h.past x hx).2 ended hended
  refine ⟨⟨ended, hended, ?_⟩, fun window hmem _ => ?_⟩
  · rw [hroutine, hstarted]
    omega
  · rw [hroutine] at hmem
    have hshort := hwindow window hmem
    omega

theorem Spacing.moves (htask : s.TaskCooled task)
    (hguard : s.FiresCooled D task input) (hmoves : Moves D s input task s') : s'.Spacing := by
  cases hmoves with
  | idle | manualLost => exact ⟨h.spaced, h.past⟩
  | fired _ hfires =>
    cases hfires with
    | event hcount =>
      obtain ⟨hfits, hwindow, hknown⟩ := hguard hcount
      exact h.spawn (h.eventSpaced htask hfits hwindow hknown rfl rfl) rfl rfl
    | cron => exact h.spawn (fun x _ _ hevent => by cases hevent) rfl rfl
  | @manual routine =>
    have hspawned := h.spawn
      (t := ⟨routine, s.newRun input.newId routine .manual none, .count, true, none⟩)
      (fun x _ _ hevent => by cases hevent) rfl rfl
    exact ⟨hspawned.spaced, hspawned.past⟩
  | polled hplace hpolls => exact h.polled hplace hpolls

theorem sect_spacing (htask : s.TaskCooled task) (hguard : s.FiresCooled D task input) :
    (s.sect D task input).1.Spacing
      ∧ (∀ next, (s.sect D task input).2 = some next → (s.sect D task input).1.TaskCooled next)
      ∧ ∀ other, s.TaskCooled other → (s.sect D task input).1.TaskCooled other := by
  have hmoves := act_moves D (s.tick input.elapsed) task input
  have hlater := le_tick s input.elapsed
  have hnow : (s.tick input.elapsed).now = (s.sect D task input).1.now := hmoves.now_eq.symm
  have htask' := htask.later hlater
  have hguard' : (s.tick input.elapsed).FiresCooled D task input := hguard
  have hticked : (s.tick input.elapsed).Spacing :=
    ⟨h.spaced, fun t ht => ⟨(h.past t ht).1.trans hlater, (h.past t ht).2⟩⟩
  refine ⟨hticked.moves htask' hguard' hmoves, fun next hnext => ?_,
    fun other hother => hother.later (hlater.trans hnow.le)⟩
  exact ((act_next D hnext).taskCooled htask').later hnow.le

end

variable (D : EngineDeps)

/-- Over every history of messages, refreshes, ticks and runs the event fires of a routine are
spaced as its guardrails say, as long as each of them meets the condition. -/
theorem run_eventsSpaced (now : Int) (store : RoutineStore) {labels : List Label}
    (hguarded : Guarded (step D) (Sections (FiresCooled D)) (start now store) labels)
    {pre : List Label} (hpre : pre <+: labels) :
    (run (step D) (start now store) pre).shared.EventsSpaced := by
  have hstep : ∀ (c : Config) (label : Label), Holds Spacing TaskCooled c →
      Sections (FiresCooled D) c label → Holds Spacing TaskCooled (step D c label) := by
    refine holds_step (fun c id call _ _ => ?_) fun c id task input h htask hguard =>
      sect_spacing h.shared (h.tasks id task htask) (hguard task htask)
    cases call <;> trivial
  have hstart : Holds Spacing TaskCooled (start now store) :=
    ⟨⟨.nil, forall_mem_nil _⟩, fun id task h => by cases h⟩
  exact (invariant_reached hstep hstart hguarded hpre).shared.spaced

/-! ### A routine on messages -/

def matchAll : EngineDeps where
  maxConcurrentRoutines := 10
  regex _ := some fun _ => true
  nextCronFire _ _ := .ok none
  nextCronFire_later schedule now fire h := by cases h

/-- The cooldown is five minutes. -/
def onDeploy (dedupWindow : Option Nat) : RoutineStore :=
  { routines :=
      [{ id := "r", name := "deploy", trigger := .event none "deploy"
         guardrails := { dedupWindow } }] }

def refreshed (id : Nat) : List Label :=
  [.start id .refreshEventCache, .advance id {}, .advance id {}]

def deployMessage (id elapsed : Nat) (newId : String) : List Label :=
  [.start id (.checkEventTriggers ⟨"alice", "cli", "deploy"⟩), .advance id { elapsed },
    .advance id {}, .advance id {}, .advance id { newId }]

def refreshedBetween : List Label :=
  refreshed 0 ++ deployMessage 1 0 "a" ++ pollTimes 2 0 5 ++ refreshed 7
    ++ deployMessage 8 300000 "b"

theorem refreshedBetween_spaced :
    (run (step matchAll) (start 0 (onDeploy none)) refreshedBetween).shared.spawned.length = 2
      ∧ (run (step matchAll) (start 0 (onDeploy none)) refreshedBetween).shared.EventsSpaced :=
  ⟨by decide, run_eventsSpaced matchAll 0 _ (by decide) (prefix_refl refreshedBetween)⟩

/-- The same message again, a second after the run. -/
def sentTwice : List Label :=
  refreshed 0 ++ deployMessage 1 0 "a" ++ pollTimes 2 0 5 ++ deployMessage 7 1000 "b"

/-- It fires the routine again, in spite of the cooldown and of the window. -/
theorem sentTwice_not_spaced :
    ¬ (run (step matchAll) (start 0 (onDeploy (some 600))) sentTwice).shared.EventsSpaced := by
  decide

end Engine

end TitanClaw.Agent.Routines
