import Mathlib.Data.List.Perm.Subperm
import TitanClaw.Agent.RoutineEngine

/-! # Tasks of runs and their records

A spawned task has a record of its own from the time it has recorded its run, and the record
says "running" until the task has completed it. So the store's count of a routine's running
runs is never below the number of its tasks at work; and the counter of the engine is never
below the number of tasks that execute. -/

namespace TitanClaw.Agent.Routines

open List Slots RoutineStore

namespace RoutineStore

def Running (db : RoutineStore) (run : RoutineRun) : Prop :=
  ∃ row ∈ db.runs, row.id = run.id ∧ row.routineId = run.routineId ∧ row.status = .running

/-- The run has a record. -/
def Has (db : RoutineStore) (run : RoutineRun) : Prop := ∃ row ∈ db.runs, row.id = run.id

variable {db store : RoutineStore} {run new : RoutineRun}

theorem createRoutineRun_some (h : db.createRoutineRun new = some store) :
    (∀ row ∈ db.runs, row.id ≠ new.id) ∧ store = { db with runs := db.runs ++ [new] } := by
  unfold createRoutineRun at h
  split at h
  · cases h
  next hnone =>
  refine ⟨fun row hrow hid => hnone ?_, (Option.some.inj h).symm⟩
  exact any_eq_true.mpr ⟨row, hrow, beq_iff_eq.mpr hid⟩

theorem Running.create (h : db.Running run) (hstore : db.createRoutineRun new = some store) :
    store.Running run := by
  obtain ⟨row, hrow, hfacts⟩ := h
  obtain ⟨-, rfl⟩ := createRoutineRun_some hstore
  exact ⟨row, mem_append_left _ hrow, hfacts⟩

theorem running_created (hstore : db.createRoutineRun new = some store)
    (hstatus : new.status = .running) : store.Running new := by
  obtain ⟨-, rfl⟩ := createRoutineRun_some hstore
  exact ⟨new, by simp, rfl, rfl, hstatus⟩

theorem Has.create (h : db.Has run) (hstore : db.createRoutineRun new = some store) :
    store.Has run := by
  obtain ⟨row, hrow, hid⟩ := h
  obtain ⟨-, rfl⟩ := createRoutineRun_some hstore
  exact ⟨row, mem_append_left _ hrow, hid⟩

theorem has_created (hstore : db.createRoutineRun new = some store) : store.Has new := by
  obtain ⟨-, rfl⟩ := createRoutineRun_some hstore
  exact ⟨new, by simp, rfl⟩

/-- The new record is none of those that are there. -/
theorem Has.ne_created (h : db.Has run) (hstore : db.createRoutineRun new = some store) :
    run.id ≠ new.id := by
  obtain ⟨row, hrow, hid⟩ := h
  rw [← hid]
  exact (createRoutineRun_some hstore).1 row hrow

variable (status : RunStatus) (summary : Option String) (tokens : Option Int) (now : Int)

theorem Running.complete {id : String} (h : db.Running run) (hid : run.id ≠ id) :
    (db.completeRoutineRun id status summary tokens now).Running run := by
  obtain ⟨row, hrow, hrowid, hfacts⟩ := h
  refine ⟨row, mem_map.mpr ⟨row, hrow, if_neg fun h => hid ?_⟩, hrowid, hfacts⟩
  rw [← hrowid, h]

theorem Has.complete (h : db.Has run) (id : String) :
    (db.completeRoutineRun id status summary tokens now).Has run := by
  obtain ⟨row, hrow, hrowid⟩ := h
  refine ⟨_, mem_map.mpr ⟨row, hrow, rfl⟩, ?_⟩
  split
  · exact hrowid
  · exact hrowid

end RoutineStore

/-- The run has a record that the task has still to complete. -/
def Phase.live : Phase → Bool
  | count | executing | complete _ _ _ => true
  | record | update _ | ended _ => false

def RunTask.Apart (a b : RunTask) : Prop :=
  a.recorded = true → b.recorded = true → a.run.id ≠ b.run.id

theorem RunTask.Apart.symm {a b : RunTask} (h : a.Apart b) : b.Apart a :=
  fun hb ha hid => h ha hb hid.symm

namespace Engine

structure Sound (s : Engine) : Prop where
  own : ∀ t ∈ s.spawned, t.run.routineId = t.routine.id ∧ t.run.status = .running
  live : ∀ t ∈ s.spawned, t.phase.live = true → t.recorded = true ∧ s.store.Running t.run
  kept : ∀ t ∈ s.spawned, t.recorded = true → s.store.Has t.run
  apart : s.spawned.Pairwise RunTask.Apart
  counted : s.spawned.countP (·.phase == .executing) ≤ s.runningCount

variable {s s' : Engine} {input : SectionInput} {t t' : RunTask} {place : Nat} {task : Task}

section

variable (h : s.Sound)

include h

section

variable (hplace : s.spawned[place]? = some t)

include hplace

/-- A task that changes its phase, but neither gets nor gives up its record. -/
theorem Sound.set_phase (phase : Phase) (store : RoutineStore) (runningCount : Nat)
    (hlive : phase.live = true → t.phase.live = true ∧ store.Running t.run)
    (hrunning : ∀ x ∈ s.spawned, t.Apart x → x.recorded = true → s.store.Running x.run →
      store.Running x.run) (hhas : ∀ run, s.store.Has run → store.Has run)
    (hcounted : s.spawned.countP (·.phase == .executing) + (if phase == .executing then 1 else 0)
      ≤ runningCount + if t.phase == .executing then 1 else 0) :
    Sound { s with
      store, runningCount, spawned := s.spawned.set place { t with phase := phase } } := by
  have ht : t ∈ s.spawned := mem_of_getElem? hplace
  refine ⟨?_, ?_, ?_, ?_, ?_⟩
  · exact forall_set h.own (fun x _ hx => hx) (h.own t ht)
  · refine forall_set_of_pairwise (fun _ _ => RunTask.Apart.symm) h.apart hplace ?_ ?_
    · intro x hx hapart hxlive
      obtain ⟨hrecorded, hxrunning⟩ := h.live x hx hxlive
      exact ⟨hrecorded, hrunning x hx hapart hrecorded hxrunning⟩
    · intro hphase
      obtain ⟨htlive, htrunning⟩ := hlive hphase
      exact ⟨(h.live t ht htlive).1, htrunning⟩
  · exact forall_set h.kept (fun x _ hx hrecorded => hhas _ (hx hrecorded))
      fun hrecorded => hhas _ (h.kept t ht hrecorded)
  · exact pairwise_set h.apart hplace (fun x _ hx => hx) fun x _ hx => hx
  · have hset := countP_set hplace { t with phase := phase } (·.phase == .executing)
    simp only at hset ⊢
    omega

theorem Sound.set_recorded (hphase : t.phase = .record) {store : RoutineStore}
    (hstore : s.store.createRoutineRun t.run = some store) {phase : Phase}
    (hnext : phase = .count ∨ phase = .ended s.now) :
    Sound { s with
      store, spawned := s.spawned.set place { t with phase := phase, recorded := true } } := by
  have ht : t ∈ s.spawned := mem_of_getElem? hplace
  -- no record that is there is the new one
  have hnew : ∀ x ∈ s.spawned, x.recorded = true → x.run.id ≠ t.run.id :=
    fun x hx hrecorded => (h.kept x hx hrecorded).ne_created hstore
  refine ⟨?_, ?_, ?_, ?_, ?_⟩
  · exact forall_set h.own (fun x _ hx => hx) (h.own t ht)
  · refine forall_set h.live (fun x _ hx hlive => ?_) fun _ => ⟨rfl, ?_⟩
    · exact ⟨(hx hlive).1, (hx hlive).2.create hstore⟩
    · exact running_created hstore (h.own t ht).2
  · exact forall_set h.kept (fun x _ hx hrecorded => (hx hrecorded).create hstore)
      fun _ => has_created hstore
  · refine pairwise_set h.apart hplace (fun x hx _ _ hrecorded => ?_)
      fun x hx _ hrecorded _ => hnew x hx hrecorded
    exact (hnew x hx hrecorded).symm
  · have hset := countP_set hplace { t with phase := phase, recorded := true }
      (·.phase == .executing)
    have hbefore := h.counted
    rcases hnext with rfl | rfl
    · simpa [hphase] using hset.trans_le hbefore
    · simpa [hphase] using hset.trans_le hbefore

theorem Sound.polled
    (hpolls : Polls s input t s' t') : Sound { s' with spawned := s.spawned.set place t' } := by
  have hsame : ∀ x ∈ s.spawned, t.Apart x → x.recorded = true → s.store.Running x.run →
      s.store.Running x.run := fun _ _ _ _ hrunning => hrunning
  have hcounted := h.counted
  have ht : t ∈ s.spawned := mem_of_getElem? hplace
  cases hpolls with
  | recorded hphase hstore hnext => exact h.set_recorded hplace hphase hstore hnext
  | notRecorded hphase =>
    refine ⟨?_, ?_, ?_, ?_, ?_⟩
    · exact forall_set h.own (fun x _ hx => hx) (h.own t ht)
    · exact forall_set h.live (fun x _ hx => hx) fun hlive => by cases hlive
    · exact forall_set h.kept (fun x _ hx => hx) fun hrecorded => by cases hrecorded
    · exact pairwise_set h.apart hplace (fun x _ _ hrecorded => by cases hrecorded)
        fun x _ _ _ hrecorded => by cases hrecorded
    · have hset := countP_set hplace
        { t with phase := .ended s.now, recorded := false } (·.phase == .executing)
      simpa [hphase] using hset.trans_le hcounted
  | counted hphase =>
    have hlive : t.phase.live = true := by rw [hphase]; rfl
    refine h.set_phase hplace .executing s.store (s.runningCount + 1)
      (fun _ => ⟨hlive, (h.live t ht hlive).2⟩) hsame (fun _ hhas => hhas) ?_
    simpa [hphase] using hcounted
  | panicked hphase =>
    refine h.set_phase hplace (.ended s.now) s.store s.runningCount
      (fun hlive => by cases hlive) hsame (fun _ hhas => hhas) ?_
    simp [hphase]
    omega
  | executed hphase =>
    have hlive : t.phase.live = true := by rw [hphase]; rfl
    refine h.set_phase hplace (.complete _ _ _) s.store (s.runningCount - 1)
      (fun _ => ⟨hlive, (h.live t ht hlive).2⟩) hsame (fun _ hhas => hhas) ?_
    simp [hphase]
    omega
  | completed hphase =>
    refine h.set_phase hplace (.update _) _ s.runningCount (fun hlive => by cases hlive)
      (fun x hx hapart hrecorded hrunning => ?_) (fun _ hhas => hhas.complete ..) ?_
    · have hlive : t.phase.live = true := by rw [hphase]; rfl
      exact hrunning.complete _ _ _ _ (hapart (h.live t ht hlive).1 hrecorded).symm
    · simpa [hphase] using hcounted
  | notCompleted hphase =>
    refine h.set_phase hplace (.update _) s.store s.runningCount
      (fun hlive => by cases hlive) hsame (fun _ hhas => hhas) ?_
    simpa [hphase] using hcounted
  | updated hphase =>
    refine h.set_phase hplace (.ended s.now) _ s.runningCount (fun hlive => by cases hlive)
      hsame (fun _ hhas => hhas) ?_
    simpa [hphase] using hcounted
  | notUpdated hphase =>
    refine h.set_phase hplace (.ended s.now) s.store s.runningCount
      (fun hlive => by cases hlive) hsame (fun _ hhas => hhas) ?_
    simpa [hphase] using hcounted
  | ended =>
    refine h.set_phase hplace t.phase s.store s.runningCount
      (fun hlive => ⟨hlive, (h.live t ht hlive).2⟩) hsame (fun _ hhas => hhas) ?_
    exact Nat.add_le_add_right hcounted _

end

theorem Sound.spawn (hown : t.run.routineId = t.routine.id ∧ t.run.status = .running)
    (hlive : t.phase.live = true → t.recorded = true ∧ s.store.Running t.run)
    (hkept : t.recorded = true → s.store.Has t.run)
    (hapart : ∀ x ∈ s.spawned, x.Apart t) (hphase : t.phase ≠ .executing) : (s.spawn t).Sound := by
  have hforall {P : RunTask → Prop} (hold : ∀ x ∈ s.spawned, P x) (hnew : P t) :
      ∀ x ∈ s.spawned ++ [t], P x :=
    forall_mem_append.mpr ⟨hold, forall_mem_singleton.mpr hnew⟩
  refine ⟨hforall h.own hown, hforall h.live hlive, hforall h.kept hkept, ?_, ?_⟩
  · refine pairwise_append.mpr ⟨h.apart, pairwise_singleton _ t, fun x hx y hy => ?_⟩
    rw [mem_singleton.mp hy]
    exact hapart x hx
  · have hzero : [t].countP (·.phase == .executing) = 0 := by simp [hphase]
    rw [Engine.spawn, countP_append, hzero, Nat.add_zero]
    exact h.counted

/-- The store has a record more. -/
theorem Sound.create {run : RoutineRun} {store : RoutineStore}
    (hstore : s.store.createRoutineRun run = some store) : Sound { s with store } :=
  ⟨h.own, fun t ht hlive => ⟨(h.live t ht hlive).1, (h.live t ht hlive).2.create hstore⟩,
    fun t ht hrecorded => (h.kept t ht hrecorded).create hstore, h.apart, h.counted⟩

theorem Sound.moves (hmoves : Moves D s input task s') : s'.Sound := by
  cases hmoves with
  | idle => exact ⟨h.own, h.live, h.kept, h.apart, h.counted⟩
  | fired =>
    exact h.spawn ⟨rfl, rfl⟩ (fun hlive => by cases hlive) (fun hrecorded => by cases hrecorded)
      (fun x _ _ hrecorded => by cases hrecorded) (fun hphase => by cases hphase)
  | @manual routine _ hstore =>
    have hcreated := h.create hstore
    have hspawned := hcreated.spawn
      (t := ⟨routine, s.newRun input.newId routine .manual none, .count, true, none⟩) ⟨rfl, rfl⟩
      (fun _ => ⟨rfl, running_created hstore rfl⟩)
      (fun _ => has_created hstore)
      (fun x hx hrecorded _ => (h.kept x hx hrecorded).ne_created hstore)
      (fun hphase => by cases hphase)
    exact ⟨hspawned.own, hspawned.live, hspawned.kept, hspawned.apart, hspawned.counted⟩
  | manualLost hstore =>
    have hcreated := h.create hstore
    exact ⟨hcreated.own, hcreated.live, hcreated.kept, hcreated.apart, hcreated.counted⟩
  | polled hplace hpolls => exact h.polled hplace hpolls

theorem Sound.tick (elapsed : Nat) : (s.tick elapsed).Sound :=
  ⟨h.own, h.live, h.kept, h.apart, h.counted⟩

/-- The store counts every task of the routine that has its run recorded and not completed. -/
theorem Sound.countP_live_le (id : String) :
    s.spawned.countP (fun t => t.routine.id == id && t.phase.live)
      ≤ s.store.countRunningRoutineRuns id := by
  let atWork := s.spawned.filter fun t => t.routine.id == id && t.phase.live
  let rows := s.store.runs.filter fun run => run.routineId == id && run.status == .running
  have hlive : ∀ t ∈ atWork, t ∈ s.spawned ∧ t.routine.id = id ∧ t.phase.live = true := by
    intro t ht
    obtain ⟨hmem, hfacts⟩ := mem_filter.mp ht
    rw [Bool.and_eq_true, beq_iff_eq] at hfacts
    exact ⟨hmem, hfacts⟩
  have hnodup : (atWork.map (·.run.id)).Nodup := by
    refine pairwise_map.mpr ((h.apart.filter _).imp_of_mem fun ha hb hapart => ?_)
    obtain ⟨ha, -, halive⟩ := hlive _ ha
    obtain ⟨hb, -, hblive⟩ := hlive _ hb
    exact hapart (h.live _ ha halive).1 (h.live _ hb hblive).1
  have hsubset : atWork.map (·.run.id) ⊆ rows.map (·.id) := by
    intro runId hrunId
    obtain ⟨t, ht, rfl⟩ := mem_map.mp hrunId
    obtain ⟨ht, hid, htlive⟩ := hlive t ht
    obtain ⟨row, hrow, hrowid, hroutine, hstatus⟩ := (h.live t ht htlive).2
    refine mem_map.mpr ⟨row, mem_filter.mpr ⟨hrow, ?_⟩, hrowid⟩
    rw [hroutine, (h.own t ht).1, hid, hstatus]
    simp
  have hlength := (Nodup.subperm hnodup hsubset).length_le
  rw [length_map, length_map] at hlength
  rw [countRunningRoutineRuns, countP_eq_length_filter, countP_eq_length_filter]
  exact hlength

end

theorem sound_start (now : Int) (store : RoutineStore) : (start now store).shared.Sound :=
  ⟨forall_mem_nil _, forall_mem_nil _, forall_mem_nil _, .nil, Nat.le_refl 0⟩

end Engine

end TitanClaw.Agent.Routines
