import TitanClaw.Context.Manager

/-! # The limit on active jobs

A job is created only while fewer than `maxJobs` contexts are active, and the check
and the insertion are one section, so creation cannot exceed the limit, however the
calls interleave. An update can: nothing is checked when it takes a terminal context
back to an active state. The machine has no such transition, but the update of the
sandbox tool does not ask it. -/

namespace TitanClaw.Context

open Interleave Table Run ContextManager ContextUpdate

namespace ContextManager

variable (m : ContextManager)

def WithinLimit : Prop := m.activeCount ≤ m.maxJobs

variable {m}

/-- A new context counts for one at most, even in the place of an old one. -/
theorem withinLimit_insert (hroom : m.activeCount < m.maxJobs) (jobId : String) (ctx : JobContext) :
    WithinLimit { m with contexts := m.contexts.insert jobId ctx } := by
  show Table.count _ (m.contexts.insert jobId ctx) ≤ m.maxJobs
  have herase := count_erase_le (fun ctx => ctx.state.isActive) jobId m.contexts
  rw [activeCount] at hroom
  rw [count_insert]
  split <;> omega

variable (m)

/-- The update takes a terminal context to an active state. -/
def Revives (jobId : String) (f : JobContext → JobContext) : Prop :=
  ∃ ctx, m.contexts.lookup jobId = some ctx ∧ ctx.state.isTerminal = true
    ∧ (f ctx).state.isActive = true

/-- An update adds an active context exactly if it revives one. -/
theorem withinLimit_update_iff {m : ContextManager} (h : m.WithinLimit) {jobId : String}
    {ctx : JobContext} (hctx : m.contexts.lookup jobId = some ctx) (f : JobContext → JobContext) :
    WithinLimit { m with contexts := m.contexts.insert jobId (f ctx) }
      ↔ (m.Revives jobId f → m.activeCount < m.maxJobs) := by
  have hbefore := count_erase (fun ctx => ctx.state.isActive) hctx
  have hafter := count_insert (fun ctx => ctx.state.isActive) jobId (f ctx) m.contexts
  have hrevives : m.Revives jobId f
      ↔ ctx.state.isActive = false ∧ (f ctx).state.isActive = true := by
    simp [Revives, hctx, JobState.isActive]
  show Table.count _ (m.contexts.insert jobId (f ctx)) ≤ m.maxJobs ↔ _
  rw [hrevives, hafter]
  unfold WithinLimit at h
  unfold activeCount at h ⊢
  cases hold : ctx.state.isActive <;> cases hnew : (f ctx).state.isActive <;>
    simp [hold] at hbefore ⊢ <;> omega

def RevivesInRoom : Rest → Prop
  | .whole (.updateContext jobId f) => m.Revives jobId f → m.activeCount < m.maxJobs
  | _ => True

theorem revivesInRoom_of_not_update {call : Call} (hcall : call.isUpdate = false)
    (m : ContextManager) : m.RevivesInRoom (.whole call) := by
  cases call with
  | updateContext => cases hcall
  | createJob | registerJob | removeJob => trivial

theorem section_withinLimit_iff {m m' : ContextManager} {rest : Rest}
    {next : Rest ⊕ CallResult} (h : m.WithinLimit) (hsection : Section m rest m' next) :
    m'.WithinLimit ↔ m.RevivesInRoom rest := by
  cases hsection with
  | refused hcall | present hcall => exact iff_of_true h (revivesInRoom_of_not_update hcall m)
  | placed hcall hroom =>
    exact iff_of_true (withinLimit_insert hroom _ _) (revivesInRoom_of_not_update hcall m)
  | updated hctx => exact withinLimit_update_iff h hctx _
  | notUpdated hctx =>
    refine iff_of_true h ?_
    rintro ⟨ctx, hctx', -⟩
    rw [hctx] at hctx'
    cases hctx'
  | taken => exact iff_of_true ((count_erase_le _ _ m.contexts).trans h) trivial
  | wrote => exact iff_of_true (by rw [writeMemory_eq]; exact h) trivial
  | memoryTaken | memoryMissing => exact iff_of_true h trivial

end ContextManager

namespace ManagerLog

variable (c : Config)

def RevivesInRoom : Label → Prop
  | .start _ _ => True
  | .advance id _ => ∀ task, c.tasks id = some task → c.shared.manager.RevivesInRoom task.rest

theorem revivesInRoom_iff_sections (label : Label) :
    RevivesInRoom c label
      ↔ Sections (fun s task _ => ContextManager.RevivesInRoom s.manager task.rest) c label := by
  cases label with
  | start | advance => rfl

theorem step_withinLimit_iff (label : Label) (h : c.shared.manager.WithinLimit) :
    (step c label).shared.manager.WithinLimit ↔ RevivesInRoom c label := by
  rw [revivesInRoom_iff_sections]
  refine shared_step_iff (P := fun s : ManagerLog => s.manager.WithinLimit) h
    (fun id task input _ => ?_) label
  rw [sect_manager]
  exact ContextManager.section_withinLimit_iff h (ContextManager.act_section _ _ _)

/-- Under every interleaving the active contexts stay within the limit exactly if a
terminal context is taken back to an active state only while there is room for it. -/
theorem run_withinLimit_iff (maxJobs : Nat) (labels : List Label) :
    (∀ pre, pre <+: labels → (run step (start maxJobs) pre).shared.manager.WithinLimit)
      ↔ Guarded step RevivesInRoom (start maxJobs) labels := by
  have hstart : (start maxJobs).shared.manager.WithinLimit := Nat.zero_le maxJobs
  exact reached_iff_guarded step_withinLimit_iff hstart

/-! ## Calls that follow the machine -/

/-- The call is no update, or one that does not overrule the machine. -/
def Follows : Call → Prop
  | .updateContext _ f => ∃ update : ContextUpdate, update.overrules = false ∧ f = update.apply
  | _ => True

def StartsFollowing (_ : Config) : Label → Prop
  | .start _ call => Follows call
  | .advance _ _ => True

def TaskFollows (task : Task) : Prop :=
  match task.rest with
  | .whole call => Follows call
  | _ => True

theorem revivesInRoom_of_follows {task : Task} (h : TaskFollows task) (m : ContextManager) :
    m.RevivesInRoom task.rest := by
  rcases task with ⟨rest, sections⟩
  cases rest with
  | whole call =>
    cases call with
    | updateContext =>
      obtain ⟨update, hfollows, rfl⟩ := h
      rintro ⟨ctx, -, hterminal, hactive⟩
      rw [update.apply_isActive_of_terminal hterminal, hfollows] at hactive
      cases hactive
    | createJob | registerJob | removeJob => trivial
  | writeMemory | removeMemory => trivial

theorem sect_follows (s : ManagerLog) (task : Task) (input : SectionInput) (next : Task)
    (h : (s.sect task input).2 = some next) : TaskFollows next := by
  obtain ⟨before, sections⟩ := task
  have hsection := act_section s.manager before input
  unfold sect at h
  rcases hact : s.manager.act before input with ⟨m, rest | result⟩
  · rw [hact] at h hsection
    cases h
    cases hsection <;> trivial
  · rw [hact] at h
    cases h

theorem run_withinLimit_of_follows (maxJobs : Nat) {labels : List Label}
    (hfollows : Guarded step StartsFollowing (start maxJobs) labels) :
    (run step (start maxJobs) labels).shared.manager.WithinLimit := by
  let Inv (s : ManagerLog) : Prop := s.manager.WithinLimit
  have hstart : Holds Inv (fun _ => TaskFollows) (start maxJobs) :=
    ⟨Nat.zero_le maxJobs, fun id task htask => by cases htask⟩
  refine (invariant_run (holds_step (fun _ _ _ _ hcall => hcall) ?_) hstart hfollows).shared
  intro c id task input hholds hid _
  have hroom := revivesInRoom_of_follows (hholds.tasks id task hid) c.shared.manager
  refine ⟨?_, sect_follows c.shared task input, fun other hother => hother⟩
  show (c.shared.sect task input).1.manager.WithinLimit
  rw [sect_manager]
  exact (section_withinLimit_iff hholds.shared (act_section _ _ _)).mpr hroom

/-- With one job allowed: Alice's sandbox job is registered and cancelled, another job
takes its place, and then the container of the first reports that it has started. -/
def cancelledJobStarts : List Label :=
  [.start 0 (.registerJob "alice" "a" "sandbox" ""), .advance 0 {}, .advance 0 {},
   .start 1 (.updateContext "a" (cancelFor "alice" 1).apply), .advance 1 {},
   .start 2 (.createJob "alice" "next" ""), .advance 2 { newId := "b" }, .advance 2 {},
   .start 3 (.updateContext "a" (syncSandboxState .inProgress (some 2) none).apply),
   .advance 3 {}]

theorem cancelledJob_withinLimit :
    (run step (start 1) (cancelledJobStarts.take 8)).shared.manager.WithinLimit :=
  run_withinLimit_of_follows 1 ⟨trivial, trivial, trivial, ⟨_, rfl, rfl⟩, trivial, trivial, trivial,
    trivial, trivial⟩

theorem cancelledJobStarts_exceeds :
    (run step (start 1) cancelledJobStarts).shared.manager.activeCount = 2
      ∧ ¬ (run step (start 1) cancelledJobStarts).shared.manager.WithinLimit := by
  have hcount : (run step (start 1) cancelledJobStarts).shared.manager.activeCount = 2 := by decide
  have hmax : (run step (start 1) cancelledJobStarts).shared.manager.maxJobs = 1 := rfl
  rw [WithinLimit, hcount, hmax]
  decide

end ManagerLog

end TitanClaw.Context
