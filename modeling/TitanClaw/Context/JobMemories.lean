import TitanClaw.Context.Manager

/-! # A memory for every context

A job has a context and a memory, in two maps under two locks. Between the two
sections of a creation or a removal one of the two is missing, so the maps agree only
when no call is under way; and they agree then only if the second sections come in
turn. A removal that falls between the two sections of a creation fails after it has
taken the context, and the memory that is written afterwards belongs to no job. -/

namespace TitanClaw.Context

open List AList Interleave Run Function TitanClaw.Context.Task ContextManager

open Interleave (Pending Quiet pending_of_other)

namespace Task

def Writes (jobId : String) (task : Task) : Prop :=
  ∃ write result, task.rest = .writeMemory jobId write result

def Takes (jobId : String) (task : Task) : Prop := ∃ ctx, task.rest = .removeMemory jobId ctx

end Task

/-! ## What holds between the sections -/

/-- A context without a memory belongs to a call that will write it, and a memory without
a context to one that will take it. -/
structure Paired (m : ContextManager) (tasks : Nat → Option Task) : Prop where
  memory : ∀ jobId, jobId ∈ m.contexts → jobId ∈ m.memories ∨ Pending (Writes jobId) tasks
  context : ∀ jobId, jobId ∈ m.memories → jobId ∈ m.contexts ∨ Pending (Takes jobId) tasks

/-- The section does not come between the two halves of a call on the same job: a memory
is written to a context that is there, or before it is taken along with it, and a memory
is taken when it is there, and from no context that keeps going without it. -/
def InTurn (m : ContextManager) (tasks : Nat → Option Task) : Rest → Prop
  | .whole _ => True
  | .writeMemory jobId _ _ => jobId ∈ m.contexts ∨ Pending (Takes jobId) tasks
  | .removeMemory jobId _ =>
      jobId ∈ m.memories ∧ (jobId ∈ m.contexts → Pending (Writes jobId) tasks)

theorem Paired.of_quiet {c : ManagerLog.Config} (h : Paired c.shared.manager c.tasks)
    (hquiet : Quiet c) (jobId : String) :
    jobId ∈ c.shared.manager.contexts ↔ jobId ∈ c.shared.manager.memories :=
  ⟨fun hctx => (h.memory jobId hctx).resolve_right (hquiet.not_pending _),
   fun hmemory => (h.context jobId hmemory).resolve_right (hquiet.not_pending _)⟩

namespace Paired

variable {m m' : ContextManager} {tasks : Nat → Option Task} {id : Nat} {next : Option Task}
  {sections : List (ContextManager × ContextManager)}

variable (h : Paired m tasks)

include h

/-- A call that has not yet come to its second section moves, and every context it leaves
without a memory, or memory without a context, is its own. -/
theorem of_whole {call : Call}
    (hid : tasks id = some ⟨.whole call, sections⟩) (hmemories : m'.memories = m.memories)
    (hnew : ∀ jobId, jobId ∈ m'.contexts → jobId ∉ m.contexts →
      Pending (Writes jobId) (update tasks id next))
    (hgone : ∀ jobId, jobId ∈ m.contexts → jobId ∉ m'.contexts →
      Pending (Takes jobId) (update tasks id next)) :
    Paired m' (update tasks id next) := by
  refine ⟨fun jobId hctx => ?_, fun jobId hmemory => ?_⟩
  · by_cases hold : jobId ∈ m.contexts
    · rw [hmemories]
      exact (h.memory jobId hold).imp_right (pending_of_other hid (by rintro ⟨_, _, h⟩; cases h))
    · exact .inr (hnew jobId hctx hold)
  · rw [hmemories] at hmemory
    by_cases hctx : jobId ∈ m'.contexts
    · exact .inl hctx
    rcases h.context jobId hmemory with hold | hpending
    · exact .inr (hgone jobId hold hctx)
    · exact .inr (pending_of_other hid (by rintro ⟨_, h⟩; cases h) hpending)

/-- Nothing is left over by a call that leaves the ids of the contexts as they are. -/
theorem of_whole_same {call : Call}
    (hid : tasks id = some ⟨.whole call, sections⟩) (hmemories : m'.memories = m.memories)
    (hcontexts : ∀ jobId, jobId ∈ m'.contexts ↔ jobId ∈ m.contexts) :
    Paired m' (update tasks id next) :=
  h.of_whole hid hmemories (fun jobId hctx hnot => absurd ((hcontexts jobId).mp hctx) hnot)
    fun jobId hctx hnot => absurd ((hcontexts jobId).mpr hctx) hnot

theorem of_wrote {jobId : String} {write : MemoryWrite} {result : CallResult}
    (hid : tasks id = some ⟨.writeMemory jobId write result, sections⟩)
    (hturn : jobId ∈ m.contexts ∨ Pending (Takes jobId) tasks) :
    Paired (m.writeMemory jobId write) (update tasks id next) := by
  have htakes : ∀ other, ¬ Takes other ⟨.writeMemory jobId write result, sections⟩ := by
    rintro other ⟨ctx, hrest⟩
    cases hrest
  have hcontexts : (m.writeMemory jobId write).contexts = m.contexts := by rw [m.writeMemory_eq]
  refine ⟨fun other hctx => ?_, fun other hmemory => ?_⟩
  · rw [hcontexts] at hctx
    rw [m.mem_writeMemory]
    by_cases hother : other = jobId
    · exact .inl (.inl hother)
    refine (h.memory other hctx).imp .inr (pending_of_other hid ?_)
    rintro ⟨write', result', hrest⟩
    cases hrest
    exact hother rfl
  · rw [hcontexts]
    rcases (m.mem_writeMemory jobId other write).mp hmemory with rfl | hold
    · exact hturn.imp_right (pending_of_other hid (htakes other))
    · exact (h.context other hold).imp_right (pending_of_other hid (htakes other))

theorem of_memoryTaken {jobId : String} {ctx : JobContext}
    (hid : tasks id = some ⟨.removeMemory jobId ctx, sections⟩)
    (hturn : jobId ∈ m.contexts → Pending (Writes jobId) tasks) :
    Paired { m with memories := m.memories.erase jobId } (update tasks id next) := by
  have hwrites : ∀ other, ¬ Writes other ⟨.removeMemory jobId ctx, sections⟩ := by
    rintro other ⟨write, result, hrest⟩
    cases hrest
  refine ⟨fun other hctx => ?_, fun other hmemory => ?_⟩
  · by_cases hother : other = jobId
    · subst hother
      exact .inr (pending_of_other hid (hwrites other) (hturn hctx))
    · refine (h.memory other hctx).imp (fun hold => ?_) (pending_of_other hid (hwrites other))
      exact mem_erase.mpr ⟨hother, hold⟩
  · obtain ⟨hother, hold⟩ := mem_erase.mp hmemory
    refine (h.context other hold).imp_right (pending_of_other hid ?_)
    rintro ⟨ctx', hrest⟩
    cases hrest
    exact hother rfl

/-- A section that comes in turn keeps contexts and memories paired. -/
theorem of_section {rest : Rest} {after : Rest ⊕ CallResult}
    (hid : tasks id = some ⟨rest, sections⟩) (hturn : InTurn m tasks rest)
    (hsection : Section m rest m' after)
    (sections' : List (ContextManager × ContextManager)) :
    Paired m' (update tasks id
      (after.elim (fun rest => some ⟨rest, sections'⟩) fun _ => none)) := by
  cases hsection with
  | refused | present | notUpdated => exact h.of_whole_same hid rfl fun _ => Iff.rfl
  | @placed _ jobId _ write result =>
    refine h.of_whole hid rfl (fun other hctx hnot => ?_) fun other hctx hnot => ?_
    · obtain rfl : other = jobId := ((mem_insert m.contexts).mp hctx).resolve_right hnot
      exact pending_own tasks id ⟨write, result, rfl⟩
    · exact absurd ((mem_insert m.contexts).mpr (.inr hctx)) hnot
  | @updated jobId f ctx hctx =>
    refine h.of_whole_same hid rfl fun other => ?_
    have hmem : jobId ∈ m.contexts := lookup_isSome.mp (Option.isSome_iff_exists.mpr ⟨ctx, hctx⟩)
    rw [mem_insert]
    refine ⟨?_, .inr⟩
    rintro (rfl | hold)
    · exact hmem
    · exact hold
  | @taken jobId ctx hctx =>
    refine h.of_whole hid rfl (fun other hctx hnot => ?_) fun other hctx hnot => ?_
    · exact absurd (mem_erase.mp hctx).2 hnot
    · obtain rfl : other = jobId := by
        by_contra hother
        exact hnot (mem_erase.mpr ⟨hother, hctx⟩)
      exact pending_own tasks id ⟨ctx, rfl⟩
  | wrote => exact h.of_wrote hid hturn
  | memoryTaken => exact h.of_memoryTaken hid hturn.2
  | memoryMissing hmemory => exact absurd hturn.1 (lookup_eq_none.mp hmemory)

end Paired

/-! ## Runs -/

def EndedCall.RemovalFailed (call : EndedCall) : Prop := ∃ e, call.result = .removed (.error e)

def EndedCall.ChangedNothing (call : EndedCall) : Prop := ∀ s ∈ call.sections, s.2 = s.1

namespace ManagerLog

variable (c : Config)

/-- With no call under way the jobs with a context are the jobs with a memory, and a
removal that failed has changed nothing. -/
def Agrees : Prop :=
  (Quiet c → ∀ jobId, jobId ∈ c.shared.manager.contexts ↔ jobId ∈ c.shared.manager.memories)
    ∧ ∀ call ∈ c.shared.ended, call.RemovalFailed → call.ChangedNothing

def SectionsInTurn : Label → Prop
  | .start _ _ => True
  | .advance id _ => ∀ task, c.tasks id = some task → InTurn c.shared.manager c.tasks task.rest

/-- A call starts from nothing, and only a removal returns the result of one. -/
def TaskKept (task : Task) : Prop :=
  match task.rest with
  | .whole _ => task.sections = []
  | .writeMemory _ _ result => result.isRemoval = false
  | .removeMemory _ _ => True

structure Kept (c : Config) : Prop where
  paired : Paired c.shared.manager c.tasks
  tasks : ∀ id task, c.tasks id = some task → TaskKept task
  ended : ∀ call ∈ c.shared.ended, call.RemovalFailed → call.ChangedNothing

theorem Kept.agrees {c : Config} (h : Kept c) : Agrees c :=
  ⟨fun hquiet => h.paired.of_quiet hquiet, h.ended⟩

theorem start_kept (maxJobs : Nat) : Kept (start maxJobs) where
  paired := by
    refine ⟨fun jobId h => ?_, fun jobId h => ?_⟩
    · exact absurd h (notMem_empty jobId)
    · exact absurd h (notMem_empty jobId)
  tasks := fun id task h => by cases h
  ended := fun call h => by cases h

theorem sect_next (s : ManagerLog) (task : Task) (input : SectionInput) :
    (s.sect task input).2
      = (s.manager.act task.rest input).2.elim
          (fun rest =>
            some ⟨rest, task.sections ++ [(s.manager, (s.manager.act task.rest input).1)]⟩)
          fun _ => none := by
  unfold sect
  rcases s.manager.act task.rest input with ⟨m, rest | result⟩ <;> rfl

/-- A removal fails in its first section, if at all, and then it has changed nothing. -/
theorem sect_ended {s : ManagerLog} {task : Task} (input : SectionInput) (htask : TaskKept task)
    {tasks : Nat → Option Task} (hturn : InTurn s.manager tasks task.rest)
    (hended : ∀ call ∈ s.ended, call.RemovalFailed → call.ChangedNothing) :
    ∀ call ∈ (s.sect task input).1.ended, call.RemovalFailed → call.ChangedNothing := by
  obtain ⟨rest, sections⟩ := task
  have hsection := act_section s.manager rest input
  unfold sect
  rcases hact : s.manager.act rest input with ⟨m, left | result⟩
  · exact hended
  rw [hact] at hsection
  refine forall_mem_append.mpr ⟨hended, forall_mem_singleton.mpr ?_⟩
  rintro ⟨e, hfailed⟩
  obtain rfl : result = .removed (.error e) := hfailed
  cases hsection with
  | refused =>
    obtain rfl : sections = [] := htask
    exact forall_mem_singleton.mpr rfl
  | wrote => cases htask
  | memoryMissing hmemory => exact absurd hturn.1 (lookup_eq_none.mp hmemory)

theorem sect_taskKept (s : ManagerLog) (task : Task) (input : SectionInput) (next : Task)
    (h : (s.sect task input).2 = some next) : TaskKept next := by
  obtain ⟨rest, sections⟩ := task
  have hsection := act_section s.manager rest input
  unfold sect at h
  rcases hact : s.manager.act rest input with ⟨m, left | result⟩
  · rw [hact] at h hsection
    cases h
    cases hsection with
    | placed _ _ hresult | present _ _ hresult => exact hresult
    | taken => trivial
  · rw [hact] at h
    cases h

theorem step_kept (label : Label) (h : Kept c) (hturn : SectionsInTurn c label) :
    Kept (step c label) := by
  refine step_cases c label h ?_ ?_
  · rintro id call rfl hid
    have hfree : ∀ task, c.tasks id = some task → False := by
      intro task htask
      rw [hid] at htask
      cases htask
    refine ⟨⟨fun jobId hctx => ?_, fun jobId hmemory => ?_⟩, ?_, h.ended⟩
    · exact (h.paired.memory jobId hctx).imp_right fun hpending =>
        hpending.update (fun task htask => (hfree task htask).elim) _
    · exact (h.paired.context jobId hmemory).imp_right fun hpending =>
        hpending.update (fun task htask => (hfree task htask).elim) _
    · refine forall_update h.tasks fun task htask => ?_
      cases htask
      rfl
  · rintro id input ⟨rest, sections⟩ rfl hid
    have hown : InTurn c.shared.manager c.tasks rest := hturn _ hid
    refine ⟨?_, ?_, sect_ended input (h.tasks id _ hid) hown h.ended⟩
    · show Paired (c.shared.sect ⟨rest, sections⟩ input).1.manager
        (update c.tasks id (c.shared.sect ⟨rest, sections⟩ input).2)
      rw [sect_manager, sect_next]
      exact h.paired.of_section hid hown (act_section _ _ _) _
    · exact forall_update h.tasks (sect_taskKept c.shared ⟨rest, sections⟩ input)

/-- If the second sections of the calls come in turn, contexts and memories agree in every
state without calls under way, and a removal that failed has changed nothing. -/
theorem run_agrees (maxJobs : Nat) {labels : List Label}
    (hturn : Guarded step SectionsInTurn (start maxJobs) labels) (pre : List Label)
    (hpre : pre <+: labels) : Agrees (run step (start maxJobs) pre) :=
  (invariant_reached step_kept (start_kept maxJobs) hturn hpre).agrees

/-- The job is removed before its memory is written, and the memory is written before
the removal comes to take it. -/
def removedInTurn : List Label :=
  [.start 0 (.createJob "alice" "job" ""), .start 1 (.removeJob "a"),
   .advance 0 { newId := "a" }, .advance 1 {}, .advance 0 {}, .advance 1 {}]

theorem removedInTurn_agrees : Agrees (run step (start 1) removedInTurn) := by
  refine run_agrees 1 ?_ removedInTurn (prefix_refl _)
  refine ⟨trivial, trivial, ?_, ?_, ?_, ?_, trivial⟩
  · intro task htask
    cases htask
    trivial
  · intro task htask
    cases htask
    trivial
  · intro task htask
    cases htask
    exact .inr ⟨1, _, rfl, _, rfl⟩
  · intro task htask
    cases htask
    exact ⟨by decide, fun hctx => absurd hctx (by decide)⟩

def removedTooSoon : List Label :=
  [.start 0 (.createJob "alice" "job" ""), .start 1 (.removeJob "a"),
   .advance 0 { newId := "a" }, .advance 1 {}, .advance 1 {}, .advance 0 {}]

theorem removedTooSoon_quiet : Quiet (run step (start 1) removedTooSoon) := by
  intro id
  by_cases h0 : id = 0
  · subst h0
    rfl
  by_cases h1 : id = 1
  · subst h1
    rfl
  refine run_tasks_of_ne ?_
  simp [removedTooSoon, Interleave.Label.of, h0, h1]

/-- The job has a memory and no context, and the removal that failed has taken the
context. -/
theorem removedTooSoon_disagrees :
    "a" ∉ (run step (start 1) removedTooSoon).shared.manager.contexts
      ∧ "a" ∈ (run step (start 1) removedTooSoon).shared.manager.memories
      ∧ (∃ call ∈ (run step (start 1) removedTooSoon).shared.ended,
          call.RemovalFailed ∧ ¬ call.ChangedNothing)
      ∧ ¬ Agrees (run step (start 1) removedTooSoon) := by
  have hcontext : "a" ∉ (run step (start 1) removedTooSoon).shared.manager.contexts := by decide
  have hmemory : "a" ∈ (run step (start 1) removedTooSoon).shared.manager.memories := by decide
  refine ⟨hcontext, hmemory, ?_, fun h => ?_⟩
  · refine ⟨_, mem_cons_self, ⟨_, rfl⟩, fun hnothing => ?_⟩
    have htaken := congrArg (fun m => (m.contexts.lookup "a").isSome) (hnothing _ mem_cons_self)
    revert htaken
    decide
  · exact hcontext ((h.1 removedTooSoon_quiet "a").mpr hmemory)

end ManagerLog

end TitanClaw.Context
