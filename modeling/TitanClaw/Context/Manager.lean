import TitanClaw.Context.State
import TitanClaw.Lib.Interleave
import TitanClaw.Lib.Table

/-! # The context manager

Two maps under two locks, one of contexts and one of memories, both by job id. A
call that touches both takes the locks one after the other, never together, so it is
two sections, and other calls run in between. Creating a job checks the limit and
inserts the context in one section. -/

namespace TitanClaw.Context

structure Memory where
  jobId : String

inductive JobError where
  | notFound (id : String)
  | maxJobsExceeded (max : Nat)
  | contextError (id reason : String)

/-- Whether the memory is to be put in place of an old one. -/
inductive MemoryWrite where
  | insert
  | orInsert

structure ContextManager where
  contexts : Table String JobContext := ∅
  memories : Table String Memory := ∅
  maxJobs : Nat

namespace ContextManager

variable (m : ContextManager)

def activeCount : Nat := m.contexts.count fun ctx => ctx.state.isActive

variable (jobId : String)

def insertContext (ctx : JobContext) : Except JobError Unit × ContextManager :=
  if m.activeCount ≥ m.maxJobs then (.error (.maxJobsExceeded m.maxJobs), m)
  else (.ok (), { m with contexts := m.contexts.insert jobId ctx })

def registerContext (userId jobId : String) (ctx : JobContext) :
    Except JobError MemoryWrite × ContextManager :=
  match m.contexts.lookup jobId with
  | some existing =>
      if existing.userId = userId then (.ok .orInsert, m)
      else (.error (.contextError jobId "job ID already belongs to a different user"), m)
  | none =>
      match m.insertContext jobId ctx with
      | (.ok _, m') => (.ok .insert, m')
      | (.error e, m') => (.error e, m')

def updateContext (f : JobContext → JobContext) : Except JobError Unit × ContextManager :=
  match m.contexts.lookup jobId with
  | none => (.error (.notFound jobId), m)
  | some ctx => (.ok (), { m with contexts := m.contexts.insert jobId (f ctx) })

def removeContext : Except JobError JobContext × ContextManager :=
  match m.contexts.lookup jobId with
  | none => (.error (.notFound jobId), m)
  | some ctx => (.ok ctx, { m with contexts := m.contexts.erase jobId })

def writeMemory : MemoryWrite → ContextManager
  | .insert => { m with memories := m.memories.insert jobId ⟨jobId⟩ }
  | .orInsert =>
      if (m.memories.lookup jobId).isSome then m
      else { m with memories := m.memories.insert jobId ⟨jobId⟩ }

def removeMemory : Except JobError Memory × ContextManager :=
  match m.memories.lookup jobId with
  | none => (.error (.notFound jobId), m)
  | some memory => (.ok memory, { m with memories := m.memories.erase jobId })

theorem writeMemory_eq (write : MemoryWrite) :
    m.writeMemory jobId write = { m with memories := (m.writeMemory jobId write).memories } := by
  cases write with
  | insert => rfl
  | orInsert =>
    by_cases hmemory : (m.memories.lookup jobId).isSome = true
    · rw [writeMemory, if_pos hmemory]
    · rw [writeMemory, if_neg hmemory]

theorem mem_writeMemory (jobId jobId' : String) (write : MemoryWrite) :
    jobId' ∈ (m.writeMemory jobId write).memories ↔ jobId' = jobId ∨ jobId' ∈ m.memories := by
  cases write with
  | insert => exact AList.mem_insert m.memories
  | orInsert =>
    by_cases hmemory : (m.memories.lookup jobId).isSome = true
    · rw [writeMemory, if_pos hmemory]
      refine ⟨.inr, ?_⟩
      rintro (rfl | hmem)
      · exact AList.lookup_isSome.mp hmemory
      · exact hmem
    · rw [writeMemory, if_neg hmemory]
      exact AList.mem_insert m.memories

end ContextManager

/-! ## Calls -/

inductive Call where
  | createJob (userId title description : String)
  | registerJob (userId jobId title description : String)
  | updateContext (jobId : String) (f : JobContext → JobContext)
  | removeJob (jobId : String)

inductive CallResult where
  | created (result : Except JobError String)
  | registered (result : Except JobError Unit)
  | updated (result : Except JobError Unit)
  | removed (result : Except JobError (JobContext × Memory))

def Call.isUpdate : Call → Bool
  | .updateContext _ _ => true
  | _ => false

def CallResult.isRemoval : CallResult → Bool
  | .removed _ => true
  | _ => false

/-- What is left of a call. -/
inductive Rest where
  | whole (call : Call)
  /-- The memory is still to be written, and then `result` is returned. -/
  | writeMemory (jobId : String) (write : MemoryWrite) (result : CallResult)
  /-- The context has been taken out, the memory not yet. -/
  | removeMemory (jobId : String) (ctx : JobContext)

/-- What a section needs from outside: a new id and the time. -/
structure SectionInput where
  newId : String := ""
  now : Int := 0

namespace ContextManager

/-- One section, and what is left of the call or its result. -/
def act (m : ContextManager) (rest : Rest) (input : SectionInput) :
    ContextManager × (Rest ⊕ CallResult) :=
  match rest with
  | .whole (.createJob userId title description) =>
      let ctx := JobContext.withUser input.newId input.now userId title description
      match m.insertContext ctx.jobId ctx with
      | (.ok _, m') => (m', .inl (.writeMemory ctx.jobId .insert (.created (.ok ctx.jobId))))
      | (.error e, m') => (m', .inr (.created (.error e)))
  | .whole (.registerJob userId jobId title description) =>
      let ctx :=
        { JobContext.withUser input.newId input.now userId title description with jobId }
      match m.registerContext userId jobId ctx with
      | (.ok write, m') => (m', .inl (.writeMemory jobId write (.registered (.ok ()))))
      | (.error e, m') => (m', .inr (.registered (.error e)))
  | .whole (.updateContext jobId f) =>
      let (result, m') := m.updateContext jobId f
      (m', .inr (.updated result))
  | .whole (.removeJob jobId) =>
      match m.removeContext jobId with
      | (.ok ctx, m') => (m', .inl (.removeMemory jobId ctx))
      | (.error e, m') => (m', .inr (.removed (.error e)))
  | .writeMemory jobId write result => (m.writeMemory jobId write, .inr result)
  | .removeMemory jobId ctx =>
      let (memory, m') := m.removeMemory jobId
      (m', .inr (.removed (memory.map fun memory => (ctx, memory))))

inductive Section (m : ContextManager) : Rest → ContextManager → Rest ⊕ CallResult → Prop where
  /-- The job is not created, for one reason or another. -/
  | refused {call : Call} {result : CallResult} (hcall : call.isUpdate = false) :
      Section m (.whole call) m (.inr result)
  /-- A job with a context of its own. -/
  | placed {call : Call} {jobId : String} {ctx : JobContext} {write : MemoryWrite}
      {result : CallResult} (hcall : call.isUpdate = false)
      (hroom : m.activeCount < m.maxJobs) (hresult : result.isRemoval = false) :
      Section m (.whole call) { m with contexts := m.contexts.insert jobId ctx }
        (.inl (.writeMemory jobId write result))
  /-- The job is registered already, by the same user. -/
  | present {call : Call} {jobId : String} {ctx : JobContext} {write : MemoryWrite}
      {result : CallResult} (hcall : call.isUpdate = false)
      (hctx : m.contexts.lookup jobId = some ctx) (hresult : result.isRemoval = false) :
      Section m (.whole call) m (.inl (.writeMemory jobId write result))
  | updated {jobId : String} {f : JobContext → JobContext} {ctx : JobContext}
      (hctx : m.contexts.lookup jobId = some ctx) :
      Section m (.whole (.updateContext jobId f))
        { m with contexts := m.contexts.insert jobId (f ctx) } (.inr (.updated (.ok ())))
  | notUpdated {jobId : String} {f : JobContext → JobContext} {e : JobError}
      (hctx : m.contexts.lookup jobId = none) :
      Section m (.whole (.updateContext jobId f)) m (.inr (.updated (.error e)))
  /-- The first half of a removal. -/
  | taken {jobId : String} {ctx : JobContext} (hctx : m.contexts.lookup jobId = some ctx) :
      Section m (.whole (.removeJob jobId)) { m with contexts := m.contexts.erase jobId }
        (.inl (.removeMemory jobId ctx))
  | wrote {jobId : String} {write : MemoryWrite} {result : CallResult} :
      Section m (.writeMemory jobId write result) (m.writeMemory jobId write) (.inr result)
  /-- The second half, when it goes well. -/
  | memoryTaken {jobId : String} {ctx : JobContext} {memory : Memory}
      (hmemory : m.memories.lookup jobId = some memory) :
      Section m (.removeMemory jobId ctx) { m with memories := m.memories.erase jobId }
        (.inr (.removed (.ok (ctx, memory))))
  | memoryMissing {jobId : String} {ctx : JobContext} {e : JobError}
      (hmemory : m.memories.lookup jobId = none) :
      Section m (.removeMemory jobId ctx) m (.inr (.removed (.error e)))

theorem act_section (m : ContextManager) (rest : Rest) (input : SectionInput) :
    Section m rest (m.act rest input).1 (m.act rest input).2 := by
  cases rest with
  | whole call =>
    cases call with
    | createJob =>
      by_cases hroom : m.activeCount ≥ m.maxJobs
      · simp only [act, insertContext, if_pos hroom]
        exact .refused rfl
      · simp only [act, insertContext, if_neg hroom]
        exact .placed rfl (Nat.lt_of_not_le hroom) rfl
    | registerJob userId jobId =>
      cases hctx : m.contexts.lookup jobId with
      | some existing =>
        by_cases huser : existing.userId = userId
        · simp only [act, registerContext, hctx, if_pos huser]
          exact .present rfl hctx rfl
        · simp only [act, registerContext, hctx, if_neg huser]
          exact .refused rfl
      | none =>
        by_cases hroom : m.activeCount ≥ m.maxJobs
        · simp only [act, registerContext, hctx, insertContext, if_pos hroom]
          exact .refused rfl
        · simp only [act, registerContext, hctx, insertContext, if_neg hroom]
          exact .placed rfl (Nat.lt_of_not_le hroom) rfl
    | updateContext jobId =>
      cases hctx : m.contexts.lookup jobId with
      | none =>
        simp only [act, updateContext, hctx]
        exact .notUpdated hctx
      | some =>
        simp only [act, updateContext, hctx]
        exact .updated hctx
    | removeJob jobId =>
      cases hctx : m.contexts.lookup jobId with
      | none =>
        simp only [act, removeContext, hctx]
        exact .refused rfl
      | some =>
        simp only [act, removeContext, hctx]
        exact .taken hctx
  | writeMemory => exact .wrote
  | removeMemory jobId =>
    cases hmemory : m.memories.lookup jobId with
    | none =>
      simp only [act, removeMemory, hmemory]
      exact .memoryMissing hmemory
    | some =>
      simp only [act, removeMemory, hmemory]
      exact .memoryTaken hmemory

end ContextManager

/-- A call under way. What it found and left in each of its sections so far is a
record that no section reads. -/
structure Task where
  rest : Rest
  sections : List (ContextManager × ContextManager) := []

structure EndedCall where
  result : CallResult
  sections : List (ContextManager × ContextManager)

structure ManagerLog where
  manager : ContextManager
  ended : List EndedCall := []

namespace ManagerLog

def sect (s : ManagerLog) (task : Task) (input : SectionInput) : ManagerLog × Option Task :=
  let (m, next) := s.manager.act task.rest input
  let sections := task.sections ++ [(s.manager, m)]
  match next with
  | .inl rest => ({ s with manager := m }, some ⟨rest, sections⟩)
  | .inr result => ({ manager := m, ended := s.ended ++ [⟨result, sections⟩] }, none)

abbrev Config := Interleave.Config ManagerLog Task

abbrev Label := Interleave.Label Call SectionInput

/-- A call starts, or one that is under way goes through its next section. -/
def step : Config → Label → Config := Interleave.step (fun call => ⟨.whole call, []⟩) sect

/-- A new manager. -/
def start (maxJobs : Nat) : Config := { shared := { manager := { maxJobs } } }

theorem sect_manager (s : ManagerLog) (task : Task) (input : SectionInput) :
    (s.sect task input).1.manager = (s.manager.act task.rest input).1 := by
  unfold sect
  rcases s.manager.act task.rest input with ⟨m, rest | result⟩ <;> rfl

end ManagerLog

end TitanClaw.Context
