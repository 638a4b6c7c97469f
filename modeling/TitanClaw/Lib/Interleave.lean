import Mathlib.Logic.Function.Basic
import TitanClaw.Lib.Run

/-! # Interleaved calls

Calls that run at the same time over a shared state. A call is a sequence of
sections, each of them atomic; between two sections the other calls go on. A task
says what is left of a call, at first all of it, and a section takes it, with some
input from outside, to what is left then, or to nothing. -/

namespace Interleave

open List Option Function Run Prod

variable {σ κ τ ι : Type*}

/-- The shared state, and the calls under way by their numbers. -/
structure Config (σ τ : Type*) where
  shared : σ
  tasks : Nat → Option τ := fun _ => none

inductive Label (κ ι : Type*) where
  | start (id : Nat) (call : κ)
  | advance (id : Nat) (input : ι)

/-- The call that moves. -/
def Label.of : Label κ ι → Nat
  | .start id _ => id
  | .advance id _ => id

variable (whole : κ → τ) (sect : σ → τ → ι → σ × Option τ)

/-- A call starts under a number that is not in use, or one takes its next section. -/
def step (c : Config σ τ) : Label κ ι → Config σ τ
  | .start id call =>
      if (c.tasks id).isSome then c
      else { c with tasks := update c.tasks id (some (whole call)) }
  | .advance id input =>
      match c.tasks id with
      | none => c
      | some task =>
          { shared := (sect c.shared task input).1
            tasks := update c.tasks id (sect c.shared task input).2 }

/-- No call is under way. -/
def Quiet (c : Config σ τ) : Prop := ∀ id, c.tasks id = none

variable {whole sect} {c : Config σ τ} {id : Nat} {call : κ} {task : τ} {input : ι}

theorem step_start (h : c.tasks id = none) :
    step whole sect c (.start id call)
      = { c with tasks := update c.tasks id (some (whole call)) } := by
  simp [step, h]

theorem step_start_of_used {other : τ} (h : c.tasks id = some other) :
    step whole sect c (.start id call) = c := by
  simp [step, h]

theorem step_advance (h : c.tasks id = some task) :
    step whole sect c (.advance id input)
      = { shared := (sect c.shared task input).1
          tasks := update c.tasks id (sect c.shared task input).2 } := by
  simp [step, h]

theorem step_advance_of_none (h : c.tasks id = none) :
    step whole sect c (.advance id input) = c := by
  simp [step, h]

/-- A step changes nothing, or starts a call, or is a section of one. -/
theorem step_cases {motive : Config σ τ → Prop} (c : Config σ τ) (label : Label κ ι)
    (same : motive c) (start : ∀ id call, label = .start id call → c.tasks id = none →
      motive { c with tasks := update c.tasks id (some (whole call)) })
    (advance : ∀ id input task, label = .advance id input → c.tasks id = some task →
      motive { shared := (sect c.shared task input).1
               tasks := update c.tasks id (sect c.shared task input).2 }) :
    motive (step whole sect c label) := by
  cases label with
  | start id call =>
    cases hid : c.tasks id with
    | some => rwa [step_start_of_used hid]
    | none =>
      rw [step_start hid]
      exact start id call rfl hid
  | advance id input =>
    cases hid : c.tasks id with
    | none => rwa [step_advance_of_none hid]
    | some task =>
      rw [step_advance hid]
      exact advance id input task rfl hid

theorem step_tasks_of_ne {label : Label κ ι} (h : id ≠ label.of) :
    (step whole sect c label).tasks id = c.tasks id := by
  refine step_cases (motive := fun after => after.tasks id = c.tasks id) c label rfl ?_ ?_
  · rintro other call rfl -
    exact update_of_ne h _ _
  · rintro other input task rfl -
    exact update_of_ne h _ _

variable {labels : List (Label κ ι)}

theorem run_tasks_of_ne (h : ∀ label ∈ labels, id ≠ label.of) :
    (run (step whole sect) c labels).tasks id = c.tasks id := by
  induction labels generalizing c with
  | nil => rfl
  | cons _ _ ih =>
    obtain ⟨hfirst, hrest⟩ := forall_mem_cons.mp h
    rw [run_cons, ih hrest, step_tasks_of_ne hfirst]

/-! ## Calls under way -/

variable (P : τ → Prop) (tasks : Nat → Option τ)

/-- Some call under way is at a point like this. -/
def Pending : Prop := ∃ id task, tasks id = some task ∧ P task

theorem Quiet.not_pending (h : Quiet c) (P : τ → Prop) : ¬ Pending P c.tasks := by
  rintro ⟨id, task, htask, -⟩
  rw [h id] at htask
  cases htask

variable {P}

/-- The call that moves is now at such a point. -/
theorem pending_own (id : Nat) (h : P task) : Pending P (update tasks id (some task)) :=
  ⟨id, task, update_self id _ tasks, h⟩

/-- A call at such a point stays there while another one moves. -/
theorem Pending.update {P : τ → Prop} {tasks : Nat → Option τ} (h : Pending P tasks)
    (hid : ∀ task, tasks id = some task → ¬ P task) (next : Option τ) :
    Pending P (update tasks id next) := by
  obtain ⟨other, task, htask, hP⟩ := h
  refine ⟨other, task, ?_, hP⟩
  rw [update_of_ne, htask]
  rintro rfl
  exact hid task htask hP

variable {tasks} {next : Option τ}

/-- The points of the other calls are not lost when one call moves. -/
theorem pending_of_other (hid : tasks id = some task) (hown : ¬ P task) (h : Pending P tasks) :
    Pending P (update tasks id next) := by
  refine h.update (fun task' htask' hP => hown ?_) next
  rw [hid] at htask'
  cases htask'
  exact hP

theorem pending_of_start
    (hid : tasks id = none) (h : Pending P tasks) : Pending P (update tasks id next) :=
  h.update (fun task htask => by rw [hid] at htask; cases htask) next

/-- The shared state satisfies `Inv`, and each task under way `TaskInv`. -/
structure Holds (Inv : σ → Prop) (TaskInv : σ → τ → Prop) (c : Config σ τ) : Prop where
  shared : Inv c.shared
  tasks : ∀ id task, c.tasks id = some task → TaskInv c.shared task

/-- After one task has moved, a fact about all tasks is one about what is left of it,
and one about the others. -/
theorem forall_update (hothers : ∀ other task, tasks other = some task → P task)
    (hown : ∀ task, next = some task → P task) (other : Nat) (task : τ)
    (h : update tasks id next other = some task) : P task := by
  by_cases hother : other = id
  · rw [hother, update_self] at h
    exact hown task h
  · rw [update_of_ne hother] at h
    exact hothers other task h

variable {Inv : σ → Prop} {TaskInv : σ → τ → Prop}

/-- What a task needs holds when it starts, its own section brings about what it
needs next, and the sections of the others do not take it away. -/
theorem holds_step {guard : Config σ τ → Label κ ι → Prop}
    (hstart : ∀ c id call, Holds Inv TaskInv c → guard c (.start id call) →
      TaskInv c.shared (whole call))
    (hsection : ∀ c id task input, Holds Inv TaskInv c → c.tasks id = some task →
      guard c (.advance id input) →
        Inv (sect c.shared task input).1
          ∧ (∀ next, (sect c.shared task input).2 = some next →
              TaskInv (sect c.shared task input).1 next)
          ∧ ∀ other, TaskInv c.shared other → TaskInv (sect c.shared task input).1 other)
    (c : Config σ τ) (label : Label κ ι) (h : Holds Inv TaskInv c) (hguard : guard c label) :
    Holds Inv TaskInv (step whole sect c label) := by
  refine step_cases c label h ?_ ?_
  · rintro id call rfl -
    refine ⟨h.shared, forall_update h.tasks fun task htask => ?_⟩
    cases htask
    exact hstart c id call h hguard
  · rintro id input task rfl hid
    obtain ⟨hinv, hown, hothers⟩ := hsection c id task input h hid hguard
    exact ⟨hinv, forall_update (fun other task' htask' =>
      hothers task' (h.tasks other task' htask')) hown⟩

theorem holds_step_always (hstart : ∀ s call, Inv s → TaskInv s (whole call))
    (hsection : ∀ s task input, Inv s → TaskInv s task →
      Inv (sect s task input).1
        ∧ (∀ next, (sect s task input).2 = some next → TaskInv (sect s task input).1 next)
        ∧ ∀ other, TaskInv s other → TaskInv (sect s task input).1 other)
    (c : Config σ τ) (label : Label κ ι) (h : Holds Inv TaskInv c) :
    Holds Inv TaskInv (step whole sect c label) := by
  let guard (_ : Config σ τ) (_ : Label κ ι) : Prop := True
  have hstep : ∀ (c : Config σ τ) (label : Label κ ι), Holds Inv TaskInv c → guard c label →
      Holds Inv TaskInv (step whole sect c label) :=
    holds_step (fun c _ call h _ => hstart c.shared call h.shared)
      fun c id task input h htask _ => hsection c.shared task input h.shared (h.tasks id task htask)
  exact hstep c label h trivial

variable (allowed : σ → τ → ι → Prop)

def Sections (c : Config σ τ) : Label κ ι → Prop
  | .start _ _ => True
  | .advance id input => ∀ task, c.tasks id = some task → allowed c.shared task input

instance sectionsDecidable (allowed : σ → τ → ι → Prop)
    [∀ s task input, Decidable (allowed s task input)] (c : Config σ τ) :
    (label : Label κ ι) → Decidable (Sections allowed c label)
  | .start _ _ => .isTrue trivial
  | .advance id input =>
      match hid : c.tasks id with
      | none => .isTrue fun task htask => by rw [hid] at htask; cases htask
      | some task =>
          decidable_of_iff (allowed c.shared task input)
            ⟨fun h task' htask' => by rw [hid] at htask'; cases htask'; exact h,
              fun h => h task hid⟩

variable {allowed}

/-- The shared state keeps `P` in a step exactly if the section that is taken keeps it. -/
theorem shared_step_iff {P : σ → Prop} (h : P c.shared)
    (hsect : ∀ id task input, c.tasks id = some task →
      (P (sect c.shared task input).1 ↔ allowed c.shared task input)) (label : Label κ ι) :
    P (step whole sect c label).shared ↔ Sections allowed c label := by
  cases label with
  | start id =>
    refine iff_of_true ?_ trivial
    cases hid : c.tasks id with
    | some => rwa [step_start_of_used hid]
    | none => rwa [step_start hid]
  | advance id input =>
    cases hid : c.tasks id with
    | none =>
      rw [step_advance_of_none hid]
      exact iff_of_true h fun task htask => by rw [hid] at htask; cases htask
    | some task =>
      rw [step_advance hid, hsect id task input hid]
      simp only [Sections, hid, Option.some.injEq, forall_eq']

/-- Where `allowed` is what a section needs to keep `P`, and no less, as long as what holds
whatever the sections do holds, `P` holds in every state of a run exactly if each section is
allowed. -/
theorem reached_shared_iff {P : σ → Prop}
    (hkeeps : ∀ (c : Config σ τ) (label : Label κ ι), Holds Inv TaskInv c →
      Holds Inv TaskInv (step whole sect c label))
    (hsect : ∀ s task input, Inv s → TaskInv s task → P s →
      (P (sect s task input).1 ↔ allowed s task input))
    (h : Holds Inv TaskInv c) (hP : P c.shared) :
    (∀ pre, pre <+: labels → P (run (step whole sect) c pre).shared)
      ↔ Guarded (step whole sect) (Sections allowed) c labels := by
  have hstep : ∀ (c : Config σ τ) (label : Label κ ι), Holds Inv TaskInv c → P c.shared →
      (P (step whole sect c label).shared ↔ Sections allowed c label) :=
    fun c label hholds hP => shared_step_iff hP (fun id task input hid =>
      hsect c.shared task input hholds.shared (hholds.tasks id task hid) hP) label
  exact reached_iff_guarded_of_aux hkeeps hstep h hP

section Emits

variable {β : Type*} (emits : σ → τ → ι → List β)

/-- What a step gives out is what its section gives out. -/
def emitted (c : Config σ τ) : Label κ ι → List β
  | .start _ _ => []
  | .advance id input => (c.tasks id).elim [] fun task => emits c.shared task input

variable {emits} {P : σ → List β → Prop}

/-- The shared state and the log keep `P` in a step exactly if the section keeps it. -/
theorem log_step_iff
    {allowed : σ → τ → ι → Prop} {log : List β} (h : P c.shared log) (hsect : ∀ task input,
      P (sect c.shared task input).1 (log ++ emits c.shared task input)
        ↔ allowed c.shared task input) (label : Label κ ι) :
    P (step whole sect c label).shared (log ++ emitted emits c label)
      ↔ Sections allowed c label := by
  cases label with
  | start id =>
    refine iff_of_true ?_ trivial
    rw [emitted, append_nil]
    cases hid : c.tasks id with
    | some => rwa [step_start_of_used hid]
    | none => rwa [step_start hid]
  | advance id =>
    cases hid : c.tasks id with
    | none =>
      rw [step_advance_of_none hid, emitted, hid, elim_none, append_nil]
      exact iff_of_true h fun task htask => by rw [hid] at htask; cases htask
    | some =>
      rw [step_advance hid, emitted, hid, elim_some, hsect]
      simp only [Sections, hid, Option.some.injEq, forall_eq']

theorem log_step {log : List β} (h : P c.shared log)
    (hsect : ∀ task input, P (sect c.shared task input).1 (log ++ emits c.shared task input))
    (label : Label κ ι) : P (step whole sect c label).shared (log ++ emitted emits c label) := by
  let allowed (_ : σ) (_ : τ) (_ : ι) : Prop := True
  have hall : ∀ task input, P (sect c.shared task input).1 (log ++ emits c.shared task input)
      ↔ allowed c.shared task input := fun task input => iff_of_true (hsect task input) trivial
  refine (log_step_iff h hall label).mpr ?_
  cases label with
  | start => trivial
  | advance => exact fun _ _ => trivial

end Emits

/-! ## Accounting -/

def startedBy (c : Config σ τ) : Label κ ι → List κ
  | .start id call => if (c.tasks id).isSome then [] else [call]
  | .advance _ _ => []

variable (whole sect) in
def started : Config σ τ → List (Label κ ι) → List κ
  | _, [] => []
  | c, label :: labels => startedBy c label ++ started (step whole sect c label) labels

structure Lists (pending : List (Nat × τ)) (tasks : Nat → Option τ) : Prop where
  once : (pending.map fst).Nodup
  mem : ∀ id task, (id, task) ∈ pending ↔ tasks id = some task

variable {pending : List (Nat × τ)}

theorem Lists.quiet (h : Lists pending c.tasks) (hquiet : Quiet c) : pending = [] := by
  refine eq_nil_iff_forall_not_mem.mpr fun ⟨id, task⟩ hmem => ?_
  rw [h.mem, hquiet id] at hmem
  cases hmem

theorem Quiet.lists (h : Quiet c) : Lists [] c.tasks := ⟨nodup_nil, fun id task => by simp [h id]⟩

section

variable (h : Lists pending tasks)

include h

theorem Lists.not_mem (hid : tasks id = none) : id ∉ pending.map fst := by
  intro hmem
  obtain ⟨⟨other, task⟩, hpending, rfl⟩ := mem_map.mp hmem
  rw [(h.mem other task).mp hpending] at hid
  cases hid

theorem Lists.insert (hid : id ∉ pending.map fst) (task : τ) :
    Lists ((id, task) :: pending) (update tasks id (some task)) := by
  refine ⟨nodup_cons.mpr ⟨hid, h.once⟩, fun other task' => ?_⟩
  rw [mem_cons, h.mem, mk.injEq]
  by_cases hother : other = id
  · subst hother
    have hnone : tasks other ≠ some task' := fun hsome =>
      hid (mem_map.mpr ⟨(other, task'), (h.mem other task').mpr hsome, rfl⟩)
    rw [update_self, Option.some.injEq, eq_comm (a := task)]
    simp [hnone]
  · rw [update_of_ne hother]
    simp [hother]

/-- The calls without one of them. -/
theorem Lists.remove (hid : tasks id = some task) :
    ∃ rest, pending.Perm ((id, task) :: rest) ∧ id ∉ rest.map fst
      ∧ Lists rest (update tasks id none) := by
  obtain ⟨before, after, rfl⟩ := append_of_mem ((h.mem id task).mpr hid)
  have hperm : (before ++ (id, task) :: after).Perm ((id, task) :: (before ++ after)) := perm_middle
  have honce := (hperm.map fst).nodup_iff.mp h.once
  obtain ⟨hnot, hrest⟩ := nodup_cons.mp honce
  refine ⟨before ++ after, hperm, hnot, hrest, fun other task' => ?_⟩
  by_cases hother : other = id
  · subst hother
    rw [update_self]
    refine iff_of_false (fun hmem => hnot (mem_map.mpr ⟨_, hmem, rfl⟩)) ?_
    intro hnone
    cases hnone
  · rw [update_of_ne hother, ← h.mem, hperm.mem_iff, mem_cons, mk.injEq]
    simp [hother]

end

section Conserved

variable {γ : Type*} (record : σ → List γ) (owes : τ → List γ)

/-- A section records what its call no longer owes. -/
def Settles (sect : σ → τ → ι → σ × Option τ) : Prop :=
  ∀ s task input,
    (record (sect s task input).1 ++ (sect s task input).2.elim [] owes).Perm
      (record s ++ owes task)

variable {record owes}

variable (hsect : Settles record owes sect)

include hsect

theorem settles_step {pending : List (Nat × τ)} (h : Lists pending c.tasks) (label : Label κ ι) :
    ∃ pending', Lists pending' (step whole sect c label).tasks
      ∧ (record (step whole sect c label).shared ++ pending'.flatMap (owes ·.2)).Perm
        (record c.shared ++ pending.flatMap (owes ·.2)
          ++ (startedBy c label).flatMap fun call => owes (whole call)) := by
  cases label with
  | start id call =>
    cases hid : c.tasks id with
    | some =>
      rw [step_start_of_used hid]
      exact ⟨pending, h, by simp [startedBy, hid]⟩
    | none =>
      rw [step_start hid]
      refine ⟨(id, whole call) :: pending, h.insert (h.not_mem hid) _, ?_⟩
      simp only [startedBy, hid, isSome_none, Bool.false_eq_true, if_false,
        flatMap_cons, flatMap_nil, append_nil, append_assoc]
      exact perm_append_comm.append_left _
  | advance id input =>
    cases hid : c.tasks id with
    | none =>
      rw [step_advance_of_none hid]
      exact ⟨pending, h, by simp [startedBy]⟩
    | some task =>
      rw [step_advance hid]
      obtain ⟨rest, hperm, hnot, hrest⟩ := h.remove hid
      have hsettled := hsect c.shared task input
      have hbefore := hperm.flatMap_right (owes ·.2)
      simp only [startedBy, flatMap_nil, append_nil]
      cases hnext : (sect c.shared task input).2 with
      | none =>
        refine ⟨rest, hrest, ?_⟩
        rw [hnext] at hsettled
        refine Perm.trans ?_ (hbefore.symm.append_left _)
        simpa using hsettled.append_right (rest.flatMap (owes ·.2))
      | some next =>
        have hlists := hrest.insert hnot next
        rw [update_idem] at hlists
        refine ⟨(id, next) :: rest, hlists, ?_⟩
        rw [hnext] at hsettled
        refine Perm.trans ?_ (hbefore.symm.append_left _)
        simpa using hsettled.append_right (rest.flatMap (owes ·.2))

theorem settles_run {pending : List (Nat × τ)}
    (h : Lists pending c.tasks) (labels : List (Label κ ι)) :
    ∃ pending', Lists pending' (run (step whole sect) c labels).tasks
      ∧ (record (run (step whole sect) c labels).shared ++ pending'.flatMap (owes ·.2)).Perm
        (record c.shared ++ pending.flatMap (owes ·.2)
          ++ (started whole sect c labels).flatMap fun call => owes (whole call)) := by
  induction labels generalizing c pending with
  | nil => exact ⟨pending, h, by simp [started]⟩
  | cons label _ ih =>
    obtain ⟨middle, hmiddle, hstep⟩ := settles_step hsect h label
    obtain ⟨last, hlast, hrun⟩ := ih hmiddle
    refine ⟨last, hlast, hrun.trans ?_⟩
    rw [started, flatMap_append, ← append_assoc]
    exact hstep.append_right _

/-- Once no call is under way, all that the calls owed is recorded. -/
theorem recorded_of_quiet (hstart : Quiet c)
    {labels : List (Label κ ι)} (hquiet : Quiet (run (step whole sect) c labels)) :
    (record (run (step whole sect) c labels).shared).Perm
      (record c.shared ++ (started whole sect c labels).flatMap fun call => owes (whole call)) := by
  obtain ⟨last, hlast, hrun⟩ := settles_run hsect hstart.lists labels
  rw [hlast.quiet hquiet] at hrun
  simpa using hrun

end Conserved

/-- No call is under way if none of those that moved is. -/
theorem quiet_run (hstart : Quiet c)
    (h : ∀ label ∈ labels, (run (step whole sect) c labels).tasks label.of = none) :
    Quiet (run (step whole sect) c labels) := by
  intro id
  by_cases hid : ∃ label ∈ labels, label.of = id
  · obtain ⟨label, hlabel, rfl⟩ := hid
    exact h label hlabel
  · rw [run_tasks_of_ne fun label hlabel heq => hid ⟨label, hlabel, heq.symm⟩]
    exact hstart id

end Interleave
