import Mathlib.Data.List.Perm.Subperm
import TitanClaw.Swarm.Node

/-! # Tasks seen before

A node remembers the tasks it has accepted, for a time and up to a number. What it forgets early
it would accept again, so the two limits have to go together: as long as no more tasks are
accepted within the time than are remembered, nothing is forgotten early. -/

namespace TitanClaw.Swarm

open List AList Run Table

/-- A task comes over the network; the order is that of the map at the time. -/
structure Arrival where
  task : SwarmTask
  order : Iteration String Nat
  now : Nat

/-- What the node remembers, and a record that no step reads: what it has accepted, the latest
first. -/
structure Intake where
  seenTasks : Table String Nat := ∅
  accepted : List Arrival := []

namespace Intake

def receive (nodeId : String) (s : Intake) (a : Arrival) : Intake :=
  let (accepted, seenTasks) := shouldAcceptIncomingTask nodeId a.task s.seenTasks a.order a.now
  { seenTasks, accepted := if accepted then a :: s.accepted else s.accepted }

def after (nodeId : String) (arrivals : List Arrival) : Intake := run (receive nodeId) {} arrivals

end Intake

def arrivals (steps : List SwarmStep) : List Arrival :=
  steps.filterMap fun
    | .receive task order now => some ⟨task, order, now⟩
    | .handle .. => none

namespace SwarmNode

/-- The node remembers what its intake does, and of the tasks accepted each one waits or has its
one result. -/
structure Tracks (nodeId : String) (s : SwarmNode) (intake : Intake) : Prop where
  node : s.nodeId = nodeId
  seenTasks : s.seenTasks = intake.seenTasks
  tasks : (s.incoming.map (·.id) ++ s.published.map (·.taskId)).Perm
    (intake.accepted.map (·.task.id))

variable {D : Agent.Deps} {nodeId : String} {s : SwarmNode} {intake : Intake}

theorem Tracks.receive (h : Tracks nodeId s intake) (a : Arrival) :
    Tracks nodeId (s.step D (.receive a.task a.order a.now)) (intake.receive nodeId a) := by
  simp only [step, Intake.receive, h.node, h.seenTasks]
  refine ⟨rfl, rfl, ?_⟩
  dsimp only
  split
  · rw [map_append, append_assoc]
    exact perm_middle.trans (h.tasks.cons _)
  · exact h.tasks

theorem Tracks.handle (h : Tracks nodeId s intake) (pos : Nat) (env : SwarmEnv) :
    Tracks nodeId (s.step D (.handle pos env)) intake := by
  simp only [step]
  split
  · exact h
  next task htask =>
  obtain ⟨hpos, rfl⟩ := List.getElem?_eq_some_iff.mp htask
  have hids := (getElem_cons_eraseIdx_perm hpos).map (·.id)
  have htasks := perm_middle.trans ((hids.append_right _).trans h.tasks)
  unfold handleTask
  split
  · exact ⟨h.node, h.seenTasks, htasks⟩
  next tool _ =>
  refine ⟨h.node, h.seenTasks, ?_⟩
  cases finishTask D env s.incoming[pos] tool <;> exact htasks

/-- **No task is lost and none has two results** while the channels are open and no tool panics,
whatever comes over the network and in whatever order the handlers run. -/
theorem run_tracks (D : Agent.Deps) (nodeId : String) (steps : List SwarmStep) :
    Tracks nodeId (run (step D) { nodeId } steps) (Intake.after nodeId (arrivals steps)) := by
  suffices hrun : ∀ s intake, Tracks nodeId s intake → Tracks nodeId (run (step D) s steps)
      (run (Intake.receive nodeId) intake (arrivals steps)) from
    hrun _ _ ⟨rfl, rfl, .refl _⟩
  induction steps with
  | nil => exact fun _ _ h => h
  | cons event _ ih =>
    intro s intake h
    cases event with
    | receive task order now => exact ih _ _ (h.receive ⟨task, order, now⟩)
    | handle pos env => exact ih _ _ (h.handle pos env)

end SwarmNode

/-! ## One arrival -/

section

variable {order : Iteration String Nat} {seenTasks : Table String Nat}

/-- The keys of the entries that are dropped. -/
theorem trimOldest_eq (order : Iteration String Nat) (h : seenTaskMax < seenTasks.entries.length) :
    ∃ ks, ks.Nodup ∧ (∀ k ∈ ks, k ∈ seenTasks)
      ∧ ks.length = seenTasks.entries.length - seenTaskMax
      ∧ trimOldest order seenTasks = seenTasks.eraseKeys ks := by
  let sorted := (order.order seenTasks.entries).insertionSort fun a b => a.2 ≤ b.2
  have hperm : sorted.Perm seenTasks.entries := (perm_insertionSort _ _).trans (order.perm _)
  have hkeys : (sorted.map Sigma.fst).Perm seenTasks.keys := hperm.map Sigma.fst
  refine ⟨(sorted.map Sigma.fst).take (seenTasks.entries.length - seenTaskMax), ?_, ?_, ?_, ?_⟩
  · exact (hkeys.nodup_iff.mpr seenTasks.keys_nodup).sublist (take_sublist _ _)
  · intro k hk
    exact mem_keys.mpr (hkeys.mem_iff.mp (mem_of_mem_take hk))
  · rw [length_take, length_map, hperm.length_eq]
    omega
  · rw [trimOldest, if_pos h, eraseKeys, ← map_take, foldl_map]

theorem trimOldest_of_le (h : seenTasks.entries.length ≤ seenTaskMax) :
    trimOldest order seenTasks = seenTasks :=
  if_neg (Nat.not_lt.mpr h)

variable (order) (seenTasks)

theorem trimOldest_sub : Sub (trimOldest order seenTasks) seenTasks := by
  by_cases h : seenTaskMax < seenTasks.entries.length
  · obtain ⟨ks, -, -, -, heq⟩ := trimOldest_eq order h
    rw [heq]
    exact eraseKeys_sub ks seenTasks
  · rw [trimOldest_of_le (Nat.not_lt.mp h)]
    exact Sub.refl seenTasks

theorem length_trimOldest : (trimOldest order seenTasks).entries.length ≤ seenTaskMax := by
  by_cases h : seenTaskMax < seenTasks.entries.length
  · obtain ⟨ks, hnodup, hmem, hlength, heq⟩ := trimOldest_eq order h
    have hleft := length_eraseKeys hnodup hmem
    rw [heq]
    omega
  · rw [trimOldest_of_le (Nat.not_lt.mp h)]
    exact Nat.not_lt.mp h

end

namespace Intake

variable {nodeId : String} {s : Intake} {a : Arrival}

/-- What is still remembered when the task comes. -/
def fresh (s : Intake) (a : Arrival) : Table String Nat :=
  s.seenTasks.retain fun _ seenAt => decide (a.now - seenAt < seenTaskTtl)

structure Accepts (nodeId : String) (s : Intake) (a : Arrival) : Prop where
  assigned : ∀ node, a.task.assigneeNode = some node → node = nodeId
  unseen : (trimOldest a.order (s.fresh a)).lookup a.task.id = none

variable (nodeId)

theorem receive_cases (s : Intake) (a : Arrival) :
    s.receive nodeId a = ⟨trimOldest a.order (s.fresh a), s.accepted⟩
      ∨ s.Accepts nodeId a ∧ s.receive nodeId a
        = ⟨(trimOldest a.order (s.fresh a)).insert a.task.id a.now, a :: s.accepted⟩ := by
  simp only [receive, shouldAcceptIncomingTask]
  split
  · exact .inl rfl
  next hassigned =>
  split
  · exact .inl rfl
  next hunseen =>
  refine .inr ⟨⟨fun node hnode => ?_, ?_⟩, rfl⟩
  · rw [hnode] at hassigned
    simpa using hassigned
  · exact Option.not_isSome_iff_eq_none.mp hunseen

theorem fresh_sub (s : Intake) (a : Arrival) : Sub (s.fresh a) s.seenTasks := retain_sub _ _

theorem length_receive (s : Intake) (a : Arrival) :
    (s.receive nodeId a).seenTasks.entries.length ≤ seenTaskMax + 1 := by
  have htrim := length_trimOldest a.order (s.fresh a)
  rcases receive_cases nodeId s a with heq | ⟨-, heq⟩
  · rw [heq]
    exact Nat.le_succ_of_le htrim
  · rw [heq]
    exact (length_insert_le _ _ _).trans (Nat.succ_le_succ htrim)

theorem length_after (arrivals : List Arrival) :
    (after nodeId arrivals).seenTasks.entries.length ≤ seenTaskMax + 1 := by
  have hstep : ∀ (s : Intake) a, s.seenTasks.entries.length ≤ seenTaskMax + 1 →
      (s.receive nodeId a).seenTasks.entries.length ≤ seenTaskMax + 1 :=
    fun s a _ => length_receive nodeId s a
  exact invariant_always hstep (Nat.zero_le _) arrivals

variable {nodeId}

/-- A task of another node is not accepted, and the map gets no entry for it. -/
theorem receive_of_other {node : String} (hnode : a.task.assigneeNode = some node)
    (hne : node ≠ nodeId) :
    (s.receive nodeId a).accepted = s.accepted
      ∧ Sub (s.receive nodeId a).seenTasks s.seenTasks := by
  rcases receive_cases nodeId s a with heq | ⟨haccepts, -⟩
  · rw [heq]
    exact ⟨rfl, (trimOldest_sub _ _).trans (fresh_sub s a)⟩
  · exact absurd (haccepts.assigned node hnode) hne

/-! ## What is remembered -/

def acceptedFrom (s : Intake) (start : Nat) : List Arrival :=
  s.accepted.filter fun a => decide (start ≤ a.now ∧ a.now < start + seenTaskTtl)

/-- Of two accepted tasks with one id, the later one came when the time was over. -/
def NoRepeat (s : Intake) : Prop :=
  s.accepted.Pairwise fun later earlier =>
    later.task.id = earlier.task.id → earlier.now + seenTaskTtl ≤ later.now

/-- What holds when the last arrival was at `now`: the map has what was accepted within the
time, and nothing that was not accepted. -/
structure Remembers (s : Intake) (now : Nat) : Prop where
  past : ∀ a ∈ s.accepted, a.now ≤ now
  kept : ∀ a ∈ s.accepted, now < a.now + seenTaskTtl → s.seenTasks.lookup a.task.id = some a.now
  owned : ∀ id seenAt, s.seenTasks.lookup id = some seenAt →
    ∃ a ∈ s.accepted, a.task.id = id ∧ a.now = seenAt
  noRepeat : s.NoRepeat

/-- Every entry that has not expired is of a task of its own. -/
theorem Remembers.length_fresh {now : Nat} (h : s.Remembers now) (hnow : now ≤ a.now) :
    (s.fresh a).entries.length ≤ (s.acceptedFrom (a.now + 1 - seenTaskTtl)).length := by
  let pairs := (s.fresh a).entries.map fun e => (e.1, e.2)
  let arrived := (s.acceptedFrom (a.now + 1 - seenTaskTtl)).map fun b => (b.task.id, b.now)
  have hnodup : pairs.Nodup := by
    refine Nodup.of_map Prod.fst ?_
    rw [map_map]
    exact (s.fresh a).keys_nodup
  have hsubset : pairs ⊆ arrived := by
    intro pair hpair
    obtain ⟨⟨id, seenAt⟩, hentry, rfl⟩ := mem_map.mp hpair
    have hlookup : (s.fresh a).lookup id = some seenAt := mem_lookup_iff.mpr hentry
    rw [fresh, lookup_retain, Option.filter_eq_some_iff, decide_eq_true_eq] at hlookup
    obtain ⟨b, hb, rfl, rfl⟩ := h.owned id seenAt hlookup.1
    have hpast := h.past b hb
    refine mem_map.mpr ⟨b, mem_filter.mpr ⟨hb, ?_⟩, rfl⟩
    simp only [decide_eq_true_eq]
    omega
  have hlength := (Nodup.subperm hnodup hsubset).length_le
  rwa [length_map, length_map] at hlength

/-- As long as no more tasks are accepted within the time than are remembered, nothing that is
still needed is dropped. -/
theorem Remembers.receive {now : Nat} (h : s.Remembers now) (hnow : now ≤ a.now)
    (hsparse : ∀ start, (s.acceptedFrom start).length ≤ seenTaskMax) :
    (s.receive nodeId a).Remembers a.now := by
  have hkeep : trimOldest a.order (s.fresh a) = s.fresh a :=
    trimOldest_of_le ((h.length_fresh hnow).trans (hsparse _))
  have hlookup : ∀ b ∈ s.accepted, a.now < b.now + seenTaskTtl →
      (s.fresh a).lookup b.task.id = some b.now := by
    intro b hb hlive
    have hbefore := h.kept b hb (hnow.trans_lt hlive)
    rw [fresh, lookup_retain, hbefore, Option.filter_eq_some_iff, decide_eq_true_eq]
    refine ⟨rfl, ?_⟩
    have := h.past b hb
    omega
  have howned : ∀ id seenAt, (s.fresh a).lookup id = some seenAt →
      ∃ b ∈ s.accepted, b.task.id = id ∧ b.now = seenAt :=
    fun id seenAt hid => h.owned id seenAt (fresh_sub s a id seenAt hid)
  have hpast : ∀ b ∈ s.accepted, b.now ≤ a.now := fun b hb => (h.past b hb).trans hnow
  rcases receive_cases nodeId s a with heq | ⟨haccepts, heq⟩
  · rw [heq, hkeep]
    exact ⟨hpast, hlookup, howned, h.noRepeat⟩
  · rw [heq, hkeep]
    have hunseen := haccepts.unseen
    rw [hkeep] at hunseen
    -- an earlier task with the id would still be in the map
    have hexpired : ∀ b ∈ s.accepted, a.task.id = b.task.id → b.now + seenTaskTtl ≤ a.now := by
      intro b hb hid
      by_contra hlive
      have hseen := hlookup b hb (Nat.lt_of_not_le hlive)
      rw [← hid, hunseen] at hseen
      cases hseen
    refine ⟨?_, ?_, ?_, pairwise_cons.mpr ⟨hexpired, h.noRepeat⟩⟩
    · exact forall_mem_cons.mpr ⟨Nat.le_refl _, hpast⟩
    · refine forall_mem_cons.mpr ⟨fun _ => lookup_insert _, fun b hb hlive => ?_⟩
      have hne : b.task.id ≠ a.task.id := fun hid => by
        have := hexpired b hb hid.symm
        omega
      rw [lookup_insert_ne hne]
      exact hlookup b hb hlive
    · intro id seenAt hid
      by_cases hsame : id = a.task.id
      · subst hsame
        rw [lookup_insert] at hid
        exact ⟨a, mem_cons_self, rfl, Option.some.inj hid⟩
      · rw [lookup_insert_ne hsame] at hid
        obtain ⟨b, hb, hfacts⟩ := howned id seenAt hid
        exact ⟨b, mem_cons_of_mem a hb, hfacts⟩

theorem accepted_run_suffix (nodeId : String) (s : Intake) (arrivals : List Arrival) :
    s.accepted <:+ (run (receive nodeId) s arrivals).accepted := by
  have hstep : ∀ (s' : Intake) a, s.accepted <:+ s'.accepted →
      s.accepted <:+ (s'.receive nodeId a).accepted := by
    intro s' a h
    rcases receive_cases nodeId s' a with heq | ⟨-, heq⟩
    · rw [heq]
      exact h
    · rw [heq]
      exact h.trans (suffix_cons a s'.accepted)
  exact invariant_always hstep (suffix_refl _) arrivals

/-- Induction on the arrivals. The limit on what is accepted is one on the whole run, so it
holds at every arrival. -/
theorem Remembers.noRepeat_run {now : Nat} (h : s.Remembers now) {arrivals : List Arrival}
    (hnow : ∀ a ∈ arrivals, now ≤ a.now) (htimes : arrivals.Pairwise fun a b => a.now ≤ b.now)
    (hsparse : ∀ start,
      ((run (Intake.receive nodeId) s arrivals).acceptedFrom start).length ≤ seenTaskMax) :
    (run (Intake.receive nodeId) s arrivals).NoRepeat := by
  induction arrivals generalizing s now with
  | nil => exact h.noRepeat
  | cons a arrivals ih =>
    obtain ⟨hlater, htimes⟩ := pairwise_cons.mp htimes
    have hbefore : ∀ start, (s.acceptedFrom start).length ≤ seenTaskMax := by
      intro start
      have hsub := (accepted_run_suffix nodeId s (a :: arrivals)).sublist
      exact (hsub.filter _).length_le.trans (hsparse start)
    exact ih (h.receive (hnow a mem_cons_self) hbefore) hlater htimes hsparse

/-- For all sequences of arrivals: if they are in the order of time and no interval of the time
to live has more accepted tasks than are remembered, no id is accepted twice within the time;
the map never has more than one entry over the limit; and what is assigned to another node is
neither accepted nor recorded. -/
theorem seen_tasks_bound (nodeId : String) (arrivals : List Arrival) :
    (arrivals.Pairwise (fun a b => a.now ≤ b.now) →
      (∀ start, ((after nodeId arrivals).acceptedFrom start).length ≤ seenTaskMax) →
      (after nodeId arrivals).NoRepeat)
    ∧ (∀ pre, pre <+: arrivals → (after nodeId pre).seenTasks.entries.length ≤ 4097)
    ∧ ∀ pre a, pre ++ [a] <+: arrivals → ∀ node, a.task.assigneeNode = some node → node ≠ nodeId →
      (after nodeId (pre ++ [a])).accepted = (after nodeId pre).accepted
        ∧ Sub (after nodeId (pre ++ [a])).seenTasks (after nodeId pre).seenTasks := by
  have hempty : Remembers {} 0 :=
    ⟨forall_mem_nil _, forall_mem_nil _, fun _ _ h => (by cases h), .nil⟩
  refine ⟨fun htimes hsparse => ?_, fun pre _ => length_after nodeId pre, ?_⟩
  · exact hempty.noRepeat_run (fun a _ => Nat.zero_le a.now) htimes hsparse
  · intro pre a _ node hnode hne
    rw [after, run_append]
    exact receive_of_other hnode hne

def assignment (id : String) (assigneeNode : Option String) (now : Nat) : Arrival where
  task := { id, jobId := "job-1", toolName := "echo", params := .obj [], assigneeNode }
  order := .stored _ _
  now := now

def sentAgain : List Arrival :=
  [ assignment "a" none 0, assignment "b" (some "peer") 1000000000,
    assignment "a" (some "node") 299000000000, assignment "a" none 300000000000 ]

theorem sentAgain_noRepeat :
    (after "node" sentAgain).accepted.map (fun a => (a.task.id, a.now))
        = [("a", 300000000000), ("a", 0)]
      ∧ (after "node" sentAgain).NoRepeat := by
  refine ⟨by decide, (seen_tasks_bound "node" sentAgain).1 ?_ ?_⟩
  · decide
  · intro start
    have hall : (after "node" sentAgain).accepted.length ≤ seenTaskMax := by decide
    exact (length_filter_le _ _).trans hall

end Intake

end TitanClaw.Swarm
