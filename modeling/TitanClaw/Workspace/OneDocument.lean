import TitanClaw.Workspace.Documents

/-! # One document for each path

A document is looked for and then inserted, in two statements. Between them another call can
insert one for the same path. The unique constraint on user, agent and path is to stop the
second insertion, but it does not see that two absent agents are the same. -/

namespace TitanClaw.Workspace

open List Interleave

/-- At most one document for a user, an agent and a path. -/
def OneEach (documents : List MemoryDocument) : Prop := (documents.map (·.key)).Nodup

theorem oneEach_insert_iff {documents documents' : List MemoryDocument} {newId : String}
    {key : DocumentKey} (h : OneEach documents)
    (hinsert : insertDocument documents newId key = .ok documents') :
    OneEach documents' ↔ (key.agentId = none → ∀ doc ∈ documents, doc.key ≠ key) := by
  rcases insertDocument_ok hinsert with ⟨rfl, hagent, -⟩ | ⟨rfl, hfree, -⟩
  · refine iff_of_true h fun hnone => ?_
    rw [hnone] at hagent
    cases hagent
  · have hadded : OneEach (documents ++ [{ id := newId, key, content := "" }])
        ↔ ∀ doc ∈ documents, doc.key ≠ key := by
      unfold OneEach at h ⊢
      rw [map_append, map_singleton, ← concat_eq_append, nodup_concat, and_iff_left h, mem_map]
      simp only [not_exists, not_and]
    rw [hadded]
    refine ⟨fun hnone _ => hnone, fun hnone => ?_⟩
    cases hagent : key.agentId with
    | none => exact hnone hagent
    | some => exact hfree (by rw [hagent]; rfl)

namespace Documents

/-- A document without an agent is inserted while there is none for its user and path. -/
def CreatesOnce (s : Documents) (task : Task) (input : StatementInput) : Prop :=
  match task with
  | .create edit =>
      edit.key.agentId = none → input.write.reached = true →
        (∀ doc ∈ s.documents, doc.id ≠ input.newId) → ∀ doc ∈ s.documents, doc.key ≠ edit.key
  | _ => True

variable {s : Documents}

section

variable (h : OneEach s.documents)

include h

theorem sect_create_oneEach_iff (edit : Edit) (input : StatementInput) :
    OneEach (s.sect (.create edit) input).1.documents ↔ s.CreatesOnce (.create edit) input := by
  have hok {documents : List MemoryDocument} (hreached : input.write.reached = true)
      (hinsert : insertDocument s.documents input.newId edit.key = .ok documents) :
      OneEach documents ↔ s.CreatesOnce (.create edit) input := by
    refine (oneEach_insert_iff h hinsert).trans ⟨fun hnone hagent _ _ => hnone hagent, ?_⟩
    intro honce hagent
    refine honce hagent hreached ?_
    rcases insertDocument_ok hinsert with ⟨-, hsome, -⟩ | ⟨-, -, hnew⟩
    · rw [hagent] at hsome
      cases hsome
    · exact hnew
  cases hinsert : insertDocument s.documents input.newId edit.key with
  | error fault =>
    -- an insertion is an error only because of the id
    have hused : ¬ ∀ doc ∈ s.documents, doc.id ≠ input.newId := by
      unfold insertDocument at hinsert
      split at hinsert
      · cases hinsert
      split at hinsert
      · next hany =>
        obtain ⟨doc, hdoc, hid⟩ := any_eq_true.mp hany
        exact fun hnew => hnew doc hdoc (beq_iff_eq.mp hid)
      · cases hinsert
    refine iff_of_true ?_ fun _ _ hnew => absurd hnew hused
    cases hwrite : input.write with
    | answered | rejected | lost => simpa [sect, hwrite, hinsert, giveUp, fail, return_] using h
  | ok =>
    cases hwrite : input.write with
    | answered =>
      have hreached : input.write.reached = true := by rw [hwrite]; rfl
      simpa [sect, hwrite, hinsert] using hok hreached hinsert
    | lost =>
      have hreached : input.write.reached = true := by rw [hwrite]; rfl
      simpa [sect, hwrite, hinsert, giveUp, fail, return_] using hok hreached hinsert
    | rejected =>
      refine iff_of_true ?_ fun _ hreached => ?_
      · simpa [sect, hwrite, hinsert, giveUp, fail, return_] using h
      · rw [hwrite] at hreached
        cases hreached

theorem put_oneEach (edit : Edit) (doc : MemoryDocument) : OneEach (s.put edit doc).documents := by
  unfold OneEach put
  rw [updateDocument_keys]
  exact h

theorem sect_oneEach_iff (task : Task) (input : StatementInput) :
    OneEach (s.sect task input).1.documents ↔ s.CreatesOnce task input := by
  cases task with
  | create edit => exact sect_create_oneEach_iff h edit input
  | read | reread => exact iff_of_true h trivial
  | find | findAgain =>
    refine iff_of_true ?_ trivial
    simp only [sect]
    split <;> exact h
  | update edit doc =>
    refine iff_of_true ?_ trivial
    simp only [sect]
    split
    · exact h
    · exact put_oneEach h edit doc
    · exact put_oneEach h edit doc
  | reindex =>
    refine iff_of_true ?_ trivial
    simp only [sect]
    split
    · exact h
    · split <;> exact h

end

variable (table : DocumentTable)

def start : Config := { shared := { documents := table.documents } }

/-- However reads, writes and appends interleave, and whatever fails, there is at most one
document for a user, an agent and a path exactly if no document without an agent is inserted
for a path that has one already. -/
theorem run_oneEach_iff (labels : List Label) :
    (∀ pre, pre <+: labels → OneEach (Run.run step (start table) pre).shared.documents)
      ↔ Run.Guarded step (Sections CreatesOnce) (start table) labels := by
  let Inv (_ : Documents) : Prop := True
  let TaskInv (_ : Documents) (_ : Task) : Prop := True
  have hkeeps : ∀ (c : Config) (label : Label), Holds Inv TaskInv c →
      Holds Inv TaskInv (step c label) :=
    fun _ _ _ => ⟨trivial, fun _ _ _ => trivial⟩
  have hstart : OneEach (start table).shared.documents := table.keys
  exact reached_shared_iff (P := fun s : Documents => OneEach s.documents) hkeeps
    (fun s task input _ _ h => sect_oneEach_iff h task input) ⟨trivial, fun _ _ _ => trivial⟩
    hstart

def bothAppend (agentId : Option String) : List Label :=
  [.start 0 (.append (.append ⟨"alice", agentId⟩ "notes.md" "a")),
   .start 1 (.append (.append ⟨"alice", agentId⟩ "notes.md" "b")),
   .advance 0 {}, .advance 1 {}, .advance 0 { newId := "d0" }, .advance 1 { newId := "d1" }]

theorem bothAppend_two :
    ¬ OneEach (Run.run step (start noDocuments) (bothAppend none)).shared.documents := by
  unfold OneEach
  decide

end Documents

end TitanClaw.Workspace
