import TitanClaw.Workspace.Documents

/-! # Appends at the same time

An append reads the whole document and then overwrites it. What another append has written in
between is overwritten with the rest. Here a storage call is one section, also the one that
finds or creates the document in up to three statements. -/

namespace TitanClaw.Workspace

open List Interleave Run

structure StorageInput where
  first : StatementInput := {}
  second : StatementInput := {}
  third : StatementInput := {}

def contentOf (documents : List MemoryDocument) (key : DocumentKey) : String :=
  ((documents.find? (·.key == key)).map (·.content)).getD ""

def editAll (content : String) (edits : List Edit) : String :=
  edits.foldl (fun content edit => edit.change.newContent content) content

theorem editAll_append (content : String) (edits edits' : List Edit) :
    editAll content (edits ++ edits') = editAll (editAll content edits) edits' :=
  foldl_append

def MadeOnce (edits : List Edit) (before after : String) : Prop :=
  ∃ order, order.Perm edits ∧ after = editAll before order

namespace Documents

variable (s : Documents)

def storageSect (task : Task) (input : StorageInput) : Documents × Option Task :=
  match s.sect task input.first with
  | (s, some (.create edit)) =>
      match s.sect (.create edit) input.second with
      | (s, some (.findAgain edit)) => s.sect (.findAgain edit) input.third
      | result => result
  | result => result

abbrev AppendLabel := Interleave.Label AppendCall StorageInput

def storageStep : Config → AppendLabel → Config :=
  Interleave.step (fun call => .find call.edit) storageSect

variable (table : DocumentTable)

def appending : Config := { shared := { documents := table.documents } }

def appends (labels : List AppendLabel) : List Edit :=
  (Interleave.started (fun call => .find (AppendCall.edit call)) storageSect (appending table)
    labels).map AppendCall.edit

def WritesFresh (task : Task) (input : StorageInput) : Prop :=
  match task with
  | .update _ doc =>
      input.first.write.reached = true → ∀ row ∈ s.documents, row.id = doc.id →
        row.content = doc.content
  | _ => True

instance (s : Documents) (task : Task) (input : StorageInput) :
    Decidable (s.WritesFresh task input) := by
  unfold WritesFresh
  split <;> infer_instance

/-! ## Every edit is written or given up -/

/-- The edit that the call has still to make. -/
def owes : Task → List Edit
  | .find edit | .create edit | .findAgain edit | .update edit _ => [edit]
  | .read _ | .reindex _ _ | .reread _ => []

def settled : List Edit := s.written ++ s.givenUp

variable (edit : Edit)

theorem settled_giveUp (e : WorkspaceError) :
    ((s.giveUp edit e).settled ++ []).Perm (s.settled ++ [edit]) := by
  show (s.written ++ edit :: s.givenUp ++ []).Perm (s.written ++ s.givenUp ++ [edit])
  rw [append_nil, append_assoc]
  exact (perm_append_singleton edit s.givenUp).symm.append_left _

theorem settled_put (doc : MemoryDocument) :
    ((s.put edit doc).settled ++ []).Perm (s.settled ++ [edit]) := by
  show (s.written ++ [edit] ++ s.givenUp ++ []).Perm (s.written ++ s.givenUp ++ [edit])
  rw [append_nil, append_assoc, append_assoc]
  exact perm_append_comm.append_left _

theorem sect_settles : Settles settled owes sect := by
  intro s task input
  cases task with
  | read | reread => exact .refl _
  | find edit =>
    simp only [sect]
    split
    · exact .refl _
    · exact .refl _
    · exact settled_giveUp s edit _
  | create edit =>
    simp only [sect]
    split
    · exact settled_giveUp s edit _
    · exact settled_giveUp s edit _
    · exact .refl _
    · exact settled_giveUp { s with documents := _ } edit _
  | findAgain edit =>
    simp only [sect]
    split
    · exact .refl _
    · exact settled_giveUp s edit _
  | update edit doc =>
    simp only [sect]
    split
    · exact settled_giveUp s edit _
    · exact settled_put s edit doc
    · exact settled_put s edit doc
  | reindex =>
    simp only [sect]
    split
    · exact .refl _
    · split <;> exact .refl _

theorem storageSect_settles : Settles settled owes storageSect := by
  intro s task input
  have hfirst := sect_settles s task input.first
  unfold storageSect
  split
  · next edit hone =>
    rw [hone] at hfirst
    refine Perm.trans ?_ hfirst
    have hsecond := sect_settles ‹Documents› (.create edit) input.second
    split
    · next edit' htwo =>
      rw [htwo] at hsecond
      exact (sect_settles _ (.findAgain edit') input.third).trans hsecond
    · exact hsecond
  · exact hfirst

/-! ## A document is found or created -/

/-- The table, or the table with an empty document more. -/
inductive Provides (documents : List MemoryDocument) (key : DocumentKey) :
    List MemoryDocument → Prop where
  | same : Provides documents key documents
  | added {id : String} (hkey : ∀ doc ∈ documents, doc.key ≠ key)
      (hid : ∀ doc ∈ documents, doc.id ≠ id) :
      Provides documents key (documents ++ [⟨id, key, ""⟩])

theorem provides_insert {documents documents' : List MemoryDocument} {newId : String}
    {key : DocumentKey} (hnone : ∀ doc ∈ documents, doc.key ≠ key)
    (hinsert : insertDocument documents newId key = .ok documents') :
    Provides documents key documents' := by
  rcases insertDocument_ok hinsert with ⟨rfl, -⟩ | ⟨rfl, -, hid⟩
  · exact .same
  · exact .added hnone hid

/-- The call has a document to edit, or is over. -/
inductive Obtains (s : Documents) (edit : Edit) : Documents × Option Task → Prop where
  | found {documents : List MemoryDocument} {doc : MemoryDocument}
      (hprovides : Provides s.documents edit.key documents) (hdoc : doc ∈ documents)
      (hkey : doc.key = edit.key) :
      Obtains s edit ({ s with documents }, some (.update edit doc))
  | gaveUp {documents : List MemoryDocument} {e : WorkspaceError}
      (hprovides : Provides s.documents edit.key documents) :
      Obtains s edit ({ s with documents }.giveUp edit e, none)

theorem obtains_findAgain {s : Documents} {edit : Edit} {documents : List MemoryDocument}
    (hprovides : Provides s.documents edit.key documents) (input : StatementInput) :
    Obtains s edit ({ s with documents }.sect (.findAgain edit) input) := by
  simp only [sect]
  split
  · next doc hget =>
    obtain ⟨hdoc, hkey⟩ := getDocumentByPath_ok hget
    exact .found hprovides hdoc hkey
  · exact .gaveUp hprovides

theorem storageSect_find (input : StorageInput) :
    Obtains s edit (s.storageSect (.find edit) input) := by
  unfold storageSect
  cases hget : getDocumentByPath s.documents edit.key input.first with
  | ok =>
    simp only [sect, hget]
    obtain ⟨hdoc, hkey⟩ := getDocumentByPath_ok hget
    exact .found .same hdoc hkey
  | error e =>
    cases e with
    | searchFailed =>
      simp only [sect, hget]
      exact .gaveUp .same
    | documentNotFound =>
      have hnone := getDocumentByPath_notFound hget
      cases hwrite : input.second.write with
      | rejected =>
        simp only [sect, hget, hwrite]
        exact .gaveUp .same
      | answered =>
        cases hinsert : insertDocument s.documents input.second.newId edit.key with
        | error =>
          simp only [sect, hget, hwrite, hinsert]
          exact .gaveUp .same
        | ok =>
          have hagain := obtains_findAgain (provides_insert hnone hinsert) input.third
          simpa only [sect, hget, hwrite, hinsert] using hagain
      | lost fault =>
        cases hinsert : insertDocument s.documents input.second.newId edit.key with
        | error =>
          simp only [sect, hget, hwrite, hinsert]
          exact .gaveUp .same
        | ok =>
          simp only [sect, hget, hwrite, hinsert]
          exact .gaveUp (provides_insert hnone hinsert)

section

variable {documents documents' : List MemoryDocument} {key : DocumentKey} {row : MemoryDocument}

section

variable (h : Provides documents key documents')

include h

theorem Provides.mem (hrow : row ∈ documents) : row ∈ documents' := by
  cases h with
  | same => exact hrow
  | added => exact mem_append_left _ hrow

theorem Provides.mem_or_new (hrow : row ∈ documents') :
    row ∈ documents ∨ ∀ doc ∈ documents, doc.id ≠ row.id := by
  cases h with
  | same => exact .inl hrow
  | added _ hid =>
    rcases mem_append.mp hrow with hold | hnew
    · exact .inl hold
    cases mem_singleton.mp hnew
    exact .inr hid

theorem Provides.keys (hkeys : (documents.map (·.key)).Nodup) : (documents'.map (·.key)).Nodup := by
  cases h with
  | same => exact hkeys
  | added hkey =>
    rw [map_append, map_singleton, ← concat_eq_append]
    refine hkeys.concat fun hmem => ?_
    obtain ⟨doc, hdoc, hsame⟩ := mem_map.mp hmem
    exact hkey doc hdoc hsame

theorem Provides.ids (hids : (documents.map (·.id)).Nodup) : (documents'.map (·.id)).Nodup := by
  cases h with
  | same => exact hids
  | added _ hid =>
    rw [map_append, map_singleton, ← concat_eq_append]
    refine hids.concat fun hmem => ?_
    obtain ⟨doc, hdoc, hsame⟩ := mem_map.mp hmem
    exact hid doc hdoc hsame

/-- A new document is as empty as none. -/
theorem Provides.contentOf (other : DocumentKey) :
    contentOf documents' other = contentOf documents other := by
  cases h with
  | same => rfl
  | added =>
    unfold Workspace.contentOf
    rw [find?_append]
    cases documents.find? (·.key == other) with
    | some => rfl
    | none =>
      rw [Option.none_or, find?_singleton]
      split <;> rfl

end

theorem find_of_mem (hkeys : (documents.map (·.key)).Nodup) (hrow : row ∈ documents) :
    documents.find? (·.key == row.key) = some row := by
  cases hfind : documents.find? (·.key == row.key) with
  | none =>
    have hno := find?_eq_none.mp hfind row hrow
    exact absurd (beq_self_eq_true row.key) hno
  | some doc =>
    have hkey : doc.key = row.key := by simpa using find?_some hfind
    rw [inj_on_of_nodup_map hkeys (mem_of_find?_eq_some hfind) hrow hkey]

theorem contentOf_update (hids : (documents.map (·.id)).Nodup)
    (hkeys : (documents.map (·.key)).Nodup) (hrow : row ∈ documents) (content : String)
    (other : DocumentKey) :
    contentOf (updateDocument documents row.id content) other
      = if row.key = other then content else contentOf documents other := by
  have hsame : ∀ doc : MemoryDocument,
      ((if doc.id = row.id then { doc with content } else doc).key == other)
        = (doc.key == other) := by
    intro doc
    split <;> rfl
  have hfind : (updateDocument documents row.id content).find? (·.key == other)
      = (documents.find? (·.key == other)).map fun doc =>
          if doc.id = row.id then { doc with content } else doc := by
    unfold updateDocument
    rw [find?_map]
    congr 2
    funext doc
    exact hsame doc
  unfold contentOf
  rw [hfind]
  by_cases hkey : row.key = other
  · subst hkey
    rw [find_of_mem hkeys hrow]
    simp
  · rw [if_neg hkey]
    cases hdoc : documents.find? (·.key == other) with
    | none => rfl
    | some doc =>
      have hdockey : doc.key = other := by simpa using find?_some hdoc
      have hid : doc.id ≠ row.id := by
        intro hid
        have heq := inj_on_of_nodup_map hids (mem_of_find?_eq_some hdoc) hrow hid
        exact hkey (heq ▸ hdockey)
      simp [hid]

end

/-! ## What the edits make of the contents -/

structure Edited (before : List MemoryDocument) (s : Documents) : Prop where
  ids : (s.documents.map (·.id)).Nodup
  keys : (s.documents.map (·.key)).Nodup
  content : ∀ key, contentOf s.documents key
    = editAll (contentOf before key) (s.written.filter (·.key = key))
  gaveUp : (∀ result ∈ s.returned, result.isOk = true) → s.givenUp = []

/-- An update under way has a document that is there. -/
def TaskKept : Task → Prop
  | .update edit doc => ∃ row ∈ s.documents, row.id = doc.id ∧ row.key = edit.key
  | .create _ | .findAgain _ => False
  | .read _ | .find _ | .reindex _ _ | .reread _ => True

section

variable {before : List MemoryDocument} {s : Documents} {edit : Edit} {doc row : MemoryDocument}

theorem isOk_false_of_fail (s : Documents) (edit : Edit) (e : WorkspaceError) :
    ¬ ∀ result ∈ (s.fail edit e).returned, result.isOk = true := by
  intro hall
  have hfirst := hall _ mem_cons_self
  split at hfirst <;> cases hfirst

section

variable (h : s.Edited before)

include h

theorem Edited.return_ (result : Returned) : (s.return_ result).Edited before :=
  ⟨h.ids, h.keys, h.content, fun hall => h.gaveUp fun r hr => hall r (mem_cons_of_mem _ hr)⟩

theorem Edited.fail (edit : Edit) (e : WorkspaceError) :
    (s.fail edit e).Edited before := h.return_ _

theorem Edited.giveUp (edit : Edit) (e : WorkspaceError) : (s.giveUp edit e).Edited before :=
  ⟨h.ids, h.keys, h.content, fun hall => absurd hall (isOk_false_of_fail s edit e)⟩

theorem Edited.provided {documents : List MemoryDocument} {key : DocumentKey} (hprovides : Provides s.documents key documents) :
    Edited before { s with documents } :=
  ⟨hprovides.ids h.ids, hprovides.keys h.keys,
    fun other => (hprovides.contentOf other).trans (h.content other), h.gaveUp⟩

theorem Edited.put (hrow : row ∈ s.documents) (hid : row.id = doc.id)
    (hkey : row.key = edit.key) (hfresh : row.content = doc.content) :
    (s.put edit doc).Edited before := by
  refine ⟨?_, ?_, fun key => ?_, h.gaveUp⟩
  · exact (updateDocument_ids s.documents doc.id _).symm ▸ h.ids
  · exact (updateDocument_keys s.documents doc.id _).symm ▸ h.keys
  · have hold : contentOf s.documents row.key = doc.content := by
      rw [contentOf, find_of_mem h.keys hrow, ← hfresh]
      rfl
    show contentOf (updateDocument s.documents doc.id _) key
      = editAll _ ((s.written ++ [edit]).filter _)
    rw [← hid, contentOf_update h.ids h.keys hrow, filter_append, editAll_append, ← h.content key]
    by_cases hsame : edit.key = key
    · subst hsame
      rw [if_pos hkey, filter_cons_of_pos (by simp), ← hkey, hold]
      rfl
    · rw [if_neg (hkey ▸ hsame), filter_cons_of_neg (by simp [hsame])]
      rfl

end

theorem TaskKept.of_rows {s s' : Documents} {task : Task} (h : s.TaskKept task)
    (hrows : ∀ row ∈ s.documents, ∃ row' ∈ s'.documents, row'.id = row.id ∧ row'.key = row.key) :
    s'.TaskKept task := by
  cases task with
  | update =>
    obtain ⟨row, hrow, hid, hkey⟩ := h
    obtain ⟨row', hrow', hid', hkey'⟩ := hrows row hrow
    exact ⟨row', hrow', hid'.trans hid, hkey'.trans hkey⟩
  | create | findAgain => exact h
  | read | find | reindex | reread => trivial

theorem put_rows (s : Documents) (edit : Edit) (doc : MemoryDocument) :
    ∀ row ∈ s.documents,
      ∃ row' ∈ (s.put edit doc).documents, row'.id = row.id ∧ row'.key = row.key := by
  intro row hrow
  refine ⟨_, mem_map_of_mem hrow, ?_⟩
  split
  · exact ⟨rfl, rfl⟩
  · exact ⟨rfl, rfl⟩

theorem storageSect_edited {task : Task} {input : StorageInput} (h : s.Edited before)
    (htask : s.TaskKept task) (hfresh : s.WritesFresh task input) :
    (s.storageSect task input).1.Edited before
      ∧ (∀ next, (s.storageSect task input).2 = some next →
          (s.storageSect task input).1.TaskKept next)
      ∧ ∀ other, s.TaskKept other → (s.storageSect task input).1.TaskKept other := by
  have hover : ∀ (s' : Documents) (next : Task), none = some next → s'.TaskKept next :=
    fun _ _ hnext => by cases hnext
  cases task with
  | create | findAgain => cases htask
  | read | reread => exact ⟨h.return_ _, hover _, fun _ hother => hother⟩
  | find edit =>
    have hobtains := storageSect_find s edit input
    generalize s.storageSect (.find edit) input = result at hobtains ⊢
    cases hobtains with
    | found hprovides hdoc hkey =>
      refine ⟨h.provided hprovides, fun next hnext => ?_, fun other hother => ?_⟩
      · cases hnext
        exact ⟨_, hdoc, rfl, hkey⟩
      · exact hother.of_rows fun row hrow => ⟨row, hprovides.mem hrow, rfl, rfl⟩
    | gaveUp hprovides =>
      refine ⟨(h.provided hprovides).giveUp edit _, hover _, fun other hother => ?_⟩
      exact hother.of_rows fun row hrow => ⟨row, hprovides.mem hrow, rfl, rfl⟩
  | update edit doc =>
    obtain ⟨row, hrow, hid, hkey⟩ := htask
    cases hwrite : input.first.write with
    | rejected =>
      simp only [storageSect, sect, hwrite]
      exact ⟨h.giveUp edit _, hover _, fun _ hother => hother⟩
    | answered =>
      have hput := h.put hrow hid hkey (hfresh (by rw [hwrite]; rfl) row hrow hid)
      simp only [storageSect, sect, hwrite]
      refine ⟨hput, fun next hnext => ?_, fun _ hother => hother.of_rows (put_rows s edit doc)⟩
      cases hnext
      trivial
    | lost =>
      have hput := h.put hrow hid hkey (hfresh (by rw [hwrite]; rfl) row hrow hid)
      simp only [storageSect, sect, hwrite]
      exact ⟨hput.fail edit _, hover _, fun _ hother => hother.of_rows (put_rows s edit doc)⟩
  | reindex edit id =>
    cases hget : getDocumentById s.documents id input.first with
    | error =>
      simp only [storageSect, sect, hget]
      exact ⟨h.fail edit _, hover _, fun _ hother => hother⟩
    | ok =>
      cases hchange : edit.change with
      | write =>
        simp only [storageSect, sect, hget, hchange]
        refine ⟨h, fun next hnext => ?_, fun _ hother => hother⟩
        cases hnext
        trivial
      | append =>
        simp only [storageSect, sect, hget, hchange]
        exact ⟨h.return_ _, hover _, fun _ hother => hother⟩

end

theorem storageStep_edited (before : List MemoryDocument) (c : Config) (label : AppendLabel)
    (h : Interleave.Holds (Edited before) TaskKept c)
    (hfresh : Interleave.Sections WritesFresh c label) :
    Interleave.Holds (Edited before) TaskKept (storageStep c label) :=
  holds_step (fun _ _ _ _ _ => trivial)
    (fun _ id task _ h htask hguard =>
      storageSect_edited h.shared (h.tasks id task htask) (hguard task htask)) c label h hfresh

/-- Once all appends have returned, and none of them an error, every document has each of the
entries appended to it once, as long as each append writes over what it has read. -/
theorem run_appends {labels : List AppendLabel}
    (hfresh : Guarded storageStep (Interleave.Sections WritesFresh) (appending table) labels)
    (hquiet : Interleave.Quiet (run storageStep (appending table) labels))
    (hok : ∀ result ∈ (run storageStep (appending table) labels).shared.returned,
      result.isOk = true) (key : DocumentKey) :
    MadeOnce ((appends table labels).filter (·.key = key)) (contentOf table.documents key)
      (contentOf (run storageStep (appending table) labels).shared.documents key) := by
  have hstart : Holds (Edited table.documents) TaskKept (appending table) :=
    ⟨⟨table.ids, table.keys, fun _ => rfl, fun _ => rfl⟩, fun id task h => by cases h⟩
  have hedited := (invariant_run (storageStep_edited table.documents) hstart hfresh).shared
  have hsettled := recorded_of_quiet storageSect_settles (fun _ => rfl) hquiet
  have hwritten : (run storageStep (appending table) labels).shared.settled
      = (run storageStep (appending table) labels).shared.written := by
    rw [settled, hedited.gaveUp hok, append_nil]
  refine ⟨_, Perm.filter _ (hwritten ▸ hsettled.trans ?_), hedited.content key⟩
  rw [appends, map_eq_flatMap]
  exact .refl _

/-! ### Two appends to one file -/

def noteA : AppendCall := .append ⟨"alice", none⟩ "notes.md" "a"

def noteB : AppendCall := .append ⟨"alice", none⟩ "notes.md" "b"

def notes : DocumentKey := ⟨"alice", none, "notes.md"⟩

/-- One after the other: the document is created, and each append reads what is there. -/
def inTurn : List AppendLabel :=
  [.start 0 noteA, .advance 0 { second := { newId := "d" } }, .advance 0 {}, .advance 0 {},
   .start 1 noteB, .advance 1 {}, .advance 1 {}, .advance 1 {}]

theorem inTurn_appends :
    MadeOnce ((appends noDocuments inTurn).filter (·.key = notes)) ""
        (contentOf (run storageStep (appending noDocuments) inTurn).shared.documents notes)
      ∧ contentOf (run storageStep (appending noDocuments) inTurn).shared.documents notes
        = "a\nb" :=
  ⟨run_appends noDocuments (by decide) (quiet_run (fun _ => rfl) (by decide))
    (by decide) notes, by decide⟩

def bothRead : List AppendLabel :=
  [.start 0 noteA, .start 1 noteB, .advance 0 { second := { newId := "d" } }, .advance 1 {},
   .advance 0 {}, .advance 1 {}, .advance 0 {}, .advance 1 {}]

/-- Both return without an error, and the first entry is lost. -/
theorem bothRead_loses :
    Interleave.Quiet (run storageStep (appending noDocuments) bothRead)
      ∧ (∀ result ∈ (run storageStep (appending noDocuments) bothRead).shared.returned,
          result.isOk = true)
      ∧ ¬ MadeOnce ((appends noDocuments bothRead).filter (·.key = notes)) ""
        (contentOf (run storageStep (appending noDocuments) bothRead).shared.documents notes) := by
  refine ⟨quiet_run (fun _ => rfl) (by decide), by decide, ?_⟩
  rintro ⟨order, hperm, hcontent⟩
  have hedits : (appends noDocuments bothRead).filter (·.key = notes)
      = [noteA.edit, noteB.edit] := by decide
  have hnote : ∀ edit ∈ order, edit = noteA.edit ∨ edit = noteB.edit := fun edit hedit => by
    simpa [hedits] using hperm.subset hedit
  have hlength : order.length = 2 := hperm.length_eq.trans (by decide)
  obtain ⟨x, y, rfl⟩ := length_eq_two.mp hlength
  -- no two notes make the content that is left
  rcases hnote x (by simp) with rfl | rfl <;> rcases hnote y (by simp) with rfl | rfl <;>
    (revert hcontent; decide)

end Documents

end TitanClaw.Workspace
