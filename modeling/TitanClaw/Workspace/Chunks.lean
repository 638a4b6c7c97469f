import TitanClaw.Workspace.Appends

/-! # Chunks of a document

For the search a document is cut into chunks, which are rows of a table of their own. After
every edit the document is indexed again: its content is read, its chunks are deleted, and the
new ones are inserted one by one. Each of these is a storage call, and other calls go on in
between. -/

namespace TitanClaw.Workspace

open Text Faulty List Interleave Documents Function Run
open Interleave (Pending Quiet pending_of_other pending_of_start)

/-- The sizes, in words. A chunk goes beyond the one before it. -/
structure ChunkConfig where
  chunkSize : Nat
  overlapSize : Nat
  minChunkSize : Nat
  overlap_lt : overlapSize < chunkSize

/-- `ChunkConfig::default`: the overlap is 15% of the size. -/
def ChunkConfig.default : ChunkConfig := ⟨800, 120, 50, by decide⟩

def ChunkConfig.stepSize (config : ChunkConfig) : Nat := config.chunkSize - config.overlapSize

/-- The loop of `chunk_document`. -/
def chunkWords (config : ChunkConfig) (words : List String) (start : Nat)
    (chunks : List String) : List String :=
  if start < words.length then
    let end_ := min (start + config.chunkSize) words.length
    let chunk := (words.drop start).take (end_ - start)
    if chunk.length < config.minChunkSize && !chunks.isEmpty then
      chunks.dropLast ++ [chunks.getLastD "" ++ " " ++ " ".intercalate chunk]
    else
      let chunks := chunks ++ [" ".intercalate chunk]
      let start' := start + config.stepSize
      if words.length ≤ start' + config.minChunkSize && end_ == words.length then chunks
      else chunkWords config words start' chunks
  else chunks
termination_by words.length - start
decreasing_by
  have := config.overlap_lt
  unfold ChunkConfig.stepSize
  omega

def chunkDocument (content : String) (config : ChunkConfig) : List String :=
  if content.isEmpty then []
  else
    let words := splitWhitespace content
    if words.isEmpty then []
    else if words.length ≤ config.chunkSize then [content]
    else chunkWords config words 0 []

/-! ## The table -/

/-- A row of `memory_chunks`. -/
structure Chunk where
  documentId : String
  chunkIndex : Nat
  content : String
  deriving DecidableEq

/-- `UNIQUE (document_id, chunk_index)`. -/
def Chunk.key (chunk : Chunk) : String × Nat := (chunk.documentId, chunk.chunkIndex)

structure ChunkTable where
  chunks : List Chunk
  keys : (chunks.map Chunk.key).Nodup

def chunksOf (content : String) : List String := chunkDocument content .default

def chunkRows (id content : String) : List Chunk :=
  (chunksOf content).zipIdx.map fun (text, index) => ⟨id, index, text⟩

theorem mem_chunkRows {id content : String} {chunk : Chunk} :
    chunk ∈ chunkRows id content ↔
      chunk.documentId = id ∧ (chunksOf content)[chunk.chunkIndex]? = some chunk.content := by
  unfold chunkRows
  rw [mem_map]
  constructor
  · rintro ⟨⟨text, index⟩, hmem, rfl⟩
    exact ⟨rfl, mem_zipIdx_iff_getElem?.mp hmem⟩
  · rintro ⟨rfl, htext⟩
    exact ⟨(chunk.content, chunk.chunkIndex), mem_zipIdx_iff_getElem?.mpr htext, rfl⟩

theorem chunkRows_nodup (id content : String) : (chunkRows id content).Nodup := by
  refine Nodup.of_map Chunk.chunkIndex ?_
  unfold chunkRows
  rw [map_map]
  show ((chunksOf content).zipIdx.map Prod.snd).Nodup
  rw [zipIdx_map_snd]
  exact nodup_range'

/-! ## Indexing -/

/-- What is left of a call; the content of the document is the one that was read. -/
inductive IndexTask where
  | document (task : Task)
  | reindex (edit : Edit) (id : String)
  | deleteChunks (edit : Edit) (id content : String)
  | insertChunk (edit : Edit) (id content : String) (index : Nat)

def IndexTask.of : Task → IndexTask
  | .reindex edit id => .reindex edit id
  | task => .document task

/-- The documents and their chunks. The calls that failed with the chunks, and the documents
that have been edited, are records that no section reads. -/
structure Indexed where
  docs : Documents
  chunks : List Chunk
  chunkingFailed : List String := []
  edited : List String := []

namespace Indexed

def editedBy (task : Task) (input : StorageInput) : List String :=
  match task with
  | .update _ doc => if input.first.write.reached then [doc.id] else []
  | _ => []

variable (s : Indexed)

/-- `WorkspaceError::ChunkingFailed`. -/
def fail (what : String) : Fault → Indexed
  | .connect e => { s with chunkingFailed := e :: s.chunkingFailed }
  | .refused e => { s with chunkingFailed := (what ++ " failed: " ++ e) :: s.chunkingFailed }

variable (id : String)

def delete : Indexed :=
  { s with chunks := s.chunks.filter (·.documentId != id) }

def insert (chunk : Chunk) : Indexed := { s with chunks := s.chunks ++ [chunk] }

variable (edit : Edit)

/-- The document is indexed. -/
def finish (id : String) : Indexed × Option IndexTask :=
  match edit.change with
  | .write _ => (s, some (.document (.reread id)))
  | .append _ _ => ({ s with docs := s.docs.return_ (.appended (.ok ())) }, none)

/-- The loop over the chunks. -/
def insertFrom (id content : String) (index : Nat) : Indexed × Option IndexTask :=
  if index < (chunksOf content).length then (s, some (.insertChunk edit id content index))
  else s.finish edit id

variable (task : IndexTask) (input : StorageInput)

def sect : Indexed × Option IndexTask :=
  match task with
  | .document task =>
      let (docs, next) := s.docs.storageSect task input
      ({ s with docs := docs, edited := editedBy task input ++ s.edited },
        next.map IndexTask.of)
  | .reindex edit id =>
      match getDocumentById s.docs.documents id input.first with
      | .error e => ({ s with docs := s.docs.fail edit e }, none)
      -- from here on the content is the one that was read, whatever is written meanwhile
      | .ok doc => (s, some (.deleteChunks edit id doc.content))
  | .deleteChunks edit id content =>
      match input.first.write with
      | .rejected fault => (s.fail "Delete" fault, none)
      | .lost fault => ((s.delete id).fail "Delete" fault, none)
      | .answered => (s.delete id).insertFrom edit id content 0
  | .insertChunk edit id content index =>
      let chunk : Chunk := ⟨id, index, (chunksOf content).getD index ""⟩
      if s.chunks.any (·.key == chunk.key) then
        (s.fail "Insert" (.refused
          "UNIQUE constraint failed: memory_chunks.document_id, memory_chunks.chunk_index"), none)
      else
        match input.first.write with
        | .rejected fault => (s.fail "Insert" fault, none)
        | .lost fault => ((s.insert chunk).fail "Insert" fault, none)
        | .answered => (s.insert chunk).insertFrom edit id content (index + 1)

abbrev Config := Interleave.Config Indexed IndexTask

abbrev Label := Interleave.Label Call StorageInput

def step : Config → Label → Config := Interleave.step (fun call => .document call.whole) sect

def start (documents : DocumentTable) (chunks : ChunkTable) : Config :=
  { shared := { docs := { documents := documents.documents }, chunks := chunks.chunks } }

/-- No call has returned an error. -/
def AllOk : Prop := (∀ result ∈ s.docs.returned, result.isOk = true) ∧ s.chunkingFailed = []

def ChunksMatch : Prop :=
  ∀ doc ∈ s.docs.documents, doc.id ∈ s.edited →
    (s.chunks.filter (·.documentId == doc.id)).Perm (chunkRows doc.id doc.content)

def IndexesFresh : Prop :=
  match task with
  | .deleteChunks _ id content | .insertChunk _ id content _ =>
      input.first.write.reached = true →
        ∀ doc ∈ s.docs.documents, doc.id = id → doc.content = content
  | .document _ | .reindex _ _ => True

/-! ## What every section keeps -/

/-- Ids and keys are unique, and an edited document is in the table. -/
structure Schema (s : Indexed) : Prop where
  ids : (s.docs.documents.map (·.id)).Nodup
  keys : (s.chunks.map Chunk.key).Nodup
  edited : ∀ id ∈ s.edited, id ∈ s.docs.documents.map (·.id)

/-- The document that a call edits is in the table, and the chunk that it inserts is one of
the content. -/
def TaskKept : IndexTask → Prop
  | .document (.update _ doc) => doc.id ∈ s.docs.documents.map (·.id)
  | .document (.create _) | .document (.findAgain _) | .document (.reindex _ _) => False
  | .document (.read _) | .document (.find _) | .document (.reread _) => True
  | .reindex _ _ | .deleteChunks _ _ _ => True
  | .insertChunk _ _ content index => index < (chunksOf content).length

variable {task}

theorem TaskKept.of_ids {s s' : Indexed} (h : s.TaskKept task)
    (hids : ∀ id ∈ s.docs.documents.map (·.id), id ∈ s'.docs.documents.map (·.id)) :
    s'.TaskKept task := by
  unfold TaskKept at h ⊢
  split
  · exact hids _ h
  all_goals exact h

theorem Schema.delete {s : Indexed} (h : s.Schema) (id : String) : (s.delete id).Schema :=
  ⟨h.ids, h.keys.sublist (filter_sublist.map _), h.edited⟩

theorem Schema.insert {s : Indexed} (h : s.Schema) {chunk : Chunk}
    (hnew : s.chunks.any (·.key == chunk.key) = false) : (s.insert chunk).Schema := by
  refine ⟨h.ids, ?_, h.edited⟩
  show ((s.chunks ++ [chunk]).map Chunk.key).Nodup
  rw [map_append, map_singleton, ← concat_eq_append]
  refine h.keys.concat fun hmem => ?_
  obtain ⟨other, hother, hsame⟩ := mem_map.mp hmem
  have hne := any_eq_false.mp hnew other hother
  exact hne (beq_iff_eq.mpr hsame)

/-- What a section does to the documents: it looks for one, and may have to create it, or it
edits one, which will then be indexed. -/
inductive DocumentEffect (s : Indexed) : Indexed × Option IndexTask → Prop where
  | looked {docs : Documents} (key : DocumentKey) {next : Option IndexTask}
      (hdocs : Provides s.docs.documents key docs.documents)
      (hreturned : ∀ result ∈ s.docs.returned, result ∈ docs.returned)
      (hnext : ∀ task, next = some task →
        ∃ edit doc, task = .document (.update edit doc) ∧ doc ∈ docs.documents) :
      DocumentEffect s ({ s with docs := docs }, next)
  | edited {docs : Documents} (edit : Edit) {id content : String} {next : Option IndexTask}
      (hid : id ∈ s.docs.documents.map (·.id))
      (hdocs : docs.documents = updateDocument s.docs.documents id content)
      (hreturned : ∀ result ∈ s.docs.returned, result ∈ docs.returned)
      (hnext : next = some (.reindex edit id)
        ∨ next = none ∧ ¬ ∀ result ∈ docs.returned, result.isOk = true) :
      DocumentEffect s ({ s with docs := docs, edited := id :: s.edited }, next)

theorem document_effect {s : Indexed} {task : Task} (htask : s.TaskKept (.document task))
    (input : StorageInput) : DocumentEffect s (s.sect (.document task) input) := by
  have hreturn (result : Returned) (docs : Documents) :
      ∀ r ∈ docs.returned, r ∈ (docs.return_ result).returned :=
    fun r hr => mem_cons_of_mem _ hr
  have hover (docs : Documents) : ∀ task : IndexTask, none = some task →
      ∃ edit doc, task = .document (.update edit doc) ∧ doc ∈ docs.documents :=
    fun task h => by cases h
  cases task with
  | create | findAgain | reindex => cases htask
  | read key => exact .looked key .same (hreturn _ _) (hover _)
  | reread => exact .looked ⟨"", none, ""⟩ .same (hreturn _ _) (hover _)
  | find edit =>
    have hobtains := storageSect_find s.docs edit input
    simp only [sect, editedBy, nil_append]
    generalize s.docs.storageSect (.find edit) input = result at hobtains ⊢
    cases hobtains with
    | found hprovides hdoc =>
      refine .looked _ hprovides (fun r hr => hr) fun task hnext => ?_
      cases hnext
      exact ⟨edit, _, rfl, hdoc⟩
    | gaveUp hprovides => exact .looked _ hprovides (hreturn _ _) (hover _)
  | update edit =>
    cases hwrite : input.first.write with
    | rejected =>
      simp only [sect, editedBy, Documents.storageSect, Documents.sect, hwrite, Reply.reached]
      exact .looked edit.key .same (hreturn _ _) (hover _)
    | answered =>
      simp only [sect, editedBy, Documents.storageSect, Documents.sect, hwrite, Reply.reached]
      exact .edited edit htask rfl (fun r hr => hr) (.inl rfl)
    | lost =>
      simp only [sect, editedBy, Documents.storageSect, Documents.sect, hwrite, Reply.reached]
      exact .edited edit htask rfl (hreturn _ _) (.inr ⟨rfl, Documents.isOk_false_of_fail _ edit _⟩)

/-- Nothing has changed but for what is returned. -/
structure Continues (s s' : Indexed) : Prop where
  documents : s'.docs.documents = s.docs.documents
  chunks : s'.chunks = s.chunks
  edited : s'.edited = s.edited

theorem finish_continues (id : String) : Continues s (s.finish edit id).1 := by
  unfold finish
  split <;> exact ⟨rfl, rfl, rfl⟩

theorem insertFrom_continues (id content : String) (index : Nat) :
    Continues s (s.insertFrom edit id content index).1 := by
  unfold insertFrom
  split
  · exact ⟨rfl, rfl, rfl⟩
  · exact finish_continues s edit id

theorem Continues.schema {s s' : Indexed} (hs' : Continues s s') (h : s.Schema) : s'.Schema := by
  obtain ⟨hdocuments, hchunks, hedited⟩ := hs'
  refine ⟨?_, ?_, ?_⟩
  · rw [hdocuments]
    exact h.ids
  · rw [hchunks]
    exact h.keys
  · rw [hedited, hdocuments]
    exact h.edited

theorem Continues.taskKept {s s' : Indexed} (hs' : Continues s s')
    (h : s.TaskKept task) : s'.TaskKept task :=
  h.of_ids fun id hid => by rwa [hs'.documents]

theorem fail_continues (what : String) (fault : Fault) : Continues s (s.fail what fault) := by
  cases fault <;> exact ⟨rfl, rfl, rfl⟩

variable {s}

theorem insertFrom_next {edit : Edit} {id content : String} {index : Nat}
    {next : IndexTask} (h : (s.insertFrom edit id content index).2 = some next) (s' : Indexed) :
    s'.TaskKept next := by
  unfold insertFrom at h
  split at h
  · next hindex =>
    cases h
    exact hindex
  · unfold finish at h
    split at h <;> cases h
    trivial

/-- A section keeps the schema, and what holds of its own rest and of the other calls. -/
structure SectKept (s : Indexed) (result : Indexed × Option IndexTask) : Prop where
  schema : result.1.Schema
  next : ∀ next, result.2 = some next → result.1.TaskKept next
  others : ∀ other, s.TaskKept other → result.1.TaskKept other

variable {result : Indexed × Option IndexTask}

theorem SectKept.of_docs {s s' : Indexed}
    (h : SectKept s' result) (hdocs : s'.docs = s.docs) : SectKept s result := by
  refine ⟨h.schema, h.next, fun other hother => h.others other (hother.of_ids fun id hid => ?_)⟩
  rwa [hdocs]

theorem fail_kept (h : s.Schema) (what : String) (fault : Fault) :
    SectKept s (s.fail what fault, none) := by
  have hs := s.fail_continues what fault
  refine ⟨hs.schema h, fun next hnext => ?_, fun other => hs.taskKept⟩
  cases hnext

theorem insertFrom_kept (h : s.Schema) (edit : Edit) (id content : String)
    (index : Nat) : SectKept s (s.insertFrom edit id content index) := by
  have hs := s.insertFrom_continues edit id content index
  exact ⟨hs.schema h, fun next hnext => insertFrom_next hnext _, fun other => hs.taskKept⟩

theorem DocumentEffect.kept
    (heffect : DocumentEffect s result) (h : s.Schema) : SectKept s result := by
  cases heffect with
  | looked _ hdocs _ hnext =>
    have hids : ∀ id ∈ s.docs.documents.map (·.id), id ∈ _ :=
      fun id hid => map_subset _ (fun doc hdoc => hdocs.mem hdoc) hid
    refine ⟨⟨hdocs.ids h.ids, h.keys, fun id hid => hids id (h.edited id hid)⟩,
      fun next hsome => ?_, fun other hother => hother.of_ids hids⟩
    obtain ⟨edit, doc, rfl, hdoc⟩ := hnext next hsome
    exact mem_map_of_mem hdoc
  | edited _ hid hdocs _ hnext =>
    have hids := congrArg (map (·.id)) hdocs
    rw [updateDocument_ids] at hids
    refine ⟨⟨hids ▸ h.ids, h.keys, ?_⟩, fun next hsome => ?_, fun other hother =>
      hother.of_ids fun id hid => hids ▸ hid⟩
    · intro other hother
      rw [hids]
      rcases mem_cons.mp hother with rfl | hother
      · exact hid
      · exact h.edited other hother
    · rcases hnext with rfl | ⟨rfl, -⟩
      · cases hsome
        trivial
      · cases hsome

theorem sect_kept (s : Indexed) (task : IndexTask) (input : StorageInput) (h : s.Schema)
    (htask : s.TaskKept task) : SectKept s (s.sect task input) := by
  cases task with
  | document => exact (document_effect htask input).kept h
  | reindex =>
    simp only [sect]
    split
    · refine ⟨⟨h.ids, h.keys, h.edited⟩, fun next hnext => ?_, fun other hother => hother⟩
      cases hnext
    · refine ⟨h, fun next hnext => ?_, fun other hother => hother⟩
      cases hnext
      trivial
  | deleteChunks edit id content =>
    simp only [sect]
    split
    · exact fail_kept h _ _
    · exact (fail_kept (h.delete id) _ _).of_docs rfl
    · exact (insertFrom_kept (h.delete id) edit id content 0).of_docs rfl
  | insertChunk edit id content index =>
    simp only [sect]
    split
    · exact fail_kept h _ _
    next hunique =>
    have hinsert := h.insert (by simpa using hunique)
    split
    · exact fail_kept h _ _
    · exact (fail_kept hinsert _ _).of_docs rfl
    · exact (insertFrom_kept hinsert edit id content (index + 1)).of_docs rfl

/-! ## The chunks of a document between the sections -/

def WillDelete : IndexTask → Prop
  | .reindex _ other | .deleteChunks _ other _ => other = id
  | .document _ | .insertChunk _ _ _ _ => False

def WillInsert (doc : MemoryDocument) (index : Nat) : IndexTask → Prop
  | .insertChunk _ id content next => id = doc.id ∧ content = doc.content ∧ next ≤ index
  | .document _ | .reindex _ _ | .deleteChunks _ _ _ => False

/-- Every chunk of the document is one of its content, and every one that is missing will be
inserted. -/
structure Covered (chunks : List Chunk) (tasks : Nat → Option IndexTask) (doc : MemoryDocument) :
    Prop where
  sound : ∀ chunk ∈ chunks, chunk.documentId = doc.id →
    (chunksOf doc.content)[chunk.chunkIndex]? = some chunk.content
  complete : ∀ index < (chunksOf doc.content).length,
    (∃ chunk ∈ chunks, chunk.documentId = doc.id ∧ chunk.chunkIndex = index)
      ∨ Pending (WillInsert doc index) tasks

/-- The document is indexed, as far as it can be, or will be indexed anew. -/
def Kept (chunks : List Chunk) (tasks : Nat → Option IndexTask) (doc : MemoryDocument) : Prop :=
  Pending (WillDelete doc.id) tasks ∨ Covered chunks tasks doc

def indexing : IndexTask → Option String
  | .document _ => none
  | .reindex _ id | .deleteChunks _ id _ | .insertChunk _ id _ _ => some id

section

variable {chunks chunks' : List Chunk} {tasks : Nat → Option IndexTask} {doc : MemoryDocument}
  {id : Nat} {task : IndexTask} {next : Option IndexTask}

theorem not_willDelete (h : indexing task ≠ some doc.id) : ¬ WillDelete doc.id task := by
  intro hwill
  cases task with
  | document | insertChunk => exact hwill
  | reindex | deleteChunks => exact h (congrArg some hwill)

theorem not_willInsert (h : indexing task ≠ some doc.id) (index : Nat) :
    ¬ WillInsert doc index task := by
  intro hwill
  cases task with
  | document | reindex | deleteChunks => exact hwill
  | insertChunk => exact h (congrArg some hwill.1)

/-- What is done to other documents does not matter. -/
theorem Kept.of_other (h : Kept chunks tasks doc) (hid : tasks id = some task)
    (hother : indexing task ≠ some doc.id)
    (hchunks : ∀ chunk, chunk.documentId = doc.id → (chunk ∈ chunks' ↔ chunk ∈ chunks)) :
    Kept chunks' (update tasks id next) doc := by
  refine h.imp (pending_of_other hid (not_willDelete hother)) fun hcovered => ⟨?_, ?_⟩
  · intro chunk hchunk hdoc
    exact hcovered.sound chunk ((hchunks chunk hdoc).mp hchunk) hdoc
  · intro index hindex
    refine (hcovered.complete index hindex).imp ?_
      (pending_of_other hid (not_willInsert hother index))
    rintro ⟨chunk, hchunk, hdoc, heq⟩
    exact ⟨chunk, (hchunks chunk hdoc).mpr hchunk, hdoc, heq⟩

/-- When no call is under way, the rows of the document are those of its content. -/
theorem Kept.rows {c : Config} (h : Kept c.shared.chunks c.tasks doc)
    (hquiet : Quiet c) (hkeys : (c.shared.chunks.map Chunk.key).Nodup) :
    (c.shared.chunks.filter (·.documentId == doc.id)).Perm (chunkRows doc.id doc.content) := by
  have hcovered := h.resolve_left (hquiet.not_pending _)
  rw [perm_ext_iff_of_nodup (hkeys.of_map.filter _) (chunkRows_nodup _ _)]
  intro chunk
  rw [mem_filter, beq_iff_eq, mem_chunkRows]
  constructor
  · rintro ⟨hchunk, hdoc⟩
    exact ⟨hdoc, hcovered.sound chunk hchunk hdoc⟩
  · rintro ⟨hdoc, htext⟩
    obtain ⟨hindex, -⟩ := List.getElem?_eq_some_iff.mp htext
    obtain ⟨stored, hstored, hsame, hat⟩ :=
      (hcovered.complete chunk.chunkIndex hindex).resolve_right (hquiet.not_pending _)
    have hcontent := hcovered.sound stored hstored hsame
    rw [hat, htext] at hcontent
    have heq : chunk = stored := by
      obtain ⟨i, j, t⟩ := chunk
      obtain ⟨i', j', t'⟩ := stored
      simp_all
    rw [heq]
    exact ⟨hstored, hsame⟩

end

/-! ## Runs -/

/-- As long as no call has failed, every edited document is indexed or will be. -/
def AllKept (c : Config) : Prop :=
  c.shared.AllOk → ∀ doc ∈ c.shared.docs.documents, doc.id ∈ c.shared.edited →
    Kept c.shared.chunks c.tasks doc

section

variable {c : Config} {id : Nat} {input : StorageInput}

theorem AllOk.of_returned {s s' : Indexed} (h : s'.AllOk)
    (hreturned : ∀ result ∈ s.docs.returned, result ∈ s'.docs.returned)
    (hfailed : s'.chunkingFailed = s.chunkingFailed) : s.AllOk :=
  ⟨fun result hresult => h.1 result (hreturned result hresult), hfailed ▸ h.2⟩

theorem not_allOk_fail (s : Indexed) (what : String) (fault : Fault) :
    ¬ (s.fail what fault).AllOk := by
  rintro ⟨-, h⟩
  cases fault <;> cases h

variable {edit : Edit} {index : Nat}

theorem allOk_of_insertFrom {s : Indexed} {docId content : String}
    (h : (s.insertFrom edit docId content index).1.AllOk) : s.AllOk := by
  unfold insertFrom finish at h
  split at h
  · exact h
  split at h
  · exact h
  · exact h.of_returned (fun result hresult => mem_cons_of_mem _ hresult) rfl

variable {doc : MemoryDocument} {docId content : String}

theorem mem_updateDocument {documents : List MemoryDocument}
    (h : doc ∈ updateDocument documents docId content)
    (hne : doc.id ≠ docId) : doc ∈ documents := by
  obtain ⟨old, hold, rfl⟩ := mem_map.mp h
  by_cases hsame : old.id = docId
  · rw [if_pos hsame] at hne
    exact absurd hsame hne
  · rwa [if_neg hsame]

theorem document_kept {task : Task} (hholds : Interleave.Holds Schema TaskKept c)
    (hid : c.tasks id = some (.document task)) (h : AllKept c) :
    AllKept
      { shared := (c.shared.sect (.document task) input).1
        tasks := update c.tasks id (c.shared.sect (.document task) input).2 } := by
  have heffect := document_effect (hholds.tasks id _ hid) input
  generalize c.shared.sect (.document task) input = result at heffect ⊢
  have hother (doc : MemoryDocument) : indexing (.document task) ≠ some doc.id := by
    intro hsome
    cases hsome
  cases heffect with
  | looked _ hdocs hreturned =>
    intro hok doc hdoc hedited
    rcases hdocs.mem_or_new hdoc with hold | hnew
    · exact (h (hok.of_returned hreturned rfl) doc hold hedited).of_other hid (hother doc)
        fun _ _ => .rfl
    · -- a document that has just been created is not edited yet
      obtain ⟨old, hold, hsame⟩ := mem_map.mp (hholds.shared.edited _ hedited)
      exact absurd hsame (hnew old hold)
  | @edited _ _ docId _ _ _ hdocs hreturned hnext =>
    intro hok doc hdoc hedited
    rcases hnext with rfl | ⟨-, hfails⟩
    · by_cases hsame : docId = doc.id
      · exact .inl (pending_own c.tasks id hsame)
      have hold := mem_updateDocument (hdocs ▸ hdoc) (Ne.symm hsame)
      have hbefore := (mem_cons.mp hedited).resolve_left (Ne.symm hsame)
      exact (h (hok.of_returned hreturned rfl) doc hold hbefore).of_other hid (hother doc)
        fun _ _ => .rfl
    · exact absurd hok.1 hfails

/-- Before the chunks are deleted, the content is read. -/
theorem reindex_kept {docId : String}
    (hid : c.tasks id = some (.reindex edit docId)) (h : AllKept c) :
    AllKept
      { shared := (c.shared.sect (.reindex edit docId) input).1
        tasks := update c.tasks id (c.shared.sect (.reindex edit docId) input).2 } := by
  intro hok doc hdoc hedited
  simp only [sect] at hok hdoc hedited ⊢
  split at hok
  · exact absurd hok.1 (isOk_false_of_fail _ edit _)
  next hget =>
  simp only [hget] at hdoc hedited ⊢
  by_cases hsame : docId = doc.id
  · exact .inl (pending_own c.tasks id hsame)
  exact (h hok doc hdoc hedited).of_other hid
    (fun hsome => hsame (Option.some.inj hsome)) fun _ _ => .rfl

theorem insertFrom_pending {s : Indexed} {content : String} (hcontent : doc.content = content)
    {other : Nat}
    (hother : index ≤ other) (hlt : other < (chunksOf doc.content).length) :
    Pending (WillInsert doc other)
      (update c.tasks id (s.insertFrom edit doc.id content index).2) := by
  subst hcontent
  rw [insertFrom, if_pos (hother.trans_lt hlt)]
  exact pending_own c.tasks id ⟨rfl, rfl, hother⟩

theorem deleteChunks_kept (hid : c.tasks id = some (.deleteChunks edit docId content))
    (hfresh : c.shared.IndexesFresh (.deleteChunks edit docId content) input) (h : AllKept c) :
    AllKept
      { shared := (c.shared.sect (.deleteChunks edit docId content) input).1
        tasks := update c.tasks id
          (c.shared.sect (.deleteChunks edit docId content) input).2 } := by
  intro hok doc hdoc hedited
  simp only [sect] at hok hdoc hedited ⊢
  cases hwrite : input.first.write with
  | rejected | lost =>
    simp only [hwrite] at hok
    exact absurd hok (not_allOk_fail _ _ _)
  | answered =>
    simp only [hwrite] at hok hdoc hedited ⊢
    have hs := (c.shared.delete docId).insertFrom_continues edit docId content 0
    rw [hs.documents] at hdoc
    rw [hs.edited] at hedited
    rw [hs.chunks]
    by_cases hsame : docId = doc.id
    -- no chunk is left, and the loop over the chunks of the current content is still to come
    · subst hsame
      have hcontent := hfresh (by rw [hwrite]; rfl) doc hdoc rfl
      refine .inr ⟨fun chunk hchunk hdocument => ?_, fun index hindex => .inr ?_⟩
      · have hkept := (mem_filter.mp hchunk).2
        exact absurd hdocument (by simpa using hkept)
      · exact insertFrom_pending hcontent (Nat.zero_le index) hindex
    · have hbefore : c.shared.AllOk := allOk_of_insertFrom (s := c.shared.delete docId) hok
      refine (h hbefore doc hdoc hedited).of_other hid
        (fun hsome => hsame (Option.some.inj hsome)) fun chunk hchunk => ?_
      have hkept : chunk.documentId ≠ docId := hchunk ▸ Ne.symm hsame
      simp [delete, hkept]

/-- A chunk that is inserted is no longer missing, and the ones after it are inserted next. -/
theorem Covered.insert {chunks : List Chunk} {tasks : Nat → Option IndexTask} {s : Indexed}
    (h : Covered chunks tasks doc)
    (hid : tasks id = some (.insertChunk edit doc.id doc.content index))
    (hindex : index < (chunksOf doc.content).length) :
    Covered (chunks ++ [⟨doc.id, index, (chunksOf doc.content).getD index ""⟩])
      (update tasks id (s.insertFrom edit doc.id doc.content (index + 1)).2) doc := by
  refine ⟨fun chunk hchunk hdoc => ?_, fun other hother => ?_⟩
  · rcases mem_append.mp hchunk with hold | hnew
    · exact h.sound chunk hold hdoc
    cases mem_singleton.mp hnew
    simp [getD, getElem?_eq_getElem hindex]
  · by_cases heq : other = index
    · exact .inl ⟨_, mem_append_right _ (mem_singleton.mpr rfl), rfl, heq.symm⟩
    rcases h.complete other hother with ⟨chunk, hchunk, hdoc, hat⟩ | hpending
    · exact .inl ⟨chunk, mem_append_left _ hchunk, hdoc, hat⟩
    right
    -- the chunks before this one were inserted or are another call's
    by_cases hlater : index < other
    · exact insertFrom_pending (c := ⟨s, tasks⟩) rfl hlater hother
    refine pending_of_other hid ?_ hpending
    rintro ⟨-, -, hle⟩
    omega

theorem insertChunk_kept (hholds : Interleave.Holds Schema TaskKept c)
    (hid : c.tasks id = some (.insertChunk edit docId content index))
    (hfresh : c.shared.IndexesFresh (.insertChunk edit docId content index) input)
    (h : AllKept c) :
    AllKept
      { shared := (c.shared.sect (.insertChunk edit docId content index) input).1
        tasks := update c.tasks id
          (c.shared.sect (.insertChunk edit docId content index) input).2 } := by
  have hindex := hholds.tasks id _ hid
  intro hok doc hdoc hedited
  simp only [sect] at hok hdoc hedited ⊢
  split at hok
  · exact absurd hok (not_allOk_fail _ _ _)
  next hunique =>
  simp only [if_neg hunique] at hdoc hedited ⊢
  cases hwrite : input.first.write with
  | rejected | lost =>
    simp only [hwrite] at hok
    exact absurd hok (not_allOk_fail _ _ _)
  | answered =>
    simp only [hwrite] at hok hdoc hedited ⊢
    have hs := insertFrom_continues
      (c.shared.insert ⟨docId, index, (chunksOf content).getD index ""⟩) edit docId content
      (index + 1)
    have hbefore : c.shared.AllOk := allOk_of_insertFrom
      (s := c.shared.insert ⟨docId, index, (chunksOf content).getD index ""⟩) hok
    rw [hs.documents] at hdoc
    rw [hs.edited] at hedited
    rw [hs.chunks]
    have hkept := h hbefore doc hdoc hedited
    by_cases hsame : docId = doc.id
    · subst hsame
      obtain rfl := hfresh (by rw [hwrite]; rfl) doc hdoc rfl
      exact hkept.imp (pending_of_other hid fun hwill => hwill) fun hcovered =>
        hcovered.insert hid hindex
    · refine hkept.of_other hid (fun hsome => hsame (Option.some.inj hsome)) fun chunk hchunk => ?_
      have hother : chunk ≠ ⟨docId, index, (chunksOf content).getD index ""⟩ := by
        rintro rfl
        exact hsame hchunk
      exact mem_append.trans (or_iff_left fun hnew => hother (mem_singleton.mp hnew))

/-- In a run in which chunks are only changed for the content that the document has, every
edited document is indexed or will be. -/
theorem step_kept (c : Config) (label : Label) (h : Interleave.Holds Schema TaskKept c ∧ AllKept c)
    (hfresh : Interleave.Sections IndexesFresh c label) :
    Interleave.Holds Schema TaskKept (step c label) ∧ AllKept (step c label) := by
  obtain ⟨hholds, hkept⟩ := h
  refine ⟨holds_step_always (fun s call _ => ?_) (fun s task input hs htask => ?_)
    c label hholds, ?_⟩
  · cases call <;> trivial
  · have hsect := sect_kept s task input hs htask
    exact ⟨hsect.schema, hsect.next, hsect.others⟩
  · refine step_cases c label hkept ?_ ?_
    · rintro id call rfl hid hok doc hdoc hedited
      exact (hkept hok doc hdoc hedited).imp (pending_of_start hid) fun hcovered =>
        ⟨hcovered.sound, fun index hindex =>
          (hcovered.complete index hindex).imp_right (pending_of_start hid)⟩
    · rintro id input task rfl hid
      have hfresh := hfresh task hid
      cases task with
      | document => exact document_kept hholds hid hkept
      | reindex => exact reindex_kept hid hkept
      | deleteChunks => exact deleteChunks_kept hid hfresh hkept
      | insertChunk => exact insertChunk_kept hholds hid hfresh hkept

end

/-- Once all calls have returned, and none of them an error, the chunks of each edited document
are those of its content, as long as chunks are only changed for the content that the document
has. -/
theorem run_chunksMatch (documents : DocumentTable) (chunks : ChunkTable) {labels : List Label}
    (hfresh : Guarded step (Interleave.Sections IndexesFresh) (start documents chunks) labels)
    (hquiet : Quiet (run step (start documents chunks) labels))
    (hok : (run step (start documents chunks) labels).shared.AllOk) :
    (run step (start documents chunks) labels).shared.ChunksMatch := by
  have hholds : Interleave.Holds Schema TaskKept (start documents chunks) := by
    refine ⟨⟨documents.ids, chunks.keys, fun id hid => ?_⟩, fun id task htask => ?_⟩
    · cases hid
    · cases htask
  have hkept : AllKept (start documents chunks) := by
    intro _ doc _ hedited
    cases hedited
  obtain ⟨hrun, hallKept⟩ := invariant_run step_kept ⟨hholds, hkept⟩ hfresh
  intro doc hdoc hedited
  exact (hallKept hok doc hdoc hedited).rows hquiet hrun.shared.keys

instance (s : Indexed) (task : IndexTask) (input : StorageInput) :
    Decidable (s.IndexesFresh task input) :=
  match task with
  | .deleteChunks _ id content =>
      inferInstanceAs (Decidable (input.first.write.reached = true →
        ∀ doc ∈ s.docs.documents, doc.id = id → doc.content = content))
  | .insertChunk _ id content _ =>
      inferInstanceAs (Decidable (input.first.write.reached = true →
        ∀ doc ∈ s.docs.documents, doc.id = id → doc.content = content))
  | .document _ | .reindex _ _ => .isTrue trivial

instance (s : Indexed) : Decidable s.AllOk :=
  inferInstanceAs (Decidable ((∀ result ∈ s.docs.returned, result.isOk = true)
    ∧ s.chunkingFailed = []))

/-! ### Two writes of one file -/

def note : MemoryDocument := ⟨"d", notes, "a"⟩

def noteTable : DocumentTable := ⟨[note], nodup_singleton _, nodup_singleton _⟩

def noteChunks : ChunkTable := ⟨[⟨"d", 0, "a"⟩], nodup_singleton _⟩

def writeNote (content : String) : Call := .write ⟨"alice", none⟩ "notes.md" content

/-- One after the other. -/
def writesInTurn : List Label :=
  [.start 0 (writeNote "b"), .advance 0 {}, .advance 0 {}, .advance 0 {}, .advance 0 {},
    .advance 0 {}, .advance 0 {},
   .start 1 (writeNote "c"), .advance 1 {}, .advance 1 {}, .advance 1 {}, .advance 1 {},
    .advance 1 {}, .advance 1 {}]

theorem writesInTurn_chunks :
    (run step (start noteTable noteChunks) writesInTurn).shared.ChunksMatch
      ∧ (run step (start noteTable noteChunks) writesInTurn).shared.chunks = [⟨"d", 0, "c"⟩] :=
  ⟨run_chunksMatch noteTable noteChunks (by decide)
    (quiet_run (fun _ => rfl) (by decide)) (by decide),
    by decide⟩

/-- The first write has read its content to index it when the second one writes and indexes
its own. -/
def indexedLate : List Label :=
  [.start 0 (writeNote "b"), .start 1 (writeNote "c"), .advance 0 {}, .advance 0 {}, .advance 0 {},
   .advance 1 {}, .advance 1 {}, .advance 1 {}, .advance 1 {}, .advance 1 {}, .advance 1 {},
   .advance 0 {}, .advance 0 {}, .advance 0 {}]

/-- Both return without an error, the document has the content of the second one, and the
chunks are those of the first. -/
theorem indexedLate_stale :
    let s := (run step (start noteTable noteChunks) indexedLate).shared
    Quiet (run step (start noteTable noteChunks) indexedLate) ∧ s.AllOk
      ∧ s.docs.documents = [⟨"d", notes, "c"⟩] ∧ s.chunks = [⟨"d", 0, "b"⟩]
      ∧ ¬ s.ChunksMatch := by
  refine ⟨quiet_run (fun _ => rfl) (by decide), by decide,
    by decide, by decide, fun h => ?_⟩
  have hrows := h ⟨"d", notes, "c"⟩ (by decide) (by decide)
  exact absurd hrows (by decide)

end Indexed

end TitanClaw.Workspace
