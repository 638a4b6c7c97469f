import Mathlib.Data.List.Rotate
import TitanClaw.Lib.Faulty
import TitanClaw.Lib.Interleave
import TitanClaw.Lib.Text

/-! # Documents of a workspace

The documents of all workspaces are rows of one table. A workspace finds its document by path,
or creates an empty one, and then overwrites its content; an append puts the new content
together from the one it has found. Each statement is a section: between the statements of
one call those of other calls are carried out. The chunks and the graph that are indexed after
a write are left out, but for whether indexing fails. -/

namespace TitanClaw.Workspace

open Text Faulty List Bool

/-! ## The table -/

structure DocumentKey where
  userId : String
  agentId : Option String
  path : String
  deriving DecidableEq

structure MemoryDocument where
  id : String
  key : DocumentKey
  content : String
  deriving DecidableEq

inductive WorkspaceError where
  | documentNotFound (docType userId : String)
  | searchFailed (reason : String)
  deriving DecidableEq

/-- What goes wrong with a statement: there is no connection, or it is refused. -/
inductive Fault where
  | connect (e : String)
  | refused (e : String)

def Fault.error (what : String) : Fault → WorkspaceError
  | connect e => .searchFailed e
  | refused e => .searchFailed (what ++ " failed: " ++ e)

/-- What a statement gets from outside: how it ends, a fresh id, and which of several rows
comes first. -/
structure StatementInput where
  fault : Option Fault := none
  write : Reply Fault := .answered
  newId : String := ""
  order : Nat := 0

variable (documents : List MemoryDocument)

/-- `agent_id IS ?2` holds of two NULLs. The statement has no order; the first row counts. -/
def getDocumentByPath (key : DocumentKey)
    (input : StatementInput) : Except WorkspaceError MemoryDocument :=
  match input.fault with
  | some fault => .error (fault.error "Query")
  | none =>
      match ((documents.filter (·.key == key)).rotate input.order).head? with
      | some doc => .ok doc
      | none => .error (.documentNotFound key.path key.userId)

def getDocumentById (id : String) (input : StatementInput) : Except WorkspaceError MemoryDocument :=
  match input.fault with
  | some fault => .error (fault.error "Query")
  | none =>
      match documents.find? (·.id == id) with
      | some doc => .ok doc
      | none => .error (.documentNotFound "unknown" "unknown")

/-- `ON CONFLICT (user_id, agent_id, path) DO NOTHING`: two NULLs are no conflict. The id is
the primary key, and a conflict there is an error. -/
def insertDocument (newId : String) (key : DocumentKey) : Except Fault (List MemoryDocument) :=
  if key.agentId.isSome && documents.any (·.key == key) then .ok documents
  else if documents.any (·.id == newId) then
    .error (.refused "UNIQUE constraint failed: memory_documents.id")
  else .ok (documents ++ [{ id := newId, key, content := "" }])

def updateDocument (id content : String) : List MemoryDocument :=
  documents.map fun doc => if doc.id = id then { doc with content } else doc

/-! ## The calls -/

def collapseSlashes (lastWasSlash : Bool) : List Char → List Char
  | [] => []
  | c :: cs =>
      if c = '/' then
        if lastWasSlash then collapseSlashes true cs else c :: collapseSlashes true cs
      else c :: collapseSlashes false cs

def normalizePath (path : String) : String :=
  let inner := ((trim path).toList.dropWhile (· = '/')).rdropWhile (· = '/')
  String.ofList (collapseSlashes false inner)

/-- A workspace belongs to a user, and perhaps to one of the user's agents. -/
structure Owner where
  userId : String
  agentId : Option String := none

def Owner.key (owner : Owner) (path : String) : DocumentKey := ⟨owner.userId, owner.agentId, path⟩

/-- What is done to a document, once it is found. -/
inductive Change where
  | write (content : String)
  | append (separator content : String)
  deriving DecidableEq

def Change.newContent (old : String) : Change → String
  | write content => content
  | append separator content => if old = "" then content else old ++ separator ++ content

structure Edit where
  key : DocumentKey
  change : Change
  deriving DecidableEq

/-- The calls that append; the date and the time of day of a daily log come from the clock. -/
inductive AppendCall where
  | append (owner : Owner) (path content : String)
  | appendMemory (owner : Owner) (entry : String)
  | appendDailyLog (owner : Owner) (today timestamp entry : String)

def AppendCall.edit : AppendCall → Edit
  | append owner path content => ⟨owner.key (normalizePath path), .append "\n" content⟩
  | appendMemory owner entry => ⟨owner.key "MEMORY.md", .append "\n\n" entry⟩
  | appendDailyLog owner today timestamp entry =>
      ⟨owner.key (normalizePath ("daily/" ++ today ++ ".md")),
        .append "\n" ("[" ++ timestamp ++ "] " ++ entry)⟩

inductive Call where
  | read (owner : Owner) (path : String)
  | write (owner : Owner) (path content : String)
  | append (call : AppendCall)

/-- What is left of a call. -/
inductive Task where
  | read (key : DocumentKey)
  | find (edit : Edit)
  | create (edit : Edit)
  | findAgain (edit : Edit)
  | update (edit : Edit) (doc : MemoryDocument)
  | reindex (edit : Edit) (id : String)
  | reread (id : String)

def Call.whole : Call → Task
  | read owner path => .read (owner.key (normalizePath path))
  | write owner path content => .find ⟨owner.key (normalizePath path), .write content⟩
  | append call => .find call.edit

inductive Returned where
  | document (result : Except WorkspaceError MemoryDocument)
  | appended (result : Except WorkspaceError Unit)

def Returned.isOk : Returned → Bool
  | document (.ok _) | appended (.ok _) => true
  | document (.error _) | appended (.error _) => false

/-- The table and what the calls have returned. Which edits have been written, in order, and
which have been given up is a record that no section reads. -/
structure Documents where
  documents : List MemoryDocument
  returned : List Returned := []
  written : List Edit := []
  givenUp : List Edit := []

namespace Documents

variable (s : Documents)

def return_ (result : Returned) : Documents :=
  { s with returned := result :: s.returned }

variable (edit : Edit)

/-- An edit ends with an error. -/
def fail (e : WorkspaceError) : Documents :=
  s.return_ <|
    match edit.change with
    | .write _ => .document (.error e)
    | .append _ _ => .appended (.error e)

/-- It does so before its content is written. -/
def giveUp (e : WorkspaceError) : Documents :=
  { s.fail edit e with givenUp := edit :: s.givenUp }

def put (doc : MemoryDocument) : Documents :=
  { s with
    documents := updateDocument s.documents doc.id (edit.change.newContent doc.content)
    written := s.written ++ [edit] }

def sect (task : Task) (input : StatementInput) : Documents × Option Task :=
  match task with
  | .read key => (s.return_ (.document (getDocumentByPath s.documents key input)), none)
  | .find edit =>
      match getDocumentByPath s.documents edit.key input with
      | .ok doc => (s, some (.update edit doc))
      | .error (.documentNotFound _ _) => (s, some (.create edit))
      | .error e => (s.giveUp edit e, none)
  | .create edit =>
      match input.write, insertDocument s.documents input.newId edit.key with
      | .rejected fault, _ => (s.giveUp edit (fault.error "Insert"), none)
      | _, .error fault => (s.giveUp edit (fault.error "Insert"), none)
      | .answered, .ok documents => ({ s with documents }, some (.findAgain edit))
      | .lost fault, .ok documents =>
          ({ s with documents }.giveUp edit (fault.error "Insert"), none)
  | .findAgain edit =>
      match getDocumentByPath s.documents edit.key input with
      | .ok doc => (s, some (.update edit doc))
      | .error e => (s.giveUp edit e, none)
  | .update edit doc =>
      match input.write with
      | .rejected fault => (s.giveUp edit (fault.error "Update"), none)
      | .answered => (s.put edit doc, some (.reindex edit doc.id))
      | .lost fault => ((s.put edit doc).fail edit (fault.error "Update"), none)
  | .reindex edit id =>
      match getDocumentById s.documents id input with
      | .error e => (s.fail edit e, none)
      | .ok _ =>
          match edit.change with
          | .write _ => (s, some (.reread id))
          | .append _ _ => (s.return_ (.appended (.ok ())), none)
  | .reread id => (s.return_ (.document (getDocumentById s.documents id input)), none)

abbrev Config := Interleave.Config Documents Task

abbrev Label := Interleave.Label Call StatementInput

def step : Config → Label → Config := Interleave.step Call.whole sect

end Documents

structure DocumentTable where
  documents : List MemoryDocument
  ids : (documents.map (·.id)).Nodup
  keys : (documents.map (·.key)).Nodup

def noDocuments : DocumentTable := ⟨[], nodup_nil, nodup_nil⟩

variable {documents documents' : List MemoryDocument} {key : DocumentKey} {doc : MemoryDocument}
  {input : StatementInput} {newId : String} {e : WorkspaceError}

theorem getDocumentByPath_ok (h : getDocumentByPath documents key input = .ok doc) :
    doc ∈ documents ∧ doc.key = key := by
  unfold getDocumentByPath at h
  split at h
  · cases h
  split at h
  · next hhead =>
    cases h
    have hmem := mem_of_mem_head? hhead
    rw [mem_rotate, mem_filter, beq_iff_eq] at hmem
    exact hmem
  · cases h

theorem getDocumentByPath_notFound {docType userId : String}
    (h : getDocumentByPath documents key input = .error (.documentNotFound docType userId)) :
    ∀ doc ∈ documents, doc.key ≠ key := by
  unfold getDocumentByPath at h
  split at h
  · next fault _ => cases fault <;> cases h
  split at h
  · cases h
  next hhead =>
  intro doc hdoc hkey
  rw [head?_eq_none_iff, rotate_eq_nil_iff, filter_eq_nil_iff] at hhead
  exact hhead doc hdoc (beq_iff_eq.mpr hkey)

/-- A row is added, unless a row that is there is in conflict with it. -/
theorem insertDocument_ok (h : insertDocument documents newId key = .ok documents') :
    (documents' = documents ∧ key.agentId.isSome = true ∧ ∃ doc ∈ documents, doc.key = key)
      ∨ (documents' = documents ++ [{ id := newId, key, content := "" }]
        ∧ (key.agentId.isSome = true → ∀ doc ∈ documents, doc.key ≠ key)
        ∧ ∀ doc ∈ documents, doc.id ≠ newId) := by
  unfold insertDocument at h
  split at h
  · next hconflict =>
    rw [and_eq_true, any_eq_true] at hconflict
    obtain ⟨hagent, doc, hdoc, hkey⟩ := hconflict
    cases h
    exact .inl ⟨rfl, hagent, doc, hdoc, beq_iff_eq.mp hkey⟩
  · next hconflict =>
    split at h
    · cases h
    next hid =>
    cases h
    refine .inr ⟨rfl, fun hagent doc hdoc hkey => hconflict ?_, fun doc hdoc hsame => hid ?_⟩
    · rw [hagent, Bool.true_and]
      exact any_eq_true.mpr ⟨doc, hdoc, beq_iff_eq.mpr hkey⟩
    · exact any_eq_true.mpr ⟨doc, hdoc, beq_iff_eq.mpr hsame⟩

variable (documents : List MemoryDocument) (id content : String)

theorem updateDocument_keys :
    (updateDocument documents id content).map (·.key) = documents.map (·.key) := by
  unfold updateDocument
  rw [map_map]
  refine map_congr_left fun doc _ => ?_
  show (if doc.id = id then { doc with content } else doc).key = doc.key
  split <;> rfl

theorem updateDocument_ids :
    (updateDocument documents id content).map (·.id) = documents.map (·.id) := by
  unfold updateDocument
  rw [map_map]
  refine map_congr_left fun doc _ => ?_
  show (if doc.id = id then { doc with content } else doc).id = doc.id
  split <;> rfl

end TitanClaw.Workspace
