import Mathlib.Data.List.Dedup
import Mathlib.Data.List.Sort
import TitanClaw.Workspace.Documents

/-! # Queries of the syntax graph

The functions and types of indexed Rust documents are nodes of a graph, with an edge from a
node to what it calls. A query starts from the nodes of one name and follows calls by name
from document to document. The nodes are those of all documents in the database, whoever
owns them. -/

namespace TitanClaw.Workspace

open List Bool

structure StoredAstNode where
  id : String
  documentId : String
  nodeType : String
  name : String
  contentPreview : String
  startByte : Int
  endByte : Int
  deriving DecidableEq

structure StoredAstEdge where
  id : String
  sourceNodeId : String
  targetNodeId : String
  edgeType : String
  deriving DecidableEq

/-- The three tables, with the primary keys, the unique constraint of the nodes and their
reference to documents. -/
structure AstGraphDb where
  documents : List MemoryDocument
  nodes : List StoredAstNode
  edges : List StoredAstEdge
  documentIds : (documents.map (·.id)).Nodup
  nodeIds : (nodes.map (·.id)).Nodup
  names : (nodes.map fun node => (node.documentId, node.name)).Nodup
  documented : ∀ node ∈ nodes, ∃ doc ∈ documents, doc.id = node.documentId

structure RelatedSymbol where
  symbol : String
  hop : Nat
  matchCount : Nat
  paths : List String
  deriving DecidableEq

/-- An entry of the answer. The score is in halves. -/
structure AstGraphResult where
  symbol : String
  nodeType : String
  documentId : String
  path : String
  startByte : Int
  endByte : Int
  contentPreview : String
  outgoingCalls : List String
  outgoingEdgeCount : Nat
  relatedSymbols : List RelatedSymbol
  graphScore : Nat
  traversalDepth : Nat
  deriving DecidableEq

/-- The members of a list in order, each of them once. -/
def sortedSet (names : List String) : List String := names.dedup.insertionSort (· ≤ ·)

/-- The state of the expansion: the names seen, those to be looked up next, and what the
answer says of the ones looked up. -/
structure Walk where
  visited : List String
  next : List String
  related : List RelatedSymbol := []

namespace AstGraphDb

variable (db : AstGraphDb)

def findAstNodesByName (name : String) : List StoredAstNode := db.nodes.filter (·.name == name)

def getAstNodes (documentId : String) : List StoredAstNode :=
  db.nodes.filter (·.documentId == documentId)

def getAstEdgesFrom (sourceNodeId : String) : List StoredAstEdge :=
  db.edges.filter (·.sourceNodeId == sourceNodeId)

def document (id : String) : Except WorkspaceError MemoryDocument :=
  getDocumentById db.documents id {}

variable (node : StoredAstNode)

def targetNames : List String :=
  (db.getAstEdgesFrom node.id).filterMap fun edge =>
    ((db.getAstNodes node.documentId).find? (·.id == edge.targetNodeId)).map (·.name)

def linkedPaths (linked : List StoredAstNode) : List String :=
  sortedSet (linked.filterMap fun node => (db.document node.documentId).toOption.map (·.key.path))

/-- One name of the frontier. -/
def lookUp (hop : Nat) (walk : Walk) (symbol : String) : Walk :=
  if symbol ∈ walk.visited then walk
  else
    let visited := symbol :: walk.visited
    let linkedNodes := db.findAstNodesByName symbol
    let linked := linkedNodes.take 24
    { visited
      next := walk.next
        ++ linked.flatMap fun node => (db.targetNames node).filter fun name => name ∉ visited
      related := walk.related
        ++ [{ symbol, hop, matchCount := linkedNodes.length, paths := db.linkedPaths linked }] }

def hop (walk : Walk) (hop : Nat) : Walk :=
  if walk.next.isEmpty then walk
  else
    let walk := (walk.next.take 64).foldl (db.lookUp hop) { walk with next := [] }
    { walk with next := (sortedSet walk.next).take 64 }

def relatedSymbols (depth : Nat) : List RelatedSymbol :=
  if depth > 1 then
    ((List.range' 2 (min depth 3 - 1)).foldl db.hop
      { visited := [node.name], next := db.targetNames node }).related
  else []

def entry (depth : Nat) (node : StoredAstNode) (doc : MemoryDocument) : AstGraphResult :=
  let edges := db.getAstEdgesFrom node.id
  let relatedSymbols := db.relatedSymbols node depth
  { symbol := node.name
    nodeType := node.nodeType
    documentId := node.documentId
    path := doc.key.path
    startByte := node.startByte
    endByte := node.endByte
    contentPreview := node.contentPreview
    outgoingCalls := db.targetNames node
    outgoingEdgeCount := edges.length
    relatedSymbols
    graphScore := 2 * edges.length + relatedSymbols.length
    traversalDepth := min depth 3 }

def astGraphQuery (symbol : String) (limit depth : Nat) :
    Except WorkspaceError (List AstGraphResult) :=
  (((db.findAstNodesByName symbol).take (max limit 1)).mapM fun node =>
      (db.document node.documentId).map (db.entry depth node)).map fun results =>
    results.insertionSort fun a b => b.graphScore ≤ a.graphScore

/-! ## The caller's part of the database -/

end AstGraphDb

def MemoryDocument.ownedBy (owner : Owner) (doc : MemoryDocument) : Bool :=
  doc.key.userId == owner.userId && doc.key.agentId == owner.agentId

namespace AstGraphDb

variable (db : AstGraphDb) (owner : Owner)

/-- The node is one of a document of the owner's. -/
def owns (node : StoredAstNode) : Bool :=
  db.documents.any fun doc => doc.id == node.documentId && doc.ownedBy owner

theorem owns_iff {owner : Owner} {node : StoredAstNode} :
    db.owns owner node = true
      ↔ ∃ doc ∈ db.documents, doc.id = node.documentId ∧ doc.ownedBy owner = true := by
  simp [owns]

/-- The owner's documents, their nodes, and the edges from these. -/
def own : AstGraphDb where
  documents := db.documents.filter (·.ownedBy owner)
  nodes := db.nodes.filter (db.owns owner)
  edges := db.edges.filter fun edge =>
    (db.nodes.filter (db.owns owner)).any (·.id == edge.sourceNodeId)
  documentIds := db.documentIds.sublist (filter_sublist.map _)
  nodeIds := db.nodeIds.sublist (filter_sublist.map _)
  names := db.names.sublist (filter_sublist.map _)
  documented := by
    intro node hnode
    obtain ⟨-, howns⟩ := mem_filter.mp hnode
    obtain ⟨doc, hdoc, hid, howned⟩ := db.owns_iff.mp howns
    exact ⟨doc, mem_filter.mpr ⟨hdoc, howned⟩, hid⟩

/-- Two databases with the same documents of the owner's. -/
def AgreesOn (db db' : AstGraphDb) : Prop := db.own owner = db'.own owner

/-- An entry and the paths in it come from documents of the owner's. -/
structure FromOwn (owner : Owner) (result : AstGraphResult) : Prop where
  document : ∃ doc ∈ db.documents, doc.ownedBy owner = true ∧ doc.id = result.documentId
    ∧ doc.key.path = result.path
  preview : ∃ node ∈ db.nodes, db.owns owner node = true ∧ node.documentId = result.documentId
    ∧ node.name = result.symbol ∧ node.contentPreview = result.contentPreview
  related : ∀ related ∈ result.relatedSymbols, ∀ path ∈ related.paths,
    ∃ doc ∈ db.documents, doc.ownedBy owner = true ∧ doc.key.path = path

/-- All nodes of this name are the owner's. -/
def OnlyOwn (name : String) : Prop :=
  ∀ node ∈ db.nodes, node.name = name → db.owns owner node = true

def startNodes (symbol : String) (limit : Nat) : List StoredAstNode :=
  (db.findAstNodesByName symbol).take (max limit 1)

/-- The nodes that the query starts from are the owner's, and so are all nodes of the names
that the expansion visits in the owner's documents. -/
structure LooksUpOwn (owner : Owner) (symbol : String) (limit depth : Nat) : Prop where
  found : ∀ node ∈ db.startNodes symbol limit, db.owns owner node = true
  visited : ∀ node ∈ (db.own owner).startNodes symbol limit,
    ∀ related ∈ (db.own owner).relatedSymbols node depth, db.OnlyOwn owner related.symbol

section

variable {db} {owner : Owner} {node : StoredAstNode} {name : String}

theorem document_of_mem {doc : MemoryDocument} (hdoc : doc ∈ db.documents)
    (hid : doc.id = node.documentId) : db.document node.documentId = .ok doc := by
  unfold document getDocumentById
  cases hfind : db.documents.find? (·.id == node.documentId) with
  | none =>
    have hno := find?_eq_none.mp hfind doc hdoc
    exact absurd (beq_iff_eq.mpr hid) hno
  | some found =>
    have hfound : found.id = node.documentId := by simpa using find?_some hfind
    have hsame := inj_on_of_nodup_map db.documentIds (mem_of_find?_eq_some hfind) hdoc
      (hfound.trans hid.symm)
    rw [hsame]

theorem mem_of_document {id : String} {doc : MemoryDocument} (h : db.document id = .ok doc) :
    doc ∈ db.documents ∧ doc.id = id := by
  unfold document getDocumentById at h
  split at h
  · cases h
  split at h
  · next hfind =>
    cases h
    exact ⟨mem_of_find?_eq_some hfind, by simpa using find?_some hfind⟩
  · cases h

/-! ### The owner's part answers as the whole does -/

theorem own_document (h : db.owns owner node = true) :
    (db.own owner).document node.documentId = db.document node.documentId := by
  obtain ⟨doc, hdoc, hid, howned⟩ := db.owns_iff.mp h
  have hown : doc ∈ (db.own owner).documents := mem_filter.mpr ⟨hdoc, howned⟩
  rw [document_of_mem hdoc hid, document_of_mem hown hid]

theorem own_nodes (h : db.owns owner node = true) :
    (db.own owner).getAstNodes node.documentId = db.getAstNodes node.documentId := by
  show (db.nodes.filter _).filter _ = db.nodes.filter _
  rw [filter_filter]
  refine filter_congr fun other _ => ?_
  by_cases hid : other.documentId = node.documentId
  · have hother : db.owns owner other = true := by
      unfold owns at h ⊢
      rwa [hid]
    simp [hid, hother]
  · simp [hid]

theorem own_edges (hnode : node ∈ db.nodes) (h : db.owns owner node = true) :
    (db.own owner).getAstEdgesFrom node.id = db.getAstEdgesFrom node.id := by
  show (db.edges.filter _).filter _ = db.edges.filter _
  rw [filter_filter]
  refine filter_congr fun edge _ => ?_
  by_cases hid : edge.sourceNodeId = node.id
  · have hsource : (db.nodes.filter (db.owns owner)).any (·.id == edge.sourceNodeId) = true :=
      any_eq_true.mpr ⟨node, mem_filter.mpr ⟨hnode, h⟩, beq_iff_eq.mpr hid.symm⟩
    rw [hsource, Bool.and_true]
  · simp [hid]

theorem own_targetNames (hnode : node ∈ db.nodes) (h : db.owns owner node = true) :
    (db.own owner).targetNames node = db.targetNames node := by
  unfold targetNames
  rw [own_edges hnode h, own_nodes h]

theorem own_findAstNodesByName (name : String) :
    (db.own owner).findAstNodesByName name
      = (db.findAstNodesByName name).filter (db.owns owner) := by
  show (db.nodes.filter _).filter _ = (db.nodes.filter _).filter _
  rw [filter_filter, filter_filter]
  exact filter_congr fun other _ => and_comm _ _

theorem onlyOwn_iff :
    db.OnlyOwn owner name ↔ ∀ node ∈ db.findAstNodesByName name, db.owns owner node = true := by
  simp [OnlyOwn, findAstNodesByName]

theorem own_found (h : db.OnlyOwn owner name) :
    (db.own owner).findAstNodesByName name = db.findAstNodesByName name := by
  rw [own_findAstNodesByName, filter_eq_self]
  exact onlyOwn_iff.mp h

/-! ### The expansion -/

variable {symbol : String} {walk : Walk} {h : Nat} {seen : List RelatedSymbol}

theorem own_lookUp (hown : symbol ∉ walk.visited → db.OnlyOwn owner symbol) :
    (db.own owner).lookUp h walk symbol = db.lookUp h walk symbol := by
  unfold lookUp
  split
  · rfl
  next hnew =>
  have honly := hown hnew
  have howned := onlyOwn_iff.mp honly
  have hmem : ∀ node ∈ (db.findAstNodesByName symbol).take 24,
      node ∈ db.nodes ∧ db.owns owner node = true := fun node hnode =>
    have hfound := mem_of_mem_take hnode
    ⟨(mem_filter.mp hfound).1, howned node hfound⟩
  have hnext : ((db.findAstNodesByName symbol).take 24).flatMap
        (fun node => ((db.own owner).targetNames node).filter (· ∉ symbol :: walk.visited))
      = ((db.findAstNodesByName symbol).take 24).flatMap
        fun node => (db.targetNames node).filter (· ∉ symbol :: walk.visited) :=
    flatMap_congr fun node hnode => by rw [own_targetNames (hmem node hnode).1 (hmem node hnode).2]
  have hpaths : (db.own owner).linkedPaths ((db.findAstNodesByName symbol).take 24)
      = db.linkedPaths ((db.findAstNodesByName symbol).take 24) := by
    unfold linkedPaths
    rw [filterMap_congr fun node hnode => by rw [own_document (hmem node hnode).2]]
  simp only [own_found honly, hnext, hpaths]

/-- What is said of a name that is looked up tells whether other owners have nodes of it. -/
theorem onlyOwn_of_lookUp (hnew : symbol ∉ walk.visited)
    (hrelated : (db.lookUp h walk symbol).related = ((db.own owner).lookUp h walk symbol).related) :
    db.OnlyOwn owner symbol := by
  simp only [lookUp, if_neg hnew, append_cancel_left_eq, cons.injEq,
    RelatedSymbol.mk.injEq] at hrelated
  have hlength := hrelated.1.2.2.1
  rw [own_findAstNodesByName] at hlength
  exact onlyOwn_iff.mpr (length_filter_eq_length_iff.mp hlength.symm)

section

variable (db : AstGraphDb)

theorem lookUp_related (h : Nat) (walk : Walk) (symbol : String) :
    walk.related <+: (db.lookUp h walk symbol).related := by
  unfold lookUp
  split
  · exact prefix_refl _
  · exact prefix_append _ _

theorem foldl_lookUp_related (h : Nat) (frontier : List String) (walk : Walk) :
    walk.related <+: (frontier.foldl (db.lookUp h) walk).related := by
  induction frontier generalizing walk with
  | nil => exact prefix_refl _
  | cons symbol _ ih => exact (db.lookUp_related h walk symbol).trans (ih _)

theorem hop_related (walk : Walk) (h : Nat) : walk.related <+: (db.hop walk h).related := by
  unfold hop
  split
  · exact prefix_refl _
  · exact db.foldl_lookUp_related h _ { walk with next := [] }

theorem foldl_hop_related (hops : List Nat) (walk : Walk) :
    walk.related <+: (hops.foldl db.hop walk).related := by
  induction hops generalizing walk with
  | nil => exact prefix_refl _
  | cons h _ ih => exact (db.hop_related walk h).trans (ih _)

end

variable (frontier : List String)

/-- The expansion in the owner's part is the one in the whole if all it looks up is the
owner's. -/
theorem own_foldl_lookUp
    (hown : ∀ related ∈ (frontier.foldl ((db.own owner).lookUp h) walk).related,
      db.OnlyOwn owner related.symbol) :
    frontier.foldl ((db.own owner).lookUp h) walk = frontier.foldl (db.lookUp h) walk := by
  induction frontier generalizing walk with
  | nil => rfl
  | cons symbol frontier ih =>
    have hfirst : (db.own owner).lookUp h walk symbol = db.lookUp h walk symbol := by
      refine own_lookUp fun hnew => ?_
      obtain ⟨related, hmem, rfl⟩ : ∃ related ∈ ((db.own owner).lookUp h walk symbol).related,
        related.symbol = symbol := by simp [lookUp, hnew]
      exact hown related ((foldl_lookUp_related _ h frontier _).subset hmem)
    rw [foldl_cons, foldl_cons, ih hown, hfirst]

theorem own_hop (hown : ∀ related ∈ ((db.own owner).hop walk h).related,
      db.OnlyOwn owner related.symbol) : (db.own owner).hop walk h = db.hop walk h := by
  unfold hop at hown ⊢
  split
  · rfl
  next hsome =>
  rw [if_neg hsome] at hown
  rw [own_foldl_lookUp _ hown]

theorem own_foldl_hop (hops : List Nat)
    (hown : ∀ related ∈ (hops.foldl (db.own owner).hop walk).related,
      db.OnlyOwn owner related.symbol) :
    hops.foldl (db.own owner).hop walk = hops.foldl db.hop walk := by
  induction hops generalizing walk with
  | nil => rfl
  | cons h hops ih =>
    have hfirst : (db.own owner).hop walk h = db.hop walk h :=
      own_hop fun related hmem => hown related ((foldl_hop_related _ hops _).subset hmem)
    rw [foldl_cons, foldl_cons, ih hown, hfirst]

variable {depth : Nat}

theorem own_relatedSymbols (hnode : node ∈ db.nodes) (howns : db.owns owner node = true)
    (hown : ∀ related ∈ (db.own owner).relatedSymbols node depth, db.OnlyOwn owner related.symbol) :
    (db.own owner).relatedSymbols node depth = db.relatedSymbols node depth := by
  unfold relatedSymbols at hown ⊢
  split
  · next hdepth =>
    rw [if_pos hdepth, own_targetNames hnode howns] at hown
    rw [own_targetNames hnode howns, own_foldl_hop _ hown]
  · rfl

section

variable (hown : ∀ related ∈ walk.related, db.OnlyOwn owner related.symbol)

include hown

/-- Two expansions that say the same have looked up the same, and only what is the owner's.
`seen` is what both say in the end. -/
theorem onlyOwn_of_foldl_lookUp (hseen : (frontier.foldl (db.lookUp h) walk).related <+: seen)
    (hseen' : (frontier.foldl ((db.own owner).lookUp h) walk).related <+: seen) :
    frontier.foldl ((db.own owner).lookUp h) walk = frontier.foldl (db.lookUp h) walk
      ∧ ∀ related ∈ (frontier.foldl (db.lookUp h) walk).related,
        db.OnlyOwn owner related.symbol := by
  induction frontier generalizing walk with
  | nil => exact ⟨rfl, hown⟩
  | cons symbol frontier ih =>
    rw [foldl_cons] at hseen hseen' ⊢
    have hfirst : symbol ∉ walk.visited → db.OnlyOwn owner symbol := by
      intro hnew
      -- both have added one member to what was there, at the same place of `seen`
      have hone := (foldl_lookUp_related db h frontier _).trans hseen
      have hother := (foldl_lookUp_related (db.own owner) h frontier _).trans hseen'
      rw [prefix_iff_eq_take] at hone hother
      refine onlyOwn_of_lookUp (h := h) hnew ?_
      rw [hone, hother]
      simp [lookUp, hnew]
    rw [own_lookUp hfirst] at hseen' ⊢
    refine ih (fun related hmem => ?_) hseen hseen'
    unfold lookUp at hmem
    split at hmem
    · exact hown related hmem
    next hnew =>
    rcases mem_append.mp hmem with hold | hadded
    · exact hown related hold
    rw [mem_singleton.mp hadded]
    exact hfirst hnew

theorem onlyOwn_of_hop (hseen : (db.hop walk h).related <+: seen)
    (hseen' : ((db.own owner).hop walk h).related <+: seen) :
    (db.own owner).hop walk h = db.hop walk h
      ∧ ∀ related ∈ (db.hop walk h).related, db.OnlyOwn owner related.symbol := by
  unfold hop at hseen hseen' ⊢
  split
  · exact ⟨rfl, hown⟩
  next hsome =>
  rw [if_neg hsome] at hseen hseen'
  have hempty : ∀ related ∈ ({ walk with next := [] } : Walk).related,
      db.OnlyOwn owner related.symbol := hown
  obtain ⟨heq, honly⟩ := onlyOwn_of_foldl_lookUp _ hempty hseen hseen'
  exact ⟨by rw [heq], honly⟩

end

theorem onlyOwn_of_foldl_hop (hops : List Nat)
    (hown : ∀ related ∈ walk.related, db.OnlyOwn owner related.symbol)
    (hseen : (hops.foldl db.hop walk).related <+: seen)
    (hseen' : (hops.foldl (db.own owner).hop walk).related <+: seen) :
    ∀ related ∈ (hops.foldl (db.own owner).hop walk).related, db.OnlyOwn owner related.symbol := by
  induction hops generalizing walk with
  | nil => exact hown
  | cons h hops ih =>
    rw [foldl_cons] at hseen hseen' ⊢
    obtain ⟨heq, honly⟩ := onlyOwn_of_hop hown
      ((foldl_hop_related db hops _).trans hseen)
      ((foldl_hop_related (db.own owner) hops _).trans hseen')
    rw [heq] at hseen' ⊢
    exact ih honly hseen hseen'

theorem onlyOwn_of_relatedSymbols (hnode : node ∈ db.nodes) (howns : db.owns owner node = true)
    (h : db.relatedSymbols node depth = (db.own owner).relatedSymbols node depth) :
    ∀ related ∈ (db.own owner).relatedSymbols node depth, db.OnlyOwn owner related.symbol := by
  unfold relatedSymbols at h ⊢
  split
  · next hdepth =>
    rw [if_pos hdepth, if_pos hdepth, own_targetNames hnode howns] at h
    rw [own_targetNames hnode howns]
    exact onlyOwn_of_foldl_hop _ (forall_mem_nil _) (h ▸ prefix_refl _) (prefix_refl _)
  · exact forall_mem_nil _

section

variable (hwalk : ∀ related ∈ walk.related, ∀ path ∈ related.paths, ∃ doc ∈ db.documents, doc.key.path = path)

include hwalk

theorem lookUp_paths :
    ∀ related ∈ (db.lookUp h walk symbol).related, ∀ path ∈ related.paths,
      ∃ doc ∈ db.documents, doc.key.path = path := by
  unfold lookUp
  split
  · exact hwalk
  refine forall_mem_append.mpr ⟨hwalk, forall_mem_singleton.mpr fun path hpath => ?_⟩
  simp only [linkedPaths, sortedSet, mem_insertionSort, mem_dedup, mem_filterMap] at hpath
  obtain ⟨linked, -, hdoc⟩ := hpath
  cases hget : db.document linked.documentId with
  | error => simp [hget, Except.toOption] at hdoc
  | ok doc =>
    simp only [hget, Except.toOption, Option.map_some, Option.some.injEq] at hdoc
    exact ⟨doc, (mem_of_document hget).1, hdoc⟩

theorem foldl_lookUp_paths :
    ∀ related ∈ (frontier.foldl (db.lookUp h) walk).related, ∀ path ∈ related.paths,
      ∃ doc ∈ db.documents, doc.key.path = path := by
  induction frontier generalizing walk with
  | nil => exact hwalk
  | cons _ _ ih => exact ih (lookUp_paths hwalk)

end

theorem foldl_hop_paths (hops : List Nat) (hwalk : ∀ related ∈ walk.related, ∀ path ∈ related.paths,
      ∃ doc ∈ db.documents, doc.key.path = path) :
    ∀ related ∈ (hops.foldl db.hop walk).related, ∀ path ∈ related.paths,
      ∃ doc ∈ db.documents, doc.key.path = path := by
  induction hops generalizing walk with
  | nil => exact hwalk
  | cons _ _ ih =>
    refine ih ?_
    unfold hop
    split
    · exact hwalk
    have hempty : ∀ related ∈ ({ walk with next := [] } : Walk).related,
        ∀ path ∈ related.paths, ∃ doc ∈ db.documents, doc.key.path = path := hwalk
    exact foldl_lookUp_paths _ hempty

theorem relatedSymbols_paths (node : StoredAstNode) (depth : Nat) :
    ∀ related ∈ db.relatedSymbols node depth, ∀ path ∈ related.paths,
      ∃ doc ∈ db.documents, doc.key.path = path := by
  unfold relatedSymbols
  split
  · exact foldl_hop_paths _ (forall_mem_nil _)
  · exact forall_mem_nil _

/-! ### The answer -/

/-- The document of a node that is in the table. -/
def docOf (db : AstGraphDb) (node : StoredAstNode) : MemoryDocument :=
  (db.document node.documentId).toOption.getD ⟨"", ⟨"", none, ""⟩, ""⟩

theorem document_eq_docOf (hnode : node ∈ db.nodes) :
    db.document node.documentId = .ok (db.docOf node) := by
  obtain ⟨doc, hdoc, hid⟩ := db.documented node hnode
  rw [docOf, document_of_mem hdoc hid]
  rfl

theorem mem_startNodes {limit : Nat} (h : node ∈ db.startNodes symbol limit) :
    node ∈ db.nodes ∧ node.name = symbol := by
  obtain ⟨hnode, hname⟩ := mem_filter.mp (mem_of_mem_take h)
  exact ⟨hnode, beq_iff_eq.mp hname⟩

theorem mapM_entry (depth : Nat) (nodes : List StoredAstNode) (h : nodes ⊆ db.nodes) :
    (nodes.mapM fun node => (db.document node.documentId).map (db.entry depth node))
      = .ok (nodes.map fun node => db.entry depth node (db.docOf node)) := by
  induction nodes with
  | nil => rfl
  | cons _ _ ih =>
    obtain ⟨hnode, hnodes⟩ := cons_subset.mp h
    rw [mapM_cons, document_eq_docOf hnode, ih hnodes]
    rfl

theorem astGraphQuery_eq (db : AstGraphDb) (symbol : String) (limit depth : Nat) :
    db.astGraphQuery symbol limit depth
      = .ok (((db.startNodes symbol limit).map fun node =>
          db.entry depth node (db.docOf node)).insertionSort
            fun a b => b.graphScore ≤ a.graphScore) := by
  have hsub : db.startNodes symbol limit ⊆ db.nodes := fun node hnode => (mem_startNodes hnode).1
  unfold astGraphQuery
  rw [← startNodes, mapM_entry depth _ hsub]
  rfl

theorem own_docOf (h : db.owns owner node = true) : (db.own owner).docOf node = db.docOf node := by
  rw [docOf, docOf, own_document h]

theorem own_entry (hnode : node ∈ db.nodes) (howns : db.owns owner node = true)
    (hown : ∀ related ∈ (db.own owner).relatedSymbols node depth, db.OnlyOwn owner related.symbol) :
    (db.own owner).entry depth node ((db.own owner).docOf node)
      = db.entry depth node (db.docOf node) := by
  unfold entry
  rw [own_docOf howns, own_edges hnode howns, own_targetNames hnode howns,
    own_relatedSymbols hnode howns hown]

theorem take_filter_of_take {α : Type*} {p : α → Bool} {l : List α} {k : Nat}
    (h : ∀ a ∈ l.take k, p a = true) : (l.filter p).take k = l.take k := by
  nth_rewrite 1 [← take_append_drop k l]
  rw [filter_append, filter_eq_self.mpr h]
  rcases Nat.le_total k l.length with hk | hk
  · exact take_left' (length_take_of_le hk)
  · simp [drop_eq_nil_of_le hk, take_take]

theorem own_startNodes {limit : Nat}
    (h : ∀ node ∈ db.startNodes symbol limit, db.owns owner node = true) :
    (db.own owner).startNodes symbol limit = db.startNodes symbol limit := by
  rw [startNodes, own_findAstNodesByName]
  exact take_filter_of_take h

theorem LooksUpOwn.related {limit depth : Nat} (h : db.LooksUpOwn owner symbol limit depth)
    (hnode : node ∈ db.startNodes symbol limit) :
    ∀ related ∈ (db.own owner).relatedSymbols node depth, db.OnlyOwn owner related.symbol := by
  rw [← own_startNodes h.found] at hnode
  exact h.visited node hnode

theorem own_astGraphQuery {limit depth : Nat} (h : db.LooksUpOwn owner symbol limit depth) :
    (db.own owner).astGraphQuery symbol limit depth = db.astGraphQuery symbol limit depth := by
  rw [astGraphQuery_eq, astGraphQuery_eq, own_startNodes h.found]
  congr 2
  refine map_congr_left fun node hnode => ?_
  exact own_entry (mem_startNodes hnode).1 (h.found node hnode) (h.related hnode)

theorem docOf_owned (h : db.owns owner node = true) :
    db.docOf node ∈ db.documents ∧ (db.docOf node).ownedBy owner = true
      ∧ (db.docOf node).id = node.documentId := by
  obtain ⟨doc, hdoc, hid, howned⟩ := db.owns_iff.mp h
  have heq : db.docOf node = doc := by
    rw [docOf, document_of_mem hdoc hid]
    rfl
  rw [heq]
  exact ⟨hdoc, howned, hid⟩

theorem fromOwn_entry (hnode : node ∈ db.nodes) (howns : db.owns owner node = true)
    (hown : ∀ related ∈ (db.own owner).relatedSymbols node depth, db.OnlyOwn owner related.symbol) :
    db.FromOwn owner (db.entry depth node (db.docOf node)) where
  document :=
    have ⟨hdoc, howned, hid⟩ := docOf_owned howns
    ⟨_, hdoc, howned, hid, rfl⟩
  preview := ⟨node, hnode, howns, rfl, rfl, rfl⟩
  related := by
    intro related hrelated path hpath
    rw [show (db.entry depth node (db.docOf node)).relatedSymbols = db.relatedSymbols node depth
      from rfl, ← own_relatedSymbols hnode howns hown] at hrelated
    obtain ⟨doc, hdoc, hdocPath⟩ := relatedSymbols_paths node depth related hrelated path hpath
    obtain ⟨hmem, howned⟩ := mem_filter.mp hdoc
    exact ⟨doc, hmem, howned, hdocPath⟩

theorem mem_astGraphQuery {limit depth : Nat} {results : List AstGraphResult}
    (h : db.astGraphQuery symbol limit depth = .ok results) {result : AstGraphResult} :
    result ∈ results
      ↔ ∃ node ∈ db.startNodes symbol limit, db.entry depth node (db.docOf node) = result := by
  rw [astGraphQuery_eq, Except.ok.injEq] at h
  rw [← h, mem_insertionSort, mem_map]

theorem looksUpOwn_of_answer {limit depth : Nat}
    (hfrom : ∀ results, db.astGraphQuery symbol limit depth = .ok results →
      ∀ result ∈ results, db.FromOwn owner result) (hsame : db.astGraphQuery symbol limit depth
      = (db.own owner).astGraphQuery symbol limit depth) :
    db.LooksUpOwn owner symbol limit depth := by
  have hanswer := db.astGraphQuery_eq symbol limit depth
  have hfound : ∀ node ∈ db.startNodes symbol limit, db.owns owner node = true := by
    intro node hnode
    obtain ⟨doc, hdoc, howned, hid, -⟩ :=
      (hfrom _ hanswer _ ((mem_astGraphQuery hanswer).mpr ⟨node, hnode, rfl⟩)).document
    exact db.owns_iff.mpr ⟨doc, hdoc, hid, howned⟩
  refine ⟨hfound, fun node hstart => ?_⟩
  have hnode : node ∈ db.startNodes symbol limit := by rwa [← own_startNodes hfound]
  obtain ⟨hmem, hname⟩ := mem_startNodes hnode
  -- the answer from the owner's part has the same entry, and it is of the same node
  obtain ⟨other, hother, heq⟩ := (mem_astGraphQuery (hsame.symm.trans hanswer)).mp
    ((mem_astGraphQuery hanswer).mpr ⟨node, hnode, rfl⟩)
  rw [own_startNodes hfound] at hother
  obtain ⟨hotherMem, hotherName⟩ := mem_startNodes hother
  have hid : other.documentId = node.documentId := congrArg AstGraphResult.documentId heq
  have hother : other = node := inj_on_of_nodup_map db.names hotherMem hmem
    (by rw [hid, hotherName, hname])
  subst hother
  have hrelated := congrArg AstGraphResult.relatedSymbols heq
  exact onlyOwn_of_relatedSymbols hmem (hfound _ hnode) hrelated.symm

end

/-- A query tells its caller only of the caller's documents, and answers as if there were no
others, exactly if it meets no node of another's; two databases with the same documents of the
caller's then give the same answer. -/
theorem astGraphQuery_isolated_iff (symbol : String) (limit depth : Nat) :
    (((∀ results, db.astGraphQuery symbol limit depth = .ok results →
          ∀ result ∈ results, db.FromOwn owner result)
        ∧ db.astGraphQuery symbol limit depth = (db.own owner).astGraphQuery symbol limit depth)
      ↔ db.LooksUpOwn owner symbol limit depth)
    ∧ ∀ db', AgreesOn owner db db' → db.LooksUpOwn owner symbol limit depth →
        db'.LooksUpOwn owner symbol limit depth →
        db.astGraphQuery symbol limit depth = db'.astGraphQuery symbol limit depth := by
  refine ⟨⟨fun ⟨hfrom, hsame⟩ => looksUpOwn_of_answer hfrom hsame, fun h => ⟨?_, ?_⟩⟩, ?_⟩
  · intro results hresults result hresult
    obtain ⟨node, hnode, rfl⟩ := (mem_astGraphQuery hresults).mp hresult
    exact fromOwn_entry (mem_startNodes hnode).1 (h.found node hnode) (h.related hnode)
  · exact (own_astGraphQuery h).symm
  · intro db' hagree h h'
    rw [← own_astGraphQuery h, ← own_astGraphQuery h', hagree]

def aliceAndBob : AstGraphDb where
  documents :=
    [ ⟨"d1", ⟨"alice", none, "src/main.rs"⟩, "fn main() \x7b run() \x7d fn run() \x7b\x7d"⟩,
      ⟨"d2", ⟨"bob", none, "secret/plan.rs"⟩, "fn main() \x7b launch() \x7d"⟩ ]
  nodes :=
    [ ⟨"n1", "d1", "function_item", "main", "fn main() \x7b run() \x7d", 0, 18⟩,
      ⟨"n2", "d2", "function_item", "main", "fn main() \x7b launch() \x7d", 0, 21⟩ ]
  edges := []
  documentIds := by decide
  nodeIds := by decide
  names := by decide
  documented := by decide

/-- Alice asks for `main` and is shown the one of Bob's document, with its path and text. -/
theorem aliceAndBob_shows_bob :
    (∃ results, aliceAndBob.astGraphQuery "main" 10 1 = .ok results
      ∧ ∃ result ∈ results, result.path = "secret/plan.rs"
        ∧ result.contentPreview = "fn main() \x7b launch() \x7d"
        ∧ ¬ aliceAndBob.FromOwn ⟨"alice", none⟩ result)
    ∧ aliceAndBob.astGraphQuery "main" 10 1
        ≠ (aliceAndBob.own ⟨"alice", none⟩).astGraphQuery "main" 10 1 := by
  refine ⟨⟨_, rfl, aliceAndBob.entry 1 ⟨"n2", "d2", "function_item", "main",
    "fn main() \x7b launch() \x7d", 0, 21⟩ ⟨"d2", ⟨"bob", none, "secret/plan.rs"⟩,
    "fn main() \x7b launch() \x7d"⟩, by decide, rfl, rfl, fun h => ?_⟩, by decide⟩
  obtain ⟨doc, hdoc, howned, hid, -⟩ := h.document
  revert doc
  decide

end AstGraphDb

end TitanClaw.Workspace
