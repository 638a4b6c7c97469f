import TitanClaw.Lib.Table
import TitanClaw.Workspace.AstGraph

/-! # Indexing the syntax graph

When a Rust document is indexed, the nodes that are stored for it and their edges are deleted
and those of its content are inserted, one call of the store after the other. Where the content
has no nodes the function returns before that. -/

namespace TitanClaw.Workspace

open Text Faulty List Run

/-- A node of the parsed content. The calls are a set, in the order in which it lists them. -/
structure AstNode where
  nodeType : String
  name : String
  contentPreview : String
  startByte : Nat
  endByte : Nat
  outgoingCalls : List String

/-- The two stores differ in what they do with a second node of one name. -/
inductive AstBackend where
  | libsql
  | postgres

/-! ## The tables -/

structure GraphTables where
  nodes : List StoredAstNode := []
  edges : List StoredAstEdge := []
  deriving DecidableEq

namespace GraphTables

variable (s : GraphTables)

/-- Rows are deleted, and the edges from and to them with them. -/
def remove (gone : StoredAstNode → Bool) : GraphTables where
  nodes := s.nodes.filter fun node => !gone node
  edges := s.edges.filter fun edge => !(s.nodes.filter gone).any fun node =>
    node.id == edge.sourceNodeId || node.id == edge.targetNodeId

def append (node : StoredAstNode) : GraphTables :=
  { s with nodes := s.nodes ++ [node] }

/-- `UNIQUE (document_id, name)`. -/
def conflicts (node other : StoredAstNode) : Bool :=
  other.documentId == node.documentId && other.name == node.name

def updated (node other : StoredAstNode) : StoredAstNode :=
  if conflicts node other then { node with id := other.id } else other

/-- `INSERT OR REPLACE`, or `ON CONFLICT (document_id, name) DO UPDATE`, which keeps the id. -/
def addNode (backend : AstBackend) (node : StoredAstNode) (s : GraphTables) :
    Except Fault GraphTables :=
  match backend with
  | .libsql => .ok ((s.remove fun other => other.id == node.id || conflicts node other).append node)
  | .postgres =>
      -- the row keeps its id, and the caller gets one that no node has
      if s.nodes.any (conflicts node) then .ok { s with nodes := s.nodes.map (updated node) }
      else if s.nodes.any (·.id == node.id) then
        .error (.refused "duplicate key value violates unique constraint")
      else .ok (s.append node)

def addEdge (edge : StoredAstEdge) (s : GraphTables) : Except Fault GraphTables :=
  if !(s.nodes.any (·.id == edge.sourceNodeId) && s.nodes.any (·.id == edge.targetNodeId)) then
    .error (.refused "violates foreign key constraint")
  else if s.edges.any (·.id == edge.id) then
    .error (.refused "duplicate key value violates unique constraint")
  else .ok { s with edges := s.edges ++ [edge] }

/-- The nodes of a document, and the edges from them. -/
def of (documentId : String) : GraphTables where
  nodes := s.nodes.filter (·.documentId == documentId)
  edges := s.edges.filter fun edge =>
    (s.nodes.filter (·.documentId == documentId)).any (·.id == edge.sourceNodeId)

end GraphTables

/-! ## The indexer -/

/-- What the calls of the store get from outside: new ids, and how they end. -/
structure IndexInput where
  nodeId : Nat → String
  edgeId : Nat → String
  delete : Reply Fault := .answered
  node : Nat → Reply Fault := fun _ => .answered
  edge : Nat → Reply Fault := fun _ => .answered

structure IndexCall where
  documentId : String
  path : String
  content : String
  input : IndexInput

/-- The store, and the parser. -/
structure IndexerDeps where
  backend : AstBackend
  parseRustAst : String → Except String (List AstNode)

abbrev GraphProg := StoreProg GraphTables WorkspaceError

namespace IndexerDeps

variable (D : IndexerDeps)

def offset (n : Nat) : Int :=
  match D.backend with
  | .libsql => (n : Int).bmod (2 ^ 64)
  | .postgres => (n : Int).bmod (2 ^ 32)

def row (documentId id : String) (node : AstNode) : StoredAstNode where
  id := id
  documentId := documentId
  nodeType := node.nodeType
  name := node.name
  contentPreview := node.contentPreview
  startByte := D.offset node.startByte
  endByte := D.offset node.endByte

def error (what : String) : Fault → WorkspaceError
  | .connect e =>
      .searchFailed (match D.backend with
        | .libsql => e
        | .postgres => "Pool error: " ++ e)
  | .refused e => .searchFailed (what ++ " failed: " ++ e)

def statement (what : String) (reply : Reply Fault)
    (effect : GraphTables → Except Fault GraphTables) : GraphProg PUnit :=
  attempt (reply.mapError (D.error what)) fun s => (effect s).mapError (D.error what)

def deleteAstNodes (documentId : String) (input : IndexInput) : GraphProg PUnit :=
  D.statement "Delete AST nodes" input.delete fun s => .ok (s.remove (·.documentId == documentId))

def insertNodes (documentId : String) (input : IndexInput) : Nat → List AstNode → GraphProg PUnit
  | _, [] => pure ⟨⟩
  | i, node :: rest => do
      D.statement "Insert AST node" (input.node i)
        (GraphTables.addNode D.backend (D.row documentId (input.nodeId i) node))
      insertNodes documentId input (i + 1) rest

def nodeIds (input : IndexInput) : Nat → List AstNode → Table String String → Table String String
  | _, [], ids => ids
  | i, node :: rest, ids => nodeIds input (i + 1) rest (ids.insert node.name (input.nodeId i))

def calls (nodes : List AstNode) (nodeIds : Table String String) : List (String × String) :=
  nodes.flatMap fun node =>
    match nodeIds.lookup node.name with
    | some sourceId =>
        node.outgoingCalls.filterMap fun callee =>
          (nodeIds.lookup callee).map fun targetId => (sourceId, targetId)
    | none => []

def insertEdges (input : IndexInput) : Nat → List (String × String) → GraphProg PUnit
  | _, [] => pure ⟨⟩
  | i, (sourceId, targetId) :: rest => do
      D.statement "Insert AST edge" (input.edge i)
        (GraphTables.addEdge ⟨input.edgeId i, sourceId, targetId, "calls"⟩)
      insertEdges input (i + 1) rest

def insertGraph (documentId : String) (input : IndexInput) (nodes : List AstNode) :
    GraphProg PUnit := do
  D.insertNodes documentId input 0 nodes
  D.insertEdges input 0 (calls nodes (nodeIds input 0 nodes ∅))

def nodesOf (path content : String) : List AstNode :=
  if endsWith path ".rs" then
    match D.parseRustAst content with
    | .ok nodes => nodes
    | .error _ => []
  else []

def indexDocument (call : IndexCall) : GraphProg PUnit :=
  let nodes := D.nodesOf call.path call.content
  -- without nodes the old ones are not deleted either
  if nodes.isEmpty then pure ⟨⟩
  else do
    D.deleteAstNodes call.documentId call.input
    D.insertGraph call.documentId call.input nodes

/-- The error of a call is logged, and what it has done stays done. -/
def step (s : GraphTables) (call : IndexCall) : GraphTables := (exec (D.indexDocument call) s).2

end IndexerDeps

/-! ## The rows of one document -/

namespace GraphTables

variable {s : GraphTables} {documentId : String}

/-- The foreign keys of the edges. -/
def Linked (s : GraphTables) : Prop :=
  ∀ edge ∈ s.edges, (∃ node ∈ s.nodes, node.id = edge.sourceNodeId)
    ∧ ∃ node ∈ s.nodes, node.id = edge.targetNodeId

/-- The row of the table that an edge refers to is still there, or the edge is gone too. -/
theorem Linked.remove (h : s.Linked) (gone : StoredAstNode → Bool) : (s.remove gone).Linked := by
  intro edge hedge
  obtain ⟨hmem, huntouched⟩ := mem_filter.mp hedge
  have hkept (id : String) (hid : id = edge.sourceNodeId ∨ id = edge.targetNodeId) :
      (∃ node ∈ s.nodes, node.id = id) → ∃ node ∈ (s.remove gone).nodes, node.id = id := by
    rintro ⟨node, hnode, hsame⟩
    refine ⟨node, mem_filter.mpr ⟨hnode, ?_⟩, hsame⟩
    by_contra hgone
    rw [Bool.not_eq_true', any_eq_false] at huntouched
    refine huntouched node (mem_filter.mpr ⟨hnode, by simpa using hgone⟩) ?_
    simpa [hsame] using hid
  exact ⟨hkept _ (.inl rfl) (h edge hmem).1, hkept _ (.inr rfl) (h edge hmem).2⟩

theorem Linked.append (h : s.Linked) (node : StoredAstNode) : (s.append node).Linked := by
  intro edge hedge
  obtain ⟨⟨source, hsource, hid⟩, target, htarget, hid'⟩ := h edge hedge
  exact ⟨⟨source, mem_append_left _ hsource, hid⟩, target, mem_append_left _ htarget, hid'⟩

theorem of_remove {gone : StoredAstNode → Bool}
    (hgone : ∀ node ∈ s.nodes, gone node = true → node.documentId = documentId) :
    (s.remove gone).of documentId = (s.of documentId).remove gone := by
  have hnodes : (s.nodes.filter fun node => !gone node).filter (·.documentId == documentId)
      = (s.nodes.filter (·.documentId == documentId)).filter fun node => !gone node := by
    rw [filter_filter, filter_filter]
    exact filter_congr fun node _ => Bool.and_comm _ _
  have hrows : (s.nodes.filter (·.documentId == documentId)).filter gone = s.nodes.filter gone := by
    rw [filter_filter]
    refine filter_congr fun node hnode => ?_
    cases hg : gone node with
    | true => simp [hgone node hnode hg]
    | false => rfl
  unfold remove of
  simp only [hnodes, hrows, mk.injEq, true_and]
  refine filter_filter.trans (.trans (filter_congr fun edge _ => ?_) filter_filter.symm)
  -- a node that an edge comes from is not among those removed, or the edge is
  cases htouched : (s.nodes.filter gone).any fun node =>
      node.id == edge.sourceNodeId || node.id == edge.targetNodeId with
  | true => simp
  | false =>
    simp only [Bool.not_false, Bool.and_true, Bool.true_and, any_filter]
    rw [Bool.eq_iff_iff, any_eq_true, any_eq_true]
    refine exists_congr fun node => and_congr_right fun hnode => ?_
    have hstays : (node.id == edge.sourceNodeId) = true → gone node = false := by
      intro hsource
      rw [any_eq_false] at htouched
      by_contra hg
      exact htouched node (mem_filter.mpr ⟨hnode, by simpa using hg⟩) (by simp [hsource])
    cases hsource : node.id == edge.sourceNodeId with
    | false => simp
    | true => simp [hstays hsource]

/-- A node that no edge comes from is added to the rows of its document. -/
theorem of_append {node : StoredAstNode} (hdoc : node.documentId = documentId)
    (hnew : ∀ edge ∈ s.edges, edge.sourceNodeId ≠ node.id) :
    (s.append node).of documentId = (s.of documentId).append node := by
  have hnodes : (s.nodes ++ [node]).filter (·.documentId == documentId)
      = s.nodes.filter (·.documentId == documentId) ++ [node] := by
    rw [filter_append, filter_cons_of_pos (by simp [hdoc]), filter_nil]
  unfold append of
  simp only [hnodes, mk.injEq, true_and]
  refine filter_congr fun edge hedge => ?_
  have hne : (node.id == edge.sourceNodeId) = false := by simpa using Ne.symm (hnew edge hedge)
  simp [hne]

theorem mem_of_edges {edge : StoredAstEdge} :
    edge ∈ (s.of documentId).edges ↔ edge ∈ s.edges
      ∧ ∃ node ∈ s.nodes, node.documentId = documentId ∧ node.id = edge.sourceNodeId := by
  simp [of]

/-- The new ids are not in use by other documents. -/
structure Foreign (documentId : String) (input : IndexInput) (s : GraphTables) : Prop where
  linked : s.Linked
  nodes : ∀ node ∈ s.nodes, ∀ i, node.id = input.nodeId i → node.documentId = documentId
  edges : ∀ edge ∈ s.edges, ∀ i, edge.id = input.edgeId i → edge ∈ (s.of documentId).edges

variable {input : IndexInput} {node : StoredAstNode} {i : Nat}

theorem Foreign.any_id (h : s.Foreign documentId input) (i : Nat) :
    (s.of documentId).nodes.any (·.id == input.nodeId i)
      = s.nodes.any (·.id == input.nodeId i) := by
  rw [Bool.eq_iff_iff, any_eq_true, any_eq_true]
  constructor
  · rintro ⟨node, hnode, hid⟩
    exact ⟨node, (mem_filter.mp hnode).1, hid⟩
  · rintro ⟨node, hnode, hid⟩
    have hdoc := h.nodes node hnode i (beq_iff_eq.mp hid)
    exact ⟨node, mem_filter.mpr ⟨hnode, beq_iff_eq.mpr hdoc⟩, hid⟩

theorem conflicts_documentId {node other : StoredAstNode} (h : conflicts node other = true) :
    other.documentId = node.documentId := by
  simp only [conflicts, Bool.and_eq_true, beq_iff_eq] at h
  exact h.1

theorem Foreign.replaced (h : s.Foreign documentId input) (hdoc : node.documentId = documentId)
    (hid : node.id = input.nodeId i) :
    ∀ other ∈ s.nodes, (other.id == node.id || conflicts node other) = true →
      other.documentId = documentId := by
  intro other hother hgone
  rcases Bool.or_eq_true_iff.mp hgone with hsame | hconflict
  · exact h.nodes other hother i ((beq_iff_eq.mp hsame).trans hid)
  · exact (conflicts_documentId hconflict).trans hdoc

/-- No edge comes from an id that no node has. -/
theorem Linked.source_ne (h : s.Linked) {id : String} (hid : ∀ other ∈ s.nodes, other.id ≠ id) :
    ∀ edge ∈ s.edges, edge.sourceNodeId ≠ id := by
  intro edge hedge hsame
  obtain ⟨⟨source, hsource, hsourceId⟩, -⟩ := h edge hedge
  exact hid source hsource (hsourceId.trans hsame)

theorem of_replace (h : s.Foreign documentId input) (hdoc : node.documentId = documentId)
    (hid : node.id = input.nodeId i) :
    ((s.remove fun other => other.id == node.id || conflicts node other).append node).of documentId
      = ((s.of documentId).remove fun other =>
          other.id == node.id || conflicts node other).append node := by
  rw [of_append hdoc, of_remove (h.replaced hdoc hid)]
  refine (h.linked.remove _).source_ne fun other hother hsame => ?_
  have hkept := (mem_filter.mp hother).2
  simp [hsame] at hkept

theorem updated_id (node other : StoredAstNode) : (updated node other).id = other.id := by
  unfold updated
  split <;> rfl

theorem updated_documentId (node other : StoredAstNode) :
    (updated node other).documentId = other.documentId := by
  unfold updated
  split
  · next hconflict => exact (conflicts_documentId hconflict).symm
  · rfl

theorem of_update (node : StoredAstNode) :
    of { s with nodes := s.nodes.map (updated node) } documentId
      = { s.of documentId with nodes := (s.of documentId).nodes.map (updated node) } := by
  have hnodes : (s.nodes.map (updated node)).filter (·.documentId == documentId)
      = (s.nodes.filter (·.documentId == documentId)).map (updated node) := by
    rw [filter_map]
    refine congrArg _ (filter_congr fun other _ => ?_)
    simp [updated_documentId]
  unfold of
  simp only [hnodes, mk.injEq, true_and]
  simp [Function.comp_def, updated_id]

theorem addNode_of (backend : AstBackend) (h : s.Foreign documentId input)
    (hdoc : node.documentId = documentId) (hid : node.id = input.nodeId i) :
    addNode backend node (s.of documentId) = (addNode backend node s).map (·.of documentId) := by
  cases backend with
  | libsql => exact congrArg Except.ok (of_replace h hdoc hid).symm
  | postgres =>
    have hconflicts : (s.of documentId).nodes.any (conflicts node)
        = s.nodes.any (conflicts node) := by
      rw [Bool.eq_iff_iff, any_eq_true, any_eq_true]
      refine exists_congr fun other => ⟨fun h => ⟨(mem_filter.mp h.1).1, h.2⟩, fun h => ?_⟩
      have hother := (conflicts_documentId h.2).trans hdoc
      exact ⟨mem_filter.mpr ⟨h.1, beq_iff_eq.mpr hother⟩, h.2⟩
    have hids := h.any_id i
    rw [← hid] at hids
    simp only [addNode, hconflicts, hids]
    split
    · exact congrArg Except.ok (of_update node).symm
    split
    · rfl
    next hused =>
    refine congrArg Except.ok (of_append hdoc (h.linked.source_ne fun other hother => ?_)).symm
    intro hsame
    exact hused (any_eq_true.mpr ⟨other, hother, beq_iff_eq.mpr hsame⟩)

variable {s' : GraphTables}

section

variable (h : s.Foreign documentId input)

include h

/-- An edge of the document stays one as long as the node it comes from is there. -/
theorem Foreign.of_nodes (hlinked : s'.Linked)
    (hnodes : ∀ other ∈ s'.nodes, other.documentId = documentId ∨ other ∈ s.nodes)
    (hedges : ∀ edge ∈ s'.edges, edge ∈ s.edges
      ∧ ∀ other ∈ s.nodes, other.documentId = documentId → other.id = edge.sourceNodeId →
        ∃ other' ∈ s'.nodes, other'.documentId = documentId ∧ other'.id = edge.sourceNodeId) :
    s'.Foreign documentId input := by
  refine ⟨hlinked, fun other hother j hid => ?_, fun edge hedge j hid => ?_⟩
  · rcases hnodes other hother with hdoc | hold
    · exact hdoc
    · exact h.nodes other hold j hid
  · obtain ⟨hold, hstays⟩ := hedges edge hedge
    obtain ⟨-, source, hsource, hdoc, hsame⟩ := mem_of_edges.mp (h.edges edge hold j hid)
    exact mem_of_edges.mpr ⟨hedge, hstays source hsource hdoc hsame⟩

theorem Foreign.remove (gone : StoredAstNode → Bool) :
    (s.remove gone).Foreign documentId input := by
  refine h.of_nodes (h.linked.remove gone) (fun other hother => ?_) fun edge hedge => ?_
  · exact .inr (mem_filter.mp hother).1
  · obtain ⟨hold, huntouched⟩ := mem_filter.mp hedge
    refine ⟨hold, fun source hsource hdoc hsame => ⟨source, mem_filter.mpr ⟨hsource, ?_⟩,
      hdoc, hsame⟩⟩
    by_contra hgone
    rw [Bool.not_eq_true', any_eq_false] at huntouched
    exact huntouched source (mem_filter.mpr ⟨hsource, by simpa using hgone⟩) (by simp [hsame])

variable (hdoc : node.documentId = documentId)

include hdoc

theorem Foreign.append : (s.append node).Foreign documentId input := by
  refine h.of_nodes (h.linked.append node) (fun other hother => ?_) fun edge hedge => ?_
  · rcases mem_append.mp hother with hold | hnew
    · exact .inr hold
    · exact .inl (mem_singleton.mp hnew ▸ hdoc)
  · exact ⟨hedge, fun source hsource hsourceDoc hsame =>
      ⟨source, mem_append_left _ hsource, hsourceDoc, hsame⟩⟩

theorem Foreign.update :
    Foreign documentId input { s with nodes := s.nodes.map (updated node) } := by
  have hrow (id : String) (hid : ∃ other ∈ s.nodes, other.id = id) :
      ∃ other ∈ s.nodes.map (updated node), other.id = id := by
    obtain ⟨other, hother, rfl⟩ := hid
    exact ⟨updated node other, mem_map_of_mem hother, updated_id node other⟩
  refine h.of_nodes (fun edge hedge => ?_) (fun other hother => ?_) fun edge hedge => ?_
  · exact ⟨hrow _ (h.linked edge hedge).1, hrow _ (h.linked edge hedge).2⟩
  · obtain ⟨old, hold, rfl⟩ := mem_map.mp hother
    unfold updated
    split
    · exact .inl hdoc
    · exact .inr hold
  · exact ⟨hedge, fun source hsource hsourceDoc hsame =>
      ⟨updated node source, mem_map_of_mem hsource,
        (updated_documentId node source).trans hsourceDoc,
        (updated_id node source).trans hsame⟩⟩

theorem addNode_foreign {backend : AstBackend}
    (hadd : addNode backend node s = .ok s') : s'.Foreign documentId input := by
  cases backend with
  | libsql =>
    cases hadd
    exact (h.remove _).append hdoc
  | postgres =>
    simp only [addNode] at hadd
    split at hadd
    · cases hadd
      exact h.update hdoc
    · split at hadd
      · cases hadd
      cases hadd
      exact h.append hdoc

end

variable {edge : StoredAstEdge} {j k : Nat}

theorem of_link (hsource : (s.of documentId).nodes.any (·.id == edge.sourceNodeId) = true) :
    of { s with edges := s.edges ++ [edge] } documentId
      = { s.of documentId with edges := (s.of documentId).edges ++ [edge] } := by
  have hkept (rows : List StoredAstNode)
      (hrows : rows.any (·.id == edge.sourceNodeId) = true) :
      (s.edges ++ [edge]).filter (fun e => rows.any (·.id == e.sourceNodeId))
        = s.edges.filter (fun e => rows.any (·.id == e.sourceNodeId)) ++ [edge] := by
    simp [filter_append, hrows]
  exact congrArg (mk _) (hkept _ hsource)

theorem addEdge_of (h : s.Foreign documentId input) (hid : edge.id = input.edgeId i)
    (hsource : edge.sourceNodeId = input.nodeId j) (htarget : edge.targetNodeId = input.nodeId k) :
    addEdge edge (s.of documentId) = (addEdge edge s).map (·.of documentId) := by
  have hsources := h.any_id j
  have htargets := h.any_id k
  rw [← hsource] at hsources
  rw [← htarget] at htargets
  have hedges : (s.of documentId).edges.any (·.id == edge.id) = s.edges.any (·.id == edge.id) := by
    rw [Bool.eq_iff_iff, any_eq_true, any_eq_true]
    refine exists_congr fun other => ⟨fun h => ⟨(mem_filter.mp h.1).1, h.2⟩, fun hother => ?_⟩
    exact ⟨h.edges other hother.1 i ((beq_iff_eq.mp hother.2).trans hid), hother.2⟩
  simp only [addEdge, hsources, htargets, hedges]
  split
  · rfl
  next hlinked =>
  split
  · rfl
  simp only [Bool.not_eq_true', Bool.not_eq_false, Bool.and_eq_true] at hlinked
  exact congrArg Except.ok (of_link (hsources.trans hlinked.1)).symm

theorem addEdge_ok (h : addEdge edge s = .ok s') :
    (∃ source ∈ s.nodes, source.id = edge.sourceNodeId)
      ∧ (∃ target ∈ s.nodes, target.id = edge.targetNodeId)
      ∧ s' = { s with edges := s.edges ++ [edge] } := by
  simp only [addEdge] at h
  split at h
  · cases h
  next hlinked =>
  simp only [Bool.not_eq_true', Bool.not_eq_false, Bool.and_eq_true, any_eq_true,
    beq_iff_eq] at hlinked
  split at h
  · cases h
  cases h
  exact ⟨hlinked.1, hlinked.2, rfl⟩

theorem addEdge_foreign (h : s.Foreign documentId input)
    (hsource : edge.sourceNodeId = input.nodeId j) (hadd : addEdge edge s = .ok s') :
    s'.Foreign documentId input := by
  obtain ⟨⟨source, hmem, hid⟩, htarget, rfl⟩ := addEdge_ok hadd
  refine ⟨fun other hother => ?_, h.nodes, fun other hother n hn => ?_⟩
  · rcases mem_append.mp hother with hold | hnew
    · exact h.linked other hold
    cases mem_singleton.mp hnew
    exact ⟨⟨source, hmem, hid⟩, htarget⟩
  · rcases mem_append.mp hother with hold | hnew
    · exact mem_of_edges.mpr ⟨hother, (mem_of_edges.mp (h.edges other hold n hn)).2⟩
    cases mem_singleton.mp hnew
    have hdoc := h.nodes source hmem j (hid.trans hsource)
    exact mem_of_edges.mpr ⟨hother, source, hmem, hdoc, hid⟩

end GraphTables

/-! ## A call as the document sees it -/

namespace IndexerDeps

open GraphTables

variable {D : IndexerDeps} {documentId : String} {input : IndexInput}

theorem statement_local {what : String} {reply : Reply Fault}
    {effect : GraphTables → Except Fault GraphTables}
    (hview : ∀ s, s.Foreign documentId input →
      effect (s.of documentId) = (effect s).map (·.of documentId))
    (hkeeps : ∀ s s', s.Foreign documentId input → effect s = .ok s' →
      s'.Foreign documentId input) :
    Local (·.of documentId) (Foreign documentId input) (D.statement what reply effect) := by
  refine Local.attempt _ (fun s hs => ?_) fun s s' hs heffect => ?_
  · rw [hview s hs]
    cases effect s <;> rfl
  · cases h : effect s with
    | error =>
      rw [h] at heffect
      cases heffect
    | ok =>
      rw [h] at heffect
      cases heffect
      exact hkeeps s _ hs h

variable (nodes : List AstNode)

theorem insertNodes_local (i : Nat) :
    Local (·.of documentId) (Foreign documentId input)
      (D.insertNodes documentId input i nodes) := by
  induction nodes generalizing i with
  | nil => exact .pure _
  | cons _ _ ih =>
    exact .bind (statement_local (fun s hs => addNode_of D.backend hs rfl rfl)
      fun s s' hs hadd => addNode_foreign hs rfl hadd) fun _ => ih (i + 1)

theorem nodeIds_new {nodes : List AstNode} {i : Nat} {ids : Table String String}
    (hids : ∀ name id, ids.lookup name = some id → ∃ j, id = input.nodeId j) (name id : String)
    (h : (nodeIds input i nodes ids).lookup name = some id) : ∃ j, id = input.nodeId j := by
  induction nodes generalizing i ids with
  | nil => exact hids name id h
  | cons node _ ih =>
    refine ih (fun other otherId hother => ?_) h
    by_cases hname : other = node.name
    · subst hname
      rw [AList.lookup_insert] at hother
      exact ⟨i, (Option.some.inj hother).symm⟩
    · rw [AList.lookup_insert_ne hname] at hother
      exact hids other otherId hother

theorem calls_new {nodes : List AstNode} {ids : Table String String}
    (hids : ∀ name id, ids.lookup name = some id → ∃ j, id = input.nodeId j) :
    ∀ pair ∈ calls nodes ids, (∃ j, pair.1 = input.nodeId j) ∧ ∃ k, pair.2 = input.nodeId k := by
  intro pair hpair
  obtain ⟨node, -, hnode⟩ := mem_flatMap.mp hpair
  split at hnode
  · next sourceId hsource =>
    obtain ⟨callee, -, hcallee⟩ := mem_filterMap.mp hnode
    obtain ⟨targetId, htarget, rfl⟩ := Option.map_eq_some_iff.mp hcallee
    exact ⟨hids _ _ hsource, hids _ _ htarget⟩
  · cases hnode

theorem insertEdges_local {pairs : List (String × String)}
    (hpairs : ∀ pair ∈ pairs, (∃ j, pair.1 = input.nodeId j) ∧ ∃ k, pair.2 = input.nodeId k)
    (i : Nat) :
    Local (·.of documentId) (Foreign documentId input) (D.insertEdges input i pairs) := by
  induction pairs generalizing i with
  | nil => exact .pure _
  | cons _ _ ih =>
    obtain ⟨⟨⟨j, hsource⟩, k, htarget⟩, hrest⟩ := forall_mem_cons.mp hpairs
    exact .bind (statement_local (fun s hs => addEdge_of hs rfl hsource htarget)
      fun s s' hs hadd => addEdge_foreign hs hsource hadd) fun _ => ih hrest (i + 1)

theorem insertGraph_local :
    Local (·.of documentId) (Foreign documentId input) (D.insertGraph documentId input nodes) := by
  refine .bind (insertNodes_local nodes 0) fun _ => insertEdges_local (calls_new ?_) 0
  refine nodeIds_new fun name id h => ?_
  cases h

/-! ## Runs -/

variable (s : GraphTables) (call : IndexCall)

def FreshIds : Prop :=
  (∀ node ∈ s.nodes, ∀ i, node.id ≠ call.input.nodeId i)
    ∧ ∀ edge ∈ s.edges, ∀ i, edge.id ≠ call.input.edgeId i

theorem freshIds_empty : FreshIds {} call := by
  constructor
  · intro node hnode
    cases hnode
  · intro edge hedge
    cases hedge

/-- The content has nodes, and the old ones are deleted. -/
def replaces (D : IndexerDeps) (call : IndexCall) : Bool :=
  !(D.nodesOf call.path call.content).isEmpty && call.input.delete.reached

/-- What is stored for the document is what is stored when its content is indexed in empty
tables. -/
def AsIfNew (D : IndexerDeps) (s : GraphTables) (call : IndexCall) : Prop :=
  (D.step s call).of call.documentId = (D.step {} call).of call.documentId

theorem of_eq_empty_iff {s : GraphTables} :
    s.of documentId = {} ↔ ∀ node ∈ s.nodes, node.documentId ≠ documentId := by
  constructor
  · intro h node hnode hdoc
    have hmem : node ∈ (s.of documentId).nodes := mem_filter.mpr ⟨hnode, beq_iff_eq.mpr hdoc⟩
    rw [h] at hmem
    cases hmem
  · intro h
    have hnone : s.nodes.filter (·.documentId == documentId) = [] :=
      filter_eq_nil_iff.mpr fun node hnode => by simpa using h node hnode
    simp [of, hnone]

theorem of_deleted : (s.remove (·.documentId == documentId)).of documentId = {} := by
  refine of_eq_empty_iff.mpr fun node hnode => ?_
  have hkept := (mem_filter.mp hnode).2
  simpa using hkept

variable {s call}

theorem foreign_deleted (hlinked : s.Linked) (hfresh : FreshIds s call) :
    (s.remove (·.documentId == call.documentId)).Foreign call.documentId call.input := by
  refine Foreign.remove ⟨hlinked, fun node hnode i hid => ?_, fun edge hedge i hid => ?_⟩ _
  · exact absurd hid (hfresh.1 node hnode i)
  · exact absurd hid (hfresh.2 edge hedge i)

/-- A call that deletes nothing does nothing. -/
theorem step_of_not_replaces (h : D.replaces call = false) : D.step s call = s := by
  unfold step indexDocument
  cases hnodes : (D.nodesOf call.path call.content).isEmpty with
  | true =>
    simp only [hnodes, if_true]
    rfl
  | false =>
    simp only [hnodes, Bool.false_eq_true, if_false]
    cases hdelete : call.input.delete with
    | rejected =>
      unfold deleteAstNodes
      rw [hdelete]
      rfl
    | answered | lost => simp [replaces, hnodes, hdelete, Reply.reached] at h

/-- Otherwise the nodes are deleted, and those of the content are inserted if the store has
said so. -/
theorem step_of_replaces (h : D.replaces call = true) :
    D.step s call =
      if call.input.delete.ok then
        (exec (D.insertGraph call.documentId call.input (D.nodesOf call.path call.content))
          (s.remove (·.documentId == call.documentId))).2
      else s.remove (·.documentId == call.documentId) := by
  simp only [replaces, Bool.and_eq_true, Bool.not_eq_true'] at h
  obtain ⟨hnodes, hreached⟩ := h
  unfold step indexDocument deleteAstNodes
  simp only [hnodes, Bool.false_eq_true, if_false]
  cases hdelete : call.input.delete with
  | answered | lost => rfl
  | rejected => simp [hdelete, Reply.reached] at hreached

theorem step_linked (s : GraphTables) (call : IndexCall) (hlinked : s.Linked)
    (hfresh : FreshIds s call) : (D.step s call).Linked := by
  cases hreplaces : D.replaces call with
  | false => rwa [step_of_not_replaces hreplaces]
  | true =>
    rw [step_of_replaces hreplaces]
    split
    · exact (insertGraph_local _ _ (foreign_deleted hlinked hfresh)).1.linked
    · exact hlinked.remove _

/-- What comes of it does not depend on what was there. -/
theorem of_step (h : D.replaces call = true) (hlinked : s.Linked) (hfresh : FreshIds s call) :
    (D.step s call).of call.documentId =
      if call.input.delete.ok then
        (exec (D.insertGraph call.documentId call.input (D.nodesOf call.path call.content)) {}).2
      else {} := by
  rw [step_of_replaces h]
  split
  · have hlocal := (insertGraph_local (D := D) (D.nodesOf call.path call.content) _
      (foreign_deleted hlinked hfresh)).2
    simp only [of_deleted] at hlocal
    exact (congrArg Prod.snd hlocal).symm
  · exact of_deleted s

/-- Whatever has been indexed before, a document's part of the graph is that of its last
content if and only if the content has nodes and the old ones are deleted, or none are
stored. -/
theorem asIfNew_iff (D : IndexerDeps) (calls : List IndexCall) (call : IndexCall)
    (hfresh : Guarded D.step FreshIds {} (calls ++ [call])) :
    D.AsIfNew (run D.step {} calls) call ↔
      D.replaces call = true
        ∨ ∀ node ∈ (run D.step {} calls).nodes, node.documentId ≠ call.documentId := by
  obtain ⟨hbefore, hcall, -⟩ := guarded_append.mp hfresh
  have hempty : Linked {} := fun edge hedge => by cases hedge
  have hlinked : (run D.step {} calls).Linked := invariant_run step_linked hempty hbefore
  unfold AsIfNew
  cases hreplaces : D.replaces call with
  | true =>
    rw [of_step hreplaces hlinked hcall, of_step hreplaces hempty (freshIds_empty call)]
    simp
  | false =>
    rw [step_of_not_replaces hreplaces, step_of_not_replaces hreplaces]
    simp only [Bool.false_eq_true, false_or]
    exact of_eq_empty_iff

/-! ### Functions that are gone -/

def sampleNode (name : String) (outgoingCalls : List String) : AstNode where
  nodeType := "function"
  name := name
  contentPreview := "fn " ++ name
  startByte := 0
  endByte := 0
  outgoingCalls := outgoingCalls

/-- A parser of one file with two functions, and of one with the second of them. -/
def sampleIndexer : IndexerDeps where
  backend := .libsql
  parseRustAst content :=
    if content = "fn f() \x7b g() \x7d fn g() \x7b\x7d" then
      .ok [sampleNode "f" ["g"], sampleNode "g" []]
    else if content = "fn g() \x7b\x7d" then .ok [sampleNode "g" []]
    else .ok []

def sampleIndexCall (content id id' : String) : IndexCall where
  documentId := "d"
  path := "src/lib.rs"
  content := content
  input := { nodeId := fun i => if i = 0 then id else id', edgeId := fun _ => id }

def bothFunctions : IndexCall := sampleIndexCall "fn f() \x7b g() \x7d fn g() \x7b\x7d" "a" "b"

theorem bothFunctions_fresh (content : String) :
    FreshIds (sampleIndexer.step {} bothFunctions) (sampleIndexCall content "x" "y") := by
  have hnodes : ∀ node ∈ (sampleIndexer.step {} bothFunctions).nodes,
      node.id ≠ "x" ∧ node.id ≠ "y" := by
    decide
  have hedges : ∀ edge ∈ (sampleIndexer.step {} bothFunctions).edges, edge.id ≠ "x" := by
    decide
  refine ⟨fun node hnode i => ?_, fun edge hedge _ => hedges edge hedge⟩
  show node.id ≠ if i = 0 then "x" else "y"
  split
  · exact (hnodes node hnode).1
  · exact (hnodes node hnode).2

theorem removed_function_goes :
    let s := run sampleIndexer.step {} [bothFunctions]
    let call := sampleIndexCall "fn g() \x7b\x7d" "x" "y"
    sampleIndexer.AsIfNew s call
      ∧ ((sampleIndexer.step s call).of "d").nodes.map (·.name) = ["g"] := by
  have hfresh := bothFunctions_fresh "fn g() \x7b\x7d"
  exact ⟨(asIfNew_iff sampleIndexer [bothFunctions] _ ⟨freshIds_empty _, hfresh, trivial⟩).mpr
    (.inl (by decide)), by decide⟩

/-- Where none is left, both of them and the edge are still stored. -/
theorem removed_functions_stay :
    let s := run sampleIndexer.step {} [bothFunctions]
    let call := sampleIndexCall "// nothing" "x" "y"
    Guarded sampleIndexer.step FreshIds {} [bothFunctions, call]
      ∧ ((sampleIndexer.step s call).of "d").nodes.map (·.name) = ["f", "g"]
      ∧ ((sampleIndexer.step s call).of "d").edges.length = 1
      ∧ ¬ sampleIndexer.AsIfNew s call := by
  refine ⟨⟨freshIds_empty _, bothFunctions_fresh "// nothing", trivial⟩, by decide,
    by decide, ?_⟩
  unfold AsIfNew
  decide

end IndexerDeps

end TitanClaw.Workspace
