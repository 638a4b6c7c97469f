import Mathlib.Data.List.Sort
import TitanClaw.Lib.Faulty
import TitanClaw.Lib.Interleave
import TitanClaw.Lib.Json

/-! # The incident detector

A failure that is reported again adds to the incident that is open for it, under the
same user and fingerprint; the first report opens it. A report looks for the open
incident and then writes, in two statements, so other reports run in between, and the
table has no index that would keep two of them from opening the same incident. -/

namespace TitanClaw.Agent.Incidents

open Faulty List Interleave

structure Incident where
  id : String
  goalId : Option String
  planId : Option String
  planStepId : Option String
  executionAttemptId : Option String
  policyDecisionId : Option String
  jobId : Option String
  threadId : Option String
  userId : String
  channel : Option String
  incidentType : String
  severity : String
  status : String
  fingerprint : Option String
  surface : Option String
  toolName : Option String
  occurrenceCount : Nat
  firstSeenAt : Option Int
  lastSeenAt : Option Int
  lastFailureClass : Option String
  summary : String
  details : JsonValue
  createdAt : Int
  updatedAt : Int
  resolvedAt : Option Int

/-! ## Reports -/

structure ToolFailureIncidentRequest where
  goalId : Option String := none
  planId : Option String := none
  planStepId : Option String := none
  executionAttemptId : Option String := none
  jobId : Option String := none
  threadId : Option String := none
  userId : String
  channel : Option String := none
  toolName : String
  failureClass : Option String := none
  surface : String
  summary : String := ""
  details : JsonValue := .null
  observedAt : Int

structure PolicyDeniedIncidentRequest where
  goalId : Option String := none
  planId : Option String := none
  planStepId : Option String := none
  policyDecisionId : Option String := none
  jobId : Option String := none
  threadId : Option String := none
  userId : String
  channel : Option String := none
  toolName : Option String := none
  reasonCodes : List String
  actionKind : String
  surface : String
  summary : String := ""
  details : JsonValue := .null
  observedAt : Int

def incidentStatusOpen : String := "open"

/-- The hash, in hexadecimal, of the parts with a zero byte behind each. -/
def fingerprintHex (blake3 : List UInt8 → String) (parts : List String) : String :=
  blake3 (parts.flatMap fun part => part.toUTF8.toList ++ [0])

def severityForToolFailureClass : Option String → String
  | some failureClass =>
      if ["tool_timeout", "tool_execution", "channel", "worker", "database", "orchestrator",
          "tool_sandbox"].contains failureClass then "medium"
      else if ["tool_not_found", "tool_disabled", "tool_invalid_parameters",
          "tool_builder_failed", "tool_auth_required", "safety"].contains failureClass then "high"
      else "medium"
  | none => "medium"

def severityForPolicyDenial (reasonCodes : List String) : String :=
  if reasonCodes.any fun r =>
      r == "hook_policy_error" || r == "hook_rejected"
        || r == "destructive_params_override_auto_approval" then "high"
  else "medium"

/-- What is reported, with the id of the incident it may open. -/
inductive Report where
  | toolFailure (newId : String) (req : ToolFailureIncidentRequest)
  | policyDenied (newId : String) (req : PolicyDeniedIncidentRequest)

variable (blake3 : List UInt8 → String)

def toolFailureIncident (newId : String) (req : ToolFailureIncidentRequest) : Incident :=
  { id := newId
    goalId := req.goalId
    planId := req.planId
    planStepId := req.planStepId
    executionAttemptId := req.executionAttemptId
    policyDecisionId := none
    jobId := req.jobId
    threadId := req.threadId
    userId := req.userId
    channel := req.channel
    incidentType := "tool_failure"
    severity := severityForToolFailureClass req.failureClass
    status := incidentStatusOpen
    fingerprint := some (fingerprintHex blake3
      ["tool_failure", req.userId, req.surface, req.toolName, req.channel.getD "none",
        req.failureClass.getD "none"])
    surface := some req.surface
    toolName := some req.toolName
    occurrenceCount := 1
    firstSeenAt := some req.observedAt
    lastSeenAt := some req.observedAt
    lastFailureClass := req.failureClass
    summary := req.summary
    details := req.details
    createdAt := req.observedAt
    updatedAt := req.observedAt
    resolvedAt := none }

def policyDeniedIncident (newId : String) (req : PolicyDeniedIncidentRequest) : Incident :=
  let reasonCodes := req.reasonCodes.insertionSort (· ≤ ·)
  let reasonSignature := if reasonCodes.isEmpty then "none" else ",".intercalate reasonCodes
  { id := newId
    goalId := req.goalId
    planId := req.planId
    planStepId := req.planStepId
    executionAttemptId := none
    policyDecisionId := req.policyDecisionId
    jobId := req.jobId
    threadId := req.threadId
    userId := req.userId
    channel := req.channel
    incidentType := "policy_denial"
    severity := severityForPolicyDenial reasonCodes
    status := incidentStatusOpen
    fingerprint := some (fingerprintHex blake3
      ["policy_denial", req.userId, req.surface, req.toolName.getD "none", req.actionKind,
        reasonSignature])
    surface := some req.surface
    toolName := req.toolName
    occurrenceCount := 1
    firstSeenAt := some req.observedAt
    lastSeenAt := some req.observedAt
    lastFailureClass := none
    summary := req.summary
    details := req.details
    createdAt := req.observedAt
    updatedAt := req.observedAt
    resolvedAt := none }

def Report.incident : Report → Incident
  | toolFailure newId req => toolFailureIncident blake3 newId req
  | policyDenied newId req => policyDeniedIncident blake3 newId req

/-! ## The table -/

/-- A user and a fingerprint. -/
structure IncidentKey where
  userId : String
  fingerprint : String
  deriving DecidableEq

namespace Incident

def isOpenFor (key : IncidentKey) (row : Incident) : Bool :=
  row.userId == key.userId && row.fingerprint == some key.fingerprint
    && (row.status == "open" || row.status == "investigating")

def lastActivity (row : Incident) : Int := row.lastSeenAt.getD row.updatedAt

/-- One more occurrence; a count of zero stands for one. -/
def increment (row : Incident) (observedAt : Int) : Incident :=
  { row with
    occurrenceCount := if row.occurrenceCount = 0 then 2 else row.occurrenceCount + 1
    updatedAt := observedAt
    firstSeenAt := some (row.firstSeenAt.getD row.createdAt)
    lastSeenAt := some observedAt }

end Incident

variable (key : IncidentKey) (rows : List Incident)

/-- The one seen last. -/
def findOpenIncidentByFingerprint : Option Incident :=
  ((rows.filter (·.isOpenFor key)).insertionSort fun a b =>
    b.lastActivity < a.lastActivity ∨ (b.lastActivity = a.lastActivity ∧ b.id ≤ a.id)).head?

variable (incident : Incident)

/-- The id is the primary key. -/
def createIncident (rows : List Incident) : List Incident :=
  if rows.any (·.id == incident.id) then rows else rows ++ [incident]

def incrementIncidentOccurrence (id : String) (observedAt : Int) (rows : List Incident) :
    List Incident :=
  rows.map fun row => if row.id = id then row.increment observedAt else row

theorem findOpen_some {key : IncidentKey} {rows : List Incident} {row : Incident}
    (h : findOpenIncidentByFingerprint key rows = some row) :
    row ∈ rows ∧ row.isOpenFor key = true := by
  have hmem := mem_of_mem_head? h
  rw [mem_insertionSort] at hmem
  exact mem_filter.mp hmem

/-! ## A report under way -/

/-- The table; the reports that have ended are a record that no section reads. -/
structure IncidentLog where
  rows : List Incident
  ended : List IncidentKey := []

inductive ReportTask where
  | find (incident : Incident) (fingerprint : String)
  | increment (incident : Incident) (fingerprint existingId : String)
  | create (incident : Incident)

structure SectionInput where
  findFault : Option String := none
  write : Reply String := .answered

def createOrIncrementByFingerprint : ReportTask :=
  match incident.fingerprint with
  | some fingerprint => .find incident fingerprint
  | none => .create incident

namespace IncidentLog

variable (s : IncidentLog)

def write (reply : Reply String) (effect : List Incident → List Incident) : IncidentLog :=
  if reply.reached then { s with rows := effect s.rows } else s

def finish (userId : String) (fingerprint : Option String) : IncidentLog :=
  { s with ended := fingerprint.toList.map (⟨userId, ·⟩) ++ s.ended }

def sect (task : ReportTask) (input : SectionInput) : IncidentLog × Option ReportTask :=
  match task with
  | .find incident fingerprint =>
      match input.findFault with
      -- the failure is logged, and the incident is created after all
      | some _ => (s, some (.create incident))
      | none =>
          match findOpenIncidentByFingerprint ⟨incident.userId, fingerprint⟩ s.rows with
          | some existing => (s, some (.increment incident fingerprint existing.id))
          | none => (s, some (.create incident))
  | .increment incident fingerprint existingId =>
      let observedAt := incident.lastSeenAt.getD incident.updatedAt
      let s := s.write input.write (incrementIncidentOccurrence existingId observedAt)
      (s.finish incident.userId (some fingerprint), none)
  | .create incident =>
      let s := s.write input.write (createIncident incident)
      (s.finish incident.userId incident.fingerprint, none)

abbrev Config := Interleave.Config IncidentLog ReportTask

abbrev Label := Interleave.Label Report SectionInput

def step : Config → Label → Config :=
  Interleave.step (fun report => createOrIncrementByFingerprint (report.incident blake3)) sect

end IncidentLog

/-! ## Occurrences -/

def Incident.weight (row : Incident) : Nat :=
  if row.isOpenFor key then row.occurrenceCount else 0

def occurrences (key : IncidentKey) : Nat := (rows.map (·.weight key)).sum

def openCount (key : IncidentKey) : Nat := rows.countP (·.isOpenFor key)

theorem increment_isOpenFor (row : Incident) (observedAt : Int) :
    (row.increment observedAt).isOpenFor key = row.isOpenFor key := rfl

theorem increment_weight {row : Incident} (hpos : 0 < row.occurrenceCount) (key : IncidentKey)
    (observedAt : Int) :
    (row.increment observedAt).weight key
      = row.weight key + if row.isOpenFor key then 1 else 0 := by
  unfold Incident.weight
  rw [increment_isOpenFor]
  split
  · show (if row.occurrenceCount = 0 then 2 else row.occurrenceCount + 1) = _
    rw [if_neg hpos.ne']
  · rfl

section Table

variable {rows : List Incident} {row incident : Incident} {key : IncidentKey} {observedAt : Int}

theorem incremented_of_ne {id : String} (h : ∀ row ∈ rows, row.id ≠ id) :
    incrementIncidentOccurrence id observedAt rows = rows := by
  refine (map_congr_left fun row hrow => ?_).trans (map_id _)
  exact if_neg (h row hrow)

theorem incremented_ids (id : String) (rows : List Incident) :
    (incrementIncidentOccurrence id observedAt rows).map (·.id) = rows.map (·.id) := by
  unfold incrementIncidentOccurrence
  rw [map_map]
  refine map_congr_left fun row _ => ?_
  show (if row.id = id then row.increment observedAt else row).id = row.id
  split <;> rfl

theorem incremented_openCount (id : String) (rows : List Incident) (key : IncidentKey) :
    openCount (incrementIncidentOccurrence id observedAt rows) key = openCount rows key := by
  unfold openCount incrementIncidentOccurrence
  rw [countP_map]
  refine countP_congr fun row _ => ?_
  show (if row.id = id then row.increment observedAt else row).isOpenFor key = true ↔ _
  split
  · rw [increment_isOpenFor]
  · rfl

/-- The one incident with this id gets one more. -/
theorem incremented_occurrences (hids : (rows.map (·.id)).Nodup)
    (hpos : ∀ row ∈ rows, 0 < row.occurrenceCount) (hrow : row ∈ rows) :
    occurrences (incrementIncidentOccurrence row.id observedAt rows) key
      = occurrences rows key + if row.isOpenFor key then 1 else 0 := by
  induction rows with
  | nil => cases hrow
  | cons first rest ih =>
    obtain ⟨hnew, hids⟩ := nodup_cons.mp hids
    obtain ⟨hfirst, hpos⟩ := forall_mem_cons.mp hpos
    have hcons : occurrences (incrementIncidentOccurrence row.id observedAt (first :: rest)) key
        = (if first.id = row.id then first.increment observedAt else first).weight key
          + occurrences (incrementIncidentOccurrence row.id observedAt rest) key := rfl
    have hsum : occurrences (first :: rest) key = first.weight key + occurrences rest key := rfl
    rw [hcons, hsum]
    rcases mem_cons.mp hrow with rfl | hrest
    · have hothers : ∀ other ∈ rest, other.id ≠ row.id := fun other hother hid =>
        hnew (mem_map.mpr ⟨other, hother, hid⟩)
      rw [if_pos rfl, increment_weight hfirst, incremented_of_ne hothers]
      omega
    · have hne : first.id ≠ row.id := fun hid => hnew (mem_map.mpr ⟨row, hrest, hid.symm⟩)
      rw [if_neg hne, ih hids hpos hrest]
      omega

theorem openCount_append (rows : List Incident) (incident : Incident) (key : IncidentKey) :
    openCount (rows ++ [incident]) key
      = openCount rows key + if incident.isOpenFor key then 1 else 0 := by
  simp [openCount, countP_append, countP_singleton]

end Table

/-! ## Reports at the same time -/

structure Incident.IsReport (incident : Incident) (fingerprint : String) : Prop where
  fingerprint : incident.fingerprint = some fingerprint
  status : incident.status = incidentStatusOpen
  occurrenceCount : incident.occurrenceCount = 1

theorem Report.exists_isReport (report : Report) :
    ∃ fingerprint, (report.incident blake3).IsReport fingerprint := by
  cases report with
  | toolFailure | policyDenied => exact ⟨_, rfl, rfl, rfl⟩

namespace Incident

variable {incident : Incident} {fingerprint : String} {key key' : IncidentKey}

theorem isOpenFor_key (h : incident.isOpenFor key = true) (h' : incident.isOpenFor key' = true) :
    key = key' := by
  simp only [isOpenFor, Bool.and_eq_true, beq_iff_eq] at h h'
  obtain ⟨⟨huser, hfingerprint⟩, -⟩ := h
  obtain ⟨⟨huser', hfingerprint'⟩, -⟩ := h'
  cases key
  cases key'
  simp_all

theorem IsReport.isOpenFor (h : incident.IsReport fingerprint) :
    incident.isOpenFor ⟨incident.userId, fingerprint⟩ = true := by
  simp [Incident.isOpenFor, h.fingerprint, h.status, incidentStatusOpen]

theorem isOpenFor_eq (h : incident.isOpenFor key = true) (key' : IncidentKey) :
    (if incident.isOpenFor key' then 1 else 0) = if key = key' then 1 else 0 := by
  by_cases hkey : key = key'
  · rw [if_pos hkey, if_pos (hkey ▸ h)]
  · rw [if_neg hkey, if_neg fun h' => hkey (isOpenFor_key h h')]

theorem IsReport.weight (h : incident.IsReport fingerprint) (key : IncidentKey) :
    incident.weight key = if ⟨incident.userId, fingerprint⟩ = key then 1 else 0 := by
  rw [Incident.weight, h.occurrenceCount, isOpenFor_eq h.isOpenFor]

end Incident

/-- A table to start from: ids are unique, every count is positive, and at most one
incident is open under a key. -/
structure IncidentTable where
  rows : List Incident
  ids : (rows.map (·.id)).Nodup
  positive : ∀ row ∈ rows, 0 < row.occurrenceCount
  once : ∀ key, openCount rows key ≤ 1

namespace IncidentLog

/-- At most one incident is open under a key, and its count has gone up by the number of
reports. -/
structure Deduplicated (start : List Incident) (s : IncidentLog) : Prop where
  once : ∀ key, openCount s.rows key ≤ 1
  counted : ∀ key, occurrences s.rows key = occurrences start key + s.ended.count key

variable (s : IncidentLog)

/-- What the section writes is written, and an incident that it creates is not open
already. -/
def WritesOnce (task : ReportTask) (input : SectionInput) : Prop :=
  match task with
  | .find _ _ => True
  | .increment _ _ _ => input.write.reached = true
  | .create incident =>
      input.write.reached = true ∧ (∀ row ∈ s.rows, row.id ≠ incident.id)
        ∧ ∀ fingerprint, incident.fingerprint = some fingerprint →
          openCount s.rows ⟨incident.userId, fingerprint⟩ = 0

/-! ### What holds whatever fails -/

structure Sound (s : IncidentLog) : Prop where
  ids : (s.rows.map (·.id)).Nodup
  positive : ∀ row ∈ s.rows, 0 < row.occurrenceCount

/-- The incident to be incremented is still there, and open. -/
def TaskSound : ReportTask → Prop
  | .find incident fingerprint => incident.IsReport fingerprint
  | .increment incident fingerprint existingId =>
      ∃ row ∈ s.rows, row.id = existingId ∧ row.isOpenFor ⟨incident.userId, fingerprint⟩ = true
  | .create incident => ∃ fingerprint, incident.IsReport fingerprint

/-- No open incident goes away. -/
def Grows (s s' : IncidentLog) : Prop :=
  ∀ key, ∀ row ∈ s.rows, row.isOpenFor key = true →
    ∃ row' ∈ s'.rows, row'.id = row.id ∧ row'.isOpenFor key = true

theorem Grows.refl : Grows s s := fun _ row hrow hopen => ⟨row, hrow, rfl, hopen⟩

theorem Grows.task {s s' : IncidentLog} (h : Grows s s') (task : ReportTask)
    (htask : s.TaskSound task) : s'.TaskSound task := by
  cases task with
  | find | create => exact htask
  | increment =>
    obtain ⟨row, hrow, rfl, hopen⟩ := htask
    exact h _ row hrow hopen

variable {s}

theorem createIncident_sound {incident : Incident} {fingerprint : String}
    (h : s.Sound) (hreport : incident.IsReport fingerprint) (ended : List IncidentKey) :
    Sound ⟨createIncident incident s.rows, ended⟩
      ∧ Grows s ⟨createIncident incident s.rows, ended⟩ := by
  unfold createIncident
  by_cases hthere : s.rows.any (·.id == incident.id) = true
  · rw [if_pos hthere]
    exact ⟨⟨h.ids, h.positive⟩, Grows.refl s⟩
  · rw [if_neg hthere]
    refine ⟨⟨?_, ?_⟩, ?_⟩
    · show ((s.rows ++ [incident]).map (·.id)).Nodup
      rw [map_append]
      refine h.ids.append (nodup_singleton _) fun id hold hid => hthere ?_
      obtain ⟨row, hrow, rfl⟩ := mem_map.mp hold
      exact any_eq_true.mpr ⟨row, hrow, beq_iff_eq.mpr (mem_singleton.mp hid)⟩
    · intro row hrow
      rcases mem_append.mp hrow with hold | hnew
      · exact h.positive row hold
      rw [mem_singleton.mp hnew, hreport.occurrenceCount]
      exact Nat.one_pos
    · intro key row hrow hopen
      exact ⟨row, mem_append_left _ hrow, rfl, hopen⟩

theorem incremented_sound (h : s.Sound) (id : String) (observedAt : Int)
    (ended : List IncidentKey) :
    Sound ⟨incrementIncidentOccurrence id observedAt s.rows, ended⟩
      ∧ Grows s ⟨incrementIncidentOccurrence id observedAt s.rows, ended⟩ := by
  refine ⟨⟨?_, ?_⟩, ?_⟩
  · rw [incremented_ids]
    exact h.ids
  · intro row hrow
    obtain ⟨old, hold, rfl⟩ := mem_map.mp hrow
    split
    · show 0 < if old.occurrenceCount = 0 then 2 else old.occurrenceCount + 1
      split <;> omega
    · exact h.positive old hold
  · intro key row hrow hopen
    refine ⟨_, mem_map_of_mem hrow, ?_, ?_⟩
    · split <;> rfl
    · split
      · rw [increment_isOpenFor]
        exact hopen
      · exact hopen

theorem sect_sound {task : ReportTask} (h : s.Sound) (htask : s.TaskSound task)
    (input : SectionInput) :
    (s.sect task input).1.Sound ∧ Grows s (s.sect task input).1
      ∧ ∀ next, (s.sect task input).2 = some next → (s.sect task input).1.TaskSound next := by
  cases task with
  | find incident fingerprint =>
    have hcreate : ∀ next, some (ReportTask.create incident) = some next → s.TaskSound next := by
      rintro next ⟨⟩
      exact ⟨fingerprint, htask⟩
    simp only [sect]
    cases input.findFault with
    | some => exact ⟨h, Grows.refl s, hcreate⟩
    | none =>
      cases hfound : findOpenIncidentByFingerprint ⟨incident.userId, fingerprint⟩ s.rows with
      | none => exact ⟨h, Grows.refl s, hcreate⟩
      | some existing =>
        refine ⟨h, Grows.refl s, ?_⟩
        rintro next ⟨⟩
        obtain ⟨hmem, hopen⟩ := findOpen_some hfound
        exact ⟨existing, hmem, rfl, hopen⟩
  | increment incident fingerprint existingId =>
    simp only [sect, write, finish]
    split
    · obtain ⟨hsound, hgrows⟩ := incremented_sound h existingId
        (incident.lastSeenAt.getD incident.updatedAt)
        ((some fingerprint).toList.map (⟨incident.userId, ·⟩) ++ s.ended)
      exact ⟨hsound, hgrows, fun next hnext => by cases hnext⟩
    · exact ⟨⟨h.ids, h.positive⟩, Grows.refl s, fun next hnext => by cases hnext⟩
  | create incident =>
    obtain ⟨fingerprint, hreport⟩ := htask
    simp only [sect, write, finish]
    split
    · obtain ⟨hsound, hgrows⟩ := createIncident_sound h hreport
        (incident.fingerprint.toList.map (⟨incident.userId, ·⟩) ++ s.ended)
      exact ⟨hsound, hgrows, fun next hnext => by cases hnext⟩
    · exact ⟨⟨h.ids, h.positive⟩, Grows.refl s, fun next hnext => by cases hnext⟩

section

variable {start : List Incident} {s : IncidentLog} {key : IncidentKey}

variable (h : s.Deduplicated start)

include h

/-- When a report ends, its own incident has one occurrence more, and no other has. -/
theorem deduplicated_finish_iff (rows : List Incident) :
    Deduplicated start ⟨rows, key :: s.ended⟩
      ↔ (∀ other, openCount rows other ≤ 1)
        ∧ ∀ other, occurrences rows other
          = occurrences s.rows other + if key = other then 1 else 0 := by
  have hcount : ∀ other, (key :: s.ended).count other
      = s.ended.count other + if key = other then 1 else 0 := by
    intro other
    rw [count_cons]
    simp only [beq_iff_eq]
  constructor
  · intro hafter
    refine ⟨hafter.once, fun other => ?_⟩
    have hother := hafter.counted other
    rw [hcount] at hother
    rw [hother, h.counted other, Nat.add_assoc]
  · rintro ⟨honce, hoccurrences⟩
    refine ⟨honce, fun other => ?_⟩
    rw [hoccurrences, hcount, h.counted other, Nat.add_assoc]

/-- A report that writes nothing is not counted. -/
theorem not_deduplicated_finish : ¬ Deduplicated start ⟨s.rows, key :: s.ended⟩ := by
  rw [deduplicated_finish_iff h]
  rintro ⟨-, hoccurrences⟩
  have hown := hoccurrences key
  rw [if_pos rfl] at hown
  omega

theorem deduplicated_increment {row : Incident} (hsound : s.Sound)
    (hrow : row ∈ s.rows) (hopen : row.isOpenFor key = true) (observedAt : Int) :
    Deduplicated start ⟨incrementIncidentOccurrence row.id observedAt s.rows, key :: s.ended⟩ := by
  rw [deduplicated_finish_iff h]
  refine ⟨fun other => ?_, fun other => ?_⟩
  · rw [incremented_openCount]
    exact h.once other
  · rw [incremented_occurrences hsound.ids hsound.positive hrow, Incident.isOpenFor_eq hopen]

theorem deduplicated_create_iff {incident : Incident} {fingerprint : String} (hreport : incident.IsReport fingerprint) :
    Deduplicated start ⟨createIncident incident s.rows, ⟨incident.userId, fingerprint⟩ :: s.ended⟩
      ↔ (∀ row ∈ s.rows, row.id ≠ incident.id)
        ∧ openCount s.rows ⟨incident.userId, fingerprint⟩ = 0 := by
  unfold createIncident
  by_cases hthere : s.rows.any (·.id == incident.id) = true
  · rw [if_pos hthere]
    refine iff_of_false (not_deduplicated_finish h) ?_
    rintro ⟨hnew, -⟩
    obtain ⟨row, hrow, hid⟩ := any_eq_true.mp hthere
    exact hnew row hrow (beq_iff_eq.mp hid)
  · have hnew : ∀ row ∈ s.rows, row.id ≠ incident.id := fun row hrow hid =>
      hthere (any_eq_true.mpr ⟨row, hrow, beq_iff_eq.mpr hid⟩)
    rw [if_neg hthere, deduplicated_finish_iff h]
    constructor
    · rintro ⟨honce, -⟩
      have hown := honce ⟨incident.userId, fingerprint⟩
      rw [openCount_append, if_pos hreport.isOpenFor] at hown
      exact ⟨hnew, by omega⟩
    · rintro ⟨-, hnone⟩
      refine ⟨fun other => ?_, fun other => ?_⟩
      · have hother := h.once other
        rw [openCount_append, Incident.isOpenFor_eq hreport.isOpenFor]
        by_cases hkey : ⟨incident.userId, fingerprint⟩ = other
        · rw [if_pos hkey, ← hkey, hnone]
        rw [if_neg hkey]
        exact hother
      · simp [occurrences, hreport.weight]

theorem sect_deduplicated_iff {task : ReportTask} (hsound : s.Sound)
    (htask : s.TaskSound task) (input : SectionInput) :
    (s.sect task input).1.Deduplicated start ↔ s.WritesOnce task input := by
  cases task with
  | find =>
    refine iff_of_true ?_ trivial
    simp only [sect]
    split
    · exact h
    split
    · exact h
    · exact h
  | increment =>
    obtain ⟨row, hrow, rfl, hopen⟩ := htask
    simp only [sect, write, finish, WritesOnce]
    by_cases hreached : input.write.reached = true
    · rw [if_pos hreached]
      exact iff_of_true (deduplicated_increment h hsound hrow hopen _) hreached
    · rw [if_neg hreached]
      exact iff_of_false (not_deduplicated_finish h) hreached
  | create =>
    obtain ⟨fingerprint, hreport⟩ := htask
    simp only [sect, write, finish, WritesOnce, hreport.fingerprint]
    by_cases hreached : input.write.reached = true
    · rw [if_pos hreached]
      refine (deduplicated_create_iff h hreport).trans ?_
      simp [hreached]
    · rw [if_neg hreached]
      exact iff_of_false (not_deduplicated_finish h) fun hwrites => hreached hwrites.1

end

variable (table : IncidentTable)

/-- The reports to come, over this table. -/
def start : Config := { shared := { rows := table.rows } }

theorem step_sound (c : Config) (label : Label) (h : Interleave.Holds Sound TaskSound c) :
    Interleave.Holds Sound TaskSound (step blake3 c label) := by
  refine holds_step_always (fun s report _ => ?_) (fun s task input h htask => ?_) c label h
  · obtain ⟨fingerprint, hreport⟩ := report.exists_isReport blake3
    rw [createOrIncrementByFingerprint, hreport.fingerprint]
    exact hreport
  · obtain ⟨hsound, hgrows, hnext⟩ := sect_sound h htask input
    exact ⟨hsound, hnext, fun other hother => hgrows.task other hother⟩

/-- However the reports interleave and whatever fails, there is at most one open incident
under a key and it counts all the reports, exactly if each report's write takes effect,
and none creates an incident that another has opened since it looked. -/
theorem run_deduplicated_iff (labels : List Label) : (∀ pre, pre <+: labels →
        (Run.run (step blake3) (start table) pre).shared.Deduplicated table.rows)
      ↔ Run.Guarded (step blake3) (Interleave.Sections WritesOnce) (start table) labels := by
  have hsound : Interleave.Holds Sound TaskSound (start table) :=
    ⟨⟨table.ids, table.positive⟩, fun id task h => by cases h⟩
  have hstart : (start table).shared.Deduplicated table.rows :=
    ⟨table.once, fun key => by rw [start, count_nil, Nat.add_zero]⟩
  exact reached_shared_iff (step_sound blake3)
    (fun s task input hs htask h => sect_deduplicated_iff h hs htask input) hsound hstart

def noIncidents : IncidentTable :=
  ⟨[], nodup_nil, fun _ h => absurd h not_mem_nil, fun _ => Nat.zero_le 1⟩

def shellFailure : ToolFailureIncidentRequest :=
  { userId := "alice", toolName := "shell", surface := "worker", observedAt := 0 }

def bothLook : List Label :=
  [.start 0 (.toolFailure "a" shellFailure), .start 1 (.toolFailure "b" shellFailure),
   .advance 0 {}, .advance 1 {}, .advance 0 {}, .advance 1 {}]

theorem bothLook_opens_two :
    ¬ (Run.run (step fun _ => "f") (start noIncidents) bothLook).shared.Deduplicated [] := by
  intro h
  have honce := h.once ⟨"alice", "f"⟩
  revert honce
  decide

end IncidentLog

end TitanClaw.Agent.Incidents
