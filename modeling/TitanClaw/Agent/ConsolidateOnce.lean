import TitanClaw.Agent.MemoryConsolidator
import TitanClaw.Lib.Run

/-! # What a record contributes

An episodic record should contribute one semantic record or one success of a playbook,
at most once, however often the consolidator runs. A record that has been archived is
not taken up again, so it all depends on the archiving: where what is derived has been
written and the record is active still, the next run derives it once more. -/

namespace TitanClaw.Agent

open Faulty List Run ProceduralPlaybook Reply

theorem nodup_map_concat {α β : Type} {f : α → β} {as : List α} {a : α} (h : (as.map f).Nodup)
    (hnew : ∀ old ∈ as, f old ≠ f a) : ((as ++ [a]).map f).Nodup := by
  rw [map_append]
  refine h.append (nodup_singleton _) ?_
  intro b hold hb
  obtain ⟨old, hmem, rfl⟩ := mem_map.mp hold
  exact hnew old hmem (mem_singleton.mp hb)

def MemoryRecord.isDerivedFrom (id : String) (record : MemoryRecord) : Bool :=
  decide (record.memoryType = .semantic) && decide (record.sourceKind = .consolidator)
    && decide ((record.payload.get? "source_memory_record_id").bind (·.asStr?) = some id)

/-- The part of the store in which contributions show. -/
structure MemoryLedger where
  records : List MemoryRecord
  playbooks : List ProceduralPlaybook
  increments : List String

def MemoryStore.ledger (store : MemoryStore) : MemoryLedger :=
  ⟨store.records, store.playbooks, store.increments⟩

/-! ## What the playbooks count -/

namespace ProceduralPlaybook

variable (playbooks : List ProceduralPlaybook)

def successTotal : Int := playbooks.foldr (·.successCount + ·) 0

@[simp] theorem successTotal_nil : successTotal [] = 0 := rfl

variable (playbook : ProceduralPlaybook) (playbooks : List ProceduralPlaybook)

@[simp] theorem successTotal_cons :
    successTotal (playbook :: playbooks) = playbook.successCount + successTotal playbooks := rfl

/-- The playbook in the place of one with its id. -/
def replace (playbook old : ProceduralPlaybook) : ProceduralPlaybook :=
  if old.id = playbook.id then { playbook with createdAt := old.createdAt } else old

theorem map_replace_ids : (playbooks.map playbook.replace).map (·.id) = playbooks.map (·.id) := by
  rw [map_map]
  refine map_congr_left fun old _ => ?_
  show (playbook.replace old).id = old.id
  unfold replace
  split
  · next hid => exact hid.symm
  · rfl

theorem successTotal_append :
    successTotal (playbooks ++ [playbook]) = successTotal playbooks + playbook.successCount := by
  induction playbooks with
  | nil => simp
  | cons _ _ ih => rw [cons_append, successTotal_cons, successTotal_cons, ih, Int.add_assoc]

variable {playbook playbooks}

theorem map_replace_of_ne
    (h : ∀ old ∈ playbooks, old.id ≠ playbook.id) : playbooks.map playbook.replace = playbooks := by
  refine (map_congr_left fun old hold => ?_).trans (map_id _)
  exact if_neg (h old hold)

theorem successTotal_replace_le (hids : (playbooks.map (·.id)).Nodup)
    (hmore : ∀ old ∈ playbooks, old.id = playbook.id →
      playbook.successCount ≤ old.successCount + 1) :
    successTotal (playbooks.map playbook.replace) ≤ successTotal playbooks + 1 := by
  induction playbooks with
  | nil => simp
  | cons first rest ih =>
    obtain ⟨hnew, hids⟩ := nodup_cons.mp hids
    obtain ⟨hfirst, hrest⟩ := forall_mem_cons.mp hmore
    rw [map_cons, successTotal_cons, successTotal_cons]
    by_cases hid : first.id = playbook.id
    · have hother : ∀ old ∈ rest, old.id ≠ playbook.id := fun old hold heq =>
        hnew (mem_map.mpr ⟨old, hold, heq.trans hid.symm⟩)
      have hcount := hfirst hid
      rw [map_replace_of_ne hother, replace, if_pos hid]
      show playbook.successCount + successTotal rest ≤ _
      omega
    · have htotal := ih hids hrest
      rw [replace, if_neg hid]
      omega

variable (playbooks)

/-- The playbook is new and counts one success, or it is one of these with one success
more, as far as the counter goes. -/
def OneMore (playbook : ProceduralPlaybook) : Prop :=
  playbook.successCount = 1
    ∨ ∃ old ∈ playbooks, old.id = playbook.id
      ∧ playbook.successCount = min (old.successCount + 1) maxI32

variable {playbooks : List ProceduralPlaybook} {playbook : ProceduralPlaybook}

variable (h : OneMore playbooks playbook)

include h

theorem OneMore.nonneg
    (hnonneg : ∀ old ∈ playbooks, 0 ≤ old.successCount) : 0 ≤ playbook.successCount := by
  rcases h with hone | ⟨old, hold, _, hcount⟩
  · omega
  have hold := hnonneg old hold
  unfold maxI32 at hcount
  omega

theorem OneMore.le_of_mem
    (hids : (playbooks.map (·.id)).Nodup) (hnonneg : ∀ old ∈ playbooks, 0 ≤ old.successCount) :
    ∀ old ∈ playbooks, old.id = playbook.id → playbook.successCount ≤ old.successCount + 1 := by
  intro old hold hid
  rcases h with hone | ⟨old', hold', hid', hcount⟩
  · have hold := hnonneg old hold
    omega
  · obtain rfl := inj_on_of_nodup_map hids hold hold' (hid.trans hid'.symm)
    omega

theorem OneMore.le_one
    (hnew : ∀ old ∈ playbooks, old.id ≠ playbook.id) : playbook.successCount ≤ 1 := by
  rcases h with hone | ⟨old, hold, hid, _⟩
  · exact hone.le
  · exact absurd hid (hnew old hold)

end ProceduralPlaybook

namespace MemoryLedger

variable (l : MemoryLedger) (id : String)

def semanticCount : Nat := l.records.countP (MemoryRecord.isDerivedFrom id)

def incrementCount : Nat := l.increments.count id

/-- No record has contributed twice. -/
def AtMostOnce : Prop := ∀ id, l.semanticCount id ≤ 1 ∧ l.incrementCount id ≤ 1

/-- The record has not contributed yet. -/
def Untouched : Prop := l.semanticCount id = 0 ∧ l.incrementCount id = 0

/-- What is active has not contributed, and nothing has contributed twice. -/
structure Kept (l : MemoryLedger) : Prop where
  nodup : (l.records.map (·.id)).Nodup
  once : l.AtMostOnce
  pending : ∀ record ∈ l.records, record.memoryType = .episodic →
    record.status = .active → l.Untouched record.id

/-- The playbooks count no more successes than there were plus those of the records. -/
structure Counted (base : Int) (l : MemoryLedger) : Prop where
  ids : (l.playbooks.map (·.id)).Nodup
  nonneg : ∀ playbook ∈ l.playbooks, 0 ≤ playbook.successCount
  total : successTotal l.playbooks ≤ base + l.increments.length

/-- One contribution of the record with this id, or none. -/
structure Derived (id : String) (l l' : MemoryLedger) : Prop where
  nodup : (l.records.map (·.id)).Nodup → (l'.records.map (·.id)).Nodup
  others : ∀ other, other ≠ id →
    l'.semanticCount other = l.semanticCount other
      ∧ l'.incrementCount other = l.incrementCount other
  own : l'.semanticCount id ≤ l.semanticCount id + 1
    ∧ l'.incrementCount id ≤ l.incrementCount id + 1
  episodic : ∀ record ∈ l'.records, record.memoryType = .episodic → record ∈ l.records
  counted : ∀ base, l.Counted base → l'.Counted base

theorem Derived.refl : Derived id l l where
  nodup := fun h => h
  others := fun _ _ => ⟨rfl, rfl⟩
  own := ⟨Nat.le_succ _, Nat.le_succ _⟩
  episodic := fun _ h _ => h
  counted := fun _ h => h

/-- The playbooks with this one written to them. -/
def credit (playbook : ProceduralPlaybook) (id : String) : MemoryLedger :=
  { l with
    playbooks :=
      if l.playbooks.any (·.id == playbook.id) then l.playbooks.map playbook.replace
      else l.playbooks ++ [playbook]
    increments := l.increments ++ [id] }

theorem Counted.credit {base : Int} {l : MemoryLedger} {playbook : ProceduralPlaybook}
    (h : l.Counted base) (hmore : OneMore l.playbooks playbook) (id : String) :
    (l.credit playbook id).Counted base := by
  have hlength : ((l.increments ++ [id]).length : Int) = l.increments.length + 1 := by
    rw [length_append]
    rfl
  have htotal := h.total
  by_cases hthere : l.playbooks.any (·.id == playbook.id) = true
  · have hle := successTotal_replace_le h.ids (hmore.le_of_mem h.ids h.nonneg)
    unfold MemoryLedger.credit
    rw [if_pos hthere]
    refine ⟨?_, ?_, ?_⟩
    · rw [map_replace_ids]
      exact h.ids
    · intro after hafter
      obtain ⟨old, hold, rfl⟩ := mem_map.mp hafter
      unfold ProceduralPlaybook.replace
      split
      · exact hmore.nonneg h.nonneg
      · exact h.nonneg old hold
    · show successTotal (l.playbooks.map playbook.replace) ≤ _
      rw [hlength]
      omega
  · have hnew : ∀ old ∈ l.playbooks, old.id ≠ playbook.id := fun old hold hid =>
      hthere (any_eq_true.mpr ⟨old, hold, beq_iff_eq.mpr hid⟩)
    have hle := hmore.le_one hnew
    unfold MemoryLedger.credit
    rw [if_neg hthere]
    refine ⟨?_, ?_, ?_⟩
    · exact nodup_map_concat h.ids hnew
    · intro after hafter
      rcases mem_append.mp hafter with hold | hold
      · exact h.nonneg after hold
      obtain rfl := mem_singleton.mp hold
      exact hmore.nonneg h.nonneg
    · show successTotal (l.playbooks ++ [playbook]) ≤ _
      rw [hlength, successTotal_append]
      omega

/-- One more success. -/
theorem Derived.credit {l : MemoryLedger} {playbook : ProceduralPlaybook}
    (hmore : OneMore l.playbooks playbook) (id : String) :
    Derived id l (l.credit playbook id) where
  nodup := fun h => h
  others := by
    intro other hother
    refine ⟨rfl, ?_⟩
    show (l.increments ++ [id]).count other = l.increments.count other
    rw [count_append, count_singleton, if_neg (by simpa using Ne.symm hother)]
    rfl
  own := by
    refine ⟨Nat.le_succ _, ?_⟩
    show (l.increments ++ [id]).count id ≤ l.increments.count id + 1
    rw [count_append, count_singleton_self]
  episodic := fun _ h _ => h
  counted := fun _ h => h.credit hmore id

/-- One more record, made from the one with this id. -/
theorem Derived.add {id : String} {l : MemoryLedger} {record : MemoryRecord}
    (hnew : ∀ old ∈ l.records, old.id ≠ record.id) (hsemantic : record.memoryType = .semantic)
    (hsource : ∀ other, record.isDerivedFrom other = true → other = id) :
    Derived id l { l with records := l.records ++ [record] } where
  nodup := fun h => nodup_map_concat h hnew
  others := by
    intro other hother
    refine ⟨?_, rfl⟩
    have hnot : ¬ record.isDerivedFrom other = true := fun h => hother (hsource other h)
    show (l.records ++ [record]).countP _ = l.records.countP _
    rw [countP_append, countP_singleton, if_neg hnot]
    rfl
  own := by
    refine ⟨?_, Nat.le_succ _⟩
    show (l.records ++ [record]).countP _ ≤ l.records.countP _ + 1
    rw [countP_append, countP_singleton]
    split <;> omega
  episodic := by
    intro old hold hepisodic
    rcases mem_append.mp hold with hmem | hmem
    · exact hmem
    obtain rfl := mem_singleton.mp hmem
    rw [hsemantic] at hepisodic
    cases hepisodic
  counted := fun _ h => ⟨h.ids, h.nonneg, h.total⟩

/-! ## Marking a record -/

/-- The status of the records with this id. -/
def mark (status : MemoryRecordStatus) (now : Int) : MemoryLedger :=
  { l with
    records := l.records.map fun record =>
      if record.id = id then { record with status, updatedAt := now } else record }

variable {l l' : MemoryLedger} {id : String} {status : MemoryRecordStatus} {now : Int}

theorem mark_ids : (l.mark id status now).records.map (·.id) = l.records.map (·.id) := by
  rw [mark, map_map]
  refine map_congr_left fun record _ => ?_
  show (if record.id = id then { record with status, updatedAt := now } else record).id = record.id
  split <;> rfl

theorem mark_semanticCount (other : String) :
    (l.mark id status now).semanticCount other = l.semanticCount other := by
  show (l.records.map _).countP _ = l.records.countP _
  rw [countP_map]
  refine countP_congr fun record _ => ?_
  show (if record.id = id then { record with status, updatedAt := now } else record).isDerivedFrom
    other = true ↔ _
  split <;> rfl

theorem mark_incrementCount (other : String) :
    (l.mark id status now).incrementCount other = l.incrementCount other := rfl

/-- A record that is active after another status was set is one with another id. -/
theorem mem_of_mark {record : MemoryRecord} (hstatus : status ≠ .active)
    (hmem : record ∈ (l.mark id status now).records) (hactive : record.status = .active) :
    record ∈ l.records ∧ record.id ≠ id := by
  obtain ⟨old, hold, rfl⟩ := mem_map.mp hmem
  by_cases hid : old.id = id
  · rw [if_pos hid] at hactive
    exact absurd hactive hstatus
  · rw [if_neg hid]
    exact ⟨hold, hid⟩

/-- The counts of the other records do not change. -/
theorem Derived.untouched {other : String} (hderived : Derived id l l') (hother : other ≠ id)
    (h : l.Untouched other) : (l'.mark id status now).Untouched other := by
  obtain ⟨hsemantic, hincrement⟩ := hderived.others other hother
  refine ⟨?_, ?_⟩
  · rw [mark_semanticCount, hsemantic, h.1]
  · rw [mark_incrementCount, hincrement, h.2]

theorem Kept.mark (h : l.Kept) (huntouched : l.Untouched id) (hderived : Derived id l l')
    (hstatus : status ≠ .active) : (l'.mark id status now).Kept where
  nodup := by
    rw [mark_ids]
    exact hderived.nodup h.nodup
  once := by
    intro other
    rw [mark_semanticCount, mark_incrementCount]
    by_cases hother : other = id
    · subst hother
      obtain ⟨hsemantic, hincrement⟩ := hderived.own
      obtain ⟨hsemantic', hincrement'⟩ := huntouched
      omega
    · obtain ⟨hsemantic, hincrement⟩ := hderived.others other hother
      rw [hsemantic, hincrement]
      exact h.once other
  pending := by
    intro record hmem hepisodic hactive
    obtain ⟨hold, hid⟩ := mem_of_mark hstatus hmem hactive
    have hpending := h.pending record (hderived.episodic record hold hepisodic) hepisodic hactive
    exact hderived.untouched hid hpending

end MemoryLedger

/-! ## Processing a record -/

namespace MemoryRecord

variable (record : MemoryRecord) (input : ProcessInput)

def Derives : Prop :=
  record.category = "routine_run_summary"
    ∨ (record.category = "routine_playbook_candidate" ∧ input.listPlaybooks = none)

def Archives : Prop :=
  record.Derives input → input.derive.reached = true →
    input.derive.ok = true ∧ input.archive.reached = true

end MemoryRecord

/-- All that processing a record can do to the ledger. -/
inductive Consolidated (record : MemoryRecord) (input : ProcessInput) (l : MemoryLedger) :
    MemoryLedger → Prop where
  | unchanged : Consolidated record input l l
  | marked {l' : MemoryLedger} {status : MemoryRecordStatus}
      (hderived : MemoryLedger.Derived record.id l l') (hstatus : status ≠ .active) :
      Consolidated record input l (l'.mark record.id status input.now)
  /-- What is derived is written, and the record is active still. -/
  | left {l' : MemoryLedger} (hderived : MemoryLedger.Derived record.id l l')
      (hnot : ¬ record.Archives input) : Consolidated record input l l'

section

variable {record : MemoryRecord} {input : ProcessInput} {store derived : MemoryStore}

theorem consolidated_of_calls (hderives : record.Derives input)
    (hderived : MemoryLedger.Derived record.id store.ledger derived.ledger) :
    Consolidated record input store.ledger
      (if input.derive.ok then
        if input.archive.reached then derived.updateMemoryRecordStatus record.id .archived input.now
        else derived
      else if input.derive.reached then derived else store).ledger := by
  by_cases hok : input.derive.ok = true
  · rw [if_pos hok]
    by_cases harchive : input.archive.reached = true
    · rw [if_pos harchive]
      exact .marked hderived nofun
    · rw [if_neg harchive]
      refine .left hderived fun h => harchive (h hderives ?_).2
      exact reached_of_ok hok
  · rw [if_neg hok]
    by_cases hreached : input.derive.reached = true
    · rw [if_pos hreached]
      exact .left hderived fun h => hok (h hderives hreached).1
    · rw [if_neg hreached]
      exact .unchanged

variable (rfc3339 : Int → String)

theorem createMemoryRecord_derived :
    MemoryLedger.Derived record.id store.ledger
      (store.createMemoryRecord (semanticRecord rfc3339 record input)).ledger := by
  unfold MemoryStore.createMemoryRecord
  by_cases hthere : store.records.any (·.id == (semanticRecord rfc3339 record input).id) = true
  · rw [if_pos hthere]
    exact .refl _ _
  · rw [if_neg hthere]
    refine .add (fun old hold hid => hthere ?_) rfl fun other hother => ?_
    · exact any_eq_true.mpr ⟨old, hold, beq_iff_eq.mpr hid⟩
    · have hsource : decide (some record.id = some other) = true := hother
      exact (Option.some.inj (of_decide_eq_true hsource)).symm

theorem createOrUpdateProceduralPlaybook_derived {playbook : ProceduralPlaybook}
    (hmore : OneMore store.playbooks playbook) :
    MemoryLedger.Derived record.id store.ledger
      (store.createOrUpdateProceduralPlaybook playbook record.id).ledger :=
  MemoryLedger.Derived.credit hmore record.id

theorem processRunSummary_consolidated (hcategory : record.category = "routine_run_summary") :
    Consolidated record input store.ledger
      (exec (processRunSummary rfc3339 record input) store).2.ledger := by
  unfold processRunSummary
  rw [exec_call_bind_state, exec_call_pure_state]
  simp only [ok_mapError, reached_mapError]
  exact consolidated_of_calls (.inl hcategory) (createMemoryRecord_derived rfc3339)

theorem processPlaybookCandidate_consolidated
    (hcategory : record.category = "routine_playbook_candidate") :
    Consolidated record input store.ledger
      (exec (processPlaybookCandidate record input) store).2.ledger := by
  unfold processPlaybookCandidate promoteRoutinePlaybookCandidate
  cases hlist : input.listPlaybooks with
  | some => exact .unchanged
  | none =>
    rw [Option.map_none, bind_assoc, exec_query_bind_none]
    split
    · next old hfound =>
      have hold := mem_of_mem_filter ((mem_insertionSort _).mp (mem_of_find?_eq_some hfound))
      rw [exec_call_pure_bind_state, exec_call_pure_state]
      simp only [ok_mapError, reached_mapError]
      exact consolidated_of_calls (.inr ⟨hcategory, hlist⟩)
        (createOrUpdateProceduralPlaybook_derived (.inr ⟨old, hold, rfl, rfl⟩))
    · rw [exec_call_pure_bind_state, exec_call_pure_state]
      simp only [ok_mapError, reached_mapError]
      exact consolidated_of_calls (.inr ⟨hcategory, hlist⟩)
        (createOrUpdateProceduralPlaybook_derived (.inl rfl))

theorem processOther_consolidated :
    Consolidated record input store.ledger (exec (processOther record input) store).2.ledger := by
  unfold processOther
  rw [exec_call_pure_state, reached_mapError]
  split
  · exact .marked (.refl _ _) nofun
  · exact .unchanged

theorem processRecord_consolidated :
    Consolidated record input store.ledger
      (exec (processRecord rfc3339 record input) store).2.ledger := by
  have hevent : (exec (processRecord rfc3339 record input) store).2.ledger
      = (exec (consolidate rfc3339 record input) store).2.ledger := by
    refine exec_bind_view _ (fun outcome => ?_) store
    have hsilent : ∀ s : MemoryStore,
        (s.recordMemoryEvent (consolidatedEvent record input outcome)).ledger = s.ledger :=
      fun _ => rfl
    exact silent_call_pure _ hsilent outcome
  rw [hevent]
  unfold consolidate
  split
  · next hcategory => exact processPlaybookCandidate_consolidated hcategory
  split
  · next hcategory => exact processRunSummary_consolidated rfc3339 hcategory
  · exact processOther_consolidated

/-- A record that has not contributed is processed, and if it is archived whenever it
contributes, then what holds of the ledger still holds. -/
theorem Consolidated.kept {l l' : MemoryLedger} (hconsolidated : Consolidated record input l l')
    (h : l.Kept) (huntouched : l.Untouched record.id) (harchives : record.Archives input) :
    l'.Kept ∧ ∀ other, other ≠ record.id → l.Untouched other → l'.Untouched other := by
  cases hconsolidated with
  | unchanged => exact ⟨h, fun other _ hother => hother⟩
  | marked hderived hstatus =>
    exact ⟨h.mark huntouched hderived hstatus, fun other hne hother =>
      hderived.untouched hne hother⟩
  | left _ hnot => exact absurd harchives hnot

theorem Consolidated.counted {l l' : MemoryLedger} (hconsolidated : Consolidated record input l l')
    {base : Int} (h : l.Counted base) : l'.Counted base := by
  cases hconsolidated with
  | unchanged => exact h
  | marked hderived =>
    have hcounted := hderived.counted base h
    exact ⟨hcounted.ids, hcounted.nonneg, hcounted.total⟩
  | left hderived => exact hderived.counted base h

end

/-! ## Runs of the consolidator -/

variable (rfc3339 : Int → String) (input : RunInput)

theorem processRecords_cons (record : MemoryRecord)
    (records : List MemoryRecord) (run : ConsolidationRun) (store : MemoryStore) :
    ∃ run', processRecords rfc3339 input (record :: records) run store
      = processRecords rfc3339 input records run'
        (exec (processRecord rfc3339 record (input.process record.id)) store).2 := by
  rw [processRecords]
  rcases exec (processRecord rfc3339 record (input.process record.id)) store
    with ⟨e | outcome, after⟩
  · exact ⟨_, rfl⟩
  · exact ⟨_, rfl⟩

variable (records : List MemoryRecord)

theorem processRecords_kept (run : ConsolidationRun) (store : MemoryStore)
    (h : store.ledger.Kept) (huntouched : ∀ record ∈ records, store.ledger.Untouched record.id)
    (hnodup : (records.map (·.id)).Nodup)
    (harchives : ∀ record ∈ records, record.Archives (input.process record.id)) :
    (processRecords rfc3339 input records run store).2.ledger.Kept := by
  -- the records still to come have other ids, so they stay untouched
  induction records generalizing run store with
  | nil => exact h
  | cons record records ih =>
    obtain ⟨hfirst, huntouched⟩ := forall_mem_cons.mp huntouched
    obtain ⟨harchive, harchives⟩ := forall_mem_cons.mp harchives
    obtain ⟨hnew, hnodup⟩ := nodup_cons.mp hnodup
    obtain ⟨hkept, hothers⟩ := (processRecord_consolidated rfc3339).kept h hfirst harchive
    obtain ⟨run', hrest⟩ := processRecords_cons rfc3339 input record records run store
    rw [hrest]
    refine ih run' _ hkept (fun next hnext => ?_) hnodup harchives
    refine hothers next.id (fun hid => hnew ?_) (huntouched next hnext)
    exact mem_map.mpr ⟨next, hnext, hid⟩

theorem processRecords_counted {base : Int} (run : ConsolidationRun) (store : MemoryStore)
    (h : store.ledger.Counted base) :
    (processRecords rfc3339 input records run store).2.ledger.Counted base := by
  induction records generalizing run store with
  | nil => exact h
  | cons record records ih =>
    obtain ⟨run', hrest⟩ := processRecords_cons rfc3339 input record records run store
    rw [hrest]
    exact ih run' _ ((processRecord_consolidated rfc3339).counted h)

namespace MemoryStore

theorem mem_listPending {store : MemoryStore} {limit : Nat} {now : Int} {record : MemoryRecord}
    (h : record ∈ store.listPendingEpisodicForConsolidation limit now) :
    record ∈ store.records ∧ record.memoryType = .episodic ∧ record.status = .active := by
  have hfilter := (mem_insertionSort _).mp (mem_of_mem_take h)
  obtain ⟨hmem, hpending⟩ := mem_filter.mp hfilter
  simp only [Bool.and_eq_true, decide_eq_true_eq] at hpending
  exact ⟨hmem, hpending.1⟩

theorem listPending_nodup {store : MemoryStore} (h : (store.records.map (·.id)).Nodup)
    (limit : Nat) (now : Int) :
    ((store.listPendingEpisodicForConsolidation limit now).map (·.id)).Nodup := by
  refine Nodup.sublist ((take_sublist limit _).map _) ?_
  refine ((perm_insertionSort _ _).map _).nodup_iff.mpr ?_
  exact h.sublist (filter_sublist.map _)

variable (batchSize : UInt32)

/-- Whenever something derived from a record is written in this run, the caller is told
so, and the record is archived. -/
def ArchivesDerived (store : MemoryStore) (input : RunInput) : Prop :=
  input.recordRun.ok = true → input.listPending = none →
    ∀ record ∈ store.listPendingEpisodicForConsolidation batchSize.toNat input.listNow,
      record.Archives (input.process record.id)

variable (rfc3339 : Int → String) (batchSize : UInt32)

def step (store : MemoryStore) (input : RunInput) : MemoryStore :=
  (exec (runOnce rfc3339 batchSize input) store).2

variable (store : MemoryStore)

/-- A run leaves the ledger as it was, or goes through the pending records. -/
theorem step_ledger (input : RunInput) : (store.step rfc3339 batchSize input).ledger = store.ledger
      ∨ (input.recordRun.ok = true ∧ input.listPending = none
        ∧ (store.step rfc3339 batchSize input).ledger
          = (processRecords rfc3339 input
              (store.listPendingEpisodicForConsolidation batchSize.toNat input.listNow)
              (.start batchSize input.runId input.now)
              (store.recordConsolidationRun
                (.start batchSize input.runId input.now))).2.ledger) := by
  unfold step runOnce
  rw [exec_call_bind_state, ok_mapError, reached_mapError]
  by_cases hok : input.recordRun.ok = true
  · rw [if_pos hok]
    cases hlist : input.listPending with
    | some => exact .inl rfl
    | none =>
      rw [Option.map_none, exec_query_bind_none, exec_modifyGet_bind, exec_call_pure_state]
      refine .inr ⟨hok, rfl, ?_⟩
      split
      · rfl
      · rfl
  · rw [if_neg hok]
    refine .inl ?_
    split
    · rfl
    · rfl

theorem step_kept
    (input : RunInput) (h : store.ledger.Kept) (harchives : store.ArchivesDerived batchSize input) :
    (store.step rfc3339 batchSize input).ledger.Kept := by
  rcases store.step_ledger rfc3339 batchSize input with hsame | ⟨hok, hlist, hledger⟩
  · rw [hsame]
    exact h
  · rw [hledger]
    refine processRecords_kept rfc3339 input _ _ _ h (fun record hmem => ?_)
      (listPending_nodup h.nodup _ _) (harchives hok hlist)
    obtain ⟨hrecord, hepisodic, hactive⟩ := mem_listPending hmem
    exact h.pending record hrecord hepisodic hactive

theorem step_counted {base : Int} (input : RunInput) (h : store.ledger.Counted base) :
    (store.step rfc3339 batchSize input).ledger.Counted base := by
  rcases store.step_ledger rfc3339 batchSize input with hsame | ⟨_, _, hledger⟩
  · rw [hsame]
    exact h
  · rw [hledger]
    exact processRecords_counted rfc3339 input _ _ _ h

/-- Whatever fails, the successes the playbooks have gained are among those in the log. -/
theorem run_successTotal_le (hids : (store.playbooks.map (·.id)).Nodup)
    (hnonneg : ∀ playbook ∈ store.playbooks, 0 ≤ playbook.successCount)
    (hnone : store.increments = []) (inputs : List RunInput) :
    successTotal (run (step rfc3339 batchSize) store inputs).playbooks
      ≤ successTotal store.playbooks
        + (run (step rfc3339 batchSize) store inputs).increments.length := by
  have hstart : store.ledger.Counted (successTotal store.playbooks) := by
    refine ⟨hids, hnonneg, ?_⟩
    show _ ≤ _ + (store.increments.length : Int)
    rw [hnone]
    exact (Int.add_zero _).ge
  have hstep (s : MemoryStore) (input : RunInput)
      (h : s.ledger.Counted (successTotal store.playbooks)) :=
    step_counted rfc3339 batchSize s input h
  exact (invariant_always hstep hstart inputs).total

end MemoryStore

structure EpisodicRecords where
  records : List MemoryRecord
  nodup : (records.map (·.id)).Nodup
  episodic : ∀ record ∈ records, record.memoryType = .episodic

namespace EpisodicRecords

variable (set : EpisodicRecords) (playbooks : List ProceduralPlaybook)

def store : MemoryStore :=
  { records := set.records, playbooks }

theorem store_kept : (set.store playbooks).ledger.Kept := by
  have huntouched : ∀ id, (set.store playbooks).ledger.Untouched id := by
    intro id
    refine ⟨countP_eq_zero.mpr fun record hrecord hderived => ?_, rfl⟩
    have hepisodic := set.episodic record hrecord
    simp only [MemoryRecord.isDerivedFrom, hepisodic] at hderived
    cases hderived
  refine ⟨set.nodup, fun id => ?_, fun record _ _ _ => huntouched record.id⟩
  obtain ⟨hsemantic, hincrement⟩ := huntouched id
  omega

end EpisodicRecords

namespace MemoryStore

/-- Over every run of the consolidator in which a record is archived whenever it
contributes, no record contributes twice. -/
theorem run_atMostOnce (batchSize : UInt32) (set : EpisodicRecords)
    (playbooks : List ProceduralPlaybook) {inputs : List RunInput}
    (harchives : Guarded (step rfc3339 batchSize) (ArchivesDerived batchSize)
      (set.store playbooks) inputs) (pre : List RunInput) (hpre : pre <+: inputs) :
    (run (step rfc3339 batchSize) (set.store playbooks) pre).ledger.AtMostOnce := by
  have hstep : ∀ (store : MemoryStore) (input : RunInput), store.ledger.Kept →
      store.ArchivesDerived batchSize input → (store.step rfc3339 batchSize input).ledger.Kept :=
    step_kept rfc3339 batchSize
  have hreached := invariant_reached hstep (set.store_kept playbooks) harchives hpre
  exact hreached.once

/-! ## A record that is not archived -/

def noTime (_ : Int) : String := ""

def episode (category : String) : MemoryRecord :=
  { id := "e"
    ownerUserId := "alice"
    memoryType := .episodic
    sourceKind := .routineRun
    category
    title := "backup"
    summary := "done"
    confidence := 0.9
    sensitivity := .internal
    status := .active
    createdAt := 0
    updatedAt := 0 }

def single (category : String) : EpisodicRecords where
  records := [episode category]
  nodup := nodup_singleton _
  episodic := fun record h => by
    obtain rfl := mem_singleton.mp h
    rfl

/-- The semantic record cannot be written in the first run, and is in the second. -/
def lateSummary : List RunInput :=
  [{ process := fun _ => { derive := .rejected "database is locked" } },
   { process := fun _ => { newId := "s" } }]

theorem lateSummary_atMostOnce :
    (run (step noTime 10) ((single "routine_run_summary").store [])
      lateSummary).ledger.AtMostOnce := by
  have harchives : Guarded (step noTime 10) (ArchivesDerived 10)
      ((single "routine_run_summary").store []) lateSummary := by
    refine ⟨?_, ?_, trivial⟩
    · intro _ _ record _ _ hreached
      cases hreached
    · intro _ _ record _ _ _
      exact ⟨rfl, rfl⟩
  exact run_atMostOnce noTime 10 _ [] harchives lateSummary (prefix_refl _)

def lateArchive : List RunInput :=
  [{ process := fun _ => { newId := "s", archive := .rejected "database is locked" } },
   { process := fun _ => { newId := "t" } }]

theorem lateArchive_counted :
    let store := (single "routine_playbook_candidate").store []
    let after := run (step noTime 10) store lateArchive
    successTotal after.playbooks ≤ successTotal store.playbooks + after.increments.length :=
  run_successTotal_le noTime 10 _ (by decide) (by decide) rfl lateArchive

/-- A summary is made into two semantic records, and a candidate for a playbook is counted
as two successes. -/
theorem lateArchive_twice :
    ¬ (run (step noTime 10) ((single "routine_run_summary").store []) lateArchive).ledger.AtMostOnce
      ∧ ¬ (run (step noTime 10) ((single "routine_playbook_candidate").store [])
          lateArchive).ledger.AtMostOnce
      ∧ (run (step noTime 10) ((single "routine_playbook_candidate").store [])
          lateArchive).playbooks.map (·.successCount) = [2] := by
  refine ⟨fun h => ?_, fun h => ?_, by decide⟩
  · have honce := (h "e").1
    revert honce
    decide
  · have honce := (h "e").2
    revert honce
    decide

end MemoryStore

end TitanClaw.Agent
