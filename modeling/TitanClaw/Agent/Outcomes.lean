import Mathlib.Data.List.Forall2
import TitanClaw.Agent.Transitions

/-! # Is an outcome recorded with its own call?

All calls of a response are recorded in the turn first, and then each outcome is
attached to the turn's LAST entry. That is the entry of the call itself only if
the call is the last of its response. When outcomes are recorded for last calls
alone, every entry of every turn holds what came of its own call. -/

namespace TitanClaw.Agent

open Llm List Run Machine Thread

variable {R : Type} {D : Deps} {env : Env R} {m m' : Machine R}

def Entry (call : TurnToolCall) (r : CallRecord) : Prop :=
  call.toolCallId = some r.id ∧
    match r.outcome with
    | none => call.result = none ∧ call.resultText = none ∧ call.error = none
    | some (.output text content) =>
        call.result = some (.str text) ∧ call.resultText = some content ∧ call.error = none
    | some (.error text) => call.result = none ∧ call.resultText = none ∧ call.error = some text

def CallRecord.shown (r : CallRecord) : String :=
  match r.outcome with
  | none => "<tool output unavailable>"
  | some (.output _ content) => content
  | some (.error text) => text

/-- Every entry holds the outcome of its own call, and `Thread::messages` shows
that outcome as the call's result. -/
def Attached (J : JsonCodec) (m : Machine R) : Prop :=
  Forall₂ (Forall₂ fun call r => Entry call r ∧ call.resultContent J = r.shown)
    m.thread.calls m.records

theorem Entry.resultContent {call : TurnToolCall} {r : CallRecord} (h : Entry call r)
    (J : JsonCodec) : call.resultContent J = r.shown := by
  obtain ⟨-, h⟩ := h
  cases hr : r.outcome with
  | none =>
    rw [hr] at h
    simp [TurnToolCall.resultContent, CallRecord.shown, hr, h]
  | some o =>
    cases o with
    | output | error =>
      rw [hr] at h
      simp [TurnToolCall.resultContent, CallRecord.shown, hr, h]

/-- An outcome is recorded only for the last call of a response, and only such a
call waits for approval. -/
structure RecordsLast (D : Deps) (m : Machine R) (a : Act R) : Prop where
  recorded : ∀ f result ran tc rest pos, a.kind = .main →
    m.control = .loop f (.call (.record result ran) tc rest pos) → rest = []
  paused : PausesLast D m a

theorem modify_at_length {α : Type} (f : α → α) (l : List α) (a : α) (r : List α) :
    (l ++ a :: r).modify l.length f = l ++ f a :: r := by
  induction l with
  | nil => rfl
  | cons x l ih => simp [modify_succ_cons, ih]

theorem modifyLast_concat {α : Type} (f : α → α) (l : List α) (a : α) :
    modifyLast f (l ++ [a]) = l ++ [f a] := by
  have hlast : (l ++ [a]).length - 1 = l.length := by simp
  rw [modifyLast, hlast, modify_at_length]

/-- A list related to one with a last element has one too. -/
theorem forall₂_concat_right {α β : Type} {P : α → β → Prop} {as : List α} {bs : List β} {b : β}
    (h : Forall₂ P as (bs ++ [b])) :
    ∃ as' a, as = as' ++ [a] ∧ Forall₂ P as' bs ∧ P a b := by
  induction bs generalizing as with
  | nil =>
    cases h with
    | cons hab hnil =>
      cases hnil
      exact ⟨[], _, rfl, .nil, hab⟩
  | cons _ _ ih =>
    cases h with
    | @cons a' _ _ _ hab hrest =>
      obtain ⟨as', a, rfl, hinit, hlast⟩ := ih hrest
      exact ⟨a' :: as', a, rfl, .cons hab hinit, hlast⟩

theorem forall₂_concat {α β : Type} {P : α → β → Prop} {as : List α} {bs : List β} {a : α}
    {b : β} (h : Forall₂ P as bs) (hab : P a b) : Forall₂ P (as ++ [a]) (bs ++ [b]) :=
  rel_append h (.cons hab .nil)

/-! ## What recording does -/

def attach (o : CallOutcome) (call : TurnToolCall) : TurnToolCall :=
  match o with
  | .output text content =>
      { call with result := some (.str text), resultText := some content }
  | .error text => { call with error := some text }

theorem Entry.attach {call : TurnToolCall} {id : String} (h : Entry call ⟨id, none⟩)
    (o : CallOutcome) : Entry (attach o call) ⟨id, some o⟩ := by
  obtain ⟨hid, hresult, htext, herror⟩ := h
  cases o with
  | output => exact ⟨hid, rfl, rfl, herror⟩
  | error => exact ⟨hid, hresult, htext, rfl⟩

theorem calls_recordOutcome (m : Machine R) (pos : Nat) (o : CallOutcome) :
    (m.recordOutcome pos o).thread.calls = modifyLast (modifyLast (attach o)) m.thread.calls := by
  refine calls_withLastTurn ?_ m.thread
  intro turn
  cases o with
  | output | error => rfl

def newEntry (tc : ToolCall) : TurnToolCall :=
  { toolCallId := some tc.id, name := tc.name, parameters := tc.arguments }

variable (calls : List ToolCall)

theorem toolCalls_foldl_recordToolCall (turn : Turn) :
    (calls.foldl (fun t tc => t.recordToolCall tc.id tc.name tc.arguments) turn).toolCalls
      = turn.toolCalls ++ calls.map newEntry := by
  induction calls generalizing turn with
  | nil => simp
  | cons _ _ ih =>
    rw [foldl_cons, ih]
    simp [Turn.recordToolCall, newEntry]

theorem calls_recordCalls (m : Machine R) (calls : List ToolCall) :
    (m.recordCalls calls).thread.calls = modifyLast (· ++ calls.map newEntry) m.thread.calls :=
  calls_withLastTurn (toolCalls_foldl_recordToolCall calls) m.thread

theorem recordedCalls_eq (m : Machine R) :
    m.recordedCalls = (m.thread.calls.getLast?.getD []).length := by
  rw [recordedCalls, calls, getLast?_map]
  cases m.thread.turns.getLast? with
  | none | some => rfl

theorem newEntries : Forall₂ Entry (calls.map newEntry) (calls.map fun tc => ⟨tc.id, none⟩) := by
  induction calls with
  | nil => exact .nil
  | cons _ _ ih => exact .cons ⟨rfl, rfl, rfl, rfl⟩ ih

/-! ## The invariant -/

variable (records : List (List CallRecord))

/-- The record of the current turn ends in calls without an outcome, from entry
`pos` on. -/
def OpenFrom (ids : List String) (pos : Nat) : Prop :=
  ∃ init done, records = init ++ [done ++ ids.map fun id => ⟨id, none⟩] ∧ done.length = pos

def ControlOpen : Control R → Prop
  | .idle => True
  | .loop _ .top | .loop _ .waiting => records ≠ []
  | .loop _ (.call _ tc rest pos) => OpenFrom records (tc.id :: rest.map (·.id)) pos
  | .resume r _ => OpenFrom records [r.pending.toolCallId] r.pos

structure OutcomeInv (m : Machine R) : Prop where
  entries : Forall₂ (Forall₂ Entry) m.thread.calls m.records
  control : ControlOpen m.records m.control
  pending : ∀ p, m.thread.pendingApproval = some p → OpenFrom m.records [p.toolCallId] m.pendingPos

theorem OutcomeInv.attached (h : OutcomeInv m) (J : JsonCodec) : Attached J m := by
  refine h.entries.imp ?_
  intro calls records hentries
  refine hentries.imp ?_
  intro call r hentry
  exact ⟨hentry, hentry.resultContent J⟩

/-- A step that records nothing and leaves nothing pending. -/
theorem OutcomeInv.of_none (h : OutcomeInv m) (hcalls : m'.thread.calls = m.thread.calls)
    (hrecords : m'.records = m.records) (hcontrol : ControlOpen m.records m'.control)
    (hpending : m'.thread.pendingApproval = none) : OutcomeInv m' where
  entries := by rw [hcalls, hrecords]; exact h.entries
  control := by rw [hrecords]; exact hcontrol
  pending := by simp [hpending]

variable {records} {pos : Nat} {rest : List ToolCall}

/-- The call at `pos` gets no outcome; the next one follows. -/
theorem OpenFrom.next {tc : ToolCall} (h : OpenFrom records (tc.id :: rest.map (·.id)) pos)
    (f : Frame R) : ControlOpen records (.loop f (nextCall rest (pos + 1))) := by
  obtain ⟨init, done, rfl, rfl⟩ := h
  cases rest with
  | nil => simp [nextCall, ControlOpen]
  | cons => exact ⟨init, done ++ [⟨tc.id, none⟩], by simp, by simp⟩

section

variable (h : OutcomeInv m)

include h

theorem OutcomeInv.answer {f : Frame R} {tc : ToolCall} (hopen : OpenFrom m.records (tc.id :: rest.map (·.id)) pos)
    (hpending : m.Unpaused) (content : String) (ran : Option JsonValue) :
    OutcomeInv (m.answer f tc rest pos content ran) :=
  h.of_none rfl rfl (hopen.next _) hpending

/-- The outcome of the last open call goes to its own entry. -/
theorem OutcomeInv.recordOutcome {id : String}
    (hopen : OpenFrom m.records [id] pos) (o : CallOutcome) :
    Forall₂ (Forall₂ Entry) (m.recordOutcome pos o).thread.calls (m.recordOutcome pos o).records
      ∧ (m.recordOutcome pos o).records ≠ [] := by
  obtain ⟨init, done, hrecords, rfl⟩ := hopen
  have hentries := h.entries
  rw [hrecords] at hentries
  obtain ⟨turns, calls, hcalls, hinit, hlast⟩ := forall₂_concat_right hentries
  obtain ⟨calls, call, rfl, hdone, hentry⟩ := forall₂_concat_right hlast
  have hnew : (m.recordOutcome done.length o).records = init ++ [done ++ [⟨id, some o⟩]] := by
    rw [recordOutcome, hrecords, modifyLast_concat]
    show init ++ [(done ++ [(⟨id, none⟩ : CallRecord)]).modify done.length _] = _
    rw [modify_at_length]
  rw [calls_recordOutcome, hcalls, modifyLast_concat, modifyLast_concat, hnew]
  exact ⟨forall₂_concat hinit (forall₂_concat hdone (hentry.attach o)), by simp⟩

theorem OutcomeInv.recordCalls (hturn : m.records ≠ []) (calls : List ToolCall) :
    Forall₂ (Forall₂ Entry) (m.recordCalls calls).thread.calls (m.recordCalls calls).records
      ∧ OpenFrom (m.recordCalls calls).records (calls.map (·.id)) m.recordedCalls := by
  obtain ⟨init, done, hrecords⟩ := (eq_nil_or_concat' m.records).resolve_left hturn
  have hentries := h.entries
  rw [hrecords] at hentries
  obtain ⟨turns, entries, hcalls, hinit, hlast⟩ := forall₂_concat_right hentries
  have hnew : (m.recordCalls calls).records
      = init ++ [done ++ calls.map fun tc => ⟨tc.id, none⟩] := by
    rw [Machine.recordCalls, hrecords, modifyLast_concat]
  have hcount : m.recordedCalls = done.length := by
    rw [recordedCalls_eq, hcalls, getLast?_concat]
    exact hlast.length_eq
  rw [calls_recordCalls, hcalls, modifyLast_concat, hnew]
  refine ⟨forall₂_concat hinit (rel_append hlast (newEntries calls)), ?_⟩
  exact ⟨init, done, by simp, hcount.symm⟩

theorem OutcomeInv.of_ended {id : String} (hopen : OpenFrom m.records [id] pos) (o : CallOutcome)
    (hended : Ended (m.recordOutcome pos o).thread m'.thread)
    (hrecords : m'.records = (m.recordOutcome pos o).records) (hcontrol : m'.control = .idle) :
    OutcomeInv m' where
  entries := by rw [hended.calls, hrecords]; exact (h.recordOutcome hopen o).1
  control := by rw [hcontrol]; exact trivial
  pending := by simp [hended.pending]

end

theorem LoopStep.outcome {a : Act R} {f : Frame R} {at_ : LoopAt}
    (h : LoopStep D a.env m f at_ m') (hinv : OutcomeInv m) (hguard : RecordsLast D m a)
    (hkind : a.kind = .main) (hcontrol : m.control = .loop f at_)
    (hpending : m.Unpaused) : OutcomeInv m' := by
  have hopen : ControlOpen m.records (.loop f at_) := hcontrol ▸ hinv.control
  cases h with
  | leave _ _ hended => exact hinv.of_none hended.calls rfl trivial hended.pending
  | send | routed | hooked | passed | taken | unstarted | started | ended =>
    exact hinv.of_none rfl rfl hopen hpending
  | wait => exact hinv
  | routeDenied => exact hinv.answer hopen hpending _ _
  | @hookDenied tc _ _ reason codes =>
    have hlogged : OutcomeInv { m with
        log := .hooked ⟨f.generation, tc.id⟩ tc.name (.deny reason codes) :: m.log } :=
      hinv.of_none rfl rfl hinv.control hpending
    exact hlogged.answer hopen hpending _ _
  | @paused tc rest pos tool codes _ hpolicy =>
    refine ⟨hinv.entries, trivial, ?_⟩
    have hlast := hguard.paused f tc rest pos tool codes hkind hcontrol hpolicy
    intro p hp
    cases Option.some.inj hp
    subst hlast
    exact hopen
  | @recorded result ran tc rest pos =>
    have hlast := hguard.recorded f result ran tc rest pos hkind hcontrol
    subst hlast
    obtain ⟨hentries, hturn⟩ := hinv.recordOutcome hopen
      (.ofResult (resultContent D tc.name result) result)
    exact ⟨hentries, hturn, by simp [answer, recordOutcome, withLastTurn, hpending]⟩
  | @awaitsToken result ran tc rest pos _ _ hended =>
    have hlast := hguard.recorded f result ran tc rest pos hkind hcontrol
    subst hlast
    exact hinv.of_ended hopen _ hended rfl rfl

theorem ReplyStep.outcome {f : Frame R} {reply : Except String RespondResult}
    (h : ReplyStep m f reply m') (hinv : OutcomeInv m)
    (hcontrol : m.control = .loop f .waiting) (hpending : m.Unpaused) :
    OutcomeInv m' := by
  have hturn : ControlOpen m.records (.loop f .waiting) := hcontrol ▸ hinv.control
  cases h with
  | leave _ _ _ hended => exact hinv.of_none hended.calls rfl trivial hended.pending
  | nudge => exact hinv.of_none rfl rfl hturn hpending
  | called calls =>
    obtain ⟨hentries, hopen⟩ := hinv.recordCalls hturn calls
    refine ⟨hentries, ?_, by simp [recordCalls, withLastTurn, hpending]⟩
    cases calls with
    | nil =>
      obtain ⟨init, done, hrecords, -⟩ := hopen
      show (m.recordCalls []).records ≠ []
      simp [hrecords]
    | cons => exact hopen

theorem ResumeStep.outcome {r : Resume} {stage : ResumeStage}
    (h : ResumeStep D env m r stage m') (hinv : OutcomeInv m)
    (hcontrol : m.control = .resume r stage) (hpending : m.Unpaused) :
    OutcomeInv m' := by
  have hopen : ControlOpen m.records (.resume r stage : Control R) := hcontrol ▸ hinv.control
  cases h with
  | routeDenied _ _ _ hended | hookDenied _ _ _ _ hended | awaitsToken _ _ hended =>
    exact hinv.of_ended hopen _ hended rfl rfl
  | paused =>
    refine ⟨hinv.entries, trivial, ?_⟩
    intro p hp
    cases Option.some.inj hp
    exact hopen
  | @recorded _ result =>
    obtain ⟨hentries, hturn⟩ := hinv.recordOutcome hopen
      (.ofResult (resultContent D r.pending.toolName result) result)
    exact ⟨hentries, hturn, by simp [recordOutcome, withLastTurn, hpending]⟩
  | _ => exact hinv.of_none rfl rfl hopen hpending

theorem Step.outcome {a : Act R} (h : Step D m a m') (hm : Settled m) (hinv : OutcomeInv m)
    (hguard : RecordsLast D m a) : OutcomeInv m' := by
  cases h with
  | keep _ _ _ hcalls hpending =>
    exact ⟨by rw [hcalls]; exact hinv.entries, hinv.control, by rw [hpending]; exact hinv.pending⟩
  | loop hkind hcontrol h =>
    exact h.outcome hinv hguard hkind hcontrol (hm.running_thread (by simp [hcontrol])).1
  | reply _ hcontrol h | resume _ hcontrol h =>
    exact h.outcome hinv hcontrol (hm.running_thread (by simp [hcontrol])).1
  | streamEvent => exact ⟨hinv.entries, hinv.control, hinv.pending⟩
  | early _ h =>
    cases h with
    | _ => exact ⟨hinv.entries, hinv.control, hinv.pending⟩
  | begin _ _ hcalls hpending =>
    refine ⟨?_, by simp [ControlOpen], by simp [hpending]⟩
    rw [hcalls]
    exact forall₂_concat hinv.entries .nil
  | cancelled pending _ _ _ _ hpending hended =>
    exact hinv.of_ended (hinv.pending pending hpending) _ hended rfl rfl
  | accepted pending _ _ hpending => exact hinv.of_none rfl rfl (hinv.pending pending hpending) rfl

/-- **If outcomes are recorded for last calls alone, each goes to its own call**,
in every state that a run from a fresh agent reaches; and the call under way is
the one whose record is open. -/
theorem outcomes_stay_attached (D : Deps) (m : Machine R) (hfresh : m.Fresh)
    (hentries : Forall₂ (Forall₂ Entry) m.thread.calls m.records)
    (acts pre : List (Act R)) (hguard : Guarded (step D) (RecordsLast D) m acts)
    (hpre : pre <+: acts) :
    Attached D.json (run (step D) m pre)
      ∧ ControlOpen (run (step D) m pre).records (run (step D) m pre).control := by
  have hstart : OutcomeInv m :=
    ⟨hentries, by rw [hfresh.control]; exact trivial, by simp [hfresh.pending]⟩
  have hinv : OutcomeInv (run (step D) m pre) :=
    rules_invariant (fun _ _ _ hm hinv hguard h => h.outcome hm hinv hguard) hfresh.settled
      hstart hguard hpre
  exact ⟨hinv.attached D.json, hinv.control⟩

theorem RecordsLast.of_behind {a : Act R} (h : m.control.behind.isEmpty = true) :
    RecordsLast D m a where
  recorded := by
    intro f result ran tc rest pos _ hcontrol
    rw [hcontrol] at h
    exact isEmpty_iff.mp h
  paused := .of_behind h

def executeCall (env : Env Unit) : List (Act Unit) := replicate 6 ⟨env, .main⟩

def turnWith (execution : List (Act Unit)) : List (Act Unit) :=
  [⟨smallEnv, .input helloMessage "hello"⟩, ⟨smallEnv, .main⟩,
    ⟨smallEnv, .reply (.ok (.toolCalls calls none))⟩]
  ++ execution ++ [⟨smallEnv, .main⟩, ⟨smallEnv, .reply (.ok (.text "All done."))⟩]

/-- The text the entries of a turn show, against what came of its calls. -/
theorem Attached.shown {J : JsonCodec} (h : Attached J m) :
    m.thread.calls.map (·.map (·.resultContent J)) = m.records.map (·.map (·.shown)) := by
  rw [← forall₂_eq_eq_eq, forall₂_map_left_iff, forall₂_map_right_iff]
  refine h.imp ?_
  intro calls records hentries
  rw [← forall₂_eq_eq_eq, forall₂_map_left_iff, forall₂_map_right_iff]
  exact hentries.imp fun call r hentry => hentry.2

theorem one_echo_stays_attached :
    Attached commandJson (run (step (smallDeps {})) smallAgent
        (turnWith [echoCall "call-1" "hi"] (executeCall smallEnv)))
      ∧ (run (step (smallDeps {})) smallAgent
          (turnWith [echoCall "call-1" "hi"] (executeCall smallEnv))).records.map
            (·.map (·.outcome.isSome)) = [[true]] := by
  refine ⟨(outcomes_stay_attached (smallDeps {}) smallAgent ⟨rfl, rfl, rfl, rfl, rfl, rfl, rfl⟩
    .nil _ _ ?_ (prefix_refl _)).1, by decide⟩
  exact guarded_of_checks (fun m _ => m.control.behind.isEmpty)
    (fun _ _ h => .of_behind h) (by decide)

def twoEchoTurn : List (Act Unit) :=
  turnWith [echoCall "call-1" "hi", echoCall "call-2" "ho"]
    (executeCall { smallEnv with toolRun := .finished ⟨.str "hi", 1⟩ }
      ++ executeCall { smallEnv with toolRun := .finished ⟨.str "ho", 1⟩ })

theorem two_echoes_mixed_up :
    (run (step (smallDeps {})) smallAgent twoEchoTurn).thread.state = .idle
      ∧ (run (step (smallDeps {})) smallAgent twoEchoTurn).thread.turns.map (·.state) = [.completed]
      ∧ ¬ Attached commandJson (run (step (smallDeps {})) smallAgent twoEchoTurn) := by
  refine ⟨by decide, by decide, ?_⟩
  intro hattached
  have hshown := hattached.shown
  revert hshown
  decide

end TitanClaw.Agent
