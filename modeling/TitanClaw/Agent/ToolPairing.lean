import TitanClaw.Agent.Transitions

/-! # Does every call get its result?

The loop answers the calls of a response one after the other, and each answer
adds a result message. An approval request leaves the loop in the middle; the
context saved with it is resumed later with the result of that call alone, so the
calls after it stay without a result. If responses are left only at their last
call, every message list sent to the model pairs calls with results. -/

namespace TitanClaw.Agent

open Llm Tools List Run ChatMessage

variable {R : Type} {D : Deps} {env : Env R} {m m' : Machine R} (msgs : List ChatMessage)

def leadingResults : List (Option String) := (msgs.takeWhile (·.role == .tool)).map (·.toolCallId)

/-- Each assistant message with tool calls is followed by exactly one tool result
per call. -/
def Paired : Prop :=
  ∀ pre a calls post, msgs = pre ++ a :: post → a.role = .assistant →
    a.toolCalls = some calls → (leadingResults post).Perm (calls.map (some ·.id))

/-! ## How paired lists grow -/

variable {b : ChatMessage}

theorem leadingResults_append (hb : b.role ≠ .tool)
    (l r : List ChatMessage) : leadingResults (l ++ b :: r) = leadingResults l := by
  induction l with
  | nil => simp [leadingResults, hb]
  | cons x l ih =>
    simp only [leadingResults, cons_append, takeWhile_cons] at ih ⊢
    by_cases hx : x.role = .tool
    · simpa [hx] using ih
    · simp [hx]

theorem paired_nil : Paired [] := by
  intro pre a calls post h
  simp at h

/-- A list that does not begin with a result may follow a paired one. -/
theorem Paired.append_cons {l r : List ChatMessage} (hl : Paired l)
    (hb : b.role ≠ .tool) (hr : Paired (b :: r)) : Paired (l ++ b :: r) := by
  intro pre a calls post heq hrole hcalls
  rcases append_eq_append_iff.mp heq with ⟨mid, hpre, hrest⟩ | ⟨mid, hl', hrest⟩
  · exact hr mid a calls post hrest hrole hcalls
  cases mid with
  | nil => exact hr [] a calls post hrest.symm hrole hcalls
  | cons _ mid =>
    rw [cons_append] at hrest
    obtain ⟨rfl, rfl⟩ := cons_eq_cons.mp hrest
    rw [leadingResults_append hb]
    exact hl pre a calls mid hl' hrole hcalls

/-- One message without calls. -/
theorem paired_singleton (hb : b.toolCalls = none) : Paired [b] := by
  intro pre a calls post heq hrole hcalls
  cases pre with
  | nil =>
    obtain ⟨rfl, -⟩ := cons_eq_cons.mp heq
    rw [hb] at hcalls
    cases hcalls
  | cons => simp at heq

theorem Paired.snoc {l : List ChatMessage} (hl : Paired l)
    (hb : b.role ≠ .tool) (hcalls : b.toolCalls = none) : Paired (l ++ [b]) :=
  hl.append_cons hb (paired_singleton hcalls)

/-- Results `done` came in for the calls of a response, in order; `owed` are
still to come. -/
def Owing (owed : List String) : Prop :=
  ∃ pre content calls done, msgs = pre ++ .assistantWithToolCalls content calls :: done
    ∧ Paired pre ∧ (∀ x ∈ done, x.role = .tool)
    ∧ done.map (·.toolCallId) ++ owed.map some = calls.map (some ·.id)

variable {msgs}

theorem Paired.owing (h : Paired msgs) (content : Option String) (calls : List ToolCall) :
    Owing (msgs ++ [.assistantWithToolCalls content calls]) (calls.map (·.id)) :=
  ⟨msgs, content, calls, [], rfl, h, by simp, by simp⟩

theorem Owing.answer {id : String} {owed : List String}
    (h : Owing msgs (id :: owed)) (name content : String) :
    Owing (msgs ++ [.toolResult id name content]) owed := by
  obtain ⟨pre, text, calls, done, rfl, hpre, hdone, hids⟩ := h
  refine ⟨pre, text, calls, done ++ [.toolResult id name content], by simp, hpre, ?_, ?_⟩
  · intro x hx
    rcases mem_append.mp hx with hx | hx
    · exact hdone x hx
    rw [mem_singleton.mp hx]
    rfl
  · rw [← hids]
    simp [toolResult]

/-- A response whose results are all there. -/
theorem Owing.paired (h : Owing msgs []) : Paired msgs := by
  obtain ⟨pre, text, calls, done, rfl, hpre, hdone, hids⟩ := h
  refine hpre.append_cons nofun ?_
  intro pre' a calls' post heq hrole hcalls
  cases pre' with
  | nil =>
    obtain ⟨rfl, rfl⟩ := cons_eq_cons.mp heq
    have hsome : calls' = calls := by
      simp only [assistantWithToolCalls] at hcalls
      split at hcalls
      · cases hcalls
      · exact (Option.some.inj hcalls).symm
    have hall : leadingResults done = done.map (·.toolCallId) := by
      rw [leadingResults, takeWhile_eq_self_iff.mpr]
      intro x hx
      simp [hdone x hx]
    rw [hall, hsome, ← hids]
    simp
  | cons =>
    -- the messages after it are results, not assistant messages
    obtain ⟨-, rfl⟩ := cons_eq_cons.mp heq
    have htool := hdone a (by simp)
    rw [htool] at hrole
    cases hrole

theorem toolCallMessages_paired (J : JsonCodec) (turnNumber idx : Nat)
    (calls : List TurnToolCall) {before : List ChatMessage} (hbefore : Paired before) :
    Paired (before ++ toolCallMessages J turnNumber idx calls) := by
  induction calls generalizing idx before with
  | nil => simpa [toolCallMessages] using hbefore
  | cons tc _ ih =>
    let callId := tc.toolCallId.getD ("turn-" ++ toString turnNumber ++ "-tool-" ++ toString idx)
    have hcall := hbefore.owing none [⟨callId, tc.name, tc.parameters⟩]
    have hboth := (hcall.answer tc.name (tc.resultContent J)).paired
    have hrest := ih (idx + 1) hboth
    simpa [toolCallMessages, callId] using hrest

theorem Turn.messages_paired {J : JsonCodec} (turn : Turn) {before : List ChatMessage}
    (hbefore : Paired before) : Paired (before ++ turn.messages J) := by
  have huser : Paired (before ++ [.user turn.userInput]) := hbefore.snoc nofun rfl
  have hcalls := toolCallMessages_paired J turn.turnNumber 0 turn.toolCalls huser
  rw [Turn.messages]
  cases turn.response with
  | none => simpa using hcalls
  | some response =>
    have hresponse := hcalls.snoc (b := .assistant response) nofun rfl
    simpa using hresponse

/-- What a thread sends is paired, whatever its turns hold: each recorded call is
followed by its own outcome. -/
theorem Thread.messages_paired (J : JsonCodec) (t : Thread) : Paired (t.messages J) := by
  have hturns : ∀ (turns : List Turn) (before : List ChatMessage), Paired before →
      Paired (before ++ turns.flatMap (Turn.messages J)) := by
    intro turns
    induction turns with
    | nil =>
      intro before hbefore
      simpa using hbefore
    | cons turn _ ih =>
      intro before hbefore
      have hnext := ih _ (turn.messages_paired (J := J) hbefore)
      simpa using hnext
  exact hturns t.turns [] paired_nil

/-! ## The invariant -/

def ControlPaired : Control R → Prop
  | .idle => True
  | .loop f .top | .loop f .waiting => Paired f.contextMessages
  | .loop f (.call _ tc rest _) => Owing f.contextMessages (tc.id :: rest.map (·.id))
  | .resume r _ => Owing r.pending.contextMessages [r.pending.toolCallId]

structure PairingInv (m : Machine R) : Prop where
  requests : ∀ call ∈ m.llmCalls, Paired call.messages
  control : ControlPaired m.control
  pending : ∀ p, m.thread.pendingApproval = some p → Owing p.contextMessages [p.toolCallId]

/-- A step that sends nothing and leaves nothing pending. -/
theorem PairingInv.of_none (h : PairingInv m) (hrequests : m'.llmCalls = m.llmCalls)
    (hcontrol : ControlPaired m'.control) (hpending : m'.thread.pendingApproval = none) :
    PairingInv m' where
  requests := by rw [hrequests]; exact h.requests
  control := hcontrol
  pending := by simp [hpending]

variable {f : Frame R}

theorem nextCall_paired {calls : List ToolCall} (pos : Nat)
    (h : Owing f.contextMessages (calls.map (·.id))) :
    ControlPaired (.loop f (nextCall calls pos)) := by
  cases calls with
  | nil => exact h.paired
  | cons => exact h

theorem PairingInv.answer (h : PairingInv m) {tc : ToolCall}
    {rest : List ToolCall} (howing : Owing f.contextMessages (tc.id :: rest.map (·.id)))
    (hpending : m.Unpaused) (pos : Nat) (content : String)
    (ran : Option JsonValue) : PairingInv (m.answer f tc rest pos content ran) :=
  h.of_none rfl (nextCall_paired _ (howing.answer tc.name content)) hpending

theorem LoopStep.pairing {a : Act R} {at_ : LoopAt}
    (h : LoopStep D a.env m f at_ m') (hinv : PairingInv m) (hguard : PausesLast D m a)
    (hkind : a.kind = .main) (hcontrol : m.control = .loop f at_)
    (hpending : m.Unpaused) : PairingInv m' := by
  have hpaired : ControlPaired (.loop f at_) := hcontrol ▸ hinv.control
  cases h with
  | leave _ _ hended | awaitsToken _ _ hended => exact hinv.of_none rfl trivial hended.pending
  | send =>
    refine ⟨?_, hpaired, by simp [hpending]⟩
    intro call hcall
    rcases mem_append.mp hcall with hold | hnew
    · exact hinv.requests call hold
    rw [mem_singleton.mp hnew]
    exact hpaired
  | wait => exact hinv
  | routed | hooked | passed | taken | unstarted | started | ended =>
    exact hinv.of_none rfl hpaired hpending
  | routeDenied => exact hinv.answer hpaired hpending _ _ _
  | @hookDenied tc _ _ reason codes =>
    have hlogged : PairingInv { m with
        log := .hooked ⟨f.generation, tc.id⟩ tc.name (.deny reason codes) :: m.log } :=
      hinv.of_none rfl hinv.control hpending
    exact hlogged.answer hpaired hpending _ _ _
  | @paused tc rest pos tool codes _ hpolicy =>
    refine ⟨hinv.requests, trivial, ?_⟩
    -- nothing of the response is left but the call that waits
    have hlast := hguard f tc rest pos tool codes hkind hcontrol hpolicy
    rintro p hp
    cases Option.some.inj hp
    subst hlast
    exact hpaired
  | @recorded result _ tc _ pos =>
    have hrecorded : PairingInv (m.recordOutcome pos
        (.ofResult (resultContent D tc.name result) result)) :=
      hinv.of_none rfl hinv.control hpending
    exact hrecorded.answer hpaired hpending _ _ _

theorem ReplyStep.pairing {reply : Except String RespondResult}
    (h : ReplyStep m f reply m') (hinv : PairingInv m)
    (hcontrol : m.control = .loop f .waiting) (hpending : m.Unpaused) :
    PairingInv m' := by
  have hpaired : ControlPaired (.loop f .waiting) := hcontrol ▸ hinv.control
  cases h with
  | leave _ _ _ hended => exact hinv.of_none rfl trivial hended.pending
  | nudge text =>
    refine hinv.of_none rfl ?_ hpending
    have htext : Paired (f.contextMessages ++ [.assistant text]) := hpaired.snoc nofun rfl
    have hboth := htext.snoc (b := .user ("Please proceed and use the available tools to "
      ++ "complete this task.")) nofun rfl
    simpa [ControlPaired] using hboth
  | called calls content =>
    exact hinv.of_none rfl (nextCall_paired _ (hpaired.owing content calls)) hpending

theorem ResumeStep.pairing {r : Resume} {stage : ResumeStage}
    (h : ResumeStep D env m r stage m') (hinv : PairingInv m)
    (hcontrol : m.control = .resume r stage) (hpending : m.Unpaused) :
    PairingInv m' := by
  have howing : ControlPaired (.resume r stage : Control R) := hcontrol ▸ hinv.control
  cases h with
  | routeDenied _ _ _ hended | hookDenied _ _ _ _ hended | awaitsToken _ _ hended =>
    exact hinv.of_none rfl trivial hended.pending
  | paused =>
    refine ⟨hinv.requests, trivial, ?_⟩
    intro p hp
    cases Option.some.inj hp
    exact howing
  | recorded => exact hinv.of_none rfl (Owing.answer howing _ _).paired hpending
  | _ => exact hinv.of_none rfl howing hpending

theorem Step.pairing {a : Act R} (h : Step D m a m') (hm : Settled m) (hinv : PairingInv m)
    (hguard : PausesLast D m a) : PairingInv m' := by
  cases h with
  | keep _ _ _ _ hpending =>
    exact ⟨hinv.requests, hinv.control, by rw [hpending]; exact hinv.pending⟩
  | loop hkind hcontrol h =>
    exact h.pairing hinv hguard hkind hcontrol (hm.running_thread (by simp [hcontrol])).1
  | reply _ hcontrol h | resume _ hcontrol h =>
    exact h.pairing hinv hcontrol (hm.running_thread (by simp [hcontrol])).1
  | streamEvent => exact ⟨hinv.requests, hinv.control, hinv.pending⟩
  | early _ h =>
    cases h with
    | _ => exact ⟨hinv.requests, hinv.control, hinv.pending⟩
  | begin thread _ _ hpending => exact hinv.of_none rfl (thread.messages_paired D.json) hpending
  | cancelled _ _ _ _ _ _ hended => exact hinv.of_none rfl trivial hended.pending
  | accepted pending _ _ hpending => exact hinv.of_none rfl (hinv.pending pending hpending) rfl

/-- **If responses are left only at their last call, every request to the model
is paired**: from any paired list that the loop is called with, over all
iterations, approvals and later inputs. -/
theorem requests_stay_paired (D : Deps) (m : Machine R) (f : Frame R)
    (hcontrol : m.control = .loop f .top) (hpaired : Paired f.contextMessages)
    (hstate : m.thread.state = .processing) (hpending : m.thread.pendingApproval = none)
    (hfirst : m.llmCalls = []) (acts pre : List (Act R))
    (hguard : Guarded (step D) (PausesLast D) m acts) (hpre : pre <+: acts) :
    ∀ call ∈ (run (step D) m pre).llmCalls, Paired call.messages := by
  have hstart : PairingInv m :=
    ⟨by simp [hfirst], by rw [hcontrol]; exact hpaired, by simp [hpending]⟩
  have hinv : PairingInv (run (step D) m pre) :=
    rules_invariant (fun _ _ _ hm hinv hguard h => h.pairing hm hinv hguard)
      (.of_processing hpending hstate) hstart hguard hpre
  exact hinv.requests

def loopAgent : Machine Unit where
  thread :=
    { id := "t", state := .processing, turns := [{ turnNumber := 0, userInput := "hello" }] }
  records := [[]]
  control := .loop
    { message := helloMessage, caller := .userInput, activeSkills := []
      contextMessages := [.user "hello"], toolsExecuted := false }
    .top

def oneEcho : List (Act Unit) :=
  [.main, .reply (.ok (.toolCalls [echoCall "call-1" "hi"] none)), .main, .main, .main, .main,
    .main, .main, .main].map (⟨smallEnv, ·⟩)

theorem one_echo_stays_paired :
    (∀ call ∈ (run (step (smallDeps {})) loopAgent oneEcho).llmCalls, Paired call.messages)
      ∧ (run (step (smallDeps {})) loopAgent oneEcho).llmCalls.length = 2 := by
  refine ⟨requests_stay_paired (smallDeps {}) loopAgent _ rfl
    (paired_singleton (b := .user "hello") rfl) rfl rfl rfl oneEcho oneEcho ?_
    (prefix_refl _), by decide⟩
  exact guarded_of_checks (fun m _ => m.control.behind.isEmpty)
    (fun _ _ h => .of_behind h) (by decide)

/-- A database in which the user wants to be asked before each echo. -/
def strictStore : Store where
  reliabilityProfile _ := .ok none
  contractOverride _ _ :=
    .ok (some
      { enabled := true
        descriptor :=
          { inferToolContractV2Descriptor echoTool with
            requiresApprovalDefault := true
            source := .manualOverride } })

/-- Two echo calls in one response; the first waits for approval. The user drops
the contract and approves, and the loop is resumed. -/
def twoEchoes : List (Act Unit) :=
  [.main, .reply (.ok (.toolCalls [echoCall "call-1" "hi", echoCall "call-2" "ho"] none)),
    .main, .main, .main].map (⟨{ smallEnv with store := some strictStore }, ·⟩)
  ++ [.approval helloMessage none true false, .main, .main, .main, .main, .main, .main,
    .main].map (⟨smallEnv, ·⟩)

theorem two_echoes_unpaired :
    Paired [.user "hello"]
      ∧ ¬ ∀ call ∈ (run (step (smallDeps { autonomyPolicyEngineV1 := true })) loopAgent
          twoEchoes).llmCalls, Paired call.messages := by
  refine ⟨paired_singleton rfl, ?_⟩
  intro hpaired
  obtain ⟨call, hcall, name, content, hmessages⟩ :
      ∃ call ∈ (run (step (smallDeps { autonomyPolicyEngineV1 := true })) loopAgent
          twoEchoes).llmCalls, ∃ name content, call.messages =
        [.user "hello", .assistantWithToolCalls none
          [echoCall "call-1" "hi", echoCall "call-2" "ho"],
          .toolResult "call-1" name content] :=
    ⟨_, mem_of_getElem? (i := 1) rfl, _, _, rfl⟩
  have hresults := hpaired call hcall [.user "hello"] _ _ _ hmessages rfl rfl
  have hlength := hresults.length_eq
  simp [leadingResults, toolResult] at hlength

end TitanClaw.Agent
