import TitanClaw.Agent.Transitions

/-! # The calls that are still ahead

Requests are numbered, and a call's key is the number of its request with the
call's id. A key is AHEAD while the loop, or an approval, may still start its
call. If the ids of a response differ, the loop and the approvals start, and
answer, each key at most once: a key that is ahead has had neither. -/

namespace TitanClaw.Agent

open Llm List Machine Thread

variable {R : Type} {D : Deps} {env : Env R} {m m' : Machine R}

/-- The calls that the loop and the approvals have started or answered. -/
def touched (log : List Event) : List CallKey :=
  log.filterMap fun e =>
    match e with
    | .started key by_ _ _ _ => if by_ = .earlyTask then none else some key
    | .given key _ _ _ => some key
    | .hooked _ _ _ => none

def Stage.beforeStart : Stage → Bool
  | .route | .hooks | .approve | .execute => true
  | .running _ _ | .record _ _ => false

def ResumeStage.beforeStart : ResumeStage → Bool
  | .route | .hooks _ | .recheck _ _ | .execute _ _ => true
  | .running _ _ _ | .record _ _ _ => false

def LoopAt.mayStart (generation : Nat) (key : CallKey) : LoopAt → Prop
  | .top => False
  | .waiting => key.generation = generation
  | .call stage tc rest _ => key.generation = generation
      ∧ (key.id ∈ rest.map (·.id) ∨ stage.beforeStart = true ∧ key.id = tc.id)

def Control.mayStart (key : CallKey) : Control R → Prop
  | .idle => False
  | .loop f at_ => at_.mayStart f.generation key
  | .resume r stage => stage.beforeStart = true ∧ key = r.key

/-- The call may still be started, by the loop or after an approval. -/
def Machine.Ahead (m : Machine R) (key : CallKey) : Prop :=
  m.control.mayStart key ∨ m.thread.pendingApproval.isSome = true ∧ key = m.pendingKey

def DistinctIds (a : Act R) : Prop :=
  ∀ calls content, a.kind = .reply (.ok (.toolCalls calls content)) → (calls.map (·.id)).Nodup

/-! ## The invariant -/

/-- Keys belong to requests that were sent, and the calls of a response have
different ids. -/
def ControlKeys (sent : Nat) : Control R → Prop
  | .idle | .loop _ .top => True
  | .loop f .waiting => f.generation < sent
  | .loop f (.call _ tc rest _) => f.generation < sent ∧ (tc.id :: rest.map (·.id)).Nodup
  | .resume r _ => r.key.generation < sent

structure KeyInv (m : Machine R) : Prop where
  sent : ∀ key ∈ touched m.log, key.generation < m.llmCalls.length
  ahead : ∀ key, m.Ahead key → key ∉ touched m.log
  control : ControlKeys m.llmCalls.length m.control
  pending : m.thread.pendingApproval.isSome = true → m.pendingKey.generation < m.llmCalls.length

/-- A step after which no other calls are ahead: what it touches was sent, and
is not ahead any more. -/
theorem KeyInv.of_ahead (h : KeyInv m) (hsent : m'.llmCalls = m.llmCalls)
    (hlog : ∀ key ∈ touched m'.log, key ∈ touched m.log
      ∨ key.generation < m.llmCalls.length ∧ ¬ m'.Ahead key)
    (hahead : ∀ key, m'.Ahead key → m.Ahead key)
    (hcontrol : ControlKeys m.llmCalls.length m'.control)
    (hpending : m'.thread.pendingApproval.isSome = true →
      m'.pendingKey.generation < m.llmCalls.length) : KeyInv m' where
  sent := by
    intro key hkey
    rw [hsent]
    rcases hlog key hkey with hold | hnew
    · exact h.sent key hold
    · exact hnew.1
  ahead := by
    intro key hkey htouched
    rcases hlog key htouched with hold | hnew
    · exact h.ahead key (hahead key hkey) hold
    · exact hnew.2 hkey
  control := by rw [hsent]; exact hcontrol
  pending := by rw [hsent]; exact hpending

/-- Without a pending approval, only the control decides what is ahead. -/
theorem Machine.ahead_iff (hpending : m.Unpaused) (key : CallKey) :
    m.Ahead key ↔ m.control.mayStart key := by
  simp [Ahead, hpending]

/-- A step of the loop or of an approval that touches nothing and leaves nothing
pending. -/
theorem KeyInv.of_quiet (h : KeyInv m) (hsent : m'.llmCalls = m.llmCalls)
    (hlog : touched m'.log = touched m.log)
    (hahead : ∀ key, m'.control.mayStart key → m.control.mayStart key)
    (hcontrol : ControlKeys m.llmCalls.length m'.control)
    (hpending : m'.thread.pendingApproval = none) : KeyInv m' := by
  refine h.of_ahead hsent ?_ ?_ hcontrol (by simp [hpending])
  · intro key hkey
    exact .inl (hlog ▸ hkey)
  · intro key hkey
    exact .inl (hahead key ((ahead_iff hpending key).mp hkey))

variable {rest : List ToolCall}

theorem nextCall_mayStart {generation : Nat} {key : CallKey}
    (stage : Stage) (tc : ToolCall) (pos pos' : Nat)
    (h : (nextCall rest pos').mayStart generation key) :
    (LoopAt.call stage tc rest pos).mayStart generation key ∧ key.id ∈ rest.map (·.id) := by
  cases rest with
  | nil => exact h.elim
  | cons tc' rest =>
    obtain ⟨hgeneration, hid⟩ := h
    have hmem : key.id ∈ (tc' :: rest).map (·.id) := by
      rcases hid with hrest | ⟨-, hfirst⟩
      · exact mem_cons_of_mem _ hrest
      rw [hfirst]
      exact mem_cons_self
    exact ⟨⟨hgeneration, .inl hmem⟩, hmem⟩

variable {f : Frame R}

theorem nextCall_keys {sent : Nat} (pos : Nat)
    (hsent : f.generation < sent) (hids : (rest.map (·.id)).Nodup) :
    ControlKeys sent (.loop f (nextCall rest pos)) := by
  cases rest with
  | nil => exact trivial
  | cons => exact ⟨hsent, hids⟩

/-- The model is given the result of the current call. -/
theorem KeyInv.answer (h : KeyInv m) {stage : Stage} {tc : ToolCall} {pos : Nat} (hcontrol : m.control = .loop f (.call stage tc rest pos))
    (hpending : m.Unpaused) (content : String) (ran : Option JsonValue) :
    KeyInv (m.answer f tc rest pos content ran) := by
  have hkeys : ControlKeys m.llmCalls.length (.loop f (.call stage tc rest pos)) :=
    hcontrol ▸ h.control
  obtain ⟨hsent, hids⟩ := hkeys
  obtain ⟨hfirst, hrest⟩ := nodup_cons.mp hids
  have hahead : ∀ key, (m.answer f tc rest pos content ran).Ahead key →
      m.Ahead key ∧ key.id ∈ rest.map (·.id) := by
    intro key hkey
    have hnext : (nextCall rest (pos + 1)).mayStart f.generation key :=
      (ahead_iff (m := m.answer f tc rest pos content ran) hpending key).mp hkey
    obtain ⟨hbefore, hmem⟩ := nextCall_mayStart stage tc pos (pos + 1) hnext
    exact ⟨.inl (by rw [hcontrol]; exact hbefore), hmem⟩
  refine h.of_ahead rfl ?_ (fun key hkey => (hahead key hkey).1)
    (nextCall_keys _ hsent hrest) (by simp [Machine.answer, hpending])
  intro key hkey
  rcases mem_cons.mp hkey with rfl | hold
  · exact .inr ⟨hsent, fun hkey => hfirst (hahead _ hkey).2⟩
  · exact .inl hold

theorem LoopStep.keys {at_ : LoopAt} (h : LoopStep D env m f at_ m')
    (hinv : KeyInv m) (hcontrol : m.control = .loop f at_)
    (hpending : m.Unpaused) : KeyInv m' := by
  have hkeys : ControlKeys m.llmCalls.length (.loop f at_) := hcontrol ▸ hinv.control
  -- a step to a later stage of the same call, or past it
  have hmay : ∀ {at'} {key}, (∀ key, at'.mayStart f.generation key →
      at_.mayStart f.generation key) → Control.mayStart key (.loop f at') →
      m.control.mayStart key := by
    intro at' key hsub hkey
    rw [hcontrol]
    exact hsub key hkey
  cases h with
  | leave _ _ hended | awaitsToken _ _ hended =>
    exact hinv.of_quiet rfl rfl nofun trivial hended.pending
  | send =>
    refine ⟨?_, ?_, ?_, by simp [hpending]⟩
    · intro key hkey
      have hold := hinv.sent key hkey
      simp only [length_append, length_singleton]
      omega
    · intro key hkey htouched
      have hold := hinv.sent key htouched
      rcases hkey with hkey | ⟨hsome, -⟩
      · have hnew : key.generation = m.llmCalls.length := hkey
        omega
      · simp [hpending] at hsome
    · show m.llmCalls.length < _
      simp
  | wait => exact hinv
  | routed | hooked | passed | ended =>
    exact hinv.of_quiet rfl rfl (fun _ => hmay fun _ hkey => hkey) hkeys hpending
  | routeDenied => exact hinv.answer hcontrol hpending _ _
  | @hookDenied tc _ _ reason codes =>
    have hlogged : KeyInv { m with
        log := .hooked ⟨f.generation, tc.id⟩ tc.name (.deny reason codes) :: m.log } :=
      hinv.of_quiet rfl rfl (fun _ hkey => hkey) hinv.control hpending
    exact hlogged.answer hcontrol hpending _ _
  | paused =>
    refine hinv.of_ahead rfl (fun key hkey => .inl hkey) ?_ trivial (fun _ => hkeys.1)
    intro key hkey
    rcases hkey with hnone | ⟨-, rfl⟩
    · exact hnone.elim
    · exact .inl (by rw [hcontrol]; exact ⟨rfl, .inr ⟨rfl, rfl⟩⟩)
  | taken | unstarted =>
    refine hinv.of_quiet rfl rfl (fun _ => hmay fun _ hkey => ?_) hkeys hpending
    exact ⟨hkey.1, .inl (hkey.2.resolve_right (by simp [Stage.beforeStart]))⟩
  | @started tc rest pos tool params =>
    -- the call that starts is not ahead any more: the ids differ
    obtain ⟨hfirst, -⟩ := nodup_cons.mp hkeys.2
    have hrest : ∀ key, LoopAt.mayStart f.generation key
        (.call (.running tool params) tc rest pos) → key.id ∈ rest.map (·.id) :=
      fun key hkey => hkey.2.resolve_right (by simp [Stage.beforeStart])
    refine hinv.of_ahead rfl ?_ ?_ hkeys (by simp [hpending])
    · intro key hkey
      rcases mem_cons.mp hkey with rfl | hold
      · refine .inr ⟨hkeys.1, ?_⟩
        rintro (hahead | ⟨hsome, -⟩)
        · exact hfirst (hrest _ hahead)
        · simp [hpending] at hsome
      · exact .inl hold
    · intro key hkey
      rcases hkey with hahead | ⟨hsome, -⟩
      · have hgeneration : key.generation = f.generation := hahead.1
        exact .inl (by rw [hcontrol]; exact ⟨hgeneration, .inl (hrest key hahead)⟩)
      · simp [hpending] at hsome
  | @recorded result _ tc _ pos =>
    have hrecorded : KeyInv (m.recordOutcome pos
        (.ofResult (resultContent D tc.name result) result)) :=
      hinv.of_quiet rfl rfl (fun _ hkey => hkey) hinv.control hpending
    exact hrecorded.answer hcontrol hpending _ _

theorem ReplyStep.keys {a : Act R} {reply : Except String RespondResult}
    (h : ReplyStep m f reply m') (hinv : KeyInv m) (hguard : DistinctIds a)
    (hkind : a.kind = .reply reply) (hcontrol : m.control = .loop f .waiting)
    (hpending : m.Unpaused) : KeyInv m' := by
  have hsent : ControlKeys m.llmCalls.length (.loop f .waiting) := hcontrol ▸ hinv.control
  cases h with
  | leave _ _ _ hended => exact hinv.of_quiet rfl rfl nofun trivial hended.pending
  | nudge => exact hinv.of_quiet rfl rfl nofun trivial hpending
  | called calls content =>
    refine hinv.of_quiet rfl rfl ?_ (nextCall_keys _ hsent (hguard calls content hkind)) hpending
    intro key hkey
    rw [hcontrol]
    cases calls with
    | nil => exact hkey.elim
    | cons => exact hkey.1

theorem ResumeStep.keys {r : Resume} {stage : ResumeStage}
    (h : ResumeStep D env m r stage m') (hinv : KeyInv m)
    (hcontrol : m.control = .resume r stage) (hpending : m.Unpaused) :
    KeyInv m' := by
  have hsent : r.key.generation < m.llmCalls.length := by
    have hkeys := hinv.control
    rw [hcontrol] at hkeys
    exact hkeys
  cases h with
  | routeDenied _ _ _ hended | hookDenied _ _ _ _ hended | awaitsToken _ _ hended =>
    exact hinv.of_quiet rfl rfl nofun trivial hended.pending
  | paused =>
    refine hinv.of_ahead rfl (fun key hkey => .inl hkey) ?_ trivial (fun _ => hsent)
    intro key hkey
    rcases hkey with hnone | ⟨-, rfl⟩
    · exact hnone.elim
    · exact .inl (by rw [hcontrol]; exact ⟨rfl, rfl⟩)
  | @started toolName _ tool effective =>
    have hnone : ∀ key, ¬ Ahead { m with
        control := .resume r (.running toolName tool effective)
        log := .started r.key .approval toolName effective env.hooksRegistered :: m.log }
        key := by
      rintro key (⟨hbefore, -⟩ | ⟨hsome, -⟩)
      · cases hbefore
      · simp [hpending] at hsome
    refine hinv.of_ahead rfl ?_ (fun key hkey => absurd hkey (hnone key)) hsent (by simp [hpending])
    intro key hkey
    rcases mem_cons.mp hkey with rfl | hold
    · exact .inr ⟨hsent, hnone _⟩
    · exact .inl hold
  | recorded =>
    refine hinv.of_ahead rfl ?_ ?_ trivial (by simp [recordOutcome, withLastTurn, hpending])
    · intro key hkey
      rcases mem_cons.mp hkey with rfl | hold
      · refine .inr ⟨hsent, ?_⟩
        rintro (hnone | ⟨hsome, -⟩)
        · exact hnone
        · simp [recordOutcome, withLastTurn, hpending] at hsome
      · exact .inl hold
    · rintro key (hnone | ⟨hsome, -⟩)
      · exact hnone.elim
      · simp [recordOutcome, withLastTurn, hpending] at hsome
  | ended | unstarted =>
    refine hinv.of_quiet rfl rfl ?_ hsent hpending
    rintro key ⟨hbefore, -⟩
    cases hbefore
  | routed | hooked | passed =>
    refine hinv.of_quiet rfl rfl ?_ hsent hpending
    rw [hcontrol]
    exact fun key hkey => hkey

theorem EarlyStep.keys {i : Nat} (h : EarlyStep D env m i m') (hinv : KeyInv m) : KeyInv m' := by
  cases h with
  | _ => exact ⟨hinv.sent, hinv.ahead, hinv.control, hinv.pending⟩

theorem Step.keys {a : Act R} (h : Step D m a m') (hm : Settled m) (hinv : KeyInv m)
    (hguard : DistinctIds a) : KeyInv m' := by
  cases h with
  | keep _ _ _ _ hpending =>
    refine hinv.of_ahead rfl (fun key hkey => .inl hkey) ?_ hinv.control ?_
    · intro key hkey
      rw [Ahead, hpending] at hkey
      exact hkey
    · rw [hpending]
      exact hinv.pending
  | loop _ hcontrol h | resume _ hcontrol h =>
    exact h.keys hinv hcontrol (hm.running_thread (by simp [hcontrol])).1
  | reply hkind hcontrol h =>
    exact h.keys hinv hguard hkind hcontrol (hm.running_thread (by simp [hcontrol])).1
  | streamEvent => exact ⟨hinv.sent, hinv.ahead, hinv.control, hinv.pending⟩
  | early _ h => exact h.keys hinv
  | begin _ _ _ hpending => exact hinv.of_quiet rfl rfl nofun trivial hpending
  | cancelled _ _ _ _ _ _ hended => exact hinv.of_quiet rfl rfl nofun trivial hended.pending
  | accepted _ _ _ hpending =>
    have hsome : m.thread.pendingApproval.isSome = true := by rw [hpending]; rfl
    refine hinv.of_ahead rfl (fun key hkey => .inl hkey) ?_ (hinv.pending hsome) (by simp)
    rintro key (⟨-, hkey⟩ | ⟨hnone, -⟩)
    · exact .inr ⟨hsome, hkey⟩
    · cases hnone

theorem KeyInv.of_fresh (h : m.Fresh) : KeyInv m where
  sent := by simp [h.log, touched]
  ahead := by simp [h.log, touched]
  control := by rw [h.control]; exact trivial
  pending := by simp [h.pending]

end TitanClaw.Agent
