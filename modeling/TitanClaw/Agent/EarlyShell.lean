import TitanClaw.Agent.EarlyTasks

/-! # Does a shell call run once?

A streamed shell call can be started by its early task and by the loop. The loop
takes the early result if it is there when it gets to the call, and starts the
command itself if it is not; it does not wait, and it does not tell the task. The
two keep apart if the task has ended by then, has not started where the loop
refuses the call, and is the only one of its call. -/

namespace TitanClaw.Agent

open Llm List False Run EarlyPhase

variable {R : Type} {D : Deps} {env : Env R} {m m' : Machine R} (log : List Event)

def shellStarts : List CallKey :=
  log.filterMap fun e =>
    match e with
    | .started key _ tool _ _ => if tool = "shell" then some key else none
    | _ => none

/-- Each shell call is started at most once, and the result given to the model
for a call that its early task executed is the early result. -/
structure OncePerCall (D : Deps) (m : Machine R) : Prop where
  once : (shellStarts m.log).Nodup
  result : ∀ t ∈ m.tasks, ∀ r, t.phase = .executed r → ∀ content ran,
    .given t.key "shell" content ran ∈ m.log →
      content = resultContent D "shell" (ofEarlyResult "shell" r)

/-- The task will not do anything any more. -/
def EarlyPhase.ended : EarlyPhase → Bool
  | .skipped | .executed _ => true
  | .spawned | .running _ => false

variable (tasks : List EarlyTask) (key : CallKey)

def AllTasks (P : EarlyPhase → Prop) : Prop := ∀ t ∈ tasks, t.key = key → P t.phase

/-- A call has one early task at most, ids of a response differ, tasks have ended
when the loop executes their call, and have not executed a call that the loop
refuses or pauses. -/
structure RoutesApart (D : Deps) (m : Machine R) (a : Act R) : Prop where
  spawned : OneTask D m a
  distinct : DistinctIds a
  executed : ∀ f tc rest pos, a.kind = .main →
    m.control = .loop f (.call .execute tc rest pos) → tc.name = "shell" →
    AllTasks m.tasks ⟨f.generation, tc.id⟩ (·.ended = true)
  denied : ∀ f tc rest pos reason codes, a.kind = .main →
    m.control = .loop f (.call .hooks tc rest pos) → tc.name = "shell" →
    evaluateToolCallHook D.json a.env.hooks tc.name tc.arguments f.message.userId "chat"
      = .deny reason codes → AllTasks m.tasks ⟨f.generation, tc.id⟩ (· = .skipped)
  paused : ∀ f tc rest pos tool codes, a.kind = .main →
    m.control = .loop f (.call .approve tc rest pos) → tc.name = "shell" →
    loopPolicy D a.env m f tc = some (tool, .requireApproval codes) →
    AllTasks m.tasks ⟨f.generation, tc.id⟩ (· = .skipped)

def MainStart : Prop :=
  ∃ by_ params hooks, by_ ≠ .earlyTask ∧ .started key by_ "shell" params hooks ∈ log

variable {log key}

theorem mem_shellStarts (h : key ∈ shellStarts log) : EarlyStart log key ∨ MainStart log key := by
  obtain ⟨e, hmem, he⟩ := mem_filterMap.mp h
  cases e with
  | hooked | given => cases he
  | started _ by_ _ params hooks =>
    obtain ⟨rfl, hkey⟩ := Option.ite_none_right_eq_some.mp he
    cases hkey
    by_cases hby : by_ = .earlyTask
    · subst hby
      exact .inl ⟨params, hooks, hmem⟩
    · exact .inr ⟨by_, params, hooks, hby, hmem⟩

theorem MainStart.touched {log : List Event} {key : CallKey} (h : MainStart log key) :
    key ∈ touched log := by
  obtain ⟨by_, params, hooks, hby, hmem⟩ := h
  exact mem_filterMap.mpr ⟨_, hmem, by simp [hby]⟩

/-! ## The two routes -/

/-- What the result of a shell call owes to its early task. -/
def Yields (result : Except Error String) (phase : EarlyPhase) : Prop :=
  phase = .skipped ∨ ∃ r, phase = .executed r ∧ result = ofEarlyResult "shell" r

/-- What the content given to the model owes to it. -/
def Shows (D : Deps) (content : String) (phase : EarlyPhase) : Prop :=
  phase = .skipped ∨
    ∃ r, phase = .executed r ∧ content = resultContent D "shell" (ofEarlyResult "shell" r)

def ResumeStage.toolName? : ResumeStage → Option String
  | .route => none
  | .hooks toolName | .recheck toolName _ | .execute toolName _ | .running toolName _ _
  | .record toolName _ _ => some toolName

def ControlShell : Control R → Prop
  | .loop f (.call (.running _ _) tc _ _) =>
      tc.name = "shell" → AllTasks tasks ⟨f.generation, tc.id⟩ (· = .skipped)
  | .loop f (.call (.record result _) tc _ _) =>
      tc.name = "shell" → AllTasks tasks ⟨f.generation, tc.id⟩ (Yields result)
  | .resume r stage =>
      r.pending.toolName = "shell" ∨ stage.toolName? = some "shell" →
        AllTasks tasks r.key (· = .skipped)
  | _ => True

def Control.mayTake (key : CallKey) : Control R → Prop
  | .loop f at_ => at_.mayStart f.generation key
  | _ => False

structure ShellInv (D : Deps) (m : Machine R) : Prop where
  once : (shellStarts m.log).Nodup
  started : ∀ key, MainStart m.log key → AllTasks m.tasks key (· = .skipped)
  given : ∀ key content ran, .given key "shell" content ran ∈ m.log →
    AllTasks m.tasks key (Shows D content)
  published : ∀ t ∈ m.tasks, ∀ r, t.phase = .executed r → m.control.mayTake t.key →
    ∃ e ∈ m.earlyResults, e.key = t.key
  control : ControlShell m.tasks m.control
  pending : ∀ p, m.thread.pendingApproval = some p → p.toolName = "shell" →
    AllTasks m.tasks m.pendingKey (· = .skipped)

/-- A step that logs nothing and leaves tasks and results alone. -/
theorem ShellInv.of_quiet (h : ShellInv D m) (hlog : m'.log = m.log)
    (htasks : m'.tasks = m.tasks) (hresults : m'.earlyResults = m.earlyResults)
    (hmay : ∀ key, m'.control.mayTake key → m.control.mayTake key)
    (hcontrol : ControlShell m.tasks m'.control)
    (hpending : ∀ p, m'.thread.pendingApproval = some p → p.toolName = "shell" →
      AllTasks m.tasks m'.pendingKey (· = .skipped)) : ShellInv D m' where
  once := by rw [hlog]; exact h.once
  started := by rw [hlog, htasks]; exact h.started
  given := by rw [hlog, htasks]; exact h.given
  published := by
    intro t ht r hphase hkey
    rw [htasks] at ht
    rw [hresults]
    exact h.published t ht r hphase (hmay _ hkey)
  control := by rw [htasks]; exact hcontrol
  pending := by rw [htasks]; exact hpending

theorem MainStart.of_cons {e : Event} (h : MainStart (e :: log) key)
    (he : ∀ k by_ params hooks, e ≠ .started k by_ "shell" params hooks) : MainStart log key := by
  obtain ⟨by_, params, hooks, hby, hmem⟩ := h
  rcases mem_cons.mp hmem with hnew | hold
  · exact absurd hnew.symm (he _ _ _ _)
  · exact ⟨by_, params, hooks, hby, hold⟩

/-- Hooks that have run start nothing and give nothing. -/
theorem ShellInv.hooked (h : ShellInv D m) (key : CallKey) (tool : String)
    (outcome : HookToolPolicyOutcome) :
    ShellInv D { m with log := .hooked key tool outcome :: m.log } where
  once := h.once
  started := fun k hk => h.started k (hk.of_cons (by simp))
  given := fun k content ran hmem => h.given k content ran (by simpa using hmem)
  published := h.published
  control := h.control
  pending := h.pending

/-- The model is given a result that fits the tasks of the call. -/
theorem ShellInv.given_cons (h : ShellInv D m) {tool content : String}
    (hshows : tool = "shell" → AllTasks m.tasks key (Shows D content)) (ran : Option JsonValue) :
    ShellInv D { m with log := .given key tool content ran :: m.log } where
  once := h.once
  started := fun k hk => h.started k (hk.of_cons (by simp))
  given := by
    intro k content' ran' hmem
    rcases mem_cons.mp hmem with hnew | hold
    · cases hnew
      exact hshows rfl
    · exact h.given k content' ran' hold
  published := h.published
  control := h.control
  pending := h.pending

/-- The loop or an approval starts a tool; a shell call was ahead, and its tasks
were skipped. -/
theorem ShellInv.started_cons (h : ShellInv D m) (htasks : TaskInv D m) (hkeys : KeyInv m)
    {by_ : StartedBy} {tool : String} (hahead : m.Ahead key)
    (hskipped : tool = "shell" → AllTasks m.tasks key (· = .skipped)) (params : JsonValue)
    (hooks : Bool) : ShellInv D { m with log := .started key by_ tool params hooks :: m.log } where
  once := by
    by_cases hshell : tool = "shell"
    · subst hshell
      refine nodup_cons.mpr ⟨?_, h.once⟩
      intro hmem
      rcases mem_shellStarts hmem with hearly | hmain
      · obtain ⟨t, ht, hkey, -, hstarted⟩ := htasks.starts key hearly
        exact hstarted (hskipped rfl t ht hkey)
      · exact hkeys.ahead key hahead hmain.touched
    · have hsame : shellStarts (.started key by_ tool params hooks :: m.log)
          = shellStarts m.log := by simp [shellStarts, hshell]
      exact hsame ▸ h.once
  started := by
    rintro k ⟨by', params', hooks', hby, hmem⟩
    rcases mem_cons.mp hmem with hnew | hold
    · cases hnew
      exact hskipped rfl
    · exact h.started k ⟨by', params', hooks', hby, hold⟩
  given := fun k content ran hmem => h.given k content ran (by simpa using hmem)
  published := h.published
  control := h.control
  pending := h.pending

theorem nextCall_shell (f : Frame R) (calls : List ToolCall)
    (pos : Nat) : ControlShell tasks (.loop f (nextCall calls pos)) := by
  cases calls with
  | nil | cons => exact trivial

variable {tc : ToolCall} {f : Frame R} {rest : List ToolCall}

theorem ShellInv.answer (h : ShellInv D m) {stage : Stage} {pos : Nat} {content : String}
    (hcontrol : m.control = .loop f (.call stage tc rest pos))
    (hpending : m.Unpaused)
    (hshows : tc.name = "shell" → AllTasks m.tasks ⟨f.generation, tc.id⟩ (Shows D content))
    (ran : Option JsonValue) : ShellInv D (m.answer f tc rest pos content ran) := by
  refine (h.given_cons hshows ran).of_quiet rfl rfl rfl ?_ (nextCall_shell _ _ _ _)
    (by simp [Machine.answer, hpending])
  intro key hkey
  have hbefore := (nextCall_mayStart stage tc pos (pos + 1) hkey).1
  rw [hcontrol]
  exact hbefore

/-- When the loop finds no early result for a shell call whose tasks have ended,
they were skipped. -/
theorem ShellInv.skipped_of_uncached (h : ShellInv D m) (htasks : TaskInv D m) {pos : Nat}
    (hcontrol : m.control = .loop f (.call .execute tc rest pos)) (hshell : tc.name = "shell")
    (hcached : cachedEarly D m f tc = none)
    (hended : AllTasks m.tasks ⟨f.generation, tc.id⟩ (·.ended = true)) :
    AllTasks m.tasks ⟨f.generation, tc.id⟩ (· = .skipped) := by
  intro t ht hkey
  have hphase := hended t ht hkey
  cases hcase : t.phase with
  | skipped => rfl
  | spawned | running => simp [hcase, ended] at hphase
  | executed r =>
    have hmay : m.control.mayTake t.key := by
      rw [hcontrol, hkey]
      exact ⟨rfl, .inr ⟨rfl, rfl⟩⟩
    obtain ⟨e, he, hekey⟩ := h.published t ht r hcase hmay
    rw [cachedEarly, if_pos ⟨hshell, (htasks.config t ht).1⟩] at hcached
    have hnone := find?_eq_none.mp hcached e he
    simp [hekey, hkey] at hnone

/-- An early result that the loop takes is that of the call's task. -/
theorem TaskInv.yields_of_cached (h : TaskInv D m)
    {early : EarlyResult} (hcached : cachedEarly D m f tc = some early) :
    AllTasks m.tasks ⟨f.generation, tc.id⟩ (Yields (ofEarlyResult tc.name early.result)) := by
  obtain ⟨⟨hshell, -⟩, hfound⟩ := Option.ite_none_right_eq_some.mp hcached
  have hkey : early.key = ⟨f.generation, tc.id⟩ := by simpa using find?_some hfound
  obtain ⟨t, ht, htkey, hphase⟩ := h.results early (mem_of_find?_eq_some hfound)
  intro t' ht' hkey'
  have hsame : t' = t := h.unique ht' ht (by rw [hkey', htkey, hkey])
  rw [hsame, hshell]
  exact .inr ⟨early.result, hphase, rfl⟩

variable {a : Act R}

theorem LoopStep.shell {f : Frame R} {at_ : LoopAt}
    (h : LoopStep D a.env m f at_ m') (hinv : ShellInv D m) (htasks : TaskInv D m)
    (hkeys : KeyInv m) (hguard : RoutesApart D m a) (hkind : a.kind = .main)
    (hcontrol : m.control = .loop f at_) (hpending : m.Unpaused) :
    ShellInv D m' := by
  have hshell : ControlShell m.tasks (.loop f at_) := hcontrol ▸ hinv.control
  -- a step to a later stage of the same call takes no other early results
  have hmay : ∀ key, at_.mayStart f.generation key → m.control.mayTake key := by
    intro key hkey
    rw [hcontrol]
    exact hkey
  have hnone : ∀ p, m.thread.pendingApproval = some p → p.toolName = "shell" →
      AllTasks m.tasks m.pendingKey (· = .skipped) := by simp [hpending]
  cases h with
  | leave _ _ hended | awaitsToken _ _ hended =>
    exact hinv.of_quiet rfl rfl rfl nofun trivial (by simp [hended.pending])
  | send =>
    refine ⟨hinv.once, hinv.started, hinv.given, ?_, trivial, hnone⟩
    -- no task belongs to a request that was not sent before
    intro t ht r _ hkey
    have hsent := htasks.sent t ht
    have hnew : t.key.generation = m.llmCalls.length := hkey
    omega
  | wait => exact hinv
  | routed | passed => exact hinv.of_quiet rfl rfl rfl hmay trivial hnone
  | @routeDenied _ _ _ _ _ hroute =>
    refine hinv.answer hcontrol hpending (fun _ t ht _ => ?_) none
    -- with routing on there are no tasks
    rw [resolveChatToolRouting_off (htasks.config t ht).2] at hroute
    cases hroute
  | hooked => exact (hinv.hooked _ _ _).of_quiet rfl rfl rfl hmay trivial hnone
  | @hookDenied tc rest pos reason codes houtcome =>
    refine (hinv.hooked _ _ _).answer hcontrol hpending ?_ none
    intro hname t ht hkey
    exact .inl (hguard.denied f tc rest pos reason codes hkind hcontrol hname houtcome t ht hkey)
  | @paused tc rest pos tool codes _ hpolicy =>
    refine hinv.of_quiet rfl rfl rfl nofun trivial ?_
    intro p hp hname
    cases Option.some.inj hp
    exact hguard.paused f tc rest pos tool codes hkind hcontrol hname hpolicy
  | @taken tc rest pos _ hcached =>
    refine ⟨hinv.once, hinv.started, hinv.given, ?_, ?_, hnone⟩
    · -- the entries of the calls behind this one stay: the ids differ
      rintro t ht r hphase ⟨hgeneration, hrest | ⟨hbefore, -⟩⟩
      · obtain ⟨e, he, hekey⟩ := hinv.published t ht r hphase (hmay _ ⟨hgeneration, .inl hrest⟩)
        have hids : ControlKeys m.llmCalls.length (.loop f (.call .execute tc rest pos)) :=
          hcontrol ▸ hkeys.control
        obtain ⟨hfirst, -⟩ := nodup_cons.mp hids.2
        have hother : e.key ≠ ⟨f.generation, tc.id⟩ := by
          intro heq
          rw [← hekey, heq] at hrest
          exact hfirst hrest
        exact ⟨e, mem_filter.mpr ⟨he, by simpa using hother⟩, hekey⟩
      · cases hbefore
    · exact fun _ => htasks.yields_of_cached hcached
  | @unstarted tc rest pos _ hcached =>
    refine hinv.of_quiet rfl rfl rfl ?_ ?_ hnone
    · rintro key ⟨hgeneration, hrest | ⟨hbefore, -⟩⟩
      · exact hmay key ⟨hgeneration, .inl hrest⟩
      · cases hbefore
    · intro hname t ht hkey
      exact .inl (hinv.skipped_of_uncached htasks hcontrol hname hcached
        (hguard.executed f tc rest pos hkind hcontrol hname) t ht hkey)
  | @started tc rest pos _ params hcached =>
    have hskipped : tc.name = "shell" →
        AllTasks m.tasks ⟨f.generation, tc.id⟩ (· = .skipped) := fun hname =>
      hinv.skipped_of_uncached htasks hcontrol hname hcached
        (hguard.executed f tc rest pos hkind hcontrol hname)
    have hahead : m.Ahead ⟨f.generation, tc.id⟩ :=
      .inl (by rw [hcontrol]; exact ⟨rfl, .inr ⟨rfl, rfl⟩⟩)
    refine (hinv.started_cons htasks hkeys hahead hskipped params
      a.env.hooksRegistered).of_quiet rfl rfl rfl ?_ hskipped hnone
    rintro key ⟨hgeneration, hrest | ⟨hbefore, -⟩⟩
    · exact hmay key ⟨hgeneration, .inl hrest⟩
    · cases hbefore
  | ended =>
    refine hinv.of_quiet rfl rfl rfl hmay ?_ hnone
    intro hname t ht hkey
    exact .inl (hshell hname t ht hkey)
  | @recorded result ran tc _ pos =>
    have hrecorded : ShellInv D (m.recordOutcome pos
        (.ofResult (resultContent D tc.name result) result)) :=
      hinv.of_quiet rfl rfl rfl (fun _ hkey => hkey) hinv.control hnone
    refine hrecorded.answer hcontrol hpending ?_ ran
    intro hname t ht hkey
    rcases hshell hname t ht hkey with hskipped | ⟨r, hphase, rfl⟩
    · exact .inl hskipped
    · exact .inr ⟨r, hphase, by rw [hname]⟩

theorem ReplyStep.shell {f : Frame R} {reply : Except String RespondResult}
    (h : ReplyStep m f reply m') (hinv : ShellInv D m)
    (hcontrol : m.control = .loop f .waiting) (hpending : m.Unpaused) :
    ShellInv D m' := by
  cases h with
  | leave _ _ _ hended => exact hinv.of_quiet rfl rfl rfl nofun trivial (by simp [hended.pending])
  | nudge => exact hinv.of_quiet rfl rfl rfl nofun trivial (by simp [hpending])
  | called calls =>
    refine hinv.of_quiet rfl rfl rfl ?_ (nextCall_shell _ _ _ _)
      (by simp [Machine.recordCalls, Thread.withLastTurn, hpending])
    intro key hkey
    rw [hcontrol]
    cases calls with
    | nil => exact hkey.elim
    | cons => exact hkey.1

theorem ResumeStep.shell {r : Resume} {stage : ResumeStage}
    (h : ResumeStep D env m r stage m') (hinv : ShellInv D m) (htasks : TaskInv D m)
    (hkeys : KeyInv m) (hcontrol : m.control = .resume r stage)
    (hpending : m.Unpaused) : ShellInv D m' := by
  have hshell : ControlShell m.tasks (.resume r stage : Control R) := hcontrol ▸ hinv.control
  have hnone : ∀ p, m.thread.pendingApproval = some p → p.toolName = "shell" →
      AllTasks m.tasks m.pendingKey (· = .skipped) := by simp [hpending]
  cases h with
  | routed _ _ _ hroute =>
    refine hinv.of_quiet rfl rfl rfl (fun _ => elim) ?_ hnone
    intro hname t ht hkey
    -- with early tasks there is no routing, so the tool is the one that was asked for
    rw [resolveChatToolRouting_off (htasks.config t ht).2] at hroute
    cases hroute
    have hpendingName : r.pending.toolName = "shell" := by
      rcases hname with hname | hname
      · exact hname
      · exact Option.some.inj hname
    exact hshell (.inl hpendingName) t ht hkey
  | routeDenied _ _ _ hended | awaitsToken _ _ hended =>
    exact hinv.of_quiet rfl rfl rfl (fun _ => elim) trivial (by simp [hended.pending])
  | hooked => exact (hinv.hooked _ _ _).of_quiet rfl rfl rfl (fun _ => elim) hshell hnone
  | @hookDenied toolName outcome _ _ _ hended =>
    exact (hinv.hooked r.key toolName outcome).of_quiet rfl rfl rfl (fun _ => elim) trivial
      (by simp [hended.pending])
  | paused =>
    refine hinv.of_quiet rfl rfl rfl (fun _ => elim) trivial ?_
    intro p hp hname
    cases Option.some.inj hp
    exact hshell (.inr (congrArg some hname))
  | passed | unstarted | ended => exact hinv.of_quiet rfl rfl rfl (fun _ => elim) hshell hnone
  | @started _ _ _ effective =>
    have hahead : m.Ahead r.key := .inl (by rw [hcontrol]; exact ⟨rfl, rfl⟩)
    exact (hinv.started_cons htasks hkeys hahead
      (fun hname => hshell (.inr (congrArg some hname))) effective
      env.hooksRegistered).of_quiet rfl rfl rfl (fun _ => elim) hshell hnone
  | @recorded _ result ran =>
    have hgiven : ShellInv D { m with
        log := .given r.key r.pending.toolName (resultContent D r.pending.toolName result) ran
          :: m.log } :=
      hinv.given_cons (fun hname t ht hkey => .inl (hshell (.inl hname) t ht hkey)) ran
    exact hgiven.of_quiet rfl rfl rfl (fun _ => elim) trivial
      (by simp [Machine.recordOutcome, Thread.withLastTurn, hpending])

variable {i : Nat} {task : EarlyTask}

/-- A condition that only tasks at their end meet survives the step of a task that
goes on. -/
theorem AllTasks.setPhase {key : CallKey}
    {P : EarlyPhase → Prop} (h : AllTasks m.tasks key P) (hP : ∀ phase, P phase →
      phase.ended = true) (htask : m.tasks[i]? = some task) (hlive : task.phase.ended = false)
    (phase : EarlyPhase) : AllTasks (setPhase m i phase) key P := by
  intro t ht hkey
  rcases mem_setPhase_cases htask ht with rfl | hold
  · have hended := hP _ (h task (mem_of_getElem? htask) hkey)
    rw [hlive] at hended
    cases hended
  · exact h t hold hkey

variable {phase : EarlyPhase}

theorem EarlyPhase.ended_of_skipped (h : phase = .skipped) : phase.ended = true := by
  rw [h]
  rfl

theorem Shows.ended {content : String} (h : Shows D content phase) : phase.ended = true := by
  rcases h with rfl | ⟨r, rfl, -⟩
  · rfl
  · rfl

theorem Yields.ended {result : Except Error String}
    (h : Yields result phase) : phase.ended = true := by
  rcases h with rfl | ⟨r, rfl, -⟩
  · rfl
  · rfl

theorem ControlShell.setPhase {c : Control R}
    (h : ControlShell m.tasks c) (htask : m.tasks[i]? = some task)
    (hlive : task.phase.ended = false) (phase : EarlyPhase) :
    ControlShell (Agent.setPhase m i phase) c := by
  match c with
  | .idle | .loop _ .top | .loop _ .waiting => exact trivial
  | .loop f (.call stage tc rest pos) =>
    match stage with
    | .route | .hooks | .approve | .execute => exact trivial
    | .running tool params =>
      exact fun hname => (h hname).setPhase (fun _ => ended_of_skipped) htask hlive phase
    | .record result ran =>
      exact fun hname => (h hname).setPhase (fun _ hy => hy.ended) htask hlive phase
  | .resume r stage =>
    exact fun hname => (h hname).setPhase (fun _ => ended_of_skipped) htask hlive phase

/-- A task that has not ended goes on, and may leave its result. -/
theorem ShellInv.setPhase
    {results : List EarlyResult} (h : ShellInv D m) (htask : m.tasks[i]? = some task)
    (hlive : task.phase.ended = false)
    (hpublished : ∀ t ∈ setPhase m i phase, ∀ r, t.phase = .executed r →
      m.control.mayTake t.key → ∃ e ∈ results, e.key = t.key) :
    ShellInv D { m with tasks := Agent.setPhase m i phase, earlyResults := results } where
  once := h.once
  started := fun key hkey =>
    (h.started key hkey).setPhase (fun _ => ended_of_skipped) htask hlive phase
  given := fun key content ran hmem =>
    (h.given key content ran hmem).setPhase (fun _ hs => hs.ended) htask hlive phase
  published := hpublished
  control := h.control.setPhase htask hlive phase
  pending := fun p hp hname =>
    (h.pending p hp hname).setPhase (fun _ => ended_of_skipped) htask hlive phase

theorem EarlyStep.shell (h : EarlyStep D env m i m') (hinv : ShellInv D m)
    (htasks : TaskInv D m) : ShellInv D m' := by
  -- what was executed before, and may be taken, is published
  have hpublished : ∀ task phase, m.tasks[i]? = some task → (∀ r, phase ≠ .executed r) →
      ∀ t ∈ setPhase m i phase, ∀ r, t.phase = .executed r → m.control.mayTake t.key →
        ∃ e ∈ m.earlyResults, e.key = t.key := by
    intro task phase htask hphase t ht r hexecuted hmay
    rcases mem_setPhase_cases htask ht with rfl | hold
    · exact absurd hexecuted (hphase r)
    · exact hinv.published t hold r hexecuted hmay
  cases h with
  | none => exact hinv
  | skipped task htask hphase =>
    exact hinv.setPhase htask (by rw [hphase]; rfl) (hpublished task _ htask (by simp))
  | started task tool htask hphase =>
    have hmem := mem_of_getElem? htask
    have hgoes := hinv.setPhase htask (by rw [hphase]; rfl)
      (hpublished task (.running tool.executionTimeout) htask (by simp))
    refine ⟨?_, ?_, ?_, hgoes.published, hgoes.control, hgoes.pending⟩
    · show (task.key :: shellStarts m.log).Nodup
      refine nodup_cons.mpr ⟨?_, hinv.once⟩
      intro hstart
      rcases mem_shellStarts hstart with hearly | hmain
      · obtain ⟨t, ht, hkey, hspawned, -⟩ := htasks.starts task.key hearly
        exact hspawned (htasks.unique ht hmem hkey ▸ hphase)
      · have hdone := hinv.started task.key hmain task hmem rfl
        rw [hphase] at hdone
        cases hdone
    · intro key hkey
      obtain ⟨by_, params, hooks, hby, hlogged⟩ := hkey
      rcases mem_cons.mp hlogged with hnew | hold
      · cases hnew
        exact absurd rfl hby
      · exact hgoes.started key ⟨by_, params, hooks, hby, hold⟩
    · intro key content ran hlogged
      exact hgoes.given key content ran (by simpa using hlogged)
  | executed task _ _ htask hphase =>
    refine hinv.setPhase htask (by rw [hphase]; rfl) ?_
    intro t ht r hexecuted hmay
    by_cases hkey : t.key = task.key
    · exact ⟨_, mem_cons_self, hkey.symm⟩
    rcases mem_setPhase_cases htask ht with rfl | hold
    · exact absurd rfl hkey
    obtain ⟨e, he, hekey⟩ := hinv.published t hold r hexecuted hmay
    refine ⟨e, mem_cons_of_mem _ (mem_filter.mpr ⟨he, ?_⟩), hekey⟩
    simpa [hekey] using hkey

theorem Step.shell (h : Step D m a m') (hm : Settled m) (hinv : ShellInv D m)
    (htasks : TaskInv D m) (hkeys : KeyInv m) (hguard : RoutesApart D m a) : ShellInv D m' := by
  cases h with
  | keep _ _ _ _ hpending =>
    exact hinv.of_quiet rfl rfl rfl (fun _ hkey => hkey) hinv.control
      (by rw [hpending]; exact hinv.pending)
  | loop hkind hcontrol h =>
    exact h.shell hinv htasks hkeys hguard hkind hcontrol (hm.running_thread (by simp [hcontrol])).1
  | reply _ hcontrol h => exact h.shell hinv hcontrol (hm.running_thread (by simp [hcontrol])).1
  | @streamEvent f ev _ _ hcontrol =>
    cases hspawned : spawned D m ev with
    | none => exact hinv.of_quiet rfl (by simp) rfl (fun _ hkey => hkey) hinv.control hinv.pending
    | some args =>
      -- the call of the new task is ahead, so nothing was done for it
      have hfresh : ∀ key ∈ touched m.log, ⟨f.generation, ev.ids.1⟩ ≠ key := by
        rintro key hkey rfl
        exact hkeys.ahead _ (.inl (by rw [hcontrol]; rfl)) hkey
      have hall : ∀ key P, key ∈ touched m.log → AllTasks m.tasks key P →
          AllTasks (m.tasks ++
            [⟨⟨f.generation, ev.ids.1⟩, args, f.message.userId, .spawned⟩]) key P := by
        intro key P hkey hold t ht htkey
        rcases mem_append.mp ht with ht | ht
        · exact hold t ht htkey
        rw [mem_singleton.mp ht] at htkey
        exact absurd htkey (hfresh key hkey)
      have hpending := (hm.running_thread (by simp [hcontrol])).1
      refine ⟨hinv.once, fun key hkey => hall key _ hkey.touched (hinv.started key hkey),
        fun key content ran hmem => hall key _ (mem_filterMap.mpr ⟨_, hmem, rfl⟩)
          (hinv.given key content ran hmem), ?_, ?_, by simp [hpending]⟩
      · intro t ht r hexecuted hmay
        rcases mem_append.mp ht with ht | ht
        · exact hinv.published t ht r hexecuted hmay
        rw [mem_singleton.mp ht] at hexecuted
        cases hexecuted
      · rw [hcontrol]
        exact trivial
  | resume _ hcontrol h =>
    exact h.shell hinv htasks hkeys hcontrol (hm.running_thread (by simp [hcontrol])).1
  | early _ h => exact h.shell hinv htasks
  | begin _ _ _ hpending => exact hinv.of_quiet rfl rfl rfl nofun trivial (by simp [hpending])
  | cancelled _ _ _ _ _ _ hended =>
    exact hinv.of_quiet rfl rfl rfl nofun trivial (by simp [hended.pending])
  | accepted pending _ _ hpending =>
    refine hinv.of_quiet rfl rfl rfl nofun ?_ nofun
    intro hname
    exact hinv.pending pending hpending (hname.resolve_right nofun)

theorem ShellInv.oncePerCall (h : ShellInv D m) : OncePerCall D m where
  once := h.once
  result := by
    intro t ht r hphase content ran hmem
    rcases h.given t.key content ran hmem t ht rfl with hskipped | ⟨r', hphase', hcontent⟩
    · rw [hphase] at hskipped
      cases hskipped
    · rw [hphase] at hphase'
      cases hphase'
      exact hcontent

/-- The three layers together. -/
structure OnceInv (D : Deps) (m : Machine R) : Prop where
  keys : KeyInv m
  tasks : TaskInv D m
  shell : ShellInv D m

theorem OnceInv.of_fresh (h : m.Fresh) : OnceInv D m where
  keys := .of_fresh h
  tasks :=
    ⟨by simp [h.tasks], by simp [h.tasks], by simp [h.earlyResults],
      by simp [EarlyStart, h.log], by simp [h.tasks]⟩
  shell :=
    ⟨by simp [shellStarts, h.log], by simp [MainStart, h.log], by simp [h.log],
      by simp [h.tasks], by rw [h.control]; exact trivial, by simp [h.pending]⟩

theorem Step.onceInv (h : Step D m a m') (hm : Settled m) (hinv : OnceInv D m)
    (hguard : RoutesApart D m a) : OnceInv D m' where
  keys := h.keys hm hinv.keys hguard.distinct
  tasks := h.tasks hinv.tasks hinv.keys hguard.spawned
  shell := h.shell hm hinv.shell hinv.tasks hinv.keys hguard

/-- **If the two routes keep apart, a shell call runs at most once**, and what its
early task has executed is what the model is given: in every state that a run
from a fresh agent reaches. -/
theorem shell_calls_run_once (D : Deps) (m : Machine R) (hfresh : m.Fresh)
    (acts pre : List (Act R)) (hguard : Guarded (step D) (RoutesApart D) m acts)
    (hpre : pre <+: acts) : OncePerCall D (run (step D) m pre) := by
  have hinv := rules_invariant (fun _ _ _ hm hinv hguard h => h.onceInv hm hinv hguard) hfresh.settled
      (.of_fresh hfresh) hguard hpre
  exact hinv.shell.oncePerCall

/-- An executable check of a step: no hooks, no pause, no second task, and tasks at
their end when the loop executes. -/
def checkApart (D : Deps) (m : Machine R) (a : Act R) : Bool :=
  match a.kind, m.control with
  | .streamEvent _, _ => m.tasks.isEmpty
  | .reply (.ok (.toolCalls calls _)), _ => (calls.map (·.id)).Nodup
  | .main, .loop _ (.call .hooks _ _ _) => a.env.hooks.isEmpty
  | .main, .loop f (.call .approve tc _ _) =>
      match loopPolicy D a.env m f tc with
      | some (_, .requireApproval _) => false
      | _ => true
  | .main, .loop _ (.call .execute _ _ _) => m.tasks.all (·.phase.ended)
  | _, _ => true

theorem RoutesApart.of_check (h : checkApart D m a = true) : RoutesApart D m a where
  spawned := by
    intro f ev args hkind _ _ t ht
    rw [checkApart, hkind] at h
    rw [isEmpty_iff.mp h] at ht
    cases ht
  distinct := by
    intro calls content hkind
    rw [checkApart, hkind] at h
    exact of_decide_eq_true h
  executed := by
    intro f tc rest pos hkind hcontrol _ t ht _
    rw [checkApart, hkind, hcontrol] at h
    exact all_eq_true.mp h t ht
  denied := by
    intro f tc rest pos reason codes hkind hcontrol _ hdenied
    rw [checkApart, hkind, hcontrol] at h
    rw [isEmpty_iff.mp h] at hdenied
    cases hdenied
  paused := by
    intro f tc rest pos tool codes hkind hcontrol _ hpolicy
    rw [checkApart, hkind, hcontrol] at h
    simp [hpolicy] at h

/-- A shell call is streamed, executed early, and its result given to the model. -/
def earlyLs : List (Act Unit) :=
  [.autoApprove "shell", .input helloMessage "hello", .main,
    .streamEvent (shellEvent "call-1" "ls"), .early 0, .early 0,
    .reply (.ok (.toolCalls [shellCall "call-1" "ls"] none)),
    .main, .main, .main, .main, .main].map (⟨pipedEnv, ·⟩)

theorem early_ls_runs_once :
    OncePerCall pipedDeps (run (step pipedDeps) smallAgent earlyLs)
      ∧ (run (step pipedDeps) smallAgent earlyLs).log.length = 3 := by
  refine ⟨shell_calls_run_once pipedDeps smallAgent ⟨rfl, rfl, rfl, rfl, rfl, rfl, rfl⟩
    earlyLs earlyLs ?_ (prefix_refl _), by decide +kernel⟩
  exact guarded_of_checks (checkApart pipedDeps) (fun _ _ h => .of_check h) (by decide +kernel)

/-- The reply is complete, and the loop gets to the call, while the early task is
still running it. -/
def overtakenLs : List (Act Unit) :=
  [.autoApprove "shell", .input helloMessage "hello", .main,
    .streamEvent (shellEvent "call-1" "ls"), .early 0,
    .reply (.ok (.toolCalls [shellCall "call-1" "ls"] none)),
    .main, .main, .main, .main].map (⟨pipedEnv, ·⟩)

theorem overtaken_ls_runs_twice :
    ¬ OncePerCall pipedDeps (run (step pipedDeps) smallAgent overtakenLs) := by
  intro h
  have honce := h.once
  revert honce
  decide +kernel

end TitanClaw.Agent
