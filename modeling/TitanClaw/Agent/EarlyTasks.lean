import TitanClaw.Agent.CallKeys

/-! # Early tasks

The book-keeping of the detached tasks that start shell calls while the model is
still streaming: there is one for each call at most, the map of results holds
what executed tasks have left there, and an early start in the log is that of a
task that is running or has executed. -/

namespace TitanClaw.Agent

open List Subset

variable {R : Type} {D : Deps} {env : Env R} {m m' : Machine R}

def OneTask (D : Deps) (m : Machine R) (a : Act R) : Prop :=
  ∀ f ev args, a.kind = .streamEvent ev → m.control = .loop f .waiting →
    spawned D m ev = some args → ∀ t ∈ m.tasks, t.key ≠ ⟨f.generation, ev.ids.1⟩

def EarlyStart (log : List Event) (key : CallKey) : Prop :=
  ∃ args hooks, .started key .earlyTask "shell" args hooks ∈ log

/-- Early tasks exist only with piped execution on and routing off, one for each
call at most; results in the map come from executed tasks, early starts from
tasks that are running or executed, and tasks from requests that were sent. -/
structure TaskInv (D : Deps) (m : Machine R) : Prop where
  config : ∀ t ∈ m.tasks,
    D.config.enablePipedToolExecution = true ∧ D.config.autonomyToolRoutingV2 = false
  keys : (m.tasks.map (·.key)).Nodup
  results : ∀ e ∈ m.earlyResults, ∃ t ∈ m.tasks, t.key = e.key ∧ t.phase = .executed e.result
  starts : ∀ key, EarlyStart m.log key →
    ∃ t ∈ m.tasks, t.key = key ∧ t.phase ≠ .spawned ∧ t.phase ≠ .skipped
  sent : ∀ t ∈ m.tasks, t.key.generation < m.llmCalls.length

theorem TaskInv.unique (h : TaskInv D m) {t t' : EarlyTask} (ht : t ∈ m.tasks)
    (ht' : t' ∈ m.tasks) (hkey : t.key = t'.key) : t = t' :=
  inj_on_of_nodup_map h.keys ht ht' hkey

theorem spawned_config {ev : ToolStreamEvent} {args : JsonValue} (h : spawned D m ev = some args) :
    D.config.enablePipedToolExecution = true ∧ D.config.autonomyToolRoutingV2 = false := by
  cases hpiped : D.config.enablePipedToolExecution && !D.config.autonomyToolRoutingV2 with
  | true => simpa using hpiped
  | false =>
    cases ev with
    | toolCall => simp [spawned, onStreamEvent, hpiped] at h
    | toolCallDelta =>
      simp only [spawned, onStreamEvent, hpiped, Bool.false_and] at h
      split at h
      · cases h
      · cases h

/-- A step that leaves the tasks alone, and starts nothing early. -/
theorem TaskInv.of_same (h : TaskInv D m) (htasks : m'.tasks = m.tasks)
    (hresults : m'.earlyResults ⊆ m.earlyResults) (hsent : m.llmCalls.length ≤ m'.llmCalls.length)
    (hlog : ∀ key, EarlyStart m'.log key → EarlyStart m.log key) : TaskInv D m' where
  config := by rw [htasks]; exact h.config
  keys := by rw [htasks]; exact h.keys
  results := by
    intro e he
    rw [htasks]
    exact h.results e (hresults he)
  starts := by
    intro key hkey
    rw [htasks]
    exact h.starts key (hlog key hkey)
  sent := by
    intro t ht
    rw [htasks] at ht
    have hold := h.sent t ht
    omega

theorem EarlyStart.of_cons {log : List Event} {key : CallKey} {e : Event}
    (h : EarlyStart (e :: log) key)
    (he : ∀ k tool params hooks, e ≠ .started k .earlyTask tool params hooks) :
    EarlyStart log key := by
  obtain ⟨args, hooks, hmem⟩ := h
  rcases mem_cons.mp hmem with hnew | hold
  · exact absurd hnew.symm (he _ _ _ _)
  · exact ⟨args, hooks, hold⟩

theorem LoopStep.tasks {f : Frame R} {at_ : LoopAt} (h : LoopStep D env m f at_ m')
    (hinv : TaskInv D m) : TaskInv D m' := by
  cases h with
  | send => exact hinv.of_same rfl (refl _) (by simp) fun _ hkey => hkey
  | taken => exact hinv.of_same rfl (filter_subset_self _) le_rfl fun _ hkey => hkey
  | routeDenied | hooked | started | recorded =>
    exact hinv.of_same rfl (refl _) le_rfl fun _ hkey => hkey.of_cons (by simp)
  | hookDenied =>
    exact hinv.of_same rfl (refl _) le_rfl fun _ hkey => (hkey.of_cons (by simp)).of_cons (by simp)
  | _ => exact hinv.of_same rfl (refl _) le_rfl fun _ hkey => hkey

theorem ResumeStep.tasks {r : Resume} {stage : ResumeStage}
    (h : ResumeStep D env m r stage m') (hinv : TaskInv D m) : TaskInv D m' := by
  cases h with
  | hooked | hookDenied | started | recorded =>
    exact hinv.of_same rfl (refl _) le_rfl fun _ hkey => hkey.of_cons (by simp)
  | _ => exact hinv.of_same rfl (refl _) le_rfl fun _ hkey => hkey

theorem EarlyStep.tasks {i : Nat} (h : EarlyStep D env m i m') (hinv : TaskInv D m) :
    TaskInv D m' := by
  have hconfig : ∀ phase, ∀ t ∈ setPhase m i phase,
      D.config.enablePipedToolExecution = true ∧ D.config.autonomyToolRoutingV2 = false := by
    intro phase t ht
    obtain ⟨t₀, ht₀, -⟩ := mem_setPhase ht
    exact hinv.config t₀ ht₀
  have hsent : ∀ phase, ∀ t ∈ setPhase m i phase, t.key.generation < m.llmCalls.length := by
    intro phase t ht
    obtain ⟨t₀, ht₀, hkey, -⟩ := mem_setPhase ht
    exact hkey ▸ hinv.sent t₀ ht₀
  have hkeys : ∀ phase, ((setPhase m i phase).map (·.key)).Nodup := by
    intro phase
    rw [setPhase_keys]
    exact hinv.keys
  -- the task that goes on is not one that has left a result
  have hresults : ∀ task phase, m.tasks[i]? = some task → (∀ r, task.phase ≠ .executed r) →
      ∀ e ∈ m.earlyResults, ∃ t ∈ setPhase m i phase,
        t.key = e.key ∧ t.phase = .executed e.result := by
    intro task phase htask hphase e he
    obtain ⟨t, ht, hkey, hexecuted⟩ := hinv.results e he
    rcases mem_setPhase_of_mem htask ht phase with hsame | rfl
    · exact ⟨t, hsame, hkey, hexecuted⟩
    · exact absurd hexecuted (hphase _)
  have hstarts : ∀ task phase, m.tasks[i]? = some task →
      task.phase = .spawned ∨ phase ≠ .spawned ∧ phase ≠ .skipped →
      ∀ key, EarlyStart m.log key → ∃ t ∈ setPhase m i phase,
        t.key = key ∧ t.phase ≠ .spawned ∧ t.phase ≠ .skipped := by
    intro task phase htask hphase key hkey
    obtain ⟨t, ht, hkey, hspawned, hskipped⟩ := hinv.starts key hkey
    rcases mem_setPhase_of_mem htask ht phase with hsame | rfl
    · exact ⟨t, hsame, hkey, hspawned, hskipped⟩
    rcases hphase with hold | hnew
    · exact absurd hold hspawned
    · exact ⟨_, mem_setPhase_self htask phase, hkey, hnew⟩
  cases h with
  | none => exact hinv
  | skipped task htask hphase =>
    exact ⟨hconfig _, hkeys _, hresults task _ htask (by simp [hphase]),
      hstarts task _ htask (.inl hphase), hsent _⟩
  | started task _ htask hphase =>
    refine ⟨hconfig _, hkeys _, hresults task _ htask (by simp [hphase]), ?_, hsent _⟩
    rintro key ⟨args, hooks, hmem⟩
    rcases mem_cons.mp hmem with hnew | hold
    · cases hnew
      exact ⟨_, mem_setPhase_self htask _, rfl, nofun, nofun⟩
    · exact hstarts task _ htask (.inl hphase) key ⟨args, hooks, hold⟩
  | executed task _ _ htask hphase =>
    refine ⟨hconfig _, hkeys _, ?_, hstarts task _ htask (.inr ⟨nofun, nofun⟩), hsent _⟩
    intro e he
    rcases mem_cons.mp he with rfl | hold
    · exact ⟨_, mem_setPhase_self htask _, rfl, rfl⟩
    · exact hresults task _ htask (by simp [hphase]) e (mem_of_mem_filter hold)

theorem Step.tasks {a : Act R} (h : Step D m a m') (hinv : TaskInv D m) (hkeys : KeyInv m)
    (hguard : OneTask D m a) : TaskInv D m' := by
  cases h with
  | loop _ _ h | resume _ _ h | early _ h => exact h.tasks hinv
  | reply _ _ h =>
    cases h with
    | _ => exact hinv.of_same rfl (refl _) le_rfl fun _ hkey => hkey
  | @streamEvent f ev _ hkind hcontrol =>
    cases hspawned : spawned D m ev with
    | none => exact hinv.of_same (by simp) (refl _) le_rfl fun _ hkey => hkey
    | some args =>
      have hnew := hguard f ev args hkind hcontrol hspawned
      have hwaiting : ControlKeys m.llmCalls.length (.loop f .waiting) := hcontrol ▸ hkeys.control
      refine ⟨fun _ _ => spawned_config hspawned, ?_, ?_, ?_, ?_⟩
      · rw [Option.map_some, Option.toList_some, map_append, map_singleton, nodup_append]
        refine ⟨hinv.keys, nodup_singleton _, ?_⟩
        intro key hkey key' hkey'
        obtain ⟨t, ht, rfl⟩ := mem_map.mp hkey
        rw [mem_singleton.mp hkey']
        exact hnew t ht
      · intro e he
        obtain ⟨t, ht, hkey⟩ := hinv.results e he
        exact ⟨t, mem_append_left _ ht, hkey⟩
      · intro key hkey
        obtain ⟨t, ht, hstarted⟩ := hinv.starts key hkey
        exact ⟨t, mem_append_left _ ht, hstarted⟩
      · intro t ht
        rcases mem_append.mp ht with hold | hlast
        · exact hinv.sent t hold
        rw [mem_singleton.mp hlast]
        exact hwaiting
  | _ => exact hinv.of_same rfl (refl _) le_rfl fun _ hkey => hkey

end TitanClaw.Agent
