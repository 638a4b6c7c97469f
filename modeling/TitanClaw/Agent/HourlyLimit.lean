import TitanClaw.Agent.CostGuard

/-! # The hourly limit

What has left the window is more than an hour older than some operation, so a check counts all
calls that can share an hour with the call it lets through. -/

namespace TitanClaw.Agent

open Text List Run CostGuard Ledger

/-- An hour, in nanoseconds. -/
def hour : Nat := 3600000000000

def CostOp.isRecord : CostOp → Bool
  | .recordLlmCall .. => true
  | _ => false

def inHour (start instant : Nat) : Bool := decide (start ≤ instant ∧ instant ≤ start + hour)

/-- The instants of the recorded calls, oldest first. -/
def recordedAt (acts : List CostAct) : List Nat := (acts.filter (·.op.isRecord)).map (·.instant)

/-- Every call is recorded behind a check of its own that succeeded. -/
def EachChecked (U : CaseMap) (m : Ledger) (acts : List CostAct) : Prop :=
  ∀ pre a post, acts = pre ++ a :: post → a.op.isRecord = true →
    ∃ before check between, pre = before ++ check :: between ∧ check.op = .checkAllowed
      ∧ ((run (step U) m before).guard.checkAllowed check.instant).1 = .ok ()
      ∧ recordedAt between = []

variable {U : CaseMap} {m : Ledger} {acts : List CostAct} {limit : Nat}

theorem checkAllowed_guard (g : CostGuard) (instant : Nat) :
    (g.checkAllowed instant).2.config = g.config
      ∧ ((g.checkAllowed instant).2.actionWindow = g.actionWindow
        ∨ (g.checkAllowed instant).2.actionWindow = g.drainWindow instant) := by
  simp only [checkAllowed, checkHourly]
  repeat' split
  all_goals simp

/-- A check that succeeds has counted fewer calls than the limit. -/
theorem length_lt_of_checkAllowed {g : CostGuard} {instant : Nat}
    (hlimit : g.config.maxActionsPerHour = some limit) (h : (g.checkAllowed instant).1 = .ok ()) :
    (g.checkAllowed instant).2.actionWindow.length < limit := by
  have hhourly : (g.checkHourly instant).1 = .ok () →
      (g.checkHourly instant).2.actionWindow.length < limit := by
    simp only [checkHourly, hlimit]
    split
    · nofun
    · next hroom => exact fun _ => Nat.not_le.mp hroom
  have hpassed : g.checkAllowed instant = g.checkHourly instant := by
    unfold checkAllowed at h ⊢
    repeat' split at h
    all_goals first | cases h | simp [*]
  rw [hpassed] at h ⊢
  exact hhourly h

theorem step_config (m : Ledger) (a : CostAct) : (m.step U a).guard.config = m.guard.config := by
  unfold step
  split
  · exact (checkAllowed_guard _ _).1
  · simp only [recordLlmCall, addCost, rollOver]
    split <;> rfl
  · rfl
  · rfl

theorem run_config (m : Ledger) (acts : List CostAct) :
    (run (step U) m acts).guard.config = m.guard.config := by
  induction acts generalizing m with
  | nil => rfl
  | cons a _ ih => exact (ih _).trans (step_config m a)

/-- What is not in the window any more is more than an hour older than some operation. -/
def Drained (m : Ledger) (acts : List CostAct) : Prop :=
  ∃ dropped, recordedAt acts = dropped ++ m.guard.actionWindow
    ∧ ∀ t ∈ dropped, ∃ a ∈ acts, t + hour < a.instant

theorem Drained.keep (h : Drained m acts) {m' : Ledger} {a : CostAct}
    (ha : a.op.isRecord = false) (hwindow : m'.guard.actionWindow = m.guard.actionWindow
      ∨ m'.guard.actionWindow = m.guard.drainWindow a.instant) : Drained m' (acts ++ [a]) := by
  obtain ⟨dropped, heq, hold⟩ := h
  have hsame : recordedAt (acts ++ [a]) = recordedAt acts := by simp [recordedAt, ha]
  have hbefore : ∀ t ∈ dropped, ∃ b ∈ acts ++ [a], t + hour < b.instant := by
    intro t ht
    obtain ⟨b, hb, hlt⟩ := hold t ht
    exact ⟨b, mem_append_left _ hb, hlt⟩
  rcases hwindow with hwindow | hwindow
  · exact ⟨dropped, by rw [hsame, heq, hwindow], hbefore⟩
  refine ⟨dropped ++ m.guard.actionWindow.takeWhile (· < a.instant - hour), ?_, ?_⟩
  · rw [hsame, heq, hwindow, append_assoc]
    exact congrArg _ takeWhile_append_dropWhile.symm
  · intro t ht
    rcases mem_append.mp ht with ht | ht
    · exact hbefore t ht
    have hlt := mem_takeWhile_imp (p := (· < a.instant - hour)) ht
    simp only [decide_eq_true_eq] at hlt
    exact ⟨a, by simp, by omega⟩

theorem drained_run (h : m.guard.actionWindow = []) (acts : List CostAct) :
    Drained (run (step U) m acts) acts := by
  induction acts using reverseRecOn with
  | nil => exact ⟨[], h.symm, by simp⟩
  | append_singleton acts a ih =>
    rw [run_append, run_cons, run_nil]
    generalize run (step U) m acts = s at ih
    cases hop : a.op with
    | checkAllowed =>
      refine ih.keep (by rw [hop]; rfl) ?_
      rw [step, hop]
      exact (checkAllowed_guard _ _).2
    | dailySpend =>
      refine ih.keep (by rw [hop]; rfl) (.inl ?_)
      rw [step, hop]
    | actionsThisHour =>
      refine ih.keep (by rw [hop]; rfl) (.inr ?_)
      rw [step, hop]
      rfl
    | recordLlmCall model inputTokens outputTokens =>
      obtain ⟨dropped, heq, hold⟩ := ih
      have hwindow : (s.step U a).guard.actionWindow = s.guard.actionWindow ++ [a.instant] := by
        simp only [step, hop, recordLlmCall, addCost, rollOver]
        split <;> rfl
      refine ⟨dropped, ?_, fun t ht => ?_⟩
      · rw [hwindow, ← append_assoc, ← heq]
        simp [recordedAt, hop, CostOp.isRecord]
      · obtain ⟨b, hb, hlt⟩ := hold t ht
        exact ⟨b, mem_append_left _ hb, hlt⟩

theorem recordedAt_append (acts acts' : List CostAct) :
    recordedAt (acts ++ acts') = recordedAt acts ++ recordedAt acts' := by
  simp [recordedAt]

/-- The calls of an hour that ends with the call of a check are those it has counted: what has
left the window is older. -/
theorem counted_lt_limit {config : CostGuardConfig} {today start last : Nat}
    (hlimit : config.maxActionsPerHour = some limit) {before between : List CostAct}
    {check : CostAct} (hop : check.op = .checkAllowed) (hok : ((run (step U)
      ⟨.new config today, today, []⟩ before).guard.checkAllowed check.instant).1 = .ok ())
    (hnone : recordedAt between = []) (hlast : last ≤ start + hour)
    (hle : ∀ b ∈ before ++ [check], b.instant ≤ last) :
    (recordedAt (before ++ check :: between)).countP (inHour start) < limit := by
  obtain ⟨dropped, heq, hold⟩ := drained_run (U := U) (m := ⟨.new config today, today, []⟩) rfl
    (before ++ [check])
  have hcount : ((run (step U) ⟨.new config today, today, []⟩
      (before ++ [check])).guard.actionWindow).length < limit := by
    rw [run_append, run_cons, run_nil, step, hop]
    exact length_lt_of_checkAllowed ((congrArg _ (run_config _ _)).trans hlimit) hok
  have hold' : dropped.countP (inHour start) = 0 := by
    refine countP_eq_zero.mpr fun t ht => ?_
    obtain ⟨b, hb, hlt⟩ := hold t ht
    have hb' := hle b hb
    simp only [inHour, decide_eq_true_eq, not_and]
    omega
  rw [append_cons, recordedAt_append, hnone, append_nil, heq, countP_append, hold', Nat.zero_add]
  exact countP_le_length.trans_lt hcount

/-- **An hour has no more recorded calls than the limit**, if every call is checked before it is
recorded. -/
theorem hour_within_limit (U : CaseMap) (config : CostGuardConfig) (today limit : Nat)
    (hlimit : config.maxActionsPerHour = some limit) (acts : List CostAct)
    (htimes : acts.Pairwise (·.instant ≤ ·.instant))
    (hchecked : EachChecked U ⟨.new config today, today, []⟩ acts) (start : Nat) :
    (recordedAt acts).countP (inHour start) ≤ limit := by
  induction acts using reverseRecOn with
  | nil => exact Nat.zero_le limit
  | append_singleton acts a ih =>
    obtain ⟨hbefore, -, hle⟩ := pairwise_append.mp htimes
    rw [recordedAt_append, countP_append]
    by_cases ha : a.op.isRecord = true ∧ inHour start a.instant = true
    · obtain ⟨before, check, between, rfl, hop, hok, hnone⟩ := hchecked acts a [] rfl ha.1
      have hcount := counted_lt_limit hlimit hop hok hnone (of_decide_eq_true ha.2).2 fun b hb =>
        hle b (by rw [append_cons]; exact mem_append_left _ hb) a (by simp)
      have hone : (recordedAt [a]).countP (inHour start) ≤ 1 := by
        refine countP_le_length.trans ?_
        simp [recordedAt, ha.1]
      omega
    · have hzero : (recordedAt [a]).countP (inHour start) = 0 := by
        refine countP_eq_zero.mpr fun t ht => ?_
        simp only [recordedAt, mem_map, mem_filter, mem_singleton] at ht
        obtain ⟨b, ⟨rfl, hrecord⟩, rfl⟩ := ht
        exact fun hin => ha ⟨hrecord, hin⟩
      rw [hzero]
      exact ih hbefore fun pre b post heq => hchecked pre b (post ++ [a]) (by rw [heq]; simp)

/-- A check and the call it is for. -/
def oneCall : List CostAct := [⟨0, 0, .checkAllowed⟩, ⟨0, 1, .recordLlmCall "gpt-4o" 1 1⟩]

theorem oneCall_within_limit : (recordedAt oneCall).countP (inHour 0) ≤ 1 := by
  refine hour_within_limit asciiCase { maxActionsPerHour := some 1 } 0 1 rfl oneCall
    (by decide) (fun pre a post heq ha => ?_) 0
  rcases pre with _ | ⟨b, _ | ⟨c, pre⟩⟩
  · obtain ⟨rfl, -⟩ := cons.inj heq
    cases ha
  · obtain ⟨rfl, -⟩ := cons.inj heq
    exact ⟨[], _, [], rfl, rfl, by decide, rfl⟩
  · have hlength := congrArg length heq
    simp [oneCall] at hlength

end TitanClaw.Agent
