import TitanClaw.Lib.Run
import TitanClaw.Lib.Text

/-! # The cost guard

The guard adds up what the model calls of a day cost and refuses further calls
once the daily limit is reached. Amounts are in hundred-millionths of a dollar,
in which every rate of the cost table is whole; dates are days (UTC), instants
nanoseconds. -/

namespace TitanClaw.Llm

open Text

def isLocalModel (U : CaseMap) (modelId : String) : Bool :=
  let lower := U.toLowercase modelId
  (["llama", "mistral", "mixtral", "phi", "gemma", "qwen", "codellama", "deepseek",
      "starcoder", "vicuna", "yi"].any fun p => p.toList.isPrefixOf lower.toList)
    || contains lower ":latest" || contains lower ":instruct"

def modelBaseName (modelId : String) : String :=
  String.ofList (modelId.toList.reverse.takeWhile (· != '/')).reverse

def modelCost (U : CaseMap) (modelId : String) : Option (Nat × Nat) :=
  let id := modelBaseName modelId
  if ["gpt-4o", "gpt-4o-2024-11-20", "gpt-4o-2024-08-06"].contains id then some (250, 1000)
  else if ["gpt-4o-mini", "gpt-4o-mini-2024-07-18"].contains id then some (15, 60)
  else if ["gpt-4-turbo", "gpt-4-turbo-2024-04-09"].contains id then some (1000, 3000)
  else if ["gpt-4", "gpt-4-0613"].contains id then some (3000, 6000)
  else if ["gpt-3.5-turbo", "gpt-3.5-turbo-0125"].contains id then some (50, 150)
  else if ["o1", "o1-2024-12-17"].contains id then some (1500, 6000)
  else if ["o1-mini", "o1-mini-2024-09-12"].contains id then some (300, 1200)
  else if ["o3-mini", "o3-mini-2025-01-31"].contains id then some (110, 440)
  else if ["claude-3-5-sonnet-20241022", "claude-3-5-sonnet-latest",
      "claude-sonnet-4-20250514"].contains id then some (300, 1500)
  else if ["claude-3-5-haiku-20241022", "claude-3-5-haiku-latest"].contains id then some (80, 400)
  else if ["claude-3-opus-20240229", "claude-3-opus-latest",
      "claude-opus-4-20250514"].contains id then some (1500, 7500)
  else if id = "claude-3-haiku-20240307" then some (25, 125)
  else if isLocalModel U id then some (0, 0)
  else none

/-- For unknown models. -/
def defaultCost : Nat × Nat := (250, 1000)

end TitanClaw.Llm

namespace TitanClaw.Agent

open Text Llm

structure CostGuardConfig where
  /-- None is unlimited. -/
  maxCostPerDayCents : Option Nat := none
  maxActionsPerHour : Option Nat := none
  deriving DecidableEq

inductive CostLimitExceeded where
  | dailyBudget (spentCents limitCents : Nat)
  | hourlyRate (actions limit : Nat)
  deriving DecidableEq

structure CostGuard where
  config : CostGuardConfig
  /-- What the calls of `resetDate` cost. -/
  total : Nat := 0
  resetDate : Nat
  /-- Instants of the actions, oldest first. -/
  actionWindow : List Nat := []
  /-- Set when the daily budget is exceeded, to short-circuit checks. -/
  budgetExceeded : Bool := false

def wholeCents (usd : Nat) : Nat := usd / 1000000

def toCents (usd : Nat) : Nat := if wholeCents usd < 2 ^ 64 then wholeCents usd else 0

namespace CostGuard

/-- The guard at its creation. -/
def new (config : CostGuardConfig) (today : Nat) : CostGuard :=
  { config := config, resetDate := today }

variable (g : CostGuard) (instant : Nat)

def drainWindow : List Nat := g.actionWindow.dropWhile (· < instant - 3600000000000)

def checkHourly : Except CostLimitExceeded Unit × CostGuard :=
  match g.config.maxActionsPerHour with
  | none => (.ok (), g)
  | some limit =>
      let window := g.drainWindow instant
      let g := { g with actionWindow := window }
      if limit ≤ window.length then (.error (.hourlyRate window.length limit), g)
      else (.ok (), g)

def checkAllowed : Except CostLimitExceeded Unit × CostGuard :=
  if g.budgetExceeded then
    (.error (.dailyBudget (toCents g.total) (g.config.maxCostPerDayCents.getD 0)), g)
  else
    match g.config.maxCostPerDayCents with
    | none => g.checkHourly instant
    | some limitCents =>
        if limitCents ≤ toCents g.total then
          (.error (.dailyBudget (toCents g.total) limitCents), { g with budgetExceeded := true })
        else g.checkHourly instant

def callCost (U : CaseMap) (model : String) (inputTokens outputTokens : UInt32) : Nat :=
  let rates := (modelCost U model).getD defaultCost
  rates.1 * inputTokens.toNat + rates.2 * outputTokens.toNat

/-- The daily counter, reset on a new day. -/
def rollOver (today : Nat) : CostGuard :=
  if today ≠ g.resetDate then
    { g with total := 0, resetDate := today, budgetExceeded := false }
  else g

def addCost (cost : Nat) : CostGuard :=
  let total := g.total + cost
  { g with
    total := total
    budgetExceeded := g.budgetExceeded
      || match g.config.maxCostPerDayCents with
        | some limitCents => limitCents ≤ toCents total
        | none => false }

def recordLlmCall (U : CaseMap) (g : CostGuard) (today instant : Nat) (model : String)
    (inputTokens outputTokens : UInt32) : Nat × CostGuard :=
  let cost := callCost U model inputTokens outputTokens
  let g := (g.rollOver today).addCost cost
  (cost, { g with actionWindow := g.actionWindow ++ [instant] })

def dailySpend (today : Nat) : Nat :=
  if today ≠ g.resetDate then 0 else g.total

def actionsThisHour : Nat × CostGuard :=
  let window := g.drainWindow instant
  (window.length, { g with actionWindow := window })

end CostGuard

/-! ## Sequences of operations -/

structure RecordedCall where
  date : Nat
  cost : Nat

/-- The guard, the date, and the calls that were recorded with it. -/
structure Ledger where
  guard : CostGuard
  today : Nat
  calls : List RecordedCall := []

inductive CostOp where
  | checkAllowed
  | recordLlmCall (model : String) (inputTokens outputTokens : UInt32)
  | dailySpend
  | actionsThisHour

/-- An operation, the days that have passed before it, and its instant. -/
structure CostAct where
  days : Nat
  instant : Nat
  op : CostOp

def Ledger.step (U : CaseMap) (m : Ledger) (a : CostAct) : Ledger :=
  let today := m.today + a.days
  match a.op with
  | .checkAllowed => { m with guard := (m.guard.checkAllowed a.instant).2, today := today }
  | .recordLlmCall model inputTokens outputTokens =>
      let recorded := m.guard.recordLlmCall U today a.instant model inputTokens outputTokens
      { guard := recorded.2, today := today, calls := ⟨today, recorded.1⟩ :: m.calls }
  | .dailySpend => { m with today := today }
  | .actionsThisHour =>
      { m with guard := (m.guard.actionsThisHour a.instant).2, today := today }

variable (m : Ledger)

/-- What the calls recorded on a date have cost. -/
def Ledger.spentOn (date : Nat) : Nat := ((m.calls.filter (·.date = date)).map (·.cost)).sum

def CostGuard.refusesBudget (g : CostGuard) (instant : Nat) : Prop :=
  ∃ spentCents limitCents, (g.checkAllowed instant).1 = .error (.dailyBudget spentCents limitCents)

/-- A check that comes `days` later refuses for the daily budget exactly if the calls
recorded on that date have reached the limit. -/
def Ledger.ChecksToday (limitCents days instant : Nat) : Prop :=
  m.guard.refusesBudget instant ↔ limitCents ≤ wholeCents (m.spentOn (m.today + days))

/-- The check comes on the date the guard's total is of, or that total does not reach
the limit, or there is no budget at all. -/
def Ledger.TotalIsCurrent (limitCents days : Nat) : Prop :=
  m.today + days = m.guard.resetDate ∨ wholeCents m.guard.total < limitCents ∨ limitCents = 0

def Ledger.FitsCents (U : CaseMap) (m : Ledger) (a : CostAct) : Prop :=
  ∀ model inputTokens outputTokens, a.op = .recordLlmCall model inputTokens outputTokens →
    wholeCents (m.spentOn (m.today + a.days)
      + CostGuard.callCost U model inputTokens outputTokens) < 2 ^ 64

/-! ## The invariant -/

variable {U : CaseMap} {m : Ledger} {limitCents : Nat}

/-- The guard's total is what the calls of its date have cost, no call has a later
date, and the flag is set only when the total has reached the limit. -/
structure LedgerInv (limitCents : Nat) (m : Ledger) : Prop where
  limit : m.guard.config.maxCostPerDayCents = some limitCents
  total : m.guard.total = m.spentOn m.guard.resetDate
  date : m.guard.resetDate ≤ m.today
  calls : ∀ c ∈ m.calls, c.date ≤ m.guard.resetDate
  flag : m.guard.budgetExceeded = true → limitCents ≤ wholeCents m.guard.total
  fits : wholeCents m.guard.total < 2 ^ 64

section

variable (h : LedgerInv limitCents m)

include h

theorem LedgerInv.toCents_total : toCents m.guard.total = wholeCents m.guard.total := if_pos h.fits

/-- Nothing was recorded on a date behind that of the total. -/
theorem LedgerInv.spentOn_later {date : Nat}
    (hdate : m.guard.resetDate < date) : m.spentOn date = 0 := by
  have hnone : m.calls.filter (·.date = date) = [] := by
    rw [List.filter_eq_nil_iff]
    intro c hc
    have hle := h.calls c hc
    simp only [decide_eq_true_eq]
    omega
  simp [Ledger.spentOn, hnone]

theorem LedgerInv.dailySpend_eq (days : Nat) :
    m.guard.dailySpend (m.today + days) = m.spentOn (m.today + days) := by
  have hdate := h.date
  unfold CostGuard.dailySpend
  by_cases hsame : m.today + days = m.guard.resetDate
  · rw [if_neg (by simpa using hsame), h.total, hsame]
  · rw [if_pos hsame, h.spentOn_later (by omega)]

end

theorem CostGuard.checkHourly_not_budget (g : CostGuard) (instant spent limit : Nat) :
    (g.checkHourly instant).1 ≠ .error (.dailyBudget spent limit) := by
  unfold CostGuard.checkHourly
  cases g.config.maxActionsPerHour with
  | none => simp
  | some perHour =>
    by_cases hfull : perHour ≤ (g.drainWindow instant).length
    · simp [hfull]
    · simp [hfull]

theorem CostGuard.checkHourly_guard (g : CostGuard) (instant : Nat) :
    ∃ window, (g.checkHourly instant).2 = { g with actionWindow := window } := by
  unfold CostGuard.checkHourly
  cases g.config.maxActionsPerHour with
  | none => exact ⟨g.actionWindow, rfl⟩
  | some perHour =>
    by_cases hfull : perHour ≤ (g.drainWindow instant).length
    · exact ⟨g.drainWindow instant, by simp [hfull]⟩
    · exact ⟨g.drainWindow instant, by simp [hfull]⟩

/-- What the check goes by is the total, of whatever date. -/
theorem LedgerInv.refusesBudget_iff (h : LedgerInv limitCents m) (instant : Nat) :
    m.guard.refusesBudget instant ↔ limitCents ≤ wholeCents m.guard.total := by
  have hcents := h.toCents_total
  unfold CostGuard.refusesBudget CostGuard.checkAllowed
  by_cases hflag : m.guard.budgetExceeded = true
  · have hreached := h.flag hflag
    simp [hflag, hreached]
  · rw [if_neg hflag, h.limit]
    by_cases hreached : limitCents ≤ wholeCents m.guard.total
    · simp [hcents, hreached]
    · simp [hcents, hreached, CostGuard.checkHourly_not_budget]

/-- A check keeps the books, and sets the flag at most when the total has reached the
limit. -/
theorem LedgerInv.check (h : LedgerInv limitCents m) (days instant : Nat) :
    LedgerInv limitCents
      { m with guard := (m.guard.checkAllowed instant).2, today := m.today + days } := by
  have hdate : m.guard.resetDate ≤ m.today + days := by
    have hle := h.date
    omega
  obtain ⟨window, hhourly⟩ := m.guard.checkHourly_guard instant
  unfold CostGuard.checkAllowed
  by_cases hflag : m.guard.budgetExceeded = true
  · rw [if_pos hflag]
    exact ⟨h.limit, h.total, hdate, h.calls, h.flag, h.fits⟩
  · rw [if_neg hflag, h.limit]
    by_cases hreached : limitCents ≤ wholeCents m.guard.total
    · simp only [h.toCents_total, if_pos hreached]
      exact ⟨h.limit, h.total, hdate, h.calls, fun _ => hreached, h.fits⟩
    · simp only [h.toCents_total, if_neg hreached, hhourly]
      exact ⟨h.limit, h.total, hdate, h.calls, h.flag, h.fits⟩

theorem Ledger.spentOn_cons (guard : CostGuard) (today : Nat) (c : RecordedCall)
    (calls : List RecordedCall) (date : Nat) :
    (Ledger.mk guard today (c :: calls)).spentOn date
      = (if c.date = date then c.cost else 0) + (Ledger.mk guard today calls).spentOn date := by
  by_cases hdate : c.date = date
  · simp [Ledger.spentOn, hdate]
  · simp [Ledger.spentOn, hdate]

/-- After a roll-over the guard's books are those of the day. -/
structure RolledOver (limitCents : Nat) (m : Ledger) (today : Nat) (g : CostGuard) : Prop where
  limit : g.config.maxCostPerDayCents = some limitCents
  date : g.resetDate = today
  total : g.total = m.spentOn today
  flag : g.budgetExceeded = true → limitCents ≤ wholeCents g.total

section

variable (h : LedgerInv limitCents m)

include h

theorem LedgerInv.rollOver (days : Nat) :
    RolledOver limitCents m (m.today + days) (m.guard.rollOver (m.today + days)) := by
  have hdate := h.date
  unfold CostGuard.rollOver
  by_cases hsame : m.today + days = m.guard.resetDate
  · rw [if_neg (by simpa using hsame), hsame]
    exact ⟨h.limit, rfl, h.total, h.flag⟩
  · rw [if_pos hsame]
    have hnothing : m.spentOn (m.today + days) = 0 := h.spentOn_later (by omega)
    exact ⟨h.limit, rfl, hnothing.symm, nofun⟩

theorem LedgerInv.record (days instant : Nat) (model : String)
    (inputTokens outputTokens : UInt32) (hfits : wholeCents (m.spentOn (m.today + days)
      + CostGuard.callCost U model inputTokens outputTokens) < 2 ^ 64) :
    LedgerInv limitCents
      (m.step U ⟨days, instant, .recordLlmCall model inputTokens outputTokens⟩) := by
  have hrolled := h.rollOver days
  have hdate := h.date
  set today := m.today + days
  set g := m.guard.rollOver today
  set cost := CostGuard.callCost U model inputTokens outputTokens
  have htotal : g.total + cost = m.spentOn today + cost := by rw [hrolled.total]
  have hcents : toCents (g.total + cost) = wholeCents (g.total + cost) := by
    rw [htotal]
    exact if_pos hfits
  refine ⟨hrolled.limit, ?_, hrolled.date.le, ?_, ?_, ?_⟩
  · show g.total + cost = Ledger.spentOn ⟨_, today, ⟨today, cost⟩ :: m.calls⟩ g.resetDate
    rw [hrolled.date, Ledger.spentOn_cons, if_pos rfl, htotal, Nat.add_comm]
    rfl
  · intro c hc
    show c.date ≤ g.resetDate
    rw [hrolled.date]
    rcases List.mem_cons.mp hc with hnew | hold
    · rw [hnew]
    have hle := h.calls c hold
    omega
  · intro (hflag : (g.addCost cost).budgetExceeded = true)
    simp only [CostGuard.addCost, hrolled.limit] at hflag
    rcases (by simpa using hflag : _ ∨ _) with hbefore | hnow
    · have hreached := hrolled.flag hbefore
      exact hreached.trans (Nat.div_le_div_right (Nat.le_add_right _ _))
    · rw [hcents] at hnow
      exact hnow
  · show wholeCents (g.total + cost) < 2 ^ 64
    rw [htotal]
    exact hfits

theorem LedgerInv.step {a : CostAct} (hfits : m.FitsCents U a) :
    LedgerInv limitCents (m.step U a) := by
  have hdate : m.guard.resetDate ≤ m.today + a.days := by
    have hle := h.date
    omega
  obtain ⟨days, instant, op⟩ := a
  cases op with
  | checkAllowed => exact h.check days instant
  | recordLlmCall model inputTokens outputTokens =>
    exact h.record days instant model inputTokens outputTokens (hfits _ _ _ rfl)
  | dailySpend | actionsThisHour => exact ⟨h.limit, h.total, hdate, h.calls, h.flag, h.fits⟩

end

theorem LedgerInv.new {config : CostGuardConfig}
    (hlimit : config.maxCostPerDayCents = some limitCents) (today : Nat) :
    LedgerInv limitCents ⟨CostGuard.new config today, today, []⟩ where
  limit := hlimit
  total := rfl
  date := le_rfl
  calls := nofun
  flag := nofun
  fits := by simp [CostGuard.new, wholeCents]

/-- **A check agrees with the day's spending exactly if the guard's total is current**:
after any operations on any dates, as long as no day's cents outgrow 64 bits. What the
guard reports as the day's spending is always right. -/
theorem check_agrees_iff_total_current (U : CaseMap) (config : CostGuardConfig)
    (limitCents : Nat) (hlimit : config.maxCostPerDayCents = some limitCents) (start : Nat)
    (acts pre : List CostAct) (hfits : Run.Guarded (Ledger.step U) (Ledger.FitsCents U)
      ⟨CostGuard.new config start, start, []⟩ acts) (hpre : pre <+: acts) (days instant : Nat) :
    let m := Run.run (Ledger.step U) ⟨CostGuard.new config start, start, []⟩ pre
    m.guard.dailySpend (m.today + days) = m.spentOn (m.today + days)
      ∧ (m.ChecksToday limitCents days instant ↔ m.TotalIsCurrent limitCents days) := by
  intro m
  have hstep : ∀ m a, LedgerInv limitCents m → m.FitsCents U a →
      LedgerInv limitCents (Ledger.step U m a) := fun _ _ h hg => h.step hg
  have hinv : LedgerInv limitCents m := Run.invariant_reached hstep (.new hlimit start) hfits hpre
  refine ⟨hinv.dailySpend_eq days, ?_⟩
  have hdate := hinv.date
  unfold Ledger.ChecksToday Ledger.TotalIsCurrent
  rw [hinv.refusesBudget_iff]
  by_cases hsame : m.today + days = m.guard.resetDate
  · rw [hsame, ← hinv.total]
    simp
  · -- on a later date nothing is recorded yet, so only a budget of nothing is used up
    rw [hinv.spentOn_later (by omega)]
    simp only [wholeCents, Nat.zero_div, Nat.le_zero, hsame, false_or]
    omega

def centADay : CostGuardConfig := { maxCostPerDayCents := some 1 }

def costlyDay : List CostAct :=
  [⟨0, 0, .checkAllowed⟩, ⟨0, 1, .recordLlmCall "gpt-4o" 10000 10000⟩, ⟨0, 2, .checkAllowed⟩]

theorem costly_day_checks :
    let m := Run.run (Ledger.step asciiCase) ⟨CostGuard.new centADay 7, 7, []⟩ costlyDay
    m.guard.dailySpend 7 = 12500000 ∧ m.ChecksToday 1 0 3 := by
  have hfits : Run.Guarded (Ledger.step asciiCase) (Ledger.FitsCents asciiCase)
      ⟨CostGuard.new centADay 7, 7, []⟩ costlyDay := by
    refine ⟨nofun, ?_, nofun, trivial⟩
    intro model inputTokens outputTokens hop
    cases hop
    decide
  have hagrees := check_agrees_iff_total_current asciiCase centADay 1 rfl 7 costlyDay costlyDay
    hfits (List.prefix_refl _) 0 3
  exact ⟨by decide, hagrees.2.mpr (.inl (by decide))⟩

theorem next_day_still_refused :
    let m := Run.run (Ledger.step asciiCase) ⟨CostGuard.new centADay 7, 7, []⟩ costlyDay
    m.guard.dailySpend 8 = 0 ∧ ¬ m.ChecksToday 1 1 3 := by
  intro m
  refine ⟨by decide, ?_⟩
  intro h
  have hrefused : m.guard.refusesBudget 3 := ⟨12, 1, by decide⟩
  have hspent : 1 ≤ wholeCents (m.spentOn 8) := h.mp hrefused
  exact absurd hspent (by decide)

end TitanClaw.Agent
