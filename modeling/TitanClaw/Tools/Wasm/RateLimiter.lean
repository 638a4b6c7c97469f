import TitanClaw.Lib.Run
import TitanClaw.Lib.Table

/-! # The rate limiter of the WASM tools

Two fixed windows a key, which restart on their own and are counted up together.
A window is followed beside the log of the calls it has let through: those since
its start are its count, and those before its start and still within its length
belong to the window before, which had its limit too. -/

namespace TitanClaw.Tools.Wasm

open List Run

structure RateLimitConfig where
  requestsPerMinute : Nat
  requestsPerHour : Nat

inductive LimitType where
  | perMinute
  | perHour

inductive RateLimitResult where
  | allowed (remainingMinute remainingHour : Nat)
  | limited (retryAfter : Nat) (limitType : LimitType)

def RateLimitResult.isAllowed : RateLimitResult → Bool
  | .allowed _ _ => true
  | .limited _ _ => false

/-- Seconds in the nanoseconds of the clock. -/
def secs (n : Nat) : Nat := n * 1000000000

structure WindowState where
  windowStart : Nat
  count : Nat

namespace WindowState

variable (w : WindowState) (duration now : Nat)

def maybeReset : WindowState :=
  if now - w.windowStart ≥ duration then ⟨now, 0⟩ else w

def timeUntilReset : Nat :=
  if now - w.windowStart ≥ duration then 0 else duration - (now - w.windowStart)

def add (n : Nat) : WindowState := { w with count := w.count + n }

end WindowState

structure ToolRateLimitState where
  minuteWindow : WindowState
  hourWindow : WindowState

def ToolRateLimitState.new (now : Nat) : ToolRateLimitState := ⟨⟨now, 0⟩, ⟨now, 0⟩⟩

/-- A call of `check_and_record`, or of `check`, which records nothing. -/
structure RateCall where
  userId : String
  toolName : String
  config : RateLimitConfig
  now : Nat
  record : Bool

def RateCall.key (c : RateCall) : String × String := (c.userId, c.toolName)

/-- `u32` subtraction; `none` where it underflows. -/
def checkedSub (a b : Nat) : Option Nat := if b ≤ a then some (a - b) else none

theorem checkedSub_add {a count : Nat} (h : count < a) (record : Bool) :
    checkedSub a (count + record.toNat) = some (a - (count + record.toNat)) :=
  if_pos (by cases record <;> simp <;> omega)

/-- What a call does to the windows of its key. -/
def ToolRateLimitState.check (tool : ToolRateLimitState) (c : RateCall) :
    ToolRateLimitState × Option RateLimitResult :=
  let minute := tool.minuteWindow.maybeReset (secs 60) c.now
  let hour := tool.hourWindow.maybeReset (secs 3600) c.now
  if minute.count ≥ c.config.requestsPerMinute then
    (⟨minute, hour⟩, some (.limited (minute.timeUntilReset (secs 60) c.now) .perMinute))
  else if hour.count ≥ c.config.requestsPerHour then
    (⟨minute, hour⟩, some (.limited (hour.timeUntilReset (secs 3600) c.now) .perHour))
  else
    let minute := minute.add c.record.toNat
    let hour := hour.add c.record.toNat
    (⟨minute, hour⟩, do
      return .allowed (← checkedSub c.config.requestsPerMinute minute.count)
        (← checkedSub c.config.requestsPerHour hour.count))

/-- The windows of every key that was asked for. -/
abbrev RateLimiter := Table (String × String) ToolRateLimitState

namespace RateLimiter

variable (limiter : RateLimiter) (c : RateCall)

/-- The windows of the call's key, new ones if there are none. -/
def entry : ToolRateLimitState := (limiter.lookup c.key).getD (.new c.now)

def check : Option RateLimitResult := ((limiter.entry c).check c).2

def step : RateLimiter := limiter.insert c.key ((limiter.entry c).check c).1

/-- The calls with their outcomes. -/
def results (calls : List RateCall) : List (RateCall × Option RateLimitResult) :=
  outputs step (fun limiter c => [(c, limiter.check c)]) ∅ calls

variable (key : String × String)

/-- The time of a call of `key` that is recorded. -/
def recordedAt (limiter : RateLimiter) (c : RateCall) : List Nat :=
  if c.key = key ∧ c.record ∧ (limiter.check c).any (·.isAllowed) then [c.now] else []

/-- The times of the calls of `key` that were allowed. -/
def allowedTimes (calls : List RateCall) : List Nat := outputs step (recordedAt key) ∅ calls

end RateLimiter

/-! ## One window -/

/-- The window after the calls of `log`. -/
structure WindowState.Fits (duration limit : Nat) (log : List Nat) (now : Nat)
    (w : WindowState) : Prop where
  started : w.windowStart ≤ now
  inside : ∀ t ∈ log, t < w.windowStart + duration
  counted : log.countP (w.windowStart ≤ ·) = w.count
  within : w.count ≤ limit
  before : log.countP (fun t => t < w.windowStart ∧ w.windowStart ≤ t + duration) ≤ limit
  bounded : ∀ a, log.countP (fun t => a ≤ t ∧ t ≤ a + duration) ≤ 2 * limit

theorem countP_le_add {p q r : Nat → Bool} (h : ∀ t, p t = true → q t = true ∨ r t = true)
    (l : List Nat) : l.countP p ≤ l.countP q + l.countP r := by
  induction l with
  | nil => simp
  | cons t =>
    simp only [countP_cons]
    have ht := h t
    cases hp : p t with
    | false => simp; omega
    | true => rcases ht hp with ht | ht <;> simp [ht] <;> omega

namespace WindowState.Fits

variable {duration limit now : Nat} {log : List Nat} {w : WindowState}

theorem later (h : w.Fits duration limit log now) {now' : Nat} (hnow : now ≤ now') :
    w.Fits duration limit log now' :=
  { h with started := h.started.trans hnow }

/-- A window that starts before any call. -/
theorem fresh (duration limit now : Nat) : WindowState.Fits duration limit [] now ⟨now, 0⟩ where
  started := Nat.le_refl _
  inside := by simp
  counted := rfl
  within := Nat.zero_le _
  before := Nat.zero_le _
  bounded _ := Nat.zero_le _

theorem reset (h : w.Fits duration limit log now) (_ : 0 < duration) :
    (w.maybeReset duration now).Fits duration limit log now := by
  have hstarted := h.started
  rw [maybeReset]
  split
  · refine ⟨Nat.le_refl _, ?_, ?_, Nat.zero_le _, ?_, h.bounded⟩
    · intro t ht
      have := h.inside t ht
      simp only
      omega
    · rw [countP_eq_zero]
      intro t ht
      have := h.inside t ht
      simp
      omega
    · -- what is within the length of the window from now is in the window that ends
      have hmono : log.countP (fun t => t < now ∧ now ≤ t + duration)
          ≤ log.countP (w.windowStart ≤ ·) :=
        countP_mono_left (by simp; omega)
      have := h.counted
      have := h.within
      simp only
      omega
  · exact h

theorem record (h : w.Fits duration limit log now) (hcount : w.count < limit)
    (hopen : now < w.windowStart + duration) :
    (w.add 1).Fits duration limit (log ++ [now]) now where
  started := h.started
  inside t ht := by
    rcases mem_append.mp ht with ht | ht
    · exact h.inside t ht
    rw [mem_singleton.mp ht]
    exact hopen
  counted := by
    have hcounted := h.counted
    simp [add, h.started]
    exact hcounted
  within := hcount
  before := by
    have hnew : ¬ (now < w.windowStart ∧ w.windowStart ≤ now + duration) := by
      have := h.started
      omega
    rw [countP_append, countP_singleton, if_neg (by simpa only [decide_eq_true_eq])]
    exact h.before
  bounded a := by
    have hstarted := h.started
    have hbounded := h.bounded a
    rw [countP_append, countP_singleton]
    split
    · rename_i hnow
      simp at hnow
      have hsplit : log.countP (fun t => a ≤ t ∧ t ≤ a + duration)
          ≤ log.countP (w.windowStart ≤ ·)
            + log.countP (fun t => t < w.windowStart ∧ w.windowStart ≤ t + duration) :=
        countP_le_add (by simp; omega) log
      have := h.counted
      have := h.before
      omega
    · omega

end WindowState.Fits

theorem WindowState.maybeReset_open (w : WindowState) {duration : Nat} (hpos : 0 < duration)
    (now : Nat) : now < (w.maybeReset duration now).windowStart + duration := by
  rw [maybeReset]
  split
  · simp only
    omega
  · omega

/-- Both windows of a key after the calls of `log`. -/
def ToolRateLimitState.Fits (minuteLimit hourLimit : Nat) (log : List Nat) (now : Nat)
    (tool : ToolRateLimitState) : Prop :=
  tool.minuteWindow.Fits (secs 60) minuteLimit log now
    ∧ tool.hourWindow.Fits (secs 3600) hourLimit log now

namespace ToolRateLimitState

variable {tool : ToolRateLimitState} {c : RateCall} {minuteLimit hourLimit now : Nat}
  {log : List Nat}

theorem Fits.later (h : tool.Fits minuteLimit hourLimit log now) {now' : Nat} (hnow : now ≤ now') :
    tool.Fits minuteLimit hourLimit log now' :=
  ⟨h.1.later hnow, h.2.later hnow⟩

theorem check_isSome (tool : ToolRateLimitState) (c : RateCall) : (tool.check c).2.isSome := by
  rw [check]
  split
  · rfl
  split
  · rfl
  rename_i hminute hhour
  simp [WindowState.add, checkedSub_add (Nat.not_le.mp hminute),
    checkedSub_add (Nat.not_le.mp hhour)]

theorem check_fits (h : tool.Fits minuteLimit hourLimit log c.now)
    (hminute : c.config.requestsPerMinute ≤ minuteLimit)
    (hhour : c.config.requestsPerHour ≤ hourLimit) :
    (tool.check c).1.Fits minuteLimit hourLimit
      (log ++ if c.record ∧ (tool.check c).2.any (·.isAllowed) then [c.now] else []) c.now := by
  have hm := h.1.reset (by decide)
  have hh := h.2.reset (by decide)
  rw [check]
  split
  · simpa [RateLimitResult.isAllowed] using ⟨hm, hh⟩
  split
  · simpa [RateLimitResult.isAllowed] using ⟨hm, hh⟩
  rename_i hminuteLeft hhourLeft
  cases hrecord : c.record with
  | false => simpa [WindowState.add] using ⟨hm, hh⟩
  | true =>
    have hminuteOpen := tool.minuteWindow.maybeReset_open (by decide : 0 < secs 60) c.now
    have hhourOpen := tool.hourWindow.maybeReset_open (by decide : 0 < secs 3600) c.now
    have hallowed := checkedSub_add (Nat.not_le.mp hminuteLeft) true
    have hallowed' := checkedSub_add (Nat.not_le.mp hhourLeft) true
    simp [WindowState.add, RateLimitResult.isAllowed] at hallowed hallowed' ⊢
    simp [hallowed, hallowed']
    exact ⟨hm.record (by omega) hminuteOpen, hh.record (by omega) hhourOpen⟩

end ToolRateLimitState

/-! ## Runs -/

namespace RateLimiter

/-- The windows of `key`, kept or new, as a later call finds them. -/
def Fits (key : String × String) (minuteLimit hourLimit now : Nat) (limiter : RateLimiter)
    (log : List Nat) : Prop :=
  ∀ now' ≥ now, ((limiter.lookup key).getD (.new now')).Fits minuteLimit hourLimit log now'

variable {key : String × String} {minuteLimit hourLimit now : Nat} {limiter : RateLimiter}
  {log : List Nat} {c : RateCall}

theorem lookup_step_of_ne (h : c.key ≠ key) : (limiter.step c).lookup key = limiter.lookup key :=
  AList.lookup_insert_ne (Ne.symm h)

section

variable (h : limiter.Fits key minuteLimit hourLimit now log)

include h

theorem Fits.step (hnow : now ≤ c.now)
    (hminute : c.key = key → c.config.requestsPerMinute ≤ minuteLimit)
    (hhour : c.key = key → c.config.requestsPerHour ≤ hourLimit) :
    (limiter.step c).Fits key minuteLimit hourLimit c.now (log ++ recordedAt key limiter c) := by
  intro now' hnow'
  by_cases hkey : c.key = key
  · subst hkey
    have hfits := ToolRateLimitState.check_fits (h c.now hnow) (hminute rfl) (hhour rfl)
    simpa [RateLimiter.step, recordedAt, RateLimiter.check, entry] using hfits.later hnow'
  · simpa [lookup_step_of_ne hkey, recordedAt, hkey] using h now' (hnow.trans hnow')

theorem Fits.run {calls : List RateCall}
    (hnow : ∀ c ∈ calls, now ≤ c.now) (hsorted : calls.Pairwise (·.now ≤ ·.now))
    (hminute : ∀ c ∈ calls, c.key = key → c.config.requestsPerMinute ≤ minuteLimit)
    (hhour : ∀ c ∈ calls, c.key = key → c.config.requestsPerHour ≤ hourLimit) :
    ∃ now', Fits key minuteLimit hourLimit now' (run RateLimiter.step limiter calls)
      (log ++ outputs RateLimiter.step (recordedAt key) limiter calls) := by
  induction calls generalizing limiter log now with
  | nil => exact ⟨now, by simpa [outputs] using h⟩
  | cons c _ ih =>
    have hnext := h.step (hnow c (by simp)) (hminute c (by simp)) (hhour c (by simp))
    have hrest := pairwise_cons.mp hsorted
    rw [run_cons, outputs, ← append_assoc]
    exact ih hnext hrest.1 hrest.2 (fun c' hc' => hminute c' (by simp [hc']))
      (fun c' hc' => hhour c' (by simp [hc']))

end

theorem results_filter (limiter limiter' : RateLimiter)
    (h : limiter.lookup key = limiter'.lookup key)
    (calls : List RateCall) :
    (outputs step (fun limiter c => [(c, limiter.check c)]) limiter calls).filter (·.1.key = key)
      = outputs step (fun limiter c => [(c, limiter.check c)]) limiter'
        (calls.filter (·.key = key)) := by
  induction calls generalizing limiter limiter' with
  | nil => rfl
  | cons c _ ih =>
    by_cases hkey : c.key = key
    · have hentry : limiter.entry c = limiter'.entry c := by rw [entry, entry, hkey, h]
      have hafter : (limiter.step c).lookup key = (limiter'.step c).lookup key := by
        simp [step, hkey, hentry]
      have hsame : limiter.check c = limiter'.check c := by rw [check, check, hentry]
      simp [outputs, hkey, ih _ _ hafter, hsame]
    · simp [outputs, hkey, ih _ _ ((lookup_step_of_ne hkey).trans h)]

/-- **The limiter's bounds**: with the calls in the order of their times, twice the limit in
any stretch as long as a window, no underflow, and every key on its own. -/
theorem allowed_calls_bounded (calls : List RateCall) (hsorted : calls.Pairwise (·.now ≤ ·.now))
    (key : String × String) (minuteLimit hourLimit : Nat)
    (hminute : ∀ c ∈ calls, c.key = key → c.config.requestsPerMinute ≤ minuteLimit)
    (hhour : ∀ c ∈ calls, c.key = key → c.config.requestsPerHour ≤ hourLimit) :
    (∀ a, (allowedTimes key calls).countP (fun t => a ≤ t ∧ t ≤ a + secs 60) ≤ 2 * minuteLimit)
    ∧ (∀ a, (allowedTimes key calls).countP (fun t => a ≤ t ∧ t ≤ a + secs 3600) ≤ 2 * hourLimit)
    ∧ (∀ (limiter : RateLimiter) c, (limiter.check c).isSome)
    ∧ (results calls).filter (·.1.key = key) = results (calls.filter (·.key = key)) := by
  have hfresh : Fits key minuteLimit hourLimit 0 ∅ [] := fun now' _ => ⟨.fresh _ _ _, .fresh _ _ _⟩
  obtain ⟨now, hfits⟩ := hfresh.run (by simp) hsorted hminute hhour
  have hend := hfits now (Nat.le_refl _)
  exact ⟨hend.1.bounded, hend.2.bounded, fun limiter c => (limiter.entry c).check_isSome c,
    results_filter _ _ rfl calls⟩

/-- Two calls within a minute where one a minute is allowed, at its ends. -/
theorem second_call_bounded :
    let calls := [0, 30, 60].map fun s => ⟨"alice", "fetch", ⟨1, 5⟩, secs s, true⟩
    (allowedTimes ("alice", "fetch") calls).countP (fun t => 0 ≤ t ∧ t ≤ 0 + secs 60) ≤ 2
      ∧ allowedTimes ("alice", "fetch") calls = [0, secs 60] :=
  ⟨(allowed_calls_bounded _ (by decide) _ 1 5 (by decide) (by decide)).1 0, by decide⟩

end RateLimiter

end TitanClaw.Tools.Wasm
