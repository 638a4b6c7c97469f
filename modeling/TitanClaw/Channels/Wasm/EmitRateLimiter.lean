import TitanClaw.Lib.Run

/-! # The rate of emissions

A channel may emit so many messages in a minute and so many in an hour. Each window counts for
itself, also when the other denies the call. -/

namespace TitanClaw.Channels.Wasm

open List Run

structure EmitRateLimitConfig where
  messagesPerMinute : Nat
  messagesPerHour : Nat

structure RateWindow where
  count : Nat := 0
  windowStart : Nat := 0
  windowDurationMs : Nat

namespace RateWindow

variable (w : RateWindow) (now limit : Nat) (allowed : List Nat)

/-- The window at the time: a new one if it has expired. -/
def current : RateWindow :=
  if now - w.windowStart > w.windowDurationMs then { w with count := 0, windowStart := now } else w

def checkAndRecord : Bool × RateWindow :=
  let w := w.current now
  if w.count ≥ limit then (false, w) else (true, { w with count := w.count + 1 })

/-- It counts the allowed calls since its start. -/
def Counts : Prop := w.count = allowed.countP (w.windowStart ≤ ·)

/-- No allowed call is later than the clock or the end of the window. -/
def Spans : Prop :=
  w.windowStart ≤ now ∧ ∀ t ∈ allowed, t ≤ now ∧ t ≤ w.windowStart + w.windowDurationMs

variable {w now limit allowed} {before : Nat}

theorem fst_checkAndRecord :
    (w.checkAndRecord now limit).1 = decide ((w.current now).count < limit) := by
  grind [checkAndRecord]

theorem Spans.checkAndRecord (h : w.Spans before allowed) (hnow : before ≤ now) (ok : Bool) :
    (w.checkAndRecord now limit).2.Spans now (if ok then now :: allowed else allowed) := by
  grind [RateWindow.checkAndRecord, current, Spans]

/-- A call leaves the count right exactly if it is allowed where the window has room. -/
theorem Counts.checkAndRecord (h : w.Counts allowed) (hspans : w.Spans before allowed)
    (hnow : before ≤ now) (limit : Nat) :
    (w.current now).Counts allowed ∧ ∀ ok,
      (w.checkAndRecord now limit).2.Counts (if ok then now :: allowed else allowed)
        ↔ (w.checkAndRecord now limit).1 = ok := by
  obtain ⟨hstart, hall⟩ := hspans
  have hcounts : (w.current now).Counts allowed := by
    unfold current
    split
    · refine (countP_eq_zero.mpr fun t ht => ?_).symm
      have := hall t ht
      simp only [decide_eq_true_eq]
      omega
    · exact h
  have hle : (w.current now).windowStart ≤ now := by grind [current]
  refine ⟨hcounts, fun ok => ?_⟩
  unfold Counts at *
  unfold RateWindow.checkAndRecord
  cases ok <;> dsimp only <;> split <;> simp [hcounts, hle]

end RateWindow

structure ChannelEmitRateLimiter where
  config : EmitRateLimitConfig
  minuteWindow : RateWindow := { windowDurationMs := 60000 }
  hourWindow : RateWindow := { windowDurationMs := 3600000 }

def ChannelEmitRateLimiter.checkAndRecord (l : ChannelEmitRateLimiter) (now : Nat) :
    Bool × ChannelEmitRateLimiter :=
  let minute := l.minuteWindow.checkAndRecord now l.config.messagesPerMinute
  let hour := l.hourWindow.checkAndRecord now l.config.messagesPerHour
  (minute.1 && hour.1, { l with minuteWindow := minute.2, hourWindow := hour.2 })

/-- A limiter after its last call, with the times of the calls it allowed. -/
structure Emissions extends ChannelEmitRateLimiter where
  now : Nat
  allowed : List Nat := []

namespace Emissions

variable (s : Emissions) (delay : Nat)

def next : Emissions :=
  let now := s.now + delay
  let r := s.checkAndRecord now
  ⟨r.2, now, if r.1 then now :: s.allowed else s.allowed⟩

/-- Either both windows have room for the next call or none has. -/
def Agree : Prop :=
  (s.minuteWindow.current (s.now + delay)).count < s.config.messagesPerMinute
    ↔ (s.hourWindow.current (s.now + delay)).count < s.config.messagesPerHour

/-- No denied call is counted. -/
def Fair : Prop := s.minuteWindow.Counts s.allowed ∧ s.hourWindow.Counts s.allowed

/-- If the next call is denied, as many as may be were allowed in its minute or its hour. -/
def Justified : Prop :=
  (s.checkAndRecord (s.now + delay)).1 = false →
    s.config.messagesPerMinute
        ≤ s.allowed.countP ((s.minuteWindow.current (s.now + delay)).windowStart ≤ ·)
      ∨ s.config.messagesPerHour
        ≤ s.allowed.countP ((s.hourWindow.current (s.now + delay)).windowStart ≤ ·)

def Spans : Prop := s.minuteWindow.Spans s.now s.allowed ∧ s.hourWindow.Spans s.now s.allowed

variable {s delay}

theorem Spans.next (h : s.Spans) : (s.next delay).Spans :=
  ⟨h.1.checkAndRecord (Nat.le_add_right ..) _, h.2.checkAndRecord (Nat.le_add_right ..) _⟩

theorem Fair.next_iff (hspans : s.Spans) (h : s.Fair) :
    s.Justified delay ∧ ((s.next delay).Fair ↔ s.Agree delay) := by
  have hnow := Nat.le_add_right s.now delay
  have hminute := h.1.checkAndRecord hspans.1 hnow s.config.messagesPerMinute
  have hhour := h.2.checkAndRecord hspans.2 hnow s.config.messagesPerHour
  constructor
  · rw [Justified, ← hminute.1, ← hhour.1, ChannelEmitRateLimiter.checkAndRecord]
    grind [RateWindow.fst_checkAndRecord]
  · simp only [Fair, next, ChannelEmitRateLimiter.checkAndRecord, hminute.2, hhour.2, Agree,
      RateWindow.fst_checkAndRecord]
    grind

/-- **Denied calls use up no budget** in a run exactly if at each call both windows have room
or none has. -/
theorem emissions_fair_iff (config : EmitRateLimitConfig) (start : Nat) (delays : List Nat) :
    let s : Emissions := { config, now := start }
    (∀ pre, pre <+: delays → (run next s pre).Fair ∧ ∀ delay, (run next s pre).Justified delay)
      ↔ Guarded next Agree s delays := by
  intro s
  have hspans : s.Spans := by simp [s, Spans, RateWindow.Spans]
  have hfair : s.Fair := by simp [s, Fair, RateWindow.Counts]
  rw [← reached_iff_guarded_of_aux (fun _ _ => Spans.next)
    (fun _ _ haux h => (h.next_iff haux).2) hspans hfair]
  refine ⟨fun h pre hpre => (h pre hpre).1, fun h pre hpre => ⟨h pre hpre, fun delay => ?_⟩⟩
  exact ((h pre hpre).next_iff (invariant_always (fun _ _ => Spans.next) hspans pre)).1

/-- The second of two calls in a minute is denied, and counted in the hour, which then has no
room for a second allowed one. -/
theorem denied_call_counts :
    let s := run next { config := ⟨1, 2⟩, now := 0 } [100000, 0]
    s.allowed = [100000] ∧ s.hourWindow.count = 2 ∧ ¬ s.Justified 100000 := by
  refine ⟨rfl, rfl, fun h => ?_⟩
  exact absurd (h rfl) (by decide)

end Emissions

end TitanClaw.Channels.Wasm
