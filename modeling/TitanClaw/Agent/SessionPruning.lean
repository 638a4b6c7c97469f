import TitanClaw.Agent.SessionStore

/-! # Pruning of idle sessions

Resolving a thread is activity of its user, and pruning removes the users without
activity. But only a call that does not find its thread writes the time down: a
user who keeps to one thread looks idle. -/

namespace TitanClaw.Agent

open List AList Table SessionStore Run

/-- A call of the past that resolved a thread, and whether the thread was there. -/
structure Resolved where
  userId : String
  time : Int
  found : Bool
  deriving DecidableEq

/-- The store, with the time of the latest call. What was resolved is a record that
no step reads. -/
structure SessionLog where
  store : SessionStore := {}
  clock : Int
  resolved : List Resolved := []

namespace SessionLog

open SessionStore (DateRange cutoff)

inductive Call where
  | resolve (key : ThreadKey) (now : Int) (newId : String)
  | prune (maxIdle : Nat) (now : Int) (contended contendedLater : String → Bool)

def Call.time : Call → Int
  | .resolve _ now _ => now
  | .prune _ now _ _ => now

variable (dates : DateRange)

def step (parseUuid : String → Option String) (m : SessionLog) : Call → SessionLog
  | .resolve key now newId =>
      { store := (m.store.resolveThread parseUuid key now newId).1
        clock := now
        resolved := ⟨key.userId, now, m.store.finds key⟩ :: m.resolved }
  | .prune maxIdle now contended contendedLater =>
      { m with
        store := (m.store.pruneStaleSessions dates maxIdle now contended contendedLater).1
        clock := now }

variable (m : SessionLog)

/-- The clock does not go back. -/
def InOrder (call : Call) : Prop := m.clock ≤ call.time

def KeepsUser (userId : String) (s s' : SessionStore) : Prop :=
  s'.sessions.lookup userId = s.sessions.lookup userId
    ∧ ∀ key : ThreadKey, key.userId = userId → s'.threadMap key = s.threadMap key

/-- A pruning keeps the session and the mappings of every user who had a thread
resolved not longer ago than the idle time. -/
def Keeps : Call → Prop
  | .resolve _ _ _ => True
  | .prune maxIdle now contended contendedLater =>
      ∀ r ∈ m.resolved, now - r.time ≤ maxIdle →
        KeepsUser r.userId m.store
          (m.store.pruneStaleSessions dates maxIdle now contended contendedLater).1

/-- At a pruning, each of these users has no session, or it is in use, or it was
refreshed not before the cutoff: a call of theirs did not find its thread. -/
def RefreshedInTime : Call → Prop
  | .resolve _ _ _ => True
  | .prune maxIdle now contended _ =>
      ∀ date, cutoff dates now maxIdle = some date →
        ∀ r ∈ m.resolved, now - r.time ≤ maxIdle →
          m.store.sessions.lookup r.userId = none ∨ contended r.userId = true
            ∨ ∃ r' ∈ m.resolved, r'.userId = r.userId ∧ r'.found = false ∧ date ≤ r'.time

/-! ## The time a session carries -/

/-- A session was last active when a call of its user last missed its thread. -/
structure Dated (m : SessionLog) : Prop where
  past : ∀ r ∈ m.resolved, r.time ≤ m.clock
  made : ∀ userId ref, m.store.sessions.lookup userId = some ref →
    ∃ n, ref = .made n ∧ n < m.store.nextSession
  owner : ∀ userId userId' ref, m.store.sessions.lookup userId = some ref →
    m.store.sessions.lookup userId' = some ref → userId = userId'
  latest : ∀ userId ref, m.store.sessions.lookup userId = some ref →
    ∀ r ∈ m.resolved, r.userId = userId → r.found = false → r.time ≤ (m.store.heap ref).lastActiveAt
  missed : ∀ userId ref, m.store.sessions.lookup userId = some ref →
    ∃ r ∈ m.resolved, r.userId = userId ∧ r.found = false ∧ r.time = (m.store.heap ref).lastActiveAt

theorem dated_start (clock : Int) : Dated { clock } := by
  refine ⟨fun r hr => ?_, fun userId ref h => ?_, fun userId userId' ref h => ?_,
    fun userId ref h => ?_, fun userId ref h => ?_⟩
  · cases hr
  all_goals cases h

section Steps

variable {m : SessionLog} {dates : DateRange} {parseUuid : String → Option String}
  {key : ThreadKey} {now : Int} {newId : String}

/-- A call that finds its thread leaves nothing but its record. -/
theorem Dated.found (h : m.Dated) (hclock : m.clock ≤ now) (r : Resolved)
    (hfound : r.found = true) (hnow : r.time = now) :
    Dated { m with clock := now, resolved := r :: m.resolved } where
  past := forall_mem_cons.mpr ⟨hnow.le, fun r' hr' => (h.past r' hr').trans hclock⟩
  made := h.made
  owner := h.owner
  latest userId ref href := by
    refine forall_mem_cons.mpr ⟨fun _ hmissed => ?_, h.latest userId ref href⟩
    rw [hfound] at hmissed
    cases hmissed
  missed userId ref href := by
    obtain ⟨r', hr', hrest⟩ := h.missed userId ref href
    exact ⟨r', mem_cons_of_mem _ hr', hrest⟩

theorem Dated.of_missed {store : SessionStore} {userId : String} (h : m.Dated)
    (hclock : m.clock ≤ now) (hstep : Missed userId now m.store store) :
    Dated { store, clock := now, resolved := ⟨userId, now, false⟩ :: m.resolved } := by
  obtain ⟨⟨ref, hnow, hactive, hfrom, hheap⟩, hothers⟩ := hstep
  -- nobody else has the session of this user
  have hapart : ∀ other ref', other ≠ userId → m.store.sessions.lookup other = some ref' →
      ref' ≠ ref := by
    rintro other ref' hne hother rfl
    rcases hfrom with ⟨hold, -⟩ | ⟨-, rfl, -⟩
    · exact hne (h.owner other userId _ hother hold)
    obtain ⟨n, hn, hlt⟩ := h.made other _ hother
    cases hn
    exact lt_irrefl _ hlt
  have hnext : m.store.nextSession ≤ store.nextSession := by
    rcases hfrom with ⟨-, hsame⟩ | ⟨-, -, hmore⟩ <;> omega
  have hcases : ∀ other ref', store.sessions.lookup other = some ref' →
      other = userId ∧ ref' = ref
        ∨ other ≠ userId ∧ m.store.sessions.lookup other = some ref' ∧ ref' ≠ ref := by
    intro other ref' href
    by_cases hother : other = userId
    · rw [hother, hnow] at href
      exact .inl ⟨hother, (Option.some.inj href).symm⟩
    · rw [hothers other hother] at href
      exact .inr ⟨hother, href, hapart other ref' hother href⟩
  refine ⟨?_, ?_, ?_, ?_, ?_⟩
  · exact forall_mem_cons.mpr ⟨le_refl now, fun r hr => (h.past r hr).trans hclock⟩
  · intro other ref' href
    have hold : m.store.sessions.lookup other = some ref' →
        ∃ n, ref' = .made n ∧ n < store.nextSession := fun href => by
      obtain ⟨n, hn, hlt⟩ := h.made other ref' href
      exact ⟨n, hn, hlt.trans_le hnext⟩
    rcases hcases other ref' href with ⟨rfl, rfl⟩ | ⟨-, href, -⟩
    · rcases hfrom with ⟨hbefore, -⟩ | ⟨-, rfl, hmore⟩
      · exact hold hbefore
      · exact ⟨_, rfl, (Nat.lt_succ_self _).trans_eq hmore.symm⟩
    · exact hold href
  · intro other other' ref' href href'
    rcases hcases other ref' href with ⟨rfl, rfl⟩ | ⟨-, href, hne⟩ <;>
      rcases hcases other' _ href' with ⟨rfl, heq⟩ | ⟨-, href', hne'⟩
    · rfl
    · exact absurd rfl hne'
    · exact absurd heq hne
    · exact h.owner other other' ref' href href'
  · intro other ref' href
    rcases hcases other ref' href with ⟨rfl, rfl⟩ | ⟨hother, href, hne⟩
    · rw [hactive]
      exact forall_mem_cons.mpr ⟨fun _ _ => le_refl now, fun r hr _ _ => (h.past r hr).trans hclock⟩
    · rw [hheap ref' hne]
      refine forall_mem_cons.mpr ⟨fun heq _ => absurd heq.symm hother, ?_⟩
      exact h.latest other ref' href
  · intro other ref' href
    rcases hcases other ref' href with ⟨rfl, rfl⟩ | ⟨-, href, hne⟩
    · exact ⟨_, mem_cons_self, rfl, rfl, hactive.symm⟩
    rw [hheap ref' hne]
    obtain ⟨r, hr, hrest⟩ := h.missed other ref' href
    exact ⟨r, mem_cons_of_mem _ hr, hrest⟩

theorem Dated.of_sub {sessions : Table String SessionRef} {threadMap : ThreadKey → Option String}
    {undoManagers : String → Option UndoManager} (h : m.Dated) (hclock : m.clock ≤ now)
    (hsub : Table.Sub sessions m.store.sessions) :
    Dated { m with store := { m.store with sessions, threadMap, undoManagers }, clock := now } where
  past r hr := (h.past r hr).trans hclock
  made userId ref href := h.made userId ref (hsub userId ref href)
  owner userId userId' ref href href' :=
    h.owner userId userId' ref (hsub userId ref href) (hsub userId' ref href')
  latest userId ref href := h.latest userId ref (hsub userId ref href)
  missed userId ref href := h.missed userId ref (hsub userId ref href)

theorem step_dated (dates : DateRange) (parseUuid : String → Option String) (m : SessionLog)
    (call : Call) (h : m.Dated) (hclock : m.InOrder call) :
    (m.step dates parseUuid call).Dated := by
  cases call with
  | resolve key now =>
    rw [step]
    cases hfinds : m.store.finds key with
    | true =>
      rw [resolveThread_of_finds hfinds]
      exact h.found hclock ⟨key.userId, now, true⟩ rfl rfl
    | false => exact h.of_missed hclock (resolveThread_missed hfinds)
  | prune maxIdle now =>
    rw [step, pruneStaleSessions]
    cases cutoff dates now maxIdle with
    | none => exact h.of_sub hclock (Table.Sub.refl m.store.sessions)
    | some => exact h.of_sub hclock (retain_sub _ _)

end Steps

section Pruning

variable {s : SessionStore} {contended contendedLater : String → Bool} {date now : Int}
  {userId : String} {dates : DateRange} {maxIdle : Nat}

theorem mem_staleUsers :
    userId ∈ s.staleUsers contended date ↔ contended userId = false
      ∧ ∃ ref, s.sessions.lookup userId = some ref ∧ (s.heap ref).lastActiveAt < date := by
  simp only [staleUsers, mem_map, mem_filter, Bool.and_eq_true,
    Bool.not_eq_true', decide_eq_true_eq]
  constructor
  · rintro ⟨⟨user, ref⟩, ⟨hmem, hfree, hold⟩, rfl⟩
    exact ⟨hfree, ref, mem_lookup_iff.mpr hmem, hold⟩
  · rintro ⟨hfree, ref, hlookup, hold⟩
    exact ⟨⟨userId, ref⟩, ⟨mem_lookup_iff.mp hlookup, hfree, hold⟩, rfl⟩

/-- With a cutoff, exactly the stale users lose their session. -/
theorem prune_keeps_user_iff (hdate : cutoff dates now maxIdle = some date) :
    KeepsUser userId s (s.pruneStaleSessions dates maxIdle now contended contendedLater).1
      ↔ userId ∉ s.staleUsers contended date := by
  simp only [KeepsUser, pruneStaleSessions, hdate]
  by_cases hstale : userId ∈ s.staleUsers contended date
  · -- a stale user had a session, and has none any more
    obtain ⟨-, ref, hlookup, -⟩ := mem_staleUsers.mp hstale
    have hgone := lookup_retain_of_neg (t := s.sessions) (k := userId)
      (p := fun userId _ => !(s.staleUsers contended date).contains userId) (by simp [hstale])
    rw [hgone, hlookup]
    simp [hstale]
  · have hkept := lookup_retain_of_pos (t := s.sessions) (k := userId)
      (p := fun userId _ => !(s.staleUsers contended date).contains userId) (by simp [hstale])
    rw [hkept]
    refine ⟨fun _ => hstale, fun _ => ⟨rfl, fun key hkey => ?_⟩⟩
    simp [hkey, hstale]

theorem not_stale_iff {m : SessionLog} (h : m.Dated) :
    userId ∉ m.store.staleUsers contended date
      ↔ m.store.sessions.lookup userId = none ∨ contended userId = true
        ∨ ∃ r' ∈ m.resolved, r'.userId = userId ∧ r'.found = false ∧ date ≤ r'.time := by
  rw [mem_staleUsers]
  cases hlookup : m.store.sessions.lookup userId with
  | none => simp
  | some ref =>
    obtain ⟨r, hr, huser, hmissed, htime⟩ := h.missed userId ref hlookup
    by_cases hfree : contended userId = true
    · simp [hfree]
    simp only [hfree, Option.some.injEq, exists_eq_left', reduceCtorEq, false_or, true_and,
      not_lt, Bool.false_eq_true]
    constructor
    · intro hlate
      exact ⟨r, hr, huser, hmissed, htime ▸ hlate⟩
    · rintro ⟨r', hr', huser', hmissed', hlate⟩
      exact hlate.trans (h.latest userId ref hlookup r' hr' huser' hmissed')

theorem keeps_iff {m : SessionLog} (h : m.Dated) (call : Call) :
    m.Keeps dates call ↔ m.RefreshedInTime dates call := by
  cases call with
  | resolve => exact Iff.rfl
  | prune maxIdle now =>
    rw [Keeps, RefreshedInTime]
    cases hdate : cutoff dates now maxIdle with
    | none =>
      -- the call panics before it changes anything
      simp [pruneStaleSessions, hdate, KeepsUser]
    | some =>
      simp only [Option.some.injEq, forall_eq']
      refine forall₃_congr fun r _ _ => ?_
      rw [← not_stale_iff h]
      exact prune_keeps_user_iff hdate

end Pruning

/-- Over a run with a clock that does not go back, every pruning keeps the users of
the idle time exactly if each of them had a session refreshed in time. -/
theorem run_keeps_iff (parseUuid : String → Option String) (start : Int) (calls : List Call)
    (hclock : Guarded (step dates parseUuid) InOrder { clock := start } calls) :
    (∀ pre call, pre ++ [call] <+: calls →
        (run (step dates parseUuid) { clock := start } pre).Keeps dates call)
      ↔ Guarded (step dates parseUuid) (RefreshedInTime dates) { clock := start } calls := by
  rw [guarded_iff]
  refine forall₃_congr fun pre call hpre => ?_
  have hstep : ∀ (m : SessionLog) (call : Call), m.Dated → m.InOrder call →
      (m.step dates parseUuid call).Dated := step_dated dates parseUuid
  have hreached : pre <+: calls := (prefix_append pre [call]).trans hpre
  exact keeps_iff (invariant_reached hstep (dated_start start) hclock hreached) call

/-! ## A user of one thread -/

def calendar : DateRange := ⟨-8334601228800000000000, 8210266876799999999999⟩

def day : Int := 86400000000000

def anyUuid (s : String) : Option String := if s.length = 36 then some s else none

def mainThread : ThreadKey := ⟨"alice", "telegram", some "main"⟩

def noneInUse (_ : String) : Bool := false

theorem fresh_session_kept :
    (run (step calendar anyUuid) { clock := 0 } [.resolve mainThread 0 "t"]).Keeps calendar
      (.prune 604800000000000 day noneInUse noneInUse) := by
  refine (run_keeps_iff calendar anyUuid 0
    [.resolve mainThread 0 "t", .prune 604800000000000 day noneInUse noneInUse] ?_).mpr ?_ _ _
    (prefix_refl _)
  · exact ⟨le_refl 0, (by decide : (0 : Int) ≤ day), trivial⟩
  · refine ⟨trivial, ?_, trivial⟩
    intro date hdate r hr _
    obtain rfl := mem_singleton.mp hr
    have hday : cutoff calendar day 604800000000000 = some (-6 * day) := by decide
    cases hdate
    decide

/-- Alice used her thread on the first day and on the sixth. On the eighth her
session is pruned, with seven days of idle time allowed. -/
theorem busy_user_pruned : ¬ (run (step calendar anyUuid) { clock := 0 }
        [.resolve mainThread 0 "t", .resolve mainThread (6 * day) "t2"]).Keeps calendar
      (.prune 604800000000000 (8 * day) noneInUse noneInUse) := by
  intro h
  have hkept := (h ⟨"alice", 6 * day, true⟩ (by decide) (by decide)).1
  revert hkept
  decide

end SessionLog

end TitanClaw.Agent
