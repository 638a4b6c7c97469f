import TitanClaw.Agent.SessionManager
import TitanClaw.Lib.Table

/-! # The session store

The session manager once more, at the grain of its locks: a session is shared by
all who hold a reference to it, and each function is a sequence of sections under
one lock or another. Here the sections are put together to whole calls, and a
session carries the time it was last active, by which it is pruned. Times are
nanoseconds of the wall clock. -/

namespace TitanClaw.Agent

open Function AList

/-- A shared session: one the manager made, or one that a caller brought along. -/
inductive SessionRef where
  | made (n : Nat)
  | brought (n : Nat)
  deriving DecidableEq

structure Session where
  threads : String → Option Thread := fun _ => none
  activeThread : Option String := none
  lastActiveAt : Int := 0

namespace Session

variable (sess : Session) (threadId : String)

def has : Bool := (sess.threads threadId).isSome

def insertThread : Session :=
  { sess with threads := update sess.threads threadId (some { id := threadId }) }

variable (now : Int)

def switchTo (threadId : String) : Session :=
  { sess with activeThread := some threadId, lastActiveAt := now }

def createThread (newId : String) : Session := (sess.insertThread newId).switchTo now newId

def createThreadWithId (threadId : String) : Session :=
  (if sess.has threadId then sess else sess.insertThread threadId).switchTo now threadId

end Session

structure SessionStore where
  sessions : Table String SessionRef := ∅
  heap : SessionRef → Session := fun _ => {}
  threadMap : ThreadKey → Option String := fun _ => none
  undoManagers : String → Option UndoManager := fun _ => none
  /-- The number of sessions made so far. -/
  nextSession : Nat := 0

namespace SessionStore

/-! ## Sections -/

variable (s : SessionStore) (ref : SessionRef)

def modify (f : Session → Session) : SessionStore :=
  { s with heap := update s.heap ref (f (s.heap ref)) }

variable (key : ThreadKey) (threadId : String)

def mapThread : SessionStore :=
  { s with threadMap := update s.threadMap key (some threadId) }

def ensureUndoManager : SessionStore :=
  { s with
    undoManagers := update s.undoManagers threadId (some ((s.undoManagers threadId).getD {})) }

variable (userId : String)

/-- Make a session for the user, unless another call has made one by now. -/
def createSession (now : Int) : SessionStore × SessionRef :=
  match s.sessions.lookup userId with
  | some ref => (s, ref)
  | none =>
      let ref := .made s.nextSession
      ({ s with
          sessions := s.sessions.insert userId ref
          heap := update s.heap ref { lastActiveAt := now }
          nextSession := s.nextSession + 1 },
        ref)

def mappedThread : Option String := (s.threadMap key).filter (s.heap ref).has

variable (parseUuid : String → Option String)

/-- Only the gateway's UUIDs are kept; other channels get a fresh one. -/
def createAndMapThread (s : SessionStore) (ref : SessionRef)
    (key : ThreadKey) (now : Int) (newId : String) : SessionStore × String :=
  let chosen := if key.channel = "gateway" then key.externalThreadId.bind parseUuid else none
  match chosen with
  | some uuid => ((s.modify ref (·.createThreadWithId now uuid)).mapThread key uuid, uuid)
  | none => ((s.modify ref (·.createThread now newId)).mapThread key newId, newId)

/-- The section under the write lock: look again, then make the thread. -/
def resolveSlow (s : SessionStore) (ref : SessionRef)
    (key : ThreadKey) (now : Int) (newId : String) : SessionStore × String :=
  match s.threadMap key with
  | some existing =>
      if (s.heap ref).has existing then (s.modify ref (·.switchTo now existing), existing)
      else
        { s with threadMap := update s.threadMap key none }.createAndMapThread parseUuid
          ref key now newId
  | none => s.createAndMapThread parseUuid ref key now newId

def registerMapping (threadId : String) (ref : SessionRef) : SessionStore :=
  match s.threadMap key with
  | some existing =>
      if existing ≠ threadId then
        if (s.heap ref).has existing then s else s.mapThread key threadId
      else s
  | none => s.mapThread key threadId

def trackSession (ref : SessionRef) : SessionStore :=
  match s.sessions.lookup userId with
  | some _ => s
  | none => { s with sessions := s.sessions.insert userId ref }

/-! ## Calls -/

def getOrCreateSession (now : Int) : SessionStore × SessionRef :=
  match s.sessions.lookup userId with
  | some ref => (s, ref)
  | none => s.createSession userId now

def resolveThread (s : SessionStore) (key : ThreadKey)
    (now : Int) (newId : String) : SessionStore × String :=
  let (s, ref) := s.getOrCreateSession key.userId now
  match s.mappedThread ref key with
  | some threadId => (s, threadId)
  | none =>
      let (s, threadId) := s.resolveSlow parseUuid ref key now newId
      (s.ensureUndoManager threadId, threadId)

/-- Is the thread mapped, and in the user's session? -/
def finds : Bool :=
  match s.sessions.lookup key.userId with
  | some ref => (s.mappedThread ref key).isSome
  | none => false

structure DateRange where
  earliest : Int
  latest : Int

/-- The cutoff of a pruning: whole seconds of the idle time, taken as a signed
number. `none` where the seconds or the date are out of range and the call panics. -/
def cutoff (dates : DateRange) (now : Int) (maxIdle : Nat) : Option Int :=
  let secs := (UInt64.ofNat (maxIdle / 1000000000)).toInt64.toInt
  if -9223372036854775 ≤ secs ∧ secs ≤ 9223372036854775 then
    let date := now - secs * 1000000000
    if dates.earliest ≤ date ∧ date ≤ dates.latest then some date else none
  else none

/-- Sessions last active before the cutoff, except those in use. -/
def staleUsers (contended : String → Bool) (date : Int) : List String :=
  (s.sessions.entries.filter fun e =>
    !contended e.1 && decide ((s.heap e.2).lastActiveAt < date)).map Sigma.fst

/-- Drop the stale sessions with their mappings and undo managers. Whether a session
is in use is asked twice. -/
def pruneStaleSessions (dates : DateRange) (s : SessionStore) (maxIdle : Nat) (now : Int)
    (contended contendedLater : String → Bool) : SessionStore × Nat :=
  match cutoff dates now maxIdle with
  | none => (s, 0)
  | some date =>
      let stale := s.staleUsers contended date
      let sessions := s.sessions.retain fun userId _ => !stale.contains userId
      let dropped threadId := stale.any fun userId =>
        !contendedLater userId
          && ((s.sessions.lookup userId).map fun ref => (s.heap ref).has threadId).getD false
      ({ s with
          sessions
          threadMap := fun key => if stale.contains key.userId then none else s.threadMap key
          undoManagers := fun threadId =>
            if dropped threadId then none else s.undoManagers threadId },
        s.sessions.entries.length - sessions.entries.length)

/-! ## What a call does to the times -/

section Sections

variable {parseUuid : String → Option String} {s : SessionStore} {ref : SessionRef}
  {key : ThreadKey} {now : Int} {newId : String}

/-- Only the session at `ref` changes, and it is active now. -/
structure Refreshes (ref : SessionRef) (now : Int) (s s' : SessionStore) : Prop where
  sessions : s'.sessions = s.sessions
  nextSession : s'.nextSession = s.nextSession
  lastActiveAt : (s'.heap ref).lastActiveAt = now
  others : ∀ other, other ≠ ref → s'.heap other = s.heap other

theorem modify_refreshes {f : Session → Session} (h : ∀ sess, (f sess).lastActiveAt = now) :
    Refreshes ref now s (s.modify ref f) := by
  refine ⟨rfl, rfl, ?_, fun other hne => update_of_ne hne _ _⟩
  show (update s.heap ref _ ref).lastActiveAt = now
  rw [update_self, h]

theorem Refreshes.mapThread {s' : SessionStore} {threadId : String}
    (h : Refreshes ref now s s') : Refreshes ref now s (s'.mapThread key threadId) :=
  ⟨h.sessions, h.nextSession, h.lastActiveAt, h.others⟩

theorem createAndMapThread_refreshes (s : SessionStore) :
    Refreshes ref now s (s.createAndMapThread parseUuid ref key now newId).1 := by
  simp only [createAndMapThread]
  split <;>
  · apply Refreshes.mapThread
    apply modify_refreshes
    intro sess
    rfl

theorem resolveSlow_refreshes (s : SessionStore) :
    Refreshes ref now s (s.resolveSlow parseUuid ref key now newId).1 := by
  simp only [resolveSlow]
  split
  · split
    · dsimp only
      apply modify_refreshes
      intro sess
      rfl
    · obtain ⟨hsessions, hnext, hactive, hothers⟩ := createAndMapThread_refreshes _
      exact ⟨hsessions, hnext, hactive, hothers⟩
  · exact createAndMapThread_refreshes s

theorem resolveThread_of_finds (h : s.finds key = true) :
    (s.resolveThread parseUuid key now newId).1 = s := by
  rw [finds] at h
  rw [resolveThread, getOrCreateSession]
  cases hlookup : s.sessions.lookup key.userId with
  | none => simp [hlookup] at h
  | some =>
    rw [hlookup] at h
    obtain ⟨threadId, hmapped⟩ := Option.isSome_iff_exists.mp h
    simp only [hmapped]

/-- A call that does not find its thread refreshes the user's session, or makes
one; the other sessions stay as they are. -/
structure Missed (userId : String) (now : Int) (s s' : SessionStore) : Prop where
  active : ∃ ref, s'.sessions.lookup userId = some ref ∧ (s'.heap ref).lastActiveAt = now
    ∧ (s.sessions.lookup userId = some ref ∧ s'.nextSession = s.nextSession
      ∨ s.sessions.lookup userId = none ∧ ref = .made s.nextSession
        ∧ s'.nextSession = s.nextSession + 1)
    ∧ ∀ other, other ≠ ref → s'.heap other = s.heap other
  others : ∀ other, other ≠ userId → s'.sessions.lookup other = s.sessions.lookup other

theorem createSession_of_none {userId : String} (h : s.sessions.lookup userId = none) :
    s.createSession userId now
      = ({ s with
            sessions := s.sessions.insert userId (.made s.nextSession)
            heap := update s.heap (.made s.nextSession) { lastActiveAt := now }
            nextSession := s.nextSession + 1 },
          .made s.nextSession) := by
  rw [createSession, h]

theorem mappedThread_of_new {now : Int} :
    { s with heap := update s.heap ref { lastActiveAt := now } }.mappedThread ref key = none := by
  simp only [mappedThread, update_self]
  exact Option.filter_eq_none_iff.mpr fun _ _ => Bool.false_ne_true

theorem resolveThread_missed (h : s.finds key = false) :
    Missed key.userId now s (s.resolveThread parseUuid key now newId).1 := by
  rw [finds] at h
  rw [resolveThread, getOrCreateSession]
  cases hlookup : s.sessions.lookup key.userId with
  | some ref =>
    rw [hlookup] at h
    have hmapped : s.mappedThread ref key = none := by simpa using h
    have hslow : Refreshes ref now s (s.resolveSlow parseUuid ref key now newId).1 :=
      resolveSlow_refreshes s
    simp only [hmapped]
    exact ⟨⟨ref, hslow.sessions ▸ hlookup, hslow.lastActiveAt,
      .inl ⟨hlookup, hslow.nextSession⟩, hslow.others⟩,
      fun other _ => congrArg (lookup other) hslow.sessions⟩
  | none =>
    simp only [createSession_of_none hlookup]
    generalize hmade : ({ s with
      sessions := s.sessions.insert key.userId (.made s.nextSession)
      heap := update s.heap (.made s.nextSession) { lastActiveAt := now }
      nextSession := s.nextSession + 1 } : SessionStore) = made
    have hmapped : made.mappedThread (.made s.nextSession) key = none := by
      rw [← hmade]
      exact mappedThread_of_new
    have hslow : Refreshes (.made s.nextSession) now made
        (made.resolveSlow parseUuid (.made s.nextSession) key now newId).1 :=
      resolveSlow_refreshes made
    simp only [hmapped]
    refine ⟨⟨.made s.nextSession, ?_, hslow.lastActiveAt, .inr ⟨hlookup, rfl, ?_⟩, ?_⟩, ?_⟩
    · show lookup key.userId (made.resolveSlow _ _ _ _ _).1.sessions = _
      rw [hslow.sessions, ← hmade, lookup_insert]
    · show (made.resolveSlow _ _ _ _ _).1.nextSession = _
      rw [hslow.nextSession, ← hmade]
    · intro other hne
      show (made.resolveSlow _ _ _ _ _).1.heap other = _
      rw [hslow.others other hne, ← hmade]
      exact update_of_ne hne _ _
    · intro other hne
      show lookup other (made.resolveSlow _ _ _ _ _).1.sessions = _
      rw [hslow.sessions, ← hmade, lookup_insert_ne hne]

end Sections

/-! ## The active thread -/

section Active

variable {parseUuid : String → Option String} {s s' : SessionStore} {ref : SessionRef}
  {key : ThreadKey} {now : Int} {newId : String}

def Active (s : SessionStore) (userId threadId : String) : Prop :=
  ∃ ref, s.sessions.lookup userId = some ref ∧ (s.heap ref).activeThread = some threadId

theorem createAndMapThread_active :
    ((s.createAndMapThread parseUuid ref key now newId).1.heap ref).activeThread
      = some (s.createAndMapThread parseUuid ref key now newId).2 := by
  simp only [createAndMapThread]
  split <;> simp [modify, mapThread, Session.createThreadWithId, Session.createThread,
    Session.switchTo]

theorem resolveSlow_active :
    ((s.resolveSlow parseUuid ref key now newId).1.heap ref).activeThread
      = some (s.resolveSlow parseUuid ref key now newId).2 := by
  simp only [resolveSlow]
  split
  · split
    · simp [modify, Session.switchTo]
    · exact createAndMapThread_active
  · exact createAndMapThread_active

theorem active_of_unmapped (hsession : s.getOrCreateSession key.userId now = (s', ref))
    (hlookup : s'.sessions.lookup key.userId = some ref) (hmapped : s'.mappedThread ref key = none) :
    (s.resolveThread parseUuid key now newId).1.Active key.userId
      (s.resolveThread parseUuid key now newId).2 := by
  simp only [resolveThread, hsession, hmapped]
  exact ⟨ref, (congrArg (lookup _) (resolveSlow_refreshes s').sessions).trans hlookup,
    resolveSlow_active⟩

/-- **A resolved thread is the active one** exactly if it was before, or was not found. -/
theorem resolveThread_active_iff (parseUuid : String → Option String) (s : SessionStore)
    (key : ThreadKey) (now : Int) (newId : String) :
    (s.resolveThread parseUuid key now newId).1.Active key.userId
        (s.resolveThread parseUuid key now newId).2
      ↔ ∀ ref ∈ s.sessions.lookup key.userId, ∀ threadId ∈ s.mappedThread ref key,
          (s.heap ref).activeThread = some threadId := by
  cases hlookup : s.sessions.lookup key.userId with
  | none =>
    have hsession : s.getOrCreateSession key.userId now = s.createSession key.userId now := by
      rw [getOrCreateSession, hlookup]
    refine iff_of_true (active_of_unmapped (hsession.trans (createSession_of_none hlookup)) ?_ ?_)
      (by simp)
    · exact lookup_insert _
    · exact mappedThread_of_new
  | some ref =>
    have hsession : s.getOrCreateSession key.userId now = (s, ref) := by
      rw [getOrCreateSession, hlookup]
    cases hmapped : s.mappedThread ref key with
    | none => exact iff_of_true (active_of_unmapped hsession hlookup hmapped) (by simp [hmapped])
    | some threadId => simp [resolveThread, hsession, hmapped, Active, hlookup]

/-- A thread is made, then another; the first is found again. -/
theorem found_not_active :
    let s₁ := (resolveThread (fun _ => none) {} ⟨"alice", "telegram", some "1"⟩ 0 "a").1
    let s₂ := (s₁.resolveThread (fun _ => none) ⟨"alice", "telegram", some "2"⟩ 0 "b").1
    let found := s₂.resolveThread (fun _ => none) ⟨"alice", "telegram", some "1"⟩ 0 "c"
    found.2 = "a" ∧ found.1.sessions.lookup "alice" = some (.made 0)
      ∧ (found.1.heap (.made 0)).activeThread = some "b" := by
  decide

end Active

end SessionStore

end TitanClaw.Agent
