import TitanClaw.Agent.SessionStore
import TitanClaw.Lib.Interleave

/-! # Threads resolved at the same time

Calls that resolve or register threads run at the same time, each a sequence of
sections under the locks of the session manager. All calls for one external id
should get one thread, and calls for different ids different ones. What can break
that is a registration: its thread id is the caller's. -/

namespace TitanClaw.Agent

open List Option Function AList Table Session Run

namespace SessionStore

/-- The thread is mapped under the key, and in the session of the key's user. -/
structure Live (s : SessionStore) (key : ThreadKey) (ref : SessionRef) (threadId : String) :
    Prop where
  mapped : s.threadMap key = some threadId
  session : s.sessions.lookup key.userId = some ref
  has : (s.heap ref).has threadId = true

/-- The session exists: it was made before, or is a caller's own. -/
def Known (s : SessionStore) (ref : SessionRef) : Prop := ∀ n, ref = .made n → n < s.nextSession

/-- Sessions stay, and so do threads that are live. -/
structure Grows (s s' : SessionStore) : Prop where
  sessions : ∀ userId ref, s.sessions.lookup userId = some ref →
    s'.sessions.lookup userId = some ref
  nextSession : s.nextSession ≤ s'.nextSession
  live : ∀ key ref threadId, s.Live key ref threadId → s'.Live key ref threadId

theorem Grows.refl (s : SessionStore) : Grows s s := ⟨fun _ _ h => h, le_rfl, fun _ _ _ h => h⟩

theorem Grows.known {s s' : SessionStore} {ref : SessionRef} (h : Grows s s')
    (hknown : s.Known ref) : s'.Known ref :=
  fun n hn => (hknown n hn).trans_le h.nextSession

section Sections

variable {parseUuid : String → Option String} {s : SessionStore} {ref : SessionRef}
  {key : ThreadKey} {now : Int} {newId threadId userId : String}

/-! ## Sessions and threads -/

theorem createSession_grows (hknown : ∀ userId ref, s.sessions.lookup userId = some ref →
    s.Known ref) (userId : String) (now : Int) : Grows s (s.createSession userId now).1 := by
  cases hlookup : s.sessions.lookup userId with
  | some =>
    rw [createSession, hlookup]
    exact Grows.refl s
  | none =>
    rw [createSession_of_none hlookup]
    have hother := sub_insert hlookup (.made s.nextSession)
    refine ⟨hother, Nat.le_succ _, fun key ref threadId hlive => ?_⟩
    -- a session in use is not the one that is made
    have hne : ref ≠ .made s.nextSession := by
      rintro rfl
      exact lt_irrefl _ (hknown _ _ hlive.session _ rfl)
    refine ⟨hlive.mapped, hother _ _ hlive.session, ?_⟩
    show (update s.heap _ _ ref).has threadId = true
    rw [update_of_ne hne]
    exact hlive.has

theorem createSession_threadMap : (s.createSession userId now).1.threadMap = s.threadMap := by
  rw [createSession]
  split <;> rfl

theorem createSession_lookup :
    (s.createSession userId now).1.sessions.lookup userId
      = some (s.createSession userId now).2 := by
  cases hlookup : s.sessions.lookup userId with
  | some =>
    rw [createSession, hlookup]
    exact hlookup
  | none =>
    rw [createSession_of_none hlookup]
    exact lookup_insert _

theorem createSession_known (hknown : ∀ userId ref, s.sessions.lookup userId = some ref →
    s.Known ref) (other : String) (ref : SessionRef)
    (h : (s.createSession userId now).1.sessions.lookup other = some ref) :
    (s.createSession userId now).1.Known ref := by
  have hgrows := createSession_grows hknown userId now
  cases hlookup : s.sessions.lookup userId with
  | some =>
    rw [createSession, hlookup] at h ⊢
    exact hknown other ref h
  | none =>
    rw [createSession_of_none hlookup] at h hgrows ⊢
    by_cases hother : other = userId
    · subst hother
      rw [lookup_insert] at h
      cases h
      intro n hn
      cases hn
      exact Nat.lt_succ_self _
    · rw [lookup_insert_ne hother] at h
      exact hgrows.known (hknown other ref h)

theorem has_insertThread {sess : Session} {new : String} (h : sess.has threadId = true) :
    (sess.insertThread new).has threadId = true := by
  by_cases hnew : threadId = new
  · simp [has, insertThread, hnew]
  · simpa [has, insertThread, update_of_ne hnew] using h

theorem has_insertThread_self (sess : Session) (threadId : String) :
    (sess.insertThread threadId).has threadId = true := by
  simp [has, insertThread]

theorem has_createThreadWithId {sess : Session} {uuid : String} (h : sess.has threadId = true) :
    (sess.createThreadWithId now uuid).has threadId = true := by
  rw [createThreadWithId]
  split
  · exact h
  · exact has_insertThread h

theorem has_createThreadWithId_self (sess : Session) (now : Int) (uuid : String) :
    (sess.createThreadWithId now uuid).has uuid = true := by
  rw [createThreadWithId]
  split
  · assumption
  · exact has_insertThread_self sess uuid

theorem has_modify (f : Session → Session)
    (hf : ∀ (sess : Session) (threadId : String), sess.has threadId = true →
      (f sess).has threadId = true)
    (other : SessionRef) (threadId : String) (h : (s.heap other).has threadId = true) :
    ((s.modify ref f).heap other).has threadId = true := by
  by_cases hother : other = ref
  · subst hother
    simp only [modify, update_self]
    exact hf _ threadId h
  · simp only [modify, update_of_ne hother]
    exact h

/-- A thread is made in the session and mapped: one the gateway chose, or a new one. -/
structure Creates (ref : SessionRef) (key : ThreadKey) (newId threadId : String)
    (s s' : SessionStore) : Prop where
  sessions : s'.sessions = s.sessions
  nextSession : s'.nextSession = s.nextSession
  threadMap : s'.threadMap = update s.threadMap key (some threadId)
  has : (s'.heap ref).has threadId = true
  hasMore : ∀ other threadId, (s.heap other).has threadId = true →
    (s'.heap other).has threadId = true
  origin : key.channel = "gateway" ∨ threadId = newId

theorem createAndMapThread_creates (s : SessionStore) :
    Creates ref key newId (s.createAndMapThread parseUuid ref key now newId).2 s
      (s.createAndMapThread parseUuid ref key now newId).1 := by
  simp only [createAndMapThread]
  split
  · rename_i uuid hchosen
    have hgateway : key.channel = "gateway" := by
      by_contra hchannel
      rw [if_neg hchannel] at hchosen
      cases hchosen
    refine ⟨rfl, rfl, rfl, ?_, ?_, .inl hgateway⟩
    · simp only [mapThread, modify, update_self]
      exact has_createThreadWithId_self _ now uuid
    · exact has_modify (·.createThreadWithId now uuid) fun _ _ h => has_createThreadWithId h
  · refine ⟨rfl, rfl, rfl, ?_, ?_, .inr rfl⟩
    · simp only [mapThread, modify, update_self]
      exact has_insertThread_self _ newId
    · exact has_modify (·.createThread now newId) fun _ _ h => has_insertThread h

/-- The section under the write lock ends with a thread of the session under the
key; a thread that was live stays. -/
structure Resolves (ref : SessionRef) (key : ThreadKey) (newId threadId : String)
    (s s' : SessionStore) : Prop where
  sessions : s'.sessions = s.sessions
  nextSession : s'.nextSession = s.nextSession
  threadMap : s'.threadMap = update s.threadMap key (some threadId)
  has : (s'.heap ref).has threadId = true
  hasMore : ∀ other threadId, (s.heap other).has threadId = true →
    (s'.heap other).has threadId = true
  origin : s.threadMap key = some threadId ∨ key.channel = "gateway" ∨ threadId = newId
  keeps : ∀ existing, s.threadMap key = some existing → (s.heap ref).has existing = true →
    threadId = existing

theorem resolveSlow_resolves (s : SessionStore) :
    Resolves ref key newId (s.resolveSlow parseUuid ref key now newId).2 s
      (s.resolveSlow parseUuid ref key now newId).1 := by
  rw [resolveSlow]
  cases hmapped : s.threadMap key with
  | none =>
    obtain ⟨hsessions, hnext, hmap, hhas, hmore, horigin⟩ :
        Creates ref key newId (s.createAndMapThread parseUuid ref key now newId).2 s
          (s.createAndMapThread parseUuid ref key now newId).1 := createAndMapThread_creates s
    refine ⟨hsessions, hnext, hmap, hhas, hmore, .inr horigin, fun existing h => ?_⟩
    rw [hmapped] at h
    cases h
  | some existing =>
    by_cases hin : (s.heap ref).has existing = true
    · simp only [hin, if_true]
      refine ⟨rfl, rfl, ?_, ?_, has_modify (·.switchTo now existing) fun _ _ h => h,
        .inl hmapped, fun other h _ => ?_⟩
      · rw [← hmapped, update_eq_self]
        rfl
      · exact has_modify (·.switchTo now existing) (fun _ _ h => h) ref existing hin
      · exact Option.some.inj (hmapped.symm.trans h)
    · simp only [if_neg hin]
      generalize hunmapped :
        ({ s with threadMap := update s.threadMap key none } : SessionStore) = unmapped
      obtain ⟨hsessions, hnext, hmap, hhas, hmore, horigin⟩ :
          Creates ref key newId (unmapped.createAndMapThread parseUuid ref key now newId).2
            unmapped (unmapped.createAndMapThread parseUuid ref key now newId).1 :=
        createAndMapThread_creates unmapped
      subst hunmapped
      refine ⟨hsessions, hnext, ?_, hhas, hmore, .inr horigin, fun other h hother => ?_⟩
      · rw [hmap, update_idem]
      · obtain rfl := Option.some.inj (hmapped.symm.trans h)
        exact absurd hother hin

variable {s' : SessionStore}

section

variable (h : Resolves ref key newId threadId s s')

include h

/-- In the session of the key's user, nothing live is lost. -/
theorem Resolves.grows (href : s.sessions.lookup key.userId = some ref) : Grows s s' := by
  refine ⟨fun userId ref' h' => by rwa [h.sessions], h.nextSession.ge, ?_⟩
  intro key' ref' threadId' hlive
  refine ⟨?_, by rw [h.sessions]; exact hlive.session, h.hasMore _ _ hlive.has⟩
  rw [h.threadMap]
  by_cases hkey : key' = key
  · subst hkey
    obtain rfl : ref = ref' := Option.some.inj (href.symm.trans hlive.session)
    rw [update_self, h.keeps threadId' hlive.mapped hlive.has]
  · rw [update_of_ne hkey]
    exact hlive.mapped

theorem Resolves.live (href : s.sessions.lookup key.userId = some ref) : s'.Live key ref threadId :=
  ⟨by rw [h.threadMap, update_self], by rw [h.sessions]; exact href, h.has⟩

end

/-! ## Keys apart -/

/-- Different keys of other channels than the gateway are mapped to different threads. -/
def Apart (s : SessionStore) : Prop :=
  ∀ key key' threadId, key ≠ key' → key.channel ≠ "gateway" → key'.channel ≠ "gateway" →
    s.threadMap key = some threadId → s.threadMap key' ≠ some threadId

/-- The thread is under no other key of these channels. -/
def Unshared (s : SessionStore) (key : ThreadKey) (threadId : String) : Prop :=
  key.channel ≠ "gateway" →
    ∀ key', key' ≠ key → key'.channel ≠ "gateway" → s.threadMap key' ≠ some threadId

theorem Apart.update (h : s.Apart) (hunshared : s.Unshared key threadId)
    (hmap : s'.threadMap = update s.threadMap key (some threadId)) : s'.Apart := by
  intro key₁ key₂ id hne h₁ h₂ hmap₁ hmap₂
  rw [hmap] at hmap₁ hmap₂
  by_cases hkey₁ : key₁ = key
  · subst hkey₁
    rw [update_self] at hmap₁
    rw [update_of_ne hne.symm] at hmap₂
    cases hmap₁
    exact hunshared h₁ key₂ hne.symm h₂ hmap₂
  · rw [update_of_ne hkey₁] at hmap₁
    by_cases hkey₂ : key₂ = key
    · subst hkey₂
      rw [update_self] at hmap₂
      cases hmap₂
      exact hunshared h₂ key₁ hkey₁ h₁ hmap₁
    · rw [update_of_ne hkey₂] at hmap₂
      exact h key₁ key₂ id hne h₁ h₂ hmap₁ hmap₂

theorem Apart.congr (h : s.Apart) (hmap : s'.threadMap = s.threadMap) : s'.Apart := by
  rw [Apart, hmap]
  exact h

theorem Resolves.apart (h : Resolves ref key newId threadId s s')
    (hapart : s.Apart) (hfresh : ∀ key', s.threadMap key' ≠ some newId) : s'.Apart := by
  refine hapart.update (fun hchannel key' hne hchannel' hmapped => ?_) h.threadMap
  rcases h.origin with hold | hgateway | rfl
  · exact hapart key' key threadId hne hchannel' hchannel hmapped hold
  · exact hchannel hgateway
  · exact hfresh key' hmapped

def registers (s : SessionStore) (key : ThreadKey) (threadId : String) (ref : SessionRef) : Bool :=
  match s.threadMap key with
  | some existing => existing != threadId && !(s.heap ref).has existing
  | none => true

theorem registerMapping_eq (s : SessionStore) (key : ThreadKey) (threadId : String)
    (ref : SessionRef) :
    s.registerMapping key threadId ref
      = if s.registers key threadId ref then s.mapThread key threadId else s := by
  rw [registerMapping, registers]
  cases s.threadMap key with
  | none => rfl
  | some existing =>
    by_cases hsame : existing = threadId
    · simp [hsame]
    by_cases hhas : (s.heap ref).has existing = true
    · simp [hhas]
    · simp [hsame, hhas]

theorem registerMapping_sessions : (s.registerMapping key threadId ref).sessions = s.sessions := by
  rw [registerMapping_eq]
  split <;> rfl

/-- Where the registration writes, the key has no live thread, and the thread has no
other key. -/
def RegistersApart (s : SessionStore) (key : ThreadKey) (threadId : String) (ref : SessionRef) :
    Prop :=
  s.registers key threadId ref = true →
    (∀ ref' existing, ¬ s.Live key ref' existing) ∧ s.Unshared key threadId

section

variable (h : s.RegistersApart key threadId ref)

include h

theorem registerMapping_grows : Grows s (s.registerMapping key threadId ref) := by
  rw [registerMapping_eq]
  split
  · rename_i hwrites
    refine ⟨fun _ _ h => h, le_rfl, fun key' ref' existing hlive => ⟨?_, hlive.session, hlive.has⟩⟩
    have hne : key' ≠ key := by
      rintro rfl
      exact (h hwrites).1 ref' existing hlive
    show update s.threadMap key _ key' = _
    rw [update_of_ne hne]
    exact hlive.mapped
  · exact Grows.refl s

theorem registerMapping_apart (hapart : s.Apart) : (s.registerMapping key threadId ref).Apart := by
  rw [registerMapping_eq]
  split
  · rename_i hwrites
    exact hapart.update (h hwrites).2 rfl
  · exact hapart

end

theorem trackSession_grows (s : SessionStore) (userId : String) (ref : SessionRef) :
    Grows s (s.trackSession userId ref) := by
  rw [trackSession]
  cases hlookup : s.sessions.lookup userId with
  | some => exact Grows.refl s
  | none =>
    have hother := sub_insert hlookup ref
    exact ⟨hother, le_rfl,
      fun key ref' threadId hlive => ⟨hlive.mapped, hother _ _ hlive.session, hlive.has⟩⟩

theorem trackSession_threadMap : (s.trackSession userId ref).threadMap = s.threadMap := by
  rw [trackSession]
  split <;> rfl

theorem trackSession_known (hknown : ∀ userId ref, s.sessions.lookup userId = some ref →
    s.Known ref) (href : s.Known ref) (other : String) (found : SessionRef)
    (h : (s.trackSession userId ref).sessions.lookup other = some found) :
    (s.trackSession userId ref).Known found := by
  rw [trackSession] at h ⊢
  cases hlookup : s.sessions.lookup userId with
  | some =>
    rw [hlookup] at h
    exact hknown other found h
  | none =>
    rw [hlookup] at h
    by_cases hother : other = userId
    · subst hother
      rw [lookup_insert] at h
      cases h
      exact href
    · rw [lookup_insert_ne hother] at h
      exact hknown other found h

theorem ensureUndoManager_grows (s : SessionStore) (threadId : String) :
    Grows s (s.ensureUndoManager threadId) :=
  ⟨fun _ _ h => h, le_rfl, fun _ _ _ h => ⟨h.mapped, h.session, h.has⟩⟩

theorem insertThread_grows (s : SessionStore) (ref : SessionRef) (threadId : String) :
    Grows s (s.modify ref (·.insertThread threadId)) :=
  ⟨fun _ _ h => h, le_rfl, fun _ _ _ hlive => ⟨hlive.mapped, hlive.session,
    has_modify (·.insertThread threadId) (fun _ _ h => has_insertThread h) _ _ hlive.has⟩⟩

end Sections

end SessionStore

/-! ## Calls under way -/

open SessionStore

structure ResolvedThread where
  key : ThreadKey
  threadId : String
  deriving DecidableEq

/-- The store; what was returned is a record that no section reads. -/
structure Resolution where
  store : SessionStore := {}
  returned : List ResolvedThread := []

/-- What is left of a call. The first five are those of a resolution, the next three
those of a registration. -/
inductive ResolutionTask where
  | findSession (key : ThreadKey)
  | createSession (key : ThreadKey)
  | lookup (key : ThreadKey) (ref : SessionRef)
  | slow (key : ThreadKey) (ref : SessionRef)
  | undoManager (key : ThreadKey) (ref : SessionRef) (threadId : String)
  | register (userId channel threadId : String) (ref : SessionRef)
  | registerUndo (userId threadId : String) (ref : SessionRef)
  | track (userId : String) (ref : SessionRef)
  | insertThread (ref : SessionRef) (threadId : String)

/-- A caller may also put a thread into a session, as is done before it is registered. -/
inductive ResolutionCall where
  | resolve (key : ThreadKey)
  | register (userId channel threadId : String) (ref : SessionRef)
  | insertThread (ref : SessionRef) (threadId : String)

def ResolutionCall.whole : ResolutionCall → ResolutionTask
  | .resolve key => .findSession key
  | .register userId channel threadId ref => .register userId channel threadId ref
  | .insertThread ref threadId => .insertThread ref threadId

/-- The clock, and a new UUID. -/
structure SectionInput where
  now : Int
  newId : String

namespace Resolution

variable (s : Resolution)

def onStore (store : SessionStore) : Resolution := { s with store }

def returns (key : ThreadKey) (threadId : String) : Resolution :=
  { s with returned := ⟨key, threadId⟩ :: s.returned }

def sessionExists (s : SessionStore) : SessionRef → Bool
  | .made n => decide (n < s.nextSession)
  | .brought _ => true

variable (parseUuid : String → Option String)

def sect (s : Resolution) (task : ResolutionTask)
    (input : SectionInput) : Resolution × Option ResolutionTask :=
  match task with
  | .findSession key =>
      match s.store.sessions.lookup key.userId with
      | some ref => (s, some (.lookup key ref))
      | none => (s, some (.createSession key))
  | .createSession key =>
      let made := s.store.createSession key.userId input.now
      (s.onStore made.1, some (.lookup key made.2))
  | .lookup key ref =>
      match s.store.mappedThread ref key with
      | some threadId => (s.returns key threadId, none)
      | none => (s, some (.slow key ref))
  | .slow key ref =>
      let resolved := s.store.resolveSlow parseUuid ref key input.now input.newId
      (s.onStore resolved.1, some (.undoManager key ref resolved.2))
  | .undoManager key _ threadId =>
      ((s.onStore (s.store.ensureUndoManager threadId)).returns key threadId, none)
  | .register userId channel threadId ref =>
      if sessionExists s.store ref then
        (s.onStore (s.store.registerMapping ⟨userId, channel, some threadId⟩ threadId ref),
          some (.registerUndo userId threadId ref))
      else (s, none)
  | .registerUndo userId threadId ref =>
      (s.onStore (s.store.ensureUndoManager threadId), some (.track userId ref))
  | .track userId ref => (s.onStore (s.store.trackSession userId ref), none)
  | .insertThread ref threadId => (s.onStore (s.store.modify ref (·.insertThread threadId)), none)

abbrev Config := Interleave.Config Resolution ResolutionTask

abbrev Label := Interleave.Label ResolutionCall SectionInput

def step : Config → Label → Config := Interleave.step ResolutionCall.whole (sect parseUuid)

/-- Calls that ask for one key got one thread, calls that ask for different keys of
other channels than the gateway got different threads, and each thread is in the
session of its user. -/
structure Agreement (s : Resolution) : Prop where
  same : ∀ a ∈ s.returned, ∀ b ∈ s.returned, a.key = b.key → a.threadId = b.threadId
  different : ∀ a ∈ s.returned, ∀ b ∈ s.returned, a.key ≠ b.key →
    a.key.channel ≠ "gateway" → b.key.channel ≠ "gateway" → a.threadId ≠ b.threadId
  inSession : ∀ a ∈ s.returned, ∃ ref, s.store.sessions.lookup a.key.userId = some ref
    ∧ (s.store.heap ref).has a.threadId = true

def KeepsApart (c : Config) : Label → Prop
  | .start _ _ => True
  | .advance id input =>
      match c.tasks id with
      | some (.slow _ _) => ∀ key, c.shared.store.threadMap key ≠ some input.newId
      | some (.register userId channel threadId ref) =>
          c.shared.store.RegistersApart ⟨userId, channel, some threadId⟩ threadId ref
      | _ => True

/-! ## The invariant -/

structure Consistent (s : Resolution) : Prop where
  known : ∀ userId ref, s.store.sessions.lookup userId = some ref → s.store.Known ref
  apart : s.store.Apart
  returned : ∀ a ∈ s.returned, ∃ ref, s.store.Live a.key ref a.threadId

def TaskConsistent : ResolutionTask → Prop
  | .findSession _ | .createSession _ | .register _ _ _ _ | .insertThread _ _ => True
  | .lookup key ref | .slow key ref => s.store.sessions.lookup key.userId = some ref
  | .undoManager key ref threadId => s.store.Live key ref threadId
  | .registerUndo _ _ ref | .track _ ref => s.store.Known ref

theorem TaskConsistent.mono {s s' : Resolution} (hgrows : Grows s.store s'.store)
    (task : ResolutionTask) (h : s.TaskConsistent task) : s'.TaskConsistent task := by
  cases task with
  | lookup | slow => exact hgrows.sessions _ _ h
  | undoManager => exact hgrows.live _ _ _ h
  | registerUndo | track => exact hgrows.known h
  | _ => trivial

/-- What a section has to show: its store has grown from the one before, the sessions
exist, keys are apart, and what it returns is live. -/
theorem Consistent.after {s s' : Resolution} (h : s.Consistent) (hgrows : Grows s.store s'.store)
    (hknown : ∀ userId ref, s'.store.sessions.lookup userId = some ref → s'.store.Known ref)
    (hapart : s'.store.Apart)
    (hreturned : ∀ a ∈ s'.returned, a ∈ s.returned ∨ ∃ ref, s'.store.Live a.key ref a.threadId) :
    s'.Consistent := by
  refine ⟨hknown, hapart, fun a ha => ?_⟩
  rcases hreturned a ha with hold | hnew
  · obtain ⟨ref, hlive⟩ := h.returned a hold
    exact ⟨ref, hgrows.live _ _ _ hlive⟩
  · exact hnew

variable {s}

theorem Consistent.agreement (h : s.Consistent) : s.Agreement := by
  refine ⟨fun a ha b hb hkey => ?_, fun a ha b hb hne hachannel hbchannel heq => ?_, fun a ha => ?_⟩
  · obtain ⟨refa, hlivea⟩ := h.returned a ha
    obtain ⟨refb, hliveb⟩ := h.returned b hb
    rw [← hkey] at hliveb
    exact Option.some.inj (hlivea.mapped.symm.trans hliveb.mapped)
  · obtain ⟨refa, hlivea⟩ := h.returned a ha
    obtain ⟨refb, hliveb⟩ := h.returned b hb
    exact h.apart a.key b.key a.threadId hne hachannel hbchannel hlivea.mapped (heq ▸ hliveb.mapped)
  · obtain ⟨ref, hlive⟩ := h.returned a ha
    exact ⟨ref, hlive.session, hlive.has⟩

/-- One section: the invariant afterwards, what the call needs next, and a store in
which the others still have what they need. -/
theorem sect_consistent (c : Config) (id : Nat) (task : ResolutionTask) (input : SectionInput)
    (h : Interleave.Holds Consistent TaskConsistent c) (htask : c.tasks id = some task)
    (hguard : KeepsApart c (.advance id input)) :
    Consistent (c.shared.sect parseUuid task input).1
      ∧ (∀ next, (c.shared.sect parseUuid task input).2 = some next →
          TaskConsistent (c.shared.sect parseUuid task input).1 next)
      ∧ Grows c.shared.store (c.shared.sect parseUuid task input).1.store := by
  obtain ⟨hinv, htasks⟩ := h
  have hown := htasks id task htask
  simp only [KeepsApart, htask] at hguard
  cases task with
  | findSession key =>
    simp only [sect]
    cases hlookup : c.shared.store.sessions.lookup key.userId with
    | some =>
      refine ⟨hinv, fun next hnext => ?_, Grows.refl _⟩
      cases hnext
      exact hlookup
    | none =>
      refine ⟨hinv, fun next hnext => ?_, Grows.refl _⟩
      cases hnext
      trivial
  | createSession key =>
    have hgrows := createSession_grows hinv.known key.userId input.now
    refine ⟨hinv.after hgrows (createSession_known hinv.known)
      (hinv.apart.congr createSession_threadMap) fun a ha => .inl ha,
      fun next hnext => ?_, hgrows⟩
    cases hnext
    exact createSession_lookup
  | lookup key ref =>
    simp only [sect]
    cases hmapped : c.shared.store.mappedThread ref key with
    | some =>
      -- the fast path: the thread is mapped, and in the session
      obtain ⟨hmap, hhas⟩ := filter_eq_some_iff.mp hmapped
      refine ⟨hinv.after (Grows.refl _) hinv.known hinv.apart ?_, nofun, Grows.refl _⟩
      exact forall_mem_cons.mpr ⟨.inr ⟨ref, hmap, hown, hhas⟩, fun a ha => .inl ha⟩
    | none =>
      refine ⟨hinv, fun next hnext => ?_, Grows.refl _⟩
      cases hnext
      exact hown
  | slow key ref =>
    have hresolves : Resolves ref key input.newId
        (c.shared.store.resolveSlow parseUuid ref key input.now input.newId).2 c.shared.store
        (c.shared.store.resolveSlow parseUuid ref key input.now input.newId).1 :=
      resolveSlow_resolves c.shared.store
    have hgrows := hresolves.grows hown
    refine ⟨hinv.after hgrows ?_ (hresolves.apart hinv.apart hguard) fun a ha => .inl ha,
      fun next hnext => ?_, hgrows⟩
    · intro userId ref' href'
      refine hgrows.known (hinv.known userId ref' ?_)
      rw [← hresolves.sessions]
      exact href'
    · cases hnext
      exact hresolves.live hown
  | undoManager _ ref threadId =>
    have hgrows := ensureUndoManager_grows c.shared.store threadId
    refine ⟨hinv.after hgrows hinv.known hinv.apart ?_, nofun, hgrows⟩
    exact forall_mem_cons.mpr ⟨.inr ⟨ref, hgrows.live _ _ _ hown⟩, fun a ha => .inl ha⟩
  | register _ _ _ ref =>
    simp only [sect]
    cases hexists : sessionExists c.shared.store ref with
    | false => exact ⟨hinv, nofun, Grows.refl _⟩
    | true =>
      have hgrows := registerMapping_grows hguard
      refine ⟨hinv.after hgrows ?_ (registerMapping_apart hguard hinv.apart)
        fun a ha => .inl ha, fun next hnext => ?_, hgrows⟩
      · intro other ref' href'
        refine hgrows.known (hinv.known other ref' ?_)
        rw [← registerMapping_sessions]
        exact href'
      · cases hnext
        refine hgrows.known fun n hn => ?_
        rw [hn, sessionExists] at hexists
        exact of_decide_eq_true hexists
  | registerUndo _ threadId =>
    have hgrows := ensureUndoManager_grows c.shared.store threadId
    refine ⟨hinv.after hgrows hinv.known hinv.apart fun a ha => .inl ha, fun next hnext => ?_,
      hgrows⟩
    cases hnext
    exact hown
  | track userId ref =>
    have hgrows := trackSession_grows c.shared.store userId ref
    exact ⟨hinv.after hgrows (trackSession_known hinv.known hown)
      (hinv.apart.congr trackSession_threadMap) fun a ha => .inl ha, nofun, hgrows⟩
  | insertThread ref threadId =>
    have hgrows := insertThread_grows c.shared.store ref threadId
    exact ⟨hinv.after hgrows hinv.known hinv.apart fun a ha => .inl ha, nofun, hgrows⟩

theorem step_consistent (c : Config) (label : Label)
    (h : Interleave.Holds Consistent TaskConsistent c) (hguard : KeepsApart c label) :
    Interleave.Holds Consistent TaskConsistent (step parseUuid c label) := by
  refine Interleave.holds_step (fun c id call _ _ => ?_)
    (fun c id task input h htask hguard => ?_) c label h hguard
  · cases call <;> trivial
  · obtain ⟨hinv, hown, hgrows⟩ := sect_consistent parseUuid c id task input h htask hguard
    exact ⟨hinv, hown, fun other hother => TaskConsistent.mono hgrows other hother⟩

/-- However the calls interleave: if new UUIDs are new and no registration takes a
key from a live thread or a thread from another key, the threads agree. -/
theorem run_agreement (heap : SessionRef → Session) (labels : List Label)
    (hguard : Guarded (step parseUuid) KeepsApart { shared := { store := { heap } } } labels)
    (pre : List Label) (hpre : pre <+: labels) :
    (run (step parseUuid) { shared := { store := { heap } } } pre).shared.Agreement := by
  have hstep : ∀ (c : Config) (label : Label), Interleave.Holds Consistent TaskConsistent c →
      KeepsApart c label → Interleave.Holds Consistent TaskConsistent (step parseUuid c label) :=
    step_consistent parseUuid
  have hstart : Interleave.Holds Consistent TaskConsistent
      { shared := { store := { heap } } } := by
    refine ⟨⟨fun userId ref h => ?_, fun key key' threadId _ _ _ h => ?_, fun a ha => ?_⟩,
      fun id task h => ?_⟩
    · cases h
    · cases h
    · cases ha
    · cases h
  exact (invariant_reached hstep hstart hguard hpre).shared.agreement

/-! ## One thread id for two users -/

/-- The text of a UUID. -/
def sharedId : String := "6ba7b810-9dad-11d1-80b4-00c04fd430c8"

def aliceKey : ThreadKey := ⟨"alice", "telegram", some sharedId⟩

def bobKey : ThreadKey := ⟨"bob", "telegram", some sharedId⟩

/-- A call and all of its sections, with nothing in between. -/
def alone (sections : Nat) (call : ResolutionCall) : List Label :=
  .start 0 call :: List.replicate sections (.advance 0 ⟨0, "new"⟩)

/-- Alice's thread is registered, and a second thread is made for another key. -/
theorem registered_and_new_agree : (run (step some) { shared := { store := {} } }
      (alone 3 (.register "alice" "telegram" sharedId (.brought 0))
        ++ alone 4 (.resolve ⟨"alice", "telegram", none⟩))).shared.Agreement := by
  refine run_agreement some (fun _ => {}) _ ?_ _ prefix_rfl
  refine ⟨trivial, ?_, trivial, trivial, trivial, trivial, trivial, ?_, trivial, trivial⟩
  · -- nothing is mapped yet
    intro _
    refine ⟨fun ref existing hlive => ?_, fun _ key _ _ hmapped => ?_⟩
    · cases hlive.mapped
    · cases hmapped
  · intro key
    by_cases hkey : key = aliceKey
    · subst hkey
      decide
    · show Function.update (fun _ => none) aliceKey (some sharedId) key ≠ some "new"
      rw [update_of_ne hkey]
      exact some_ne_none _ |>.symm

/-- A thread that is put into the sessions of two users and registered for both, as
hydration does when the second names the thread of the first: both get it. -/
theorem registered_for_two : ¬ (run (step some) { shared := { store := {} } }
      (alone 1 (.insertThread (.brought 0) sharedId)
        ++ alone 3 (.register "alice" "telegram" sharedId (.brought 0))
        ++ alone 1 (.insertThread (.brought 1) sharedId)
        ++ alone 3 (.register "bob" "telegram" sharedId (.brought 1))
        ++ alone 2 (.resolve aliceKey) ++ alone 2 (.resolve bobKey))).shared.Agreement := by
  intro h
  exact h.different ⟨aliceKey, sharedId⟩ (by decide) ⟨bobKey, sharedId⟩ (by decide) (by decide)
    (by decide) (by decide) rfl

end Resolution

end TitanClaw.Agent
