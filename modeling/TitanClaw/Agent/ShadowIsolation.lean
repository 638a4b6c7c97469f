import TitanClaw.Agent.InputUndo
import TitanClaw.Agent.ShadowEngine

/-! # What a user gets from the shadow cache

The keys of the cache are prompts without a user. As long as no prompt is one of two users,
looked up or predicted, what a user is answered from the cache comes from the user's own turns
and is the same whatever the others do. -/

namespace TitanClaw.Agent

open Text List Function AList Table Run ShadowEngine ShadowUsers

variable {R : Type}

def Speculation.key (letters : CaseMap) : Speculation → Option String
  | .considering (prompt :: _) =>
      if (trim prompt).isEmpty then none else some (normalize letters (trim prompt))
  | .storing key _ _ => some key
  | _ => none

def Speculation.isWaiting : Speculation → Bool
  | .waiting _ _ => true
  | _ => false

variable (user : String)

def ShadowEvent.concerns : ShadowEvent R → Bool
  | .command other _ _ _ => other == user
  | .speculate other _ _ _ => other == user
  | .advance other _ _ _ => other == user
  | .prune _ => true

namespace ShadowUsers

/-- The key of the cache that an event is about, with the user whose event it is. -/
def uses (letters : CaseMap) (s : ShadowUsers R) : ShadowEvent R → Option (String × String)
  | .command user _ _ command =>
      match command.order with
      | .input i => some (user, normalize letters i.content)
      | _ => none
  | .advance user number _ _ => ((s.speculations user number).bind (·.key letters)).map (user, ·)
  | .speculate .. | .prune _ => none

/-- A speculation of the user's asks for a permit. -/
def acquires (s : ShadowUsers R) : ShadowEvent R → Bool
  | .advance other number _ _ => other == user && (s.speculations other number).any (·.isWaiting)
  | _ => false

/-- The prompts are divided into the user's and those of others, and an event is about one of
the user's exactly if it is the user's own; the user's speculations need not wait. -/
structure Apart (letters : CaseMap) (user : String) (mine : String → Bool) (s : ShadowUsers R)
    (event : ShadowEvent R) : Prop where
  keys : ∀ other key, s.uses letters event = some (other, key) → (mine key = true ↔ other = user)
  permit : s.acquires user event = true → 0 < s.engine.permits

instance (letters : CaseMap) (user : String) (mine : String → Bool) (s : ShadowUsers R)
    (event : ShadowEvent R) : Decidable (s.Apart letters user mine event) :=
  decidable_of_iff
    ((∀ used ∈ s.uses letters event, (mine used.2 = true ↔ used.1 = user))
      ∧ (s.acquires user event = true → 0 < s.engine.permits))
    ⟨fun h => ⟨fun other key hused => h.1 (other, key) hused, h.2⟩,
      fun h => ⟨fun used hused => h.keys used.1 used.2 hused, h.permit⟩⟩

/-- What there is of a user: the user's part of the cache, conversations and speculations, and
what the user has been served. -/
structure View (R : Type) where
  cache : String → Option ShadowCacheEntry
  conversations : String → Conversation R
  speculations : Nat → Option Speculation
  served : List Served

def servedTo (s : ShadowUsers R) : List Served := s.served.filter (·.user == user)

def view (mine : String → Bool) (s : ShadowUsers R) : View R where
  cache key := if mine key then s.engine.cache.lookup key else none
  conversations := s.conversations user
  speculations := s.speculations user
  served := s.servedTo user

end ShadowUsers

/-! ## What a step does to the cache -/

namespace ShadowEngine

variable {config : ShadowConfig} {json : JsonCodec} {letters : CaseMap}
  {engine engine' : ShadowEngine} {instant : Nat} {input user key : String}
  {reply : Except String String} {speculation : Speculation}

theorem lookup_tryGet_of_ne (h : key ≠ normalize letters input) :
    (engine.tryGet config letters instant input).2.cache.lookup key = engine.cache.lookup key := by
  fun_cases tryGet config letters engine instant input with
  | case1 | case2 => rfl
  | case3 => exact lookup_erase_ne h

/-- The same entry under the key of the input gives the same answer, and leaves the caches as
much alike as they were. -/
theorem tryGet_agrees (config : ShadowConfig) (instant : Nat)
    (h : engine.cache.lookup (normalize letters input)
      = engine'.cache.lookup (normalize letters input)) :
    (engine.tryGet config letters instant input).1 = (engine'.tryGet config letters instant input).1
      ∧ ∀ key, engine.cache.lookup key = engine'.cache.lookup key →
        (engine.tryGet config letters instant input).2.cache.lookup key
          = (engine'.tryGet config letters instant input).2.cache.lookup key := by
  simp only [tryGet, h]
  split
  · exact ⟨rfl, fun _ hkey => hkey⟩
  split
  · exact ⟨rfl, fun _ hkey => hkey⟩
  refine ⟨rfl, fun key hkey => ?_⟩
  by_cases hsame : key = normalize letters input
  · rw [hsame, lookup_erase, lookup_erase]
  · rw [lookup_erase_ne hsame, lookup_erase_ne hsame, hkey]

/-- What is served was in the cache. -/
theorem lookup_of_tryGet {entry : ShadowCacheEntry}
    (h : (engine.tryGet config letters instant input).1 = some entry) :
    engine.cache.lookup (normalize letters input) = some entry := by
  simp only [tryGet] at h
  split at h
  · cases h
  split at h
  · next hfresh =>
    cases h
    exact (Option.filter_eq_some_iff.mp hfresh).1
  · cases h

theorem tryGet_sub : Sub (engine.tryGet config letters instant input).2.cache engine.cache := by
  fun_cases tryGet config letters engine instant input with
  | case1 | case2 => exact Sub.refl _
  | case3 => exact erase_sub _ _

theorem speculate_cache :
    (speculateForNextTurn config json letters user engine instant reply speculation).1.cache
      = match speculation with
        | .storing key response _ => engine.cache.insert key ⟨response, instant, user⟩
        | _ => engine.cache := by
  fun_cases speculateForNextTurn config json letters user engine instant reply speculation
  all_goals rfl

theorem lookup_speculate_of_ne (h : speculation.key letters ≠ some key) :
    (speculateForNextTurn config json letters user engine instant reply
      speculation).1.cache.lookup key = engine.cache.lookup key := by
  rw [speculate_cache]
  split
  · next stored response rest =>
    have hne : key ≠ stored := fun heq => h (congrArg some heq.symm)
    exact lookup_insert_ne hne
  · rfl

/-- What a speculation does next depends on the entry under its key and on there being a
permit. -/
theorem speculate_agrees (config : ShadowConfig) (json : JsonCodec) (user : String)
    (instant : Nat) (reply : Except String String) (h : ∀ key, speculation.key letters = some key →
      engine.cache.lookup key = engine'.cache.lookup key)
    (hpermit : speculation.isWaiting = true → 0 < engine.permits ∧ 0 < engine'.permits) :
    (speculateForNextTurn config json letters user engine instant reply speculation).2
        = (speculateForNextTurn config json letters user engine' instant reply speculation).2
      ∧ ∀ key, engine.cache.lookup key = engine'.cache.lookup key →
        (speculateForNextTurn config json letters user engine instant reply
            speculation).1.cache.lookup key
          = (speculateForNextTurn config json letters user engine' instant reply
            speculation).1.cache.lookup key := by
  constructor
  · cases speculation with
    | waiting =>
      obtain ⟨hone, hother⟩ := hpermit rfl
      simp [speculateForNextTurn, if_neg hone.ne', if_neg hother.ne']
    | predicting | precomputing =>
      cases reply with
      | error | ok => rfl
    | considering predictions =>
      cases predictions with
      | nil => rfl
      | cons =>
        simp only [speculateForNextTurn]
        split
        · rfl
        next hprompt =>
        rw [h _ (if_neg hprompt)]
        split
        · rfl
        · rfl
    | storing => rfl
  · intro key hkey
    rw [speculate_cache, speculate_cache]
    split
    · next stored response rest =>
      by_cases hsame : key = stored
      · rw [hsame, lookup_insert, lookup_insert]
      · rw [lookup_insert_ne hsame, lookup_insert_ne hsame, hkey]
    · exact hkey

theorem lookup_pruneExpired :
    (engine.pruneExpired config instant).cache.lookup key
      = if config.enabled then (engine.cache.lookup key).filter (isFresh config instant)
        else engine.cache.lookup key := by
  unfold pruneExpired
  cases config.enabled with
  | true => exact lookup_retain _ _ key
  | false => rfl

end ShadowEngine

/-! ## Another's events -/

namespace ShadowUsers

variable {config : ShadowConfig} {D : Deps} {monitor : ContextMonitor} {user other thread : String}
  {mine : String → Bool} {s t : ShadowUsers R} {event : ShadowEvent R}

theorem view_eq_iff :
    s.view user mine = t.view user mine
      ↔ (∀ key, mine key = true → s.engine.cache.lookup key = t.engine.cache.lookup key)
        ∧ s.conversations user = t.conversations user
        ∧ s.speculations user = t.speculations user
        ∧ s.servedTo user = t.servedTo user := by
  simp only [view, View.mk.injEq, funext_iff]
  refine and_congr_left fun _ => forall_congr' fun key => ?_
  cases mine key with
  | true | false => simp

theorem view_setConversation_of_ne (h : user ≠ other) (c : Conversation R) :
    (s.setConversation other thread c).view user mine = s.view user mine := by
  simp [view, setConversation, servedTo, update_of_ne h]

theorem view_setSpeculation_of_ne (h : user ≠ other) (number : Nat) (left : Option Speculation) :
    (s.setSpeculation other number left).view user mine = s.view user mine := by
  simp [view, setSpeculation, servedTo, update_of_ne h]

theorem view_engine {engine : ShadowEngine}
    (h : ∀ key, mine key = true → engine.cache.lookup key = s.engine.cache.lookup key) :
    ({ s with engine } : ShadowUsers R).view user mine = s.view user mine :=
  view_eq_iff.mpr ⟨h, rfl, rfl, rfl⟩

theorem view_lookUpInput_of_ne (hne : user ≠ other) {instant : Nat} {env : Env R} {i : UserInput}
    (hkey : mine (normalize D.letters i.content) ≠ true) :
    (s.lookUpInput config D monitor other thread instant env i).view user mine
      = s.view user mine := by
  have hcache : ∀ key, mine key = true →
      (s.engine.tryGet config D.letters instant i.content).2.cache.lookup key
        = s.engine.cache.lookup key := by
    intro key hmine
    refine lookup_tryGet_of_ne fun heq => hkey ?_
    rwa [← heq]
  unfold lookUpInput
  generalize s.engine.tryGet config D.letters instant i.content = got at hcache
  obtain ⟨_ | entry, engine⟩ := got
  · exact (view_setConversation_of_ne hne _).trans (view_engine hcache)
  refine (view_setConversation_of_ne hne _).trans ?_
  refine view_eq_iff.mpr ⟨hcache, rfl, rfl, ?_⟩
  exact filter_cons_of_neg (by simpa using hne.symm)

theorem view_step_of_unconcerned (hother : event.concerns user = false)
    (h : s.Apart D.letters user mine event) :
    (s.step config D monitor event).view user mine = s.view user mine := by
  cases event with
  | command other =>
    have hne : user ≠ other := fun heq => by simp [ShadowEvent.concerns, heq] at hother
    simp only [step]
    split
    · next i horder hadmits =>
      refine view_lookUpInput_of_ne hne fun hmine => hne ?_
      exact ((h.keys other _ (by simp [uses, horder])).mp hmine).symm
    · exact view_setConversation_of_ne hne _
  | speculate other =>
    have hne : user ≠ other := fun heq => by simp [ShadowEvent.concerns, heq] at hother
    simp only [step]
    split
    · rfl
    · exact view_setSpeculation_of_ne hne _ _
  | advance other =>
    have hne : user ≠ other := fun heq => by simp [ShadowEvent.concerns, heq] at hother
    simp only [step]
    split
    · rfl
    next speculation hspeculation =>
    rw [view_setSpeculation_of_ne hne]
    refine view_engine fun key hmine => ?_
    refine lookup_speculate_of_ne fun hkey => hne ?_
    exact ((h.keys other key (by simp [uses, hspeculation, hkey])).mp hmine).symm
  | prune => cases hother

section

variable (h : s.view user mine = t.view user mine)

include h

theorem view_setConversation (c : Conversation R) : (s.setConversation user thread c).view user mine
      = (t.setConversation user thread c).view user mine := by
  obtain ⟨hcache, hconversations, hspeculations, hserved⟩ := view_eq_iff.mp h
  refine view_eq_iff.mpr ⟨hcache, ?_, hspeculations, hserved⟩
  simp [setConversation, hconversations]

theorem view_setSpeculation (number : Nat) (left : Option Speculation) :
    (s.setSpeculation user number left).view user mine
      = (t.setSpeculation user number left).view user mine := by
  obtain ⟨hcache, hconversations, hspeculations, hserved⟩ := view_eq_iff.mp h
  refine view_eq_iff.mpr ⟨hcache, hconversations, ?_, hserved⟩
  simp [setSpeculation, hspeculations]

theorem view_lookUpInput {instant : Nat} {env : Env R}
    {i : UserInput} (hkey : mine (normalize D.letters i.content) = true) :
    (s.lookUpInput config D monitor user thread instant env i).view user mine
      = (t.lookUpInput config D monitor user thread instant env i).view user mine := by
  obtain ⟨hcache, hconversations, hspeculations, hserved⟩ := view_eq_iff.mp h
  obtain ⟨hfound, hkept⟩ := tryGet_agrees config instant (hcache _ hkey)
  unfold lookUpInput
  rw [hconversations]
  generalize s.engine.tryGet config D.letters instant i.content = got at hfound hkept ⊢
  generalize t.engine.tryGet config D.letters instant i.content = got' at hfound hkept ⊢
  obtain ⟨found, engine⟩ := got
  obtain ⟨found', engine'⟩ := got'
  obtain rfl : found = found' := hfound
  cases found with
  | none =>
    refine view_setConversation ?_ _
    refine view_eq_iff.mpr ⟨fun key hmine => ?_, hconversations, hspeculations, hserved⟩
    exact hkept key (hcache key hmine)
  | some =>
    refine view_setConversation ?_ _
    refine view_eq_iff.mpr ⟨fun key hmine => ?_, hconversations, hspeculations, ?_⟩
    · exact hkept key (hcache key hmine)
    · show filter _ (_ :: s.served) = filter _ (_ :: t.served)
      rw [filter_cons_of_pos (by simp), filter_cons_of_pos (by simp)]
      exact congrArg _ hserved

end

theorem view_step (hown : event.concerns user = true) (hs : s.Apart D.letters user mine event)
    (ht : t.Apart D.letters user mine event) (h : s.view user mine = t.view user mine) :
    (s.step config D monitor event).view user mine
      = (t.step config D monitor event).view user mine := by
  obtain ⟨hcache, hconversations, hspeculations, hserved⟩ := view_eq_iff.mp h
  cases event with
  | command other =>
    obtain rfl : other = user := by simpa [ShadowEvent.concerns] using hown
    simp only [step, ← hconversations]
    split
    · next i horder hadmits =>
      refine view_lookUpInput h ?_
      exact (hs.keys other _ (by simp [uses, horder])).mpr rfl
    · exact view_setConversation h _
  | speculate other =>
    obtain rfl : other = user := by simpa [ShadowEvent.concerns] using hown
    simp only [step, ← hspeculations]
    split
    · exact h
    · exact view_setSpeculation h _ _
  | advance other _ instant reply =>
    obtain rfl : other = user := by simpa [ShadowEvent.concerns] using hown
    simp only [step, ← hspeculations]
    split
    · exact h
    next speculation hspeculation =>
    have hlookup : ∀ key, speculation.key D.letters = some key →
        s.engine.cache.lookup key = t.engine.cache.lookup key := by
      intro key hkey
      exact hcache key ((hs.keys other key (by simp [uses, hspeculation, hkey])).mpr rfl)
    have hpermit : speculation.isWaiting = true → 0 < s.engine.permits ∧ 0 < t.engine.permits := by
      intro hwaiting
      exact ⟨hs.permit (by simp [acquires, hspeculation, hwaiting]),
        ht.permit (by simp [acquires, ← hspeculations, hspeculation, hwaiting])⟩
    obtain ⟨hleft, hkept⟩ := speculate_agrees config D.json other instant reply hlookup hpermit
    rw [hleft]
    refine view_setSpeculation ?_ _ _
    refine view_eq_iff.mpr ⟨fun key hmine => ?_, hconversations, hspeculations, hserved⟩
    exact hkept key (hcache key hmine)
  | prune instant =>
    refine view_eq_iff.mpr ⟨fun key hmine => ?_, hconversations, hspeculations, hserved⟩
    show (s.engine.pruneExpired config instant).cache.lookup key
      = (t.engine.pruneExpired config instant).cache.lookup key
    rw [lookup_pruneExpired, lookup_pruneExpired, hcache key hmine]

/-! ## Where an answer comes from -/

/-- The user's part of the cache, and what the user has been served, is from the user's own
turns. -/
structure FromOwnTurns (user : String) (mine : String → Bool) (s : ShadowUsers R) : Prop where
  cache : ∀ key entry, mine key = true → s.engine.cache.lookup key = some entry →
    entry.speculatedFor = user
  served : ∀ served ∈ s.servedTo user, served.entry.speculatedFor = user

section

variable (h : s.FromOwnTurns user mine)

include h

theorem FromOwnTurns.sub
    (hsub : Sub t.engine.cache s.engine.cache) (hserved : t.servedTo user = s.servedTo user) :
    t.FromOwnTurns user mine where
  cache key entry hmine hentry := h.cache key entry hmine (hsub key entry hentry)
  served := hserved ▸ h.served

theorem FromOwnTurns.of_view
    (hview : t.view user mine = s.view user mine) : t.FromOwnTurns user mine := by
  obtain ⟨hcache, -, -, hserved⟩ := view_eq_iff.mp hview
  refine ⟨fun key entry hmine hentry => h.cache key entry hmine ?_, hserved ▸ h.served⟩
  rwa [← hcache key hmine]

theorem FromOwnTurns.lookUpInput {instant : Nat} {env : Env R}
    {i : UserInput} (hkey : mine (normalize D.letters i.content) = true) :
    (s.lookUpInput config D monitor user thread instant env i).FromOwnTurns user mine := by
  have hsub : Sub (s.engine.tryGet config D.letters instant i.content).2.cache
    s.engine.cache := tryGet_sub
  have hfound : ∀ entry, (s.engine.tryGet config D.letters instant i.content).1 = some entry →
      entry.speculatedFor = user := fun entry hentry =>
    h.cache _ entry hkey (lookup_of_tryGet hentry)
  unfold ShadowUsers.lookUpInput
  generalize s.engine.tryGet config D.letters instant i.content = got at hsub hfound
  obtain ⟨_ | entry, engine⟩ := got
  · exact h.sub hsub rfl
  refine ⟨fun key entry hmine hentry => h.cache key entry hmine (hsub key entry hentry), ?_⟩
  intro served hserved
  obtain ⟨hmem, hto⟩ := mem_filter.mp hserved
  rcases mem_cons.mp hmem with rfl | hbefore
  · exact hfound entry rfl
  · exact h.served served (mem_filter.mpr ⟨hbefore, hto⟩)

theorem FromOwnTurns.advance (number instant : Nat) (reply : Except String String) :
    (s.step config D monitor (.advance user number instant reply)).FromOwnTurns user mine := by
  simp only [step]
  split
  · exact h
  next speculation hspeculation =>
  refine ⟨fun key entry hmine hentry => ?_, h.served⟩
  change (speculateForNextTurn config D.json D.letters user s.engine instant reply
    speculation).1.cache.lookup key = some entry at hentry
  rw [speculate_cache] at hentry
  split at hentry
  · next stored response rest =>
    by_cases hsame : key = stored
    · rw [hsame, lookup_insert] at hentry
      cases hentry
      rfl
    · rw [lookup_insert_ne hsame] at hentry
      exact h.cache key entry hmine hentry
  · exact h.cache key entry hmine hentry

theorem FromOwnTurns.step (hapart : s.Apart D.letters user mine event) :
    (s.step config D monitor event).FromOwnTurns user mine := by
  cases hconcerns : event.concerns user with
  | false => exact h.of_view (view_step_of_unconcerned hconcerns hapart)
  | true =>
    cases event with
    | command other =>
      obtain rfl : other = user := by simpa [ShadowEvent.concerns] using hconcerns
      simp only [step]
      split
      · next i horder hadmits =>
        refine h.lookUpInput ?_
        exact (hapart.keys other _ (by simp [uses, horder])).mpr rfl
      · exact h.sub (Sub.refl _) rfl
    | speculate =>
      simp only [step]
      split
      · exact h
      · exact h.sub (Sub.refl _) rfl
    | advance other number instant reply =>
      obtain rfl : other = user := by simpa [ShadowEvent.concerns] using hconcerns
      exact h.advance number instant reply
    | prune instant =>
      refine h.sub ?_ rfl
      show Sub (s.engine.pruneExpired config instant).cache s.engine.cache
      unfold pruneExpired
      split
      · exact Sub.refl _
      · exact retain_sub _ _

end

/-! ## Two histories -/

/-- Where the prompts of the user are apart from those of others, two histories with the same
events of the user's give the user the same conversations and the same answers from the cache,
and these answers are from the user's own turns. -/
theorem run_isolated (config : ShadowConfig) (D : Deps) (monitor : ContextMonitor)
    (user : String) (mine : String → Bool)
    (conversations conversations' : String → String → Conversation R)
    (hconversations : conversations user = conversations' user)
    (history history' : List (ShadowEvent R))
    (hapart : Guarded (step config D monitor) (Apart D.letters user mine)
      (new config conversations) history)
    (hapart' : Guarded (step config D monitor) (Apart D.letters user mine)
      (new config conversations') history')
    (hown : history.filter (·.concerns user) = history'.filter (·.concerns user)) :
    let s := run (step config D monitor) (new config conversations) history
    let s' := run (step config D monitor) (new config conversations') history'
    s.conversations user = s'.conversations user ∧ s.servedTo user = s'.servedTo user
      ∧ ∀ served ∈ s.servedTo user, served.entry.speculatedFor = user := by
  intro s s'
  have hnew : (new config conversations).view user mine
      = (new config conversations').view user mine :=
    view_eq_iff.mpr ⟨fun _ _ => rfl, hconversations, rfl, rfl⟩
  have hview : s.view user mine = s'.view user mine :=
    view_run (fun _ _ => view_step_of_unconcerned) (fun _ _ _ => view_step) hapart hapart' hown hnew
  obtain ⟨-, hsame, -, hserved⟩ := view_eq_iff.mp hview
  have hfrom : s.FromOwnTurns user mine :=
    invariant_run (fun _ _ h hstep => h.step hstep)
      ⟨(fun _ _ _ hentry => by cases hentry), fun _ hserved => absurd hserved not_mem_nil⟩ hapart
  exact ⟨hsame, hserved, hfrom.served⟩

/-- The settings' defaults, switched on. -/
def shadowOn : ShadowConfig where
  enabled := true
  ttl := 900000000000
  maxPredictions := 3
  minInputChars := 20
  maxParallel := 2

def speculated (user userInput assistantResponse prediction answer : String) :
    List (ShadowEvent Unit) :=
  [ .speculate user 0 userInput assistantResponse, .advance user 0 1 (.ok ""),
    .advance user 0 2 (.ok prediction), .advance user 0 3 (.ok ""),
    .advance user 0 4 (.ok answer), .advance user 0 5 (.ok ""), .advance user 0 6 (.ok "") ]

def asks (user content : String) : ShadowEvent Unit :=
  .command user "t" 7 ⟨smallEnv, .input ⟨⟨user, "cli", content⟩, content, .agentic, ⟨.ok "", none⟩⟩⟩

/-- From a turn of Alice's it is predicted that the next input asks for the menu. -/
def aliceAlone : List (ShadowEvent Unit) :=
  speculated "alice" "Where do we eat tonight?" "At Luigi's." "Is there a menu?" "Yes, online."
    ++ [asks "alice" "is there  a menu?"]

def bobsLaunch : List (ShadowEvent Unit) :=
  speculated "bob" "Plan the launch of the site." "It is set for May 3." "When do we launch?"
    "On May 3."

def oneEach : String → String → Conversation Unit := fun _ _ => newConversation

/-- Bob's turns do not matter to Alice, since nothing predicted for Bob asks for the menu. -/
theorem bobsLaunch_apart :
    (run (step shadowOn pipedDeps quietMonitor) (new shadowOn oneEach)
        (bobsLaunch ++ aliceAlone)).servedTo "alice"
      = (run (step shadowOn pipedDeps quietMonitor) (new shadowOn oneEach)
        aliceAlone).servedTo "alice" :=
  (run_isolated shadowOn pipedDeps quietMonitor "alice" (· == "is there a menu?") oneEach oneEach
    rfl (bobsLaunch ++ aliceAlone) aliceAlone (by decide) (by decide) rfl).2.1

/-- Alice asks what was predicted for Bob, and is answered from Bob's turn; without that turn
the cache has no answer. -/
theorem alice_served_bobs :
    (bobsLaunch ++ [asks "alice" "When do we launch?"]).filter (·.concerns "alice")
        = [asks "alice" "When do we launch?"]
      ∧ (let s := run (step shadowOn pipedDeps quietMonitor) (new shadowOn oneEach)
          (bobsLaunch ++ [asks "alice" "When do we launch?"])
        (s.servedTo "alice").map (·.entry) = [⟨"On May 3.", 5, "bob"⟩]
          ∧ (s.conversations "alice" "t").thread.turns.map (·.response) = [some "On May 3."])
      ∧ (let s := run (step shadowOn pipedDeps quietMonitor) (new shadowOn oneEach)
          [asks "alice" "When do we launch?"]
        s.servedTo "alice" = []
          ∧ (s.conversations "alice" "t").thread.turns.map (·.response) = [none]) := by
  refine ⟨rfl, ?_, ?_⟩
  · decide
  · decide

end ShadowUsers

end TitanClaw.Agent
