import TitanClaw.Lib.Run
import TitanClaw.Skills.Registry

/-! # Does an installed skill stay below the ceiling?

Installing a skill writes its file into the user directory and loads it with
trust `installed`. Discovery finds the same file later and loads it as
`trusted`, whoever put it there. An installed skill therefore keeps its trust
exactly as long as no discovery finds its file first under its name. -/

namespace TitanClaw.Skills

open List Option Run Prog SkillRegistry

variable {D : Deps}

/-! ## What discovery finds -/

variable (out : Outside) (disk : Disk)

/-- The skill files a discovery opens: workspace first, then user. -/
def candidates (userDir : PathBuf) (workspaceDir : Option PathBuf) : List Candidate :=
  (match workspaceDir with
    | some wsDir => candidatesIn out disk wsDir .workspace
    | none => [])
    ++ candidatesIn out disk userDir .user

def declares (D : Deps) (out : Outside) (disk : Disk) (name : String) (c : Candidate) : Bool :=
  match validSkill D out disk c.skillMd with
  | .ok parsed => parsed.manifest.name == name
  | .error _ => false

theorem loadCandidate_eq (trust : SkillTrust) (c : Candidate) :
    loadCandidate D out disk trust c
      = (validSkill D out disk c.skillMd).toOption.map fun parsed =>
          (parsed.manifest.name, LoadedSkill.ofParsed D parsed trust c.source) := by
  rw [loadCandidate, loadAndValidateSkill]
  cases validSkill D out disk c.skillMd <;> rfl

variable (r : SkillRegistry D.Regex)

theorem discoverAll_skills :
    (discoverAll D out disk r).2.skills
      = (((candidates out disk r.userDir r.workspaceDir).filterMap
          (loadCandidate D out disk .trusted)).foldl keepUnseen ([], r.skills)).2 := by
  simp only [discoverAll, candidates, filterMap_append, foldl_append, discoverFromDir]
  cases r.workspaceDir <;> rfl

variable {R : Type}

/-- A skill that discovery adds is the first one found under its name. -/
theorem mem_foldl_keepUnseen {found : List (String × LoadedSkill R)}
    {acc : List String × List (LoadedSkill R)} {s : LoadedSkill R}
    (h : s ∈ (found.foldl keepUnseen acc).2) :
    s ∈ acc.2 ∨ ∃ name, name ∉ acc.1 ∧ found.find? (·.1 == name) = some (name, s) := by
  induction found generalizing acc with
  | nil => exact .inl h
  | cons f _ ih =>
    have hrest := ih h
    by_cases hseen : acc.1.contains f.1 = true
    · rw [keepUnseen, if_pos hseen] at hrest
      rcases hrest with hold | ⟨name, hname, hfind⟩
      · exact .inl hold
      have hne : (f.1 == name) = false := by
        rw [beq_eq_false_iff_ne]
        rintro rfl
        exact hname (by simpa using hseen)
      exact .inr ⟨name, hname, by rw [find?_cons, hne]; exact hfind⟩
    · rw [keepUnseen, if_neg hseen] at hrest
      simp only [mem_append, mem_singleton, not_or] at hrest
      rcases hrest with (hold | hnew) | ⟨name, ⟨hname, hdiff⟩, hfind⟩
      · exact .inl hold
      · refine .inr ⟨f.1, by simpa using hseen, ?_⟩
        rw [find?_cons, beq_self_eq_true, hnew]
      · have hne : (f.1 == name) = false := by
          rw [beq_eq_false_iff_ne]
          exact fun heq => hdiff heq.symm
        exact .inr ⟨name, hname, by rw [find?_cons, hne]; exact hfind⟩

theorem any_loadCandidate (trust : SkillTrust) (c : Candidate) (name : String) :
    (loadCandidate D out disk trust c).any (·.1 == name) = declares D out disk name c := by
  rw [loadCandidate_eq, declares]
  cases validSkill D out disk c.skillMd <;> rfl

variable {out disk r}

/-- **What discovery adds**: under each name, the first candidate that declares
it, and that one is trusted. -/
theorem mem_discoverAll {s : LoadedSkill D.Regex} (h : s ∈ (discoverAll D out disk r).2.skills) :
    s ∈ r.skills
      ∨ ∃ c, (candidates out disk r.userDir r.workspaceDir).find?
            (declares D out disk s.name) = some c
          ∧ s.source = c.source ∧ s.trust = .trusted := by
  rw [discoverAll_skills] at h
  rcases mem_foldl_keepUnseen h with hold | ⟨name, -, hfind⟩
  · exact .inl hold
  rw [find?_filterMap] at hfind
  simp only [any_loadCandidate] at hfind
  obtain ⟨c, hc, hload⟩ := bind_eq_some_iff.mp hfind
  rw [loadCandidate_eq, map_eq_some_iff] at hload
  obtain ⟨parsed, -, hpair⟩ := hload
  cases hpair
  exact .inr ⟨c, hc, rfl, rfl⟩

/-! ## What an install leaves -/

variable {name : String}

theorem mem_commitInstall {skill : LoadedSkill R}
    {r r' : SkillRegistry R} (h : commitInstall name skill r = .ok r') :
    r.has name = false ∧ r' = { r with skills := r.skills ++ [skill] } := by
  rw [commitInstall] at h
  split at h
  · cases h
  rename_i hhas
  cases h
  exact ⟨by simpa using hhas, rfl⟩

variable {skill : LoadedSkill D.Regex} {path : PathBuf}

theorem loadAndValidateSkill_ok {trust : SkillTrust} {source : SkillSource}
    (h : loadAndValidateSkill D out disk path trust source = .ok (name, skill)) :
    ∃ parsed, validSkill D out disk path = .ok parsed
      ∧ name = parsed.manifest.name ∧ skill = LoadedSkill.ofParsed D parsed trust source := by
  rw [loadAndValidateSkill] at h
  cases hv : validSkill D out disk path with
  | error =>
    rw [hv] at h
    cases h
  | ok parsed =>
    rw [hv] at h
    cases h
    exact ⟨parsed, rfl, rfl, rfl⟩

theorem readSkillFile_ok {s : String}
    (h : readSkillFile out disk path = .ok s) : disk path = .file (.text s) := by
  rw [readSkillFile] at h
  split at h
  case h_6 _ _ content _ hnode =>
    -- the only branch that gets to the contents
    split at h
    · cases h
    split at h
    · cases h
    split at h
    · cases h
      exact hnode
    · cases h
  all_goals cases h

theorem validSkill_ok {parsed : ParsedSkill} (h : validSkill D out disk path = .ok parsed) :
    ∃ s, disk path = .file (.text s)
      ∧ parseSkillMd D.fromYaml (normalizeLineEndings s) = .ok parsed := by
  rw [validSkill] at h
  cases hread : readSkillFile out disk path with
  | error =>
    rw [hread] at h
    cases h
  | ok s =>
    rw [hread] at h
    refine ⟨s, readSkillFile_ok hread, ?_⟩
    cases hparse : parseSkillMd D.fromYaml (normalizeLineEndings s) with
    | error =>
      simp only [bind, Except.bind, hparse, Except.mapError] at h
      cases h
    | ok p =>
      simp only [bind, Except.bind, hparse, Except.mapError] at h
      cases hcheck : checkSkill out p with
      | error =>
        rw [hcheck] at h
        cases h
      | ok =>
        rw [hcheck] at h
        cases h
        rfl

theorem writeFile_file {text s : String} {disk disk' : Disk}
    (h : (writeFile out path text).exec disk = (.ok (), disk'))
    (hfile : disk' path = .file (.text s)) : s = text := by
  simp only [writeFile] at h
  split at h
  · cases h
  · cases h
  · cases h
    simp [setNode] at hfile
  · rename_i hnode
    cases h
    rw [hnode] at hfile
    cases hfile
  · cases h
    simp only [setNode, if_true] at hfile
    cases hfile
    rfl

/-- **What an install prepares**: a skill with trust `installed`, under the name
its content declares, from the directory of that name. -/
theorem prepareInstall_ok {content : String} {disk disk' : Disk}
    (h : (prepareInstall D out content r).exec disk = (.ok (name, skill), disk')) :
    skill.trust = .installed ∧ skill.name = name ∧ skill.source = .user (r.userDir.join name) := by
  rw [prepareInstall] at h
  split at h
  · cases h
  rename_i parsed hparse
  split at h
  · cases h
  obtain ⟨_, disk₁, hcreate, h⟩ := bind_ok h
  obtain ⟨u, disk₂, hwrite, h⟩ := bind_ok h
  obtain ⟨hload, rfl⟩ := Prod.mk.inj h
  obtain ⟨parsed', hvalid, rfl, rfl⟩ := loadAndValidateSkill_ok hload
  obtain ⟨s, hfile, hparse'⟩ := validSkill_ok hvalid
  -- the file holds the normalised content, so it declares the same name
  have hs : s = normalizeLineEndings content := by
    simp only [Prog.mapError] at hwrite
    split at hwrite
    · rename_i hexec
      cases hwrite
      exact writeFile_file hexec hfile
    · cases hwrite
  rw [hs, normalizeLineEndings_idem, hparse] at hparse'
  cases hparse'
  exact ⟨rfl, rfl, rfl⟩

/-! ## Histories -/

/-- An operation on the registry. An install may come in two halves, with other
operations in between; anyone may change files on the disk. -/
inductive Op where
  | install (content : String)
  | prepare (content : String)
  | commit (i : Nat)
  | remove (name : String)
  | deleteFiles (path : PathBuf)
  | commitRemove (name : String)
  | discoverAll
  | reload
  | restart
  | diskChange (disk : Disk)

/-- An operation with what it gets from outside. -/
structure Call where
  op : Op
  out : Outside

/-- The disk, the registry, and the installs that are prepared and not yet
committed. -/
structure Machine (D : Deps) where
  disk : Disk
  registry : SkillRegistry D.Regex
  prepared : List (String × LoadedSkill D.Regex) := []

/-- What a failed operation returns leaves the registry as it was. -/
def orKeep (r : SkillRegistry R)
    (result : Except SkillRegistryError (SkillRegistry R)) : SkillRegistry R :=
  match result with
  | .ok r' => r'
  | .error _ => r

variable (m : Machine D) (c : Call)

def Machine.step : Machine D :=
  match c.op with
  | .install content =>
      let result := installSkill D c.out content m.disk m.registry
      { m with disk := result.2.1, registry := result.2.2 }
  | .prepare content =>
      match (prepareInstall D c.out content m.registry).exec m.disk with
      | (.ok install, disk) => { m with disk := disk, prepared := install :: m.prepared }
      | (.error _, disk) => { m with disk := disk }
  | .commit i =>
      match m.prepared[i]? with
      | some (name, skill) =>
          { m with
            registry := orKeep m.registry (commitInstall name skill m.registry)
            prepared := m.prepared.eraseIdx i }
      | none => m
  | .remove name =>
      let result := removeSkill c.out name m.disk m.registry
      { m with disk := result.2.1, registry := result.2.2 }
  | .deleteFiles path => { m with disk := ((deleteSkillFiles c.out path).exec m.disk).2 }
  | .commitRemove name =>
      { m with registry := orKeep m.registry (commitRemove name m.registry) }
  | .discoverAll => { m with registry := (discoverAll D c.out m.disk m.registry).2 }
  | .reload => { m with registry := (reload D c.out m.disk m.registry).2 }
  | .restart =>
      let fresh := new m.registry.userDir m.registry.workspaceDir
      { m with registry := (discoverAll D c.out m.disk fresh).2, prepared := [] }
  | .diskChange disk => { m with disk := disk }

def installedBy : Option (LoadedSkill D.Regex) :=
  match c.op with
  | .install content =>
      match (prepareInstall D c.out content m.registry).exec m.disk with
      | (.ok (name, skill), _) => if m.registry.has name then none else some skill
      | (.error _, _) => none
  | .commit i =>
      match m.prepared[i]? with
      | some (name, skill) => if m.registry.has name then none else some skill
      | none => none
  | _ => none

/-- The operation looks for skill files on the disk. -/
def Op.discovers : Op → Bool
  | .discoverAll | .reload | .restart => true
  | _ => false

/-- The first valid skill file on the disk that declares the name, in the order
in which discovery opens them. -/
def firstDeclaring (out : Outside) (name : String) : Option Candidate :=
  (candidates out m.disk m.registry.userDir m.registry.workspaceDir).find?
    (declares D out m.disk name)

/-- The condition on a step: a discovery does not come to the skill's file as
the first valid one that declares the skill's name. -/
def PassesBy (skill : LoadedSkill D.Regex) (m : Machine D) (c : Call) : Prop :=
  c.op.discovers = true →
    ∀ found, firstDeclaring m c.out skill.name = some found → found.source.path ≠ skill.source.path

/-- Prepared installs hold a skill with trust `installed`, under its own name. -/
def PreparedInstalled : Prop := ∀ p ∈ m.prepared, p.2.trust = .installed ∧ p.2.name = p.1

theorem step_preparedInstalled (h : PreparedInstalled m) : PreparedInstalled (m.step c) := by
  obtain ⟨op, out⟩ := c
  cases op with
  | prepare content =>
    simp only [Machine.step]
    split
    · rename_i install disk' hexec
      intro p hp
      rcases mem_cons.mp hp with rfl | hp
      · obtain ⟨htrust, hname, -⟩ := prepareInstall_ok hexec
        exact ⟨htrust, hname⟩
      · exact h p hp
    · exact h
  | commit =>
    simp only [Machine.step]
    split
    · intro p hp
      exact h p (mem_of_mem_eraseIdx hp)
    · exact h
  | restart =>
    intro p hp
    cases hp
  | _ =>
    -- the other operations leave the prepared installs alone
    simp only [Machine.step, PreparedInstalled]
    exact h

variable {m c}

theorem installedBy_spec (hprep : PreparedInstalled m) (h : installedBy m c = some skill) :
    skill.trust = .installed ∧ m.registry.has skill.name = false
      ∧ (m.step c).registry.skills = m.registry.skills ++ [skill] := by
  obtain ⟨op, out⟩ := c
  cases op with
  | install content =>
    simp only [installedBy] at h
    split at h
    · rename_i name skill' disk' hexec
      split at h
      · cases h
      rename_i hhas
      cases h
      obtain ⟨htrust, hname, -⟩ := prepareInstall_ok hexec
      refine ⟨htrust, by simpa [hname] using hhas, ?_⟩
      simp [Machine.step, installSkill, hexec, commitInstall, if_neg hhas]
    · cases h
  | commit i =>
    simp only [installedBy] at h
    split at h
    · rename_i name skill' hget
      split at h
      · cases h
      rename_i hhas
      cases h
      obtain ⟨htrust, hname⟩ := hprep _ (mem_of_getElem? hget)
      refine ⟨htrust, ?_, ?_⟩
      · replace hname : skill.name = name := hname
        simpa [hname] using hhas
      · simp [Machine.step, hget, commitInstall, if_neg hhas, orKeep]
    · cases h
  | _ => cases h

theorem mem_orKeep_commitInstall {skill s : LoadedSkill R}
    {r : SkillRegistry R} (h : s ∈ (orKeep r (commitInstall name skill r)).skills) :
    s ∈ r.skills ∨ r.has name = false ∧ s = skill := by
  cases hcommit : commitInstall name skill r with
  | error =>
    rw [hcommit] at h
    exact .inl h
  | ok =>
    obtain ⟨hhas, rfl⟩ := mem_commitInstall hcommit
    rw [hcommit] at h
    rcases mem_append.mp h with hold | hnew
    · exact .inl hold
    · exact .inr ⟨hhas, mem_singleton.mp hnew⟩

theorem mem_orKeep_commitRemove {s : LoadedSkill R}
    {r : SkillRegistry R} (h : s ∈ (orKeep r (commitRemove name r)).skills) : s ∈ r.skills := by
  rw [commitRemove] at h
  split at h
  · exact mem_of_mem_eraseP h
  · exact h

theorem installSkill_registry {content : String} {disk disk' : Disk}
    (h : (prepareInstall D out content r).exec disk = (.ok (name, skill), disk')) :
    (installSkill D out content disk r).2.2 = orKeep r (commitInstall name skill r) := by
  simp only [installSkill, h]
  cases commitInstall name skill r <;> rfl

theorem mem_removeSkill {r : SkillRegistry R} {s : LoadedSkill R}
    (h : s ∈ (removeSkill out name disk r).2.2.skills) : s ∈ r.skills := by
  simp only [removeSkill] at h
  split at h
  · exact h
  split at h
  · exact h
  have hcommit : s ∈ (orKeep r (commitRemove name r)).skills := by
    cases hc : commitRemove name r with
    | error | ok => rwa [hc] at h
  exact mem_orKeep_commitRemove hcommit

/-- **One step.** A skill that is loaded afterwards was loaded before, or is the
one this call installs, or this call is a discovery and the skill's file is the
first that declares its name. -/
theorem mem_step_skills {s : LoadedSkill D.Regex} (h : s ∈ (m.step c).registry.skills) :
    s ∈ m.registry.skills ∨ installedBy m c = some s
      ∨ c.op.discovers = true
        ∧ ∃ found, firstDeclaring m c.out s.name = some found ∧ s.source = found.source := by
  obtain ⟨op, out⟩ := c
  have hdiscover : ∀ skills, s ∈ (discoverAll D out m.disk
        { m.registry with skills := skills }).2.skills →
      s ∈ skills ∨ ∃ found, firstDeclaring m out s.name = some found ∧ s.source = found.source := by
    intro skills hmem
    rcases mem_discoverAll hmem with hold | ⟨found, hfind, hsource, -⟩
    · exact .inl hold
    · exact .inr ⟨found, hfind, hsource⟩
  cases op with
  | install content =>
    simp only [Machine.step] at h
    cases hexec : (prepareInstall D out content m.registry).exec m.disk with
    | mk result =>
      cases result with
      | error =>
        rw [installSkill, hexec] at h
        exact .inl h
      | ok =>
        rw [installSkill_registry hexec] at h
        rcases mem_orKeep_commitInstall h with hold | ⟨hhas, rfl⟩
        · exact .inl hold
        refine .inr (.inl ?_)
        simp [installedBy, hexec, hhas]
  | commit i =>
    cases hget : m.prepared[i]? with
    | none =>
      simp only [Machine.step, hget] at h
      exact .inl h
    | some =>
      simp only [Machine.step, hget] at h
      rcases mem_orKeep_commitInstall h with hold | ⟨hhas, rfl⟩
      · exact .inl hold
      refine .inr (.inl ?_)
      simp [installedBy, hget, hhas]
  | remove => exact .inl (mem_removeSkill h)
  | commitRemove => exact .inl (mem_orKeep_commitRemove h)
  | discoverAll =>
    rcases hdiscover m.registry.skills h with hold | hfound
    · exact .inl hold
    · exact .inr (.inr ⟨rfl, hfound⟩)
  | reload | restart =>
    rcases hdiscover [] h with hold | hfound
    · cases hold
    · exact .inr (.inr ⟨rfl, hfound⟩)
  | prepare =>
    refine .inl ?_
    simp only [Machine.step] at h
    split at h
    · exact h
    · exact h
  | deleteFiles | diskChange => exact .inl h

def StaysInstalled (skill : LoadedSkill D.Regex) (m : Machine D) : Prop :=
  ∀ s ∈ m.registry.skills, s.name = skill.name → s.source.path = skill.source.path →
    s.trust = .installed

theorem step_staysInstalled (m : Machine D) (c : Call)
    (hi : PreparedInstalled m ∧ StaysInstalled skill m) (hg : PassesBy skill m c) :
    PreparedInstalled (m.step c) ∧ StaysInstalled skill (m.step c) := by
  obtain ⟨hprep, hstay⟩ := hi
  refine ⟨step_preparedInstalled m c hprep, ?_⟩
  intro s hs hname hpath
  rcases mem_step_skills hs with hold | hnew | ⟨hop, found, hfind, hsource⟩
  · exact hstay s hold hname hpath
  · exact (installedBy_spec hprep hnew).1
  rw [hname] at hfind
  have hne := hg hop found hfind
  rw [hsource] at hpath
  exact absurd hpath hne

theorem install_staysInstalled (hprep : PreparedInstalled m) (h : installedBy m c = some skill) :
    StaysInstalled skill (m.step c) := by
  obtain ⟨htrust, hhas, hskills⟩ := installedBy_spec hprep h
  intro s hs hname _
  rw [hskills] at hs
  rcases mem_append.mp hs with hold | hnew
  · -- no skill of that name was loaded before
    have hany : m.registry.has skill.name = true := any_eq_true.mpr ⟨s, hold, by simpa using hname⟩
    rw [hhas] at hany
    cases hany
  · rw [mem_singleton.mp hnew]
    exact htrust

/-- **Installed skills stay below the ceiling** along every history in which no
discovery comes to the skill's file first: the skill is never loaded as trusted,
and the model sees read-only tools alone while it is active. -/
theorem installed_skill_stays_installed (m₀ : Machine D) (hfresh : m₀.prepared = [])
    (before after : List Call) (c : Call) (skill : LoadedSkill D.Regex)
    (hinst : installedBy (run Machine.step m₀ before) c = some skill)
    (hg : Guarded Machine.step (PassesBy skill) (run Machine.step m₀ (before ++ [c])) after) :
    skill.trust = .installed ∧ ∀ pre, pre <+: after →
      (∀ s ∈ (run Machine.step m₀ (before ++ [c] ++ pre)).registry.skills,
        s.name = skill.name → s.source.path = skill.source.path → s.trust ≠ .trusted)
      ∧ ∀ active tools,
          active ⊆ (run Machine.step m₀ (before ++ [c] ++ pre)).registry.skills →
          (∃ s ∈ active, s.name = skill.name ∧ s.source.path = skill.source.path) →
          ∀ t ∈ (attenuateTools tools active).tools, t.name ∈ readOnlyTools := by
  have hprep₀ : PreparedInstalled m₀ := by
    intro p hp
    rw [hfresh] at hp
    cases hp
  have hprep : PreparedInstalled (run Machine.step m₀ before) :=
    invariant_always step_preparedInstalled hprep₀ before
  have hstart : PreparedInstalled (run Machine.step m₀ (before ++ [c]))
      ∧ StaysInstalled skill (run Machine.step m₀ (before ++ [c])) := by
    rw [run_append, run_cons, run_nil]
    exact ⟨step_preparedInstalled _ c hprep, install_staysInstalled hprep hinst⟩
  refine ⟨(installedBy_spec hprep hinst).1, fun pre hpre => ?_⟩
  have hstay := (invariant_reached step_staysInstalled hstart hg hpre).2
  rw [run_append _ _ (before ++ [c])]
  constructor
  · intro s hs hname hpath htrusted
    rw [hstay s hs hname hpath] at htrusted
    cases htrusted
  · rintro active tools hsub ⟨s, hs, hname, hpath⟩
    exact attenuateTools_readOnly ⟨s, hs, hstay s (hsub hs) hname hpath⟩

/-! ## A skill that is installed and found again -/

/-- YAML for front matter that has only a name, and SHA-256 of the prompt below. -/
def sampleDeps : Deps where
  Regex := String
  fromYaml text :=
    match ["helper", "other"].find? fun name => text = "name: " ++ name ++ "\n" with
    | some name => .ok { name := name }
    | none => .error "missing field `name`"
  compileRegex := some
  sha256Hex := fun _ => "a2c064616af4c66c576821616646bdfad5556a263b4b007847605118971f4389"
  letters := Text.asciiCase

def skillText (name : String) : String := "---\nname: " ++ name ++ "\n---\n\nHello.\n"

def skillsDir : PathBuf := ["home", "skills"]

def emptyMachine : Machine sampleDeps where
  disk := fun p => if p <+: skillsDir then .dir else .absent
  registry := new skillsDir none

def bothListed : Outside := .quiet fun p => if p = skillsDir then ["helper", "other"] else []

/-- The file of the first skill cannot be read. -/
def helperUnreadable : Outside :=
  { bothListed with
    fault := fun op p =>
      if op = .read ∧ p = (skillsDir.join "helper").join "SKILL.md" then
        some "Permission denied (os error 13)"
      else none }

def installHelper : Call := ⟨.install (skillText "helper"), bothListed⟩

/-- The part of a skill that the ceiling depends on. -/
def standing (s : LoadedSkill sampleDeps.Regex) : String × SkillSource × SkillTrust :=
  (s.name, s.source, s.trust)

theorem installHelper_standing :
    (installedBy emptyMachine installHelper).map standing
      = some ("helper", .user (skillsDir.join "helper"), .installed) := by
  decide

/-- Another install, and a reload that cannot read the skill's file, leave the
first skill below the ceiling. -/
theorem helper_stays_installed :
    ∃ skill, installedBy emptyMachine installHelper = some skill
      ∧ ∀ s ∈ (run Machine.step emptyMachine ([] ++ [installHelper] ++
            [⟨.install (skillText "other"), bothListed⟩,
              ⟨.reload, helperUnreadable⟩])).registry.skills,
          s.name = skill.name → s.source.path = skill.source.path → s.trust ≠ .trusted := by
  obtain ⟨skill, hinst, hview⟩ := map_eq_some_iff.mp installHelper_standing
  have hname : skill.name = "helper" := (Prod.mk.inj hview).1
  have hnone : firstDeclaring (Machine.step
      (run Machine.step emptyMachine ([] ++ [installHelper]))
      ⟨.install (skillText "other"), bothListed⟩) helperUnreadable "helper" = none := by
    decide
  have hg : Guarded Machine.step (PassesBy skill)
      (run Machine.step emptyMachine ([] ++ [installHelper]))
      [⟨.install (skillText "other"), bothListed⟩, ⟨.reload, helperUnreadable⟩] := by
    simp only [Guarded, and_true]
    constructor
    · intro h
      cases h
    · intro _ found hfind
      simp only [hname, hnone] at hfind
      cases hfind
  exact ⟨skill, hinst,
    ((installed_skill_stays_installed emptyMachine rfl [] _ installHelper skill hinst hg).2 _
      prefix_rfl).1⟩

/-- **Discovery trusts what was installed**: after a plain reload the installed
skill is trusted, and the model gets the shell. -/
theorem reload_trusts_installed_helper :
    (installedBy emptyMachine installHelper).map standing
        = some ("helper", .user (skillsDir.join "helper"), .installed)
      ∧ (run Machine.step emptyMachine
          [installHelper, ⟨.reload, bothListed⟩]).registry.skills.map standing
        = [("helper", .user (skillsDir.join "helper"), .trusted)]
      ∧ ((attenuateTools [⟨"shell", "Run a shell command", .obj []⟩]
          (run Machine.step emptyMachine
            [installHelper, ⟨.reload, bothListed⟩]).registry.skills).tools.map (·.name))
        = ["shell"] := by
  refine ⟨installHelper_standing, ?_⟩
  decide

end TitanClaw.Skills
