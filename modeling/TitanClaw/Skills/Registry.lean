import TitanClaw.Lib.FileProg
import TitanClaw.Skills.Attenuation

/-! # The skill registry

Discovery, installation and removal of skills. A disk says what stands at each
path; the order in which a directory lists its entries, the faults of single
file operations and the answers to gating probes come from outside. -/

namespace TitanClaw.Skills

open Text

/-! ## The disk -/

inductive FileContent where
  | text (s : String)
  | invalidUtf8 (size : Nat) (reason : String)
  deriving DecidableEq

def FileContent.size : FileContent → Nat
  | .text s => len s
  | .invalidUtf8 size _ => size

/-- What stands at a path; a symbolic link may have a target or not. -/
inductive Node where
  | absent
  | dir
  | file (content : FileContent)
  | symlink (live : Bool)
  | other
  deriving DecidableEq

abbrev Disk := PathBuf → Node

def setNode (disk : Disk) (path : PathBuf) (node : Node) : Disk :=
  fun p => if p = path then node else disk p

inductive FsOp where
  | tryExists
  | readDir
  | symlinkMetadata
  | read
  | createDirAll
  | write
  | removeFile
  | removeDir
  deriving DecidableEq

structure Outside where
  fault : FsOp → PathBuf → Option String
  listing : PathBuf → List String
  binaryExists : String → Bool
  envVarSet : String → Bool
  configExists : String → Bool
  /-- The gating task could not be joined, with the message. -/
  gatingTaskLost : Option String

/-- Nothing fails, and the given directories list the given names. -/
def Outside.quiet (listing : PathBuf → List String) : Outside where
  fault := fun _ _ => none
  listing := listing
  binaryExists := fun _ => true
  envVarSet := fun _ => true
  configExists := fun _ => true
  gatingTaskLost := none

variable (out : Outside)

/-- `try_exists(..).unwrap_or(false)`: follows links. -/
def tryExists (disk : Disk) (path : PathBuf) : Bool :=
  match out.fault .tryExists path, disk path with
  | some _, _ => false
  | none, .absent => false
  | none, .symlink live => live
  | none, _ => true

variable (path : PathBuf)

def createDirAll : Prog Disk String Unit := ⟨fun disk =>
  let blocks (node : Node) : Bool := match node with
    | .absent | .dir | .symlink true => false
    | _ => true
  match out.fault .createDirAll path with
  | some e => (.error e, disk)
  | none =>
      if blocks (disk path) then (.error "File exists (os error 17)", disk)
      else if path.inits.any fun p => blocks (disk p) then
        (.error "Not a directory (os error 20)", disk)
      else (.ok (), fun p => if p <+: path ∧ disk p = .absent then .dir else disk p)⟩

/-- `fs::write`; through a link it changes what the link points at. -/
def writeFile (text : String) : Prog Disk String Unit :=
  ⟨fun disk =>
    match out.fault .write path, disk path with
    | some e, _ => (.error e, disk)
    | none, .dir => (.error "Is a directory (os error 21)", disk)
    | none, .symlink _ => (.ok (), setNode disk path (.symlink true))
    | none, .other => (.ok (), disk)
    | none, _ => (.ok (), setNode disk path (.file (.text text)))⟩

def removeFile : Prog Disk String Unit := ⟨fun disk =>
  match out.fault .removeFile path, disk path with
  | some e, _ => (.error e, disk)
  | none, .absent => (.error "No such file or directory (os error 2)", disk)
  | none, .dir => (.error "Is a directory (os error 21)", disk)
  | none, _ => (.ok (), setNode disk path .absent)⟩

/-- `fs::remove_dir`: an empty directory only. -/
def removeDir : Prog Disk String Unit := ⟨fun disk =>
  match out.fault .removeDir path, disk path with
  | some e, _ => (.error e, disk)
  | none, .dir =>
      if (out.listing path).isEmpty then (.ok (), setNode disk path .absent)
      else (.error "Directory not empty (os error 39)", disk)
  | none, _ => (.error "Not a directory (os error 20)", disk)⟩

structure GatingResult where
  passed : Bool
  failures : List String

variable (requirements : GatingRequirements)

def checkRequirementsSync : GatingResult :=
  let failures :=
    (requirements.bins.filter (!out.binaryExists ·)).map ("required binary not found: " ++ ·)
      ++ (requirements.env.filter (!out.envVarSet ·)).map ("required env var not set: " ++ ·)
      ++ (requirements.config.filter (!out.configExists ·)).map ("required config not found: " ++ ·)
  ⟨failures.isEmpty, failures⟩

def checkRequirements : GatingResult :=
  match out.gatingTaskLost with
  | some message => ⟨false, [message]⟩
  | none => checkRequirementsSync out requirements

/-! ## Loading one file -/

inductive SkillRegistryError where
  | notFound (name : String)
  | readError (path reason : String)
  | parseError (name reason : String)
  | fileTooLarge (name : String) (size max : Nat)
  | symlinkDetected (path : String)
  | gatingFailed (name reason : String)
  | tokenBudgetExceeded (name : String) (approxTokens declared : Nat)
  | alreadyExists (name : String)
  | cannotRemove (name reason : String)
  | writeError (path reason : String)

/-- The libraries a skill file passes through: YAML, regular expressions,
SHA-256 and letter case. -/
structure Deps where
  Regex : Type
  fromYaml : String → Except String SkillManifest
  compileRegex : String → Option Regex
  sha256Hex : String → String
  letters : CaseMap

variable (D : Deps)

def compilePatterns (patterns : List String) : List D.Regex := patterns.filterMap D.compileRegex

def computeHash (content : String) : String := "sha256:" ++ D.sha256Hex content

/-- The error of a file that does not parse, under the given name unless the
file's own name is the trouble. -/
def ofParseError (name : String) (e : SkillParseError) : SkillRegistryError :=
  match e with
  | .invalidName bad => .parseError bad e.toText
  | _ => .parseError name e.toText

variable (out : Outside) (disk : Disk) (path : PathBuf)

def readSkillFile : Except SkillRegistryError String :=
  match out.fault .symlinkMetadata path, disk path with
  | some e, _ => .error (.readError path.display e)
  | none, .absent => .error (.readError path.display "No such file or directory (os error 2)")
  | none, .symlink _ => .error (.symlinkDetected path.display)
  | none, .dir => .error (.readError path.display "Is a directory (os error 21)")
  | none, .other => .error (.readError path.display "No such device or address (os error 6)")
  | none, .file content =>
      match out.fault .read path with
      | some e => .error (.readError path.display e)
      | none =>
          if content.size > maxPromptFileSize then
            .error (.fileTooLarge path.display content.size maxPromptFileSize)
          else
            match content with
            | .text s => .ok s
            | .invalidUtf8 _ reason =>
                .error (.readError path.display ("Invalid UTF-8: " ++ reason))

variable (parsed : ParsedSkill)

def checkSkill : Except SkillRegistryError Unit :=
  let manifest := parsed.manifest
  let gating := match manifest.metadata.bind (·.openclaw) with
    | some openclaw => checkRequirements out openclaw.requires
    | none => ⟨true, []⟩
  if !gating.passed then .error (.gatingFailed manifest.name ("; ".intercalate gating.failures))
  else
    let approxTokens := len parsed.promptContent / 4
    let declared := manifest.activation.maxContextTokens
    if declared > 0 ∧ approxTokens > declared * 2 % 2 ^ 64 then
      .error (.tokenBudgetExceeded manifest.name approxTokens declared)
    else .ok ()

def validSkill : Except SkillRegistryError ParsedSkill := do
  let rawContent ← readSkillFile out disk path
  let parsed ← (parseSkillMd D.fromYaml (normalizeLineEndings rawContent)).mapError
    (ofParseError path.display)
  checkSkill out parsed
  return parsed

def LoadedSkill.ofParsed (trust : SkillTrust) (source : SkillSource) : LoadedSkill D.Regex where
  manifest := parsed.manifest
  promptContent := parsed.promptContent
  trust := trust
  source := source
  contentHash := computeHash D parsed.promptContent
  compiledPatterns := compilePatterns D parsed.manifest.activation.patterns
  lowercasedKeywords := parsed.manifest.activation.keywords.map D.letters.toLowercase
  lowercasedTags := parsed.manifest.activation.tags.map D.letters.toLowercase

def loadAndValidateSkill (trust : SkillTrust)
    (source : SkillSource) : Except SkillRegistryError (String × LoadedSkill D.Regex) := do
  let parsed ← validSkill D out disk path
  return (parsed.manifest.name, LoadedSkill.ofParsed D parsed trust source)

/-! ## Discovery -/

def maxDiscoveredSkills : Nat := 100

structure SkillRegistry (R : Type) where
  skills : List (LoadedSkill R)
  userDir : PathBuf
  workspaceDir : Option PathBuf

variable {R : Type} (userDir : PathBuf)

def SkillRegistry.new (workspaceDir : Option PathBuf) : SkillRegistry R :=
  ⟨[], userDir, workspaceDir⟩

def SkillRegistry.has (r : SkillRegistry R) (name : String) : Bool := r.skills.any (·.name == name)

/-- A skill file that discovery opens, with the source its skill gets. -/
structure Candidate where
  source : SkillSource
  skillMd : PathBuf

/-- The skill files of one directory that discovery opens, in order:
`dir/<entry>/SKILL.md` and `dir/SKILL.md`. The cap counts a file before it is
loaded, so one that fails to load counts too. -/
def candidatesIn (dir : PathBuf) (makeSource : PathBuf → SkillSource) : List Candidate :=
  if !tryExists out disk dir then []
  else
    match out.fault .readDir dir, disk dir with
    | none, .dir | none, .symlink _ => go 0 (out.listing dir)
    | _, _ => []
where
  go (count : Nat) : List String → List Candidate
    | [] => []
    | entry :: rest =>
        if count ≥ maxDiscoveredSkills then []
        else
          let path := dir.join entry
          match out.fault .symlinkMetadata path, disk path with
          | none, .dir =>
              let skillMd := path.join "SKILL.md"
              if tryExists out disk skillMd then ⟨makeSource path, skillMd⟩ :: go (count + 1) rest
              else go count rest
          | none, .file _ =>
              if entry = "SKILL.md" then ⟨makeSource dir, path⟩ :: go (count + 1) rest
              else go count rest
          -- failed to stat, or a symlink
          | _, _ => go count rest

def loadCandidate (trust : SkillTrust) (c : Candidate) : Option (String × LoadedSkill D.Regex) :=
  (loadAndValidateSkill D out disk c.skillMd trust c.source).toOption

/-- The skills of one directory; files that fail to load are skipped. -/
def discoverFromDir (dir : PathBuf) (trust : SkillTrust)
    (makeSource : PathBuf → SkillSource) : List (String × LoadedSkill D.Regex) :=
  (candidatesIn out disk dir makeSource).filterMap (loadCandidate D out disk trust)

/-- Keep a discovered skill unless its name has been seen; the names loaded so
far are the names seen. -/
def keepUnseen (acc : List String × List (LoadedSkill R))
    (found : String × LoadedSkill R) : List String × List (LoadedSkill R) :=
  if acc.1.contains found.1 then acc else (acc.1 ++ [found.1], acc.2 ++ [found.2])

variable (r : SkillRegistry D.Regex)

/-- Load the skills of the workspace directory, then of the user directory; the
earlier wins on a name collision. -/
def discoverAll : List String × SkillRegistry D.Regex :=
  let wsSkills := match r.workspaceDir with
    | some wsDir => discoverFromDir D out disk wsDir .trusted .workspace
    | none => []
  let acc := wsSkills.foldl keepUnseen ([], r.skills)
  let userSkills := discoverFromDir D out disk r.userDir .trusted .user
  let acc := userSkills.foldl keepUnseen acc
  (acc.1, { r with skills := acc.2 })

/-- Clear all loaded skills and discover again. -/
def reload : List String × SkillRegistry D.Regex := discoverAll D out disk { r with skills := [] }

def prepareInstallToDisk (skillName normalizedContent : String) :
    Prog Disk SkillRegistryError (String × LoadedSkill D.Regex) := do
  let skillDir := userDir.join skillName
  (createDirAll out skillDir).mapError (.writeError skillDir.display)
  let skillPath := skillDir.join "SKILL.md"
  (writeFile out skillPath normalizedContent).mapError (.writeError skillPath.display)
  ⟨fun disk => (loadAndValidateSkill D out disk skillPath .installed (.user skillDir), disk)⟩

variable (name : String)

def commitInstall (skill : LoadedSkill R) (r : SkillRegistry R) :
    Except SkillRegistryError (SkillRegistry R) :=
  if r.has name then .error (.alreadyExists name)
  else .ok { r with skills := r.skills ++ [skill] }

/-- An install up to the point where the registry is changed: parse, look for
the name, write, load. -/
def prepareInstall (content : String) (r : SkillRegistry D.Regex) :
    Prog Disk SkillRegistryError (String × LoadedSkill D.Regex) :=
  let normalized := normalizeLineEndings content
  match parseSkillMd D.fromYaml normalized with
  | .error e => Prog.fail (ofParseError "(install)" e)
  | .ok parsed =>
      if r.has parsed.manifest.name then Prog.fail (.alreadyExists parsed.manifest.name)
      else prepareInstallToDisk D out r.userDir parsed.manifest.name normalized

def installSkill (content : String) (disk : Disk) (r : SkillRegistry D.Regex) :
    Except SkillRegistryError String × Disk × SkillRegistry D.Regex :=
  match (prepareInstall D out content r).exec disk with
  | (.error e, disk) => (.error e, disk, r)
  | (.ok (name, skill), disk) =>
      match commitInstall name skill r with
      | .error e => (.error e, disk, r)
      | .ok r => (.ok name, disk, r)

def validateRemove (r : SkillRegistry R) : Except SkillRegistryError PathBuf :=
  match r.skills.find? (·.name == name) with
  | none => .error (.notFound name)
  | some skill =>
      match skill.source with
      | .user path => .ok path
      | .workspace _ =>
          .error (.cannotRemove name "workspace skills cannot be removed via this interface")
      | .bundled _ => .error (.cannotRemove name "bundled skills cannot be removed")

def deleteSkillFiles (path : PathBuf) : Prog Disk SkillRegistryError Unit :=
  ⟨fun disk =>
    let skillMd := path.join "SKILL.md"
    if tryExists out disk skillMd then
      match (removeFile out skillMd).exec disk with
      | (.error e, disk) => (.error (.writeError skillMd.display e), disk)
      | (.ok (), disk) => (.ok (), ((removeDir out path).exec disk).2)
    else (.ok (), disk)⟩

/-- Drop the first skill of that name. -/
def commitRemove (r : SkillRegistry R) : Except SkillRegistryError (SkillRegistry R) :=
  if r.has name then .ok { r with skills := r.skills.eraseP (·.name == name) }
  else .error (.notFound name)

def removeSkill (out : Outside) (name : String) (disk : Disk)
    (r : SkillRegistry R) : Except SkillRegistryError Unit × Disk × SkillRegistry R :=
  match validateRemove name r with
  | .error e => (.error e, disk, r)
  | .ok path =>
      match (deleteSkillFiles out path).exec disk with
      | (.error e, disk) => (.error e, disk, r)
      | (.ok (), disk) =>
          match commitRemove name r with
          | .error e => (.error e, disk, r)
          | .ok r => (.ok (), disk, r)

end TitanClaw.Skills
