import TitanClaw.Lib.Text

/-! # Skill files

A skill is a `SKILL.md` file: YAML front matter between `---` lines, and a
prompt below it. This module has the data a skill file declares, the limits put
on it, and the parser. YAML itself is a parameter. -/

namespace TitanClaw.Skills

open Text

def maxKeywordsPerSkill : Nat := 20

def maxPatternsPerSkill : Nat := 5

def maxTagsPerSkill : Nat := 10

def minKeywordTagLength : Nat := 3

def maxPromptFileSize : Nat := 64 * 1024

/-! ## Declared data -/

/-- When a skill is to be used. The defaults are those of a file without an
activation section, which declares no token budget. -/
structure ActivationCriteria where
  keywords : List String := []
  patterns : List String := []
  tags : List String := []
  maxContextTokens : Nat := 0
  deriving DecidableEq

/-- Drop short keywords and tags, then cut each list to its cap. -/
def ActivationCriteria.enforceLimits (a : ActivationCriteria) : ActivationCriteria :=
  { a with
    keywords := (a.keywords.filter (len · ≥ minKeywordTagLength)).take maxKeywordsPerSkill
    patterns := a.patterns.take maxPatternsPerSkill
    tags := (a.tags.filter (len · ≥ minKeywordTagLength)).take maxTagsPerSkill }

/-- What must be there for the skill to load. -/
structure GatingRequirements where
  bins : List String := []
  env : List String := []
  config : List String := []
  deriving DecidableEq

structure OpenClawMeta where
  requires : GatingRequirements := {}
  deriving DecidableEq

structure SkillMetadata where
  openclaw : Option OpenClawMeta := none
  deriving DecidableEq

structure SkillManifest where
  name : String
  version : String := "0.0.0"
  description : String := ""
  activation : ActivationCriteria := {}
  metadata : Option SkillMetadata := none

/-- `[a-zA-Z0-9][a-zA-Z0-9._-]{0,63}`, the whole name. -/
def validateSkillName (name : String) : Bool :=
  match name.toList with
  | [] => false
  | c :: cs =>
      c.isAlphanum && cs.length ≤ 63
        && cs.all fun c => c.isAlphanum || c == '.' || c == '_' || c == '-'

/-- `\r\n` as `\n`. -/
def replaceCrLf : List Char → List Char
  | '\r' :: '\n' :: cs => '\n' :: replaceCrLf cs
  | c :: cs => c :: replaceCrLf cs
  | [] => []

def normalizeLineEndings (content : String) : String :=
  String.ofList ((replaceCrLf content.toList).map fun c => if c = '\r' then '\n' else c)

theorem replaceCrLf_eq_self {cs : List Char} (h : '\r' ∉ cs) : replaceCrLf cs = cs := by
  fun_induction replaceCrLf cs with
  | case1 cs ih => simp at h
  | case2 c cs hc ih => rw [ih fun hmem => h (List.mem_cons_of_mem _ hmem)]
  | case3 => rfl

theorem normalizeLineEndings_idem (s : String) :
    normalizeLineEndings (normalizeLineEndings s) = normalizeLineEndings s := by
  have hnone : '\r' ∉ (normalizeLineEndings s).toList := by
    intro hmem
    simp only [normalizeLineEndings, String.toList_ofList, List.mem_map] at hmem
    obtain ⟨c, -, hc⟩ := hmem
    split at hc
    · exact absurd hc (by decide)
    rename_i hne
    exact hne hc
  have hmap : (normalizeLineEndings s).toList.map (fun c => if c = '\r' then '\n' else c)
      = (normalizeLineEndings s).toList := by
    conv_rhs => rw [← List.map_id (normalizeLineEndings s).toList]
    refine List.map_congr_left fun c hc => if_neg ?_
    rintro rfl
    exact hnone hc
  rw [normalizeLineEndings, replaceCrLf_eq_self hnone, hmap, String.ofList_toList]

inductive SkillParseError where
  | missingFrontmatter
  | invalidYaml (reason : String)
  | emptyPrompt
  | invalidName (name : String)

def SkillParseError.toText : SkillParseError → String
  | .missingFrontmatter =>
      "Missing YAML frontmatter delimiters (expected `---` at start of file)"
  | .invalidYaml reason => "Invalid YAML frontmatter: " ++ reason
  | .emptyPrompt => "Prompt body is empty (no content after frontmatter)"
  | .invalidName name =>
      "Invalid skill name '" ++ name ++ "': must match [a-zA-Z0-9][a-zA-Z0-9._-]\x7b0,63\x7d"

structure ParsedSkill where
  manifest : SkillManifest
  promptContent : String

/-- The byte offset of the first line that is `---`, each line counted with one
byte for its ending. -/
def findClosingDelimiter (content : String) : Option Nat := go 0 (lines content)
where
  go (pos : Nat) : List String → Option Nat
    | [] => none
    | line :: rest =>
        if trim line = "---" then some pos else go (pos + len line + 1) rest

/-- Parse a SKILL.md file. `fromYaml` reads the front matter. -/
def parseSkillMd (fromYaml : String → Except String SkillManifest) (content : String) :
    Except SkillParseError ParsedSkill :=
  let chars := match content.toList with
    | '\ufeff' :: cs => cs
    | cs => cs
  match chars.dropWhile fun c => c == '\n' || c == '\r' with
  | '-' :: '-' :: '-' :: afterFirst =>
      match afterFirst.dropWhile (· != '\n') with
      | [] => .error .missingFrontmatter
      | _ :: afterFirstLine =>
          let afterFirstLine := String.ofList afterFirstLine
          match findClosingDelimiter afterFirstLine with
          | none => .error .missingFrontmatter
          | some yamlEnd =>
              match fromYaml (slice afterFirstLine 0 yamlEnd) with
              | .error e => .error (.invalidYaml e)
              | .ok manifest =>
                  if !validateSkillName manifest.name then .error (.invalidName manifest.name)
                  else
                    let afterYaml := (slice afterFirstLine yamlEnd (len afterFirstLine)).toList
                    let body := (afterYaml.dropWhile (· != '\n')).drop 1
                    let promptContent := String.ofList (body.dropWhile (· == '\n'))
                    if (trim promptContent).isEmpty then .error .emptyPrompt
                    else
                      .ok { manifest :=
                              { manifest with activation := manifest.activation.enforceLimits }
                            promptContent }
  | _ => .error .missingFrontmatter

end TitanClaw.Skills
