import TitanClaw.Llm.Message
import TitanClaw.Skills.Manifest

/-! # The tool ceiling

The lowest trust among the active skills decides which tools the model gets to
see: one installed skill among them, and only the read-only tools are left. -/

namespace TitanClaw.Skills

open Llm List

abbrev PathBuf := List String

/-- `Path::join` of one component. -/
def PathBuf.join (p : PathBuf) (name : String) : PathBuf := p ++ [name]

/-- `Path::display`. -/
def PathBuf.display (p : PathBuf) : String := "/" ++ "/".intercalate p

inductive SkillTrust where
  | installed
  | trusted
  deriving DecidableEq

/-- The order `Installed < Trusted`. -/
def SkillTrust.min : SkillTrust → SkillTrust → SkillTrust
  | .installed, _ => .installed
  | .trusted, t => t

inductive SkillSource where
  | workspace (path : PathBuf)
  | user (path : PathBuf)
  | bundled (path : PathBuf)
  deriving DecidableEq

def SkillSource.path : SkillSource → PathBuf
  | .workspace p => p
  | .user p => p
  | .bundled p => p

/-- A loaded skill; `R` is the type of compiled activation patterns. -/
structure LoadedSkill (R : Type) where
  manifest : SkillManifest
  promptContent : String
  trust : SkillTrust
  source : SkillSource
  contentHash : String
  compiledPatterns : List R
  lowercasedKeywords : List String
  lowercasedTags : List String

def LoadedSkill.name {R : Type} (s : LoadedSkill R) : String := s.manifest.name

def readOnlyTools : List String :=
  ["memory_search", "memory_read", "memory_tree", "time", "echo", "json", "skill_list",
    "skill_search"]

structure AttenuationResult where
  tools : List ToolDefinition
  minTrust : SkillTrust
  explanation : String
  removedTools : List String

def attenuateTools {R : Type} (tools : List ToolDefinition)
    (activeSkills : List (LoadedSkill R)) : AttenuationResult :=
  match activeSkills with
  | [] => ⟨tools, .trusted, "No skills active, all tools available", []⟩
  | skill :: rest =>
      match (rest.map (·.trust)).foldl SkillTrust.min skill.trust with
      | .trusted =>
          ⟨tools, .trusted, "All active skills are trusted (full trust), all tools available", []⟩
      | .installed =>
          let kept := tools.filter fun t => readOnlyTools.contains t.name
          let removed := (tools.filter fun t => !readOnlyTools.contains t.name).map (·.name)
          ⟨kept, .installed,
            "Installed skill present: restricted to read-only tools, removed "
              ++ toString removed.length ++ " tool(s): " ++ ", ".intercalate removed,
            removed⟩

theorem foldl_min_installed (ts : List SkillTrust) :
    ts.foldl SkillTrust.min .installed = .installed := by
  induction ts with
  | nil => rfl
  | cons _ _ ih => exact ih

theorem foldl_min_eq_installed {ts : List SkillTrust} {t : SkillTrust}
    (h : SkillTrust.installed ∈ t :: ts) : ts.foldl SkillTrust.min t = .installed := by
  induction ts generalizing t with
  | nil =>
    rw [mem_singleton] at h
    exact h.symm
  | cons u us ih =>
    cases t with
    | installed => exact foldl_min_installed us
    | trusted =>
      have hmem : SkillTrust.installed ∈ u :: us := by simpa using h
      exact ih hmem

variable {R : Type} {tools : List ToolDefinition} {active : List (LoadedSkill R)}

/-- **The ceiling holds**: while an installed skill is active, the model sees
read-only tools alone. -/
theorem attenuateTools_readOnly (h : ∃ s ∈ active, s.trust = .installed) :
    ∀ t ∈ (attenuateTools tools active).tools, t.name ∈ readOnlyTools := by
  obtain ⟨s, hs, htrust⟩ := h
  cases active with
  | nil => cases hs
  | cons skill rest =>
    have hmem : SkillTrust.installed ∈ skill.trust :: rest.map (·.trust) := by
      rw [← htrust, ← map_cons]
      exact mem_map_of_mem hs
    simp only [attenuateTools, foldl_min_eq_installed hmem]
    simp

end TitanClaw.Skills
