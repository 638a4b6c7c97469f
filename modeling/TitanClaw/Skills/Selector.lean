import TitanClaw.Skills.Attenuation

/-! # The selection of skills

Skills are scored against the message and taken in the order of their scores, as
long as the budget of tokens lasts. -/

namespace TitanClaw.Skills

open Text List

/-- What the standard library and the compiled patterns say. -/
structure Matching (R : Type) where
  case : CaseMap
  isAlphanumeric : Char → Bool
  isMatch : R → String → Bool

def maxKeywordScore : Nat := 30
def maxTagScore : Nat := 15
def maxRegexScore : Nat := 40

/-- A skill of the slice, with its place. -/
abbrev SkillRef (R : Type) := LoadedSkill R × Nat

variable {R : Type} (M : Matching R)

def scoreSkill (skill : LoadedSkill R) (messageLower messageOriginal : String) : Nat :=
  let other (c : Char) : Bool := !M.isAlphanumeric c
  let keyword (kw : String) : Nat :=
    if (splitWhitespace messageLower).any fun word =>
      (word.toList.dropWhile other).rdropWhile other == kw.toList then 10
    else if contains messageLower kw then 5
    else 0
  min (skill.lowercasedKeywords.map keyword).sum maxKeywordScore
    + min (3 * skill.lowercasedTags.countP (contains messageLower)) maxTagScore
    + min (20 * skill.compiledPatterns.countP (M.isMatch · messageOriginal)) maxRegexScore

def score (message : String) (skill : SkillRef R) : Nat :=
  scoreSkill M skill.1 (M.case.toLowercase message) message

variable (skill : SkillRef R)

/-- A quarter of the bytes; no text is so long that the `f64` is not exact. -/
def approxTokens : Nat := len skill.1.promptContent / 4

def tokenCost : Nat :=
  let declared := skill.1.manifest.activation.maxContextTokens
  max (if approxTokens skill > declared * 2 % 2 ^ 64 then approxTokens skill else declared) 1

/-- The loop, with the number of skills that may still be taken. -/
def takeWithin : (candidates budgetRemaining : Nat) → List (SkillRef R) → List (SkillRef R)
  | _, _, [] => []
  | 0, _, _ => []
  | candidates + 1, budgetRemaining, skill :: rest =>
      if tokenCost skill ≤ budgetRemaining then
        skill :: takeWithin candidates (budgetRemaining - tokenCost skill) rest
      else takeWithin (candidates + 1) budgetRemaining rest

def prefilterSkills (message : String) (available : List (LoadedSkill R))
    (maxCandidates maxContextTokens : Nat) : List (SkillRef R) :=
  if available.isEmpty || message.isEmpty then []
  else
    let scored := available.zipIdx.filter (score M message · > 0)
    takeWithin maxCandidates maxContextTokens
      (scored.mergeSort fun a b => score M message b ≤ score M message a)

theorem approxTokens_le : approxTokens skill ≤ 2 * tokenCost skill := by
  have hwrap := Nat.mod_le (skill.1.manifest.activation.maxContextTokens * 2) (2 ^ 64)
  simp only [tokenCost]
  split <;> omega

/-- Was there no room for the skill when its turn came? -/
def NoRoom (key : SkillRef R → Nat) (candidates budget : Nat) (skill : SkillRef R)
    (result : List (SkillRef R)) : Prop :=
  ∃ before after, result = before ++ after
    ∧ (∀ a ∈ before, key skill ≤ key a) ∧ (∀ a ∈ after, key a ≤ key skill)
    ∧ (candidates ≤ before.length ∨ budget < (before.map tokenCost).sum + tokenCost skill)

variable (candidates budget : Nat) (skills : List (SkillRef R))

theorem takeWithin_sublist : takeWithin candidates budget skills <+ skills := by
  fun_induction takeWithin with
  | case1 | case2 => exact nil_sublist _
  | case3 _ _ skill _ _ ih => exact ih.cons_cons skill
  | case4 _ _ skill _ _ ih => exact ih.cons skill

theorem takeWithin_bounded : (takeWithin candidates budget skills).length ≤ candidates
    ∧ ((takeWithin candidates budget skills).map tokenCost).sum ≤ budget
    ∧ ((takeWithin candidates budget skills).map approxTokens).sum ≤ 2 * budget := by
  fun_induction takeWithin with
  | case1 | case2 => simp
  | case3 _ _ skill =>
    have hestimate := approxTokens_le skill
    simp only [length_cons, map_cons, sum_cons]
    omega
  | case4 => assumption

theorem takeWithin_noRoom {key : SkillRef R → Nat}
    (hsorted : skills.Pairwise fun a b => key b ≤ key a) {skill : SkillRef R}
    (hskill : skill ∈ skills) (hout : skill ∉ takeWithin candidates budget skills) :
    NoRoom key candidates budget skill (takeWithin candidates budget skills) := by
  fun_induction takeWithin with
  | case1 => cases hskill
  | case2 => exact ⟨[], [], rfl, by simp, by simp, .inl (Nat.zero_le _)⟩
  | case3 candidates budget head rest hfits ih =>
    obtain ⟨hne, hrest⟩ := not_or.mp (mt mem_cons.mpr hout)
    have hmem := (mem_cons.mp hskill).resolve_left hne
    obtain ⟨hhead, htail⟩ := pairwise_cons.mp hsorted
    obtain ⟨before, after, hsplit, hbefore, hafter, hreason⟩ := ih htail hmem hrest
    refine ⟨head :: before, after, by rw [hsplit, cons_append], ?_, hafter, ?_⟩
    · exact forall_mem_cons.mpr ⟨hhead skill hmem, hbefore⟩
    · simp only [length_cons, map_cons, sum_cons]
      omega
  | case4 candidates budget head rest hfits ih =>
    obtain ⟨hhead, htail⟩ := pairwise_cons.mp hsorted
    rcases mem_cons.mp hskill with rfl | hmem
    · refine ⟨[], _, rfl, by simp, fun a ha => ?_, .inr (by simpa using hfits)⟩
      exact hhead a ((takeWithin_sublist _ _ rest).subset ha)
    · exact ih htail hmem hout

/-- What a selection promises. -/
structure Selects (message : String) (available : List (LoadedSkill R))
    (maxCandidates budget : Nat) (result : List (SkillRef R)) : Prop where
  limit : result.length ≤ maxCandidates
  distinct : (result.map Prod.snd).Nodup ∧ ∀ skill ∈ result, skill ∈ available.zipIdx
  sorted : result.Pairwise fun a b => score M message b ≤ score M message a
  charged : (result.map tokenCost).sum ≤ budget
  estimated : (result.map approxTokens).sum ≤ 2 * budget
  leftOut : message ≠ "" → ∀ skill ∈ available.zipIdx, 0 < score M message skill → skill ∉ result →
    NoRoom (score M message) maxCandidates budget skill result

/-- **The selection** of skills, for every message. -/
theorem prefilterSkills_selects (message : String)
    (available : List (LoadedSkill R)) (maxCandidates budget : Nat) :
    Selects M message available maxCandidates budget
      (prefilterSkills M message available maxCandidates budget) := by
  unfold prefilterSkills
  split
  · next hnone =>
    have hnone : available = [] ∨ message = "" := by simpa using hnone
    exact ⟨by simp, by simp, by simp, by simp, by simp, by simp +contextual [hnone.resolve_right]⟩
  dsimp only
  generalize hsorted : mergeSort _ _ = sorted
  have hperm : sorted.Perm (available.zipIdx.filter (score M message · > 0)) :=
    hsorted ▸ mergeSort_perm _ _
  have hpair : sorted.Pairwise fun a b => score M message b ≤ score M message a := by
    subst hsorted
    exact (pairwise_mergeSort (by simp; omega) (by simp; omega) _).imp of_decide_eq_true
  have hsub := takeWithin_sublist maxCandidates budget sorted
  obtain ⟨hlimit, hcharged, hestimated⟩ := takeWithin_bounded maxCandidates budget sorted
  refine ⟨hlimit, ⟨?_, fun skill hskill => ?_⟩, hpair.sublist hsub, hcharged, hestimated,
    fun _ skill hskill hpos hout => ?_⟩
  · have hplaces : (available.zipIdx.map Prod.snd).Nodup := by
      rw [zipIdx_map_snd]
      exact nodup_range'
    exact (hsub.map _).nodup ((hperm.map _).nodup_iff.mpr ((filter_sublist.map _).nodup hplaces))
  · exact mem_of_mem_filter (hperm.subset (hsub.subset hskill))
  · exact takeWithin_noRoom _ _ _ hpair
      (hperm.mem_iff.mpr (mem_filter.mpr ⟨hskill, decide_eq_true hpos⟩)) hout

/-- Nothing is selected for an empty message, which some pattern matches. -/
theorem empty_message_unscored :
    let M : Matching Unit := ⟨asciiCase, Char.isAlphanum, fun _ _ => true⟩
    let skill : SkillRef Unit := (⟨{ name := "a" }, "", .trusted, .user [], "", [()], [], []⟩, 0)
    0 < score M "" skill ∧ ¬ NoRoom (score M "") 1 1 skill (prefilterSkills M "" [skill.1] 1 1) := by
  refine ⟨by decide, ?_⟩
  rintro ⟨before, after, hsplit, -, -, hreason⟩
  obtain ⟨rfl, -⟩ := append_eq_nil_iff.mp hsplit.symm
  revert hreason
  decide

end TitanClaw.Skills
