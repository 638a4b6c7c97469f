import TitanClaw.Tools.Wasm.Allowlist

/-! # Normalised paths

`normalize_path` decodes each segment once and resolves the dot segments from the
left, with a stack. The reference reads the decoded segments from the right, and
counts how many of those before them the `..` it has met take away. -/

namespace TitanClaw.Tools.Wasm

open Text List

variable {U : UrlCrate} {path : String}

/-- How many segments before these are taken away, and what is left of these. -/
def resolve : List String → Nat × List String
  | [] => (0, [])
  | segment :: rest =>
    let (above, left) := resolve rest
    if segment = "" ∨ segment = "." then (above, left)
    else if segment = ".." then (above + 1, left)
    else if above = 0 then (0, segment :: left)
    else (above - 1, left)

def resolvedPath (path : String) (decoded : List String) : String :=
  let left := (resolve decoded).2
  "/" ++ String.intercalate "/" left
    ++ if len path > 1 ∧ endsWith path "/" ∧ left ≠ [] then "/" else ""

def rawSegments (path : String) : List String := (path.toList.splitOn '/').map String.ofList

/-- A segment that is one name. -/
def Plain (segment : String) : Prop :=
  segment ≠ "" ∧ segment ≠ "." ∧ segment ≠ ".." ∧ '/' ∉ segment.toList

theorem pushSegment_ok {stack stack' : List String} {raw : String}
    (h : pushSegment U stack raw = .ok stack') :
    ∃ segment, U.decode raw = some segment ∧ '/' ∉ segment.toList
      ∧ stack' = if segment = "" ∨ segment = "." then stack
        else if segment = ".." then stack.dropLast else stack ++ [segment] := by
  rw [pushSegment] at h
  split at h
  · cases h
  split at h
  · cases h
  rename_i segment hdecode
  split at h
  · cases h
  rename_i hplain
  refine ⟨segment, hdecode, by simp at hplain; exact hplain.1, ?_⟩
  split at h
  · rename_i hdot
    simp at hdot
    rw [if_pos hdot]
    exact (Except.ok.inj h).symm
  · rename_i hdot
    simp at hdot
    rw [if_neg (not_or.mpr hdot)]
    split at h
    · rename_i hup
      rw [if_pos hup]
      exact (Except.ok.inj h).symm
    · rename_i hup
      rw [if_neg hup]
      exact (Except.ok.inj h).symm

/-- The stack and the reference agree, whatever is on the stack before. -/
theorem foldlM_pushSegment {stack out : List String} {raws : List String}
    (h : raws.foldlM (pushSegment U) stack = .ok out) :
    ∃ decoded, raws.mapM U.decode = some decoded
      ∧ out = stack.take (stack.length - (resolve decoded).1) ++ (resolve decoded).2
      ∧ ∀ segment ∈ (resolve decoded).2, Plain segment := by
  induction raws generalizing stack with
  | nil =>
    cases h
    exact ⟨[], rfl, by simp [resolve], by simp [resolve]⟩
  | cons raw raws ih =>
    rw [foldlM_cons] at h
    cases hpush : pushSegment U stack raw with
    | error =>
      rw [hpush] at h
      cases h
    | ok stack' =>
      rw [hpush] at h
      obtain ⟨segment, hdecode, hslash, rfl⟩ := pushSegment_ok hpush
      obtain ⟨decoded, hdecoded, rfl, hplain⟩ := ih h
      refine ⟨segment :: decoded, by simp [mapM_cons, hdecode, hdecoded], ?_⟩
      rw [resolve]
      by_cases hdot : segment = "" ∨ segment = "."
      · simp only [if_pos hdot, true_and]
        exact hplain
      · by_cases hup : segment = ".."
        · simp only [if_neg hdot, if_pos hup]
          refine ⟨?_, hplain⟩
          rw [dropLast_eq_take, take_take, length_take]
          congr 2
          omega
        · simp only [if_neg hdot, if_neg hup, length_append, length_singleton]
          rw [not_or] at hdot
          split
          · rename_i hzero
            refine ⟨?_, forall_mem_cons.mpr ⟨⟨hdot.1, hdot.2, hup, hslash⟩, hplain⟩⟩
            simp [hzero, take_of_length_le]
          · rename_i hpos
            refine ⟨?_, hplain⟩
            rw [take_append_of_le_length (by omega)]
            congr 2
            omega

theorem endsWith_slash {s : String} : endsWith s "/" = true ↔ s.toList.getLast? = some '/' := by
  rw [endsWith, isSuffixOf_iff_suffix, getLast?_eq_some_iff]
  exact ⟨fun ⟨t, ht⟩ => ⟨t, ht.symm⟩, fun ⟨t, ht⟩ => ⟨t, ht.symm⟩⟩

theorem endsWith_join {segments : List String} (h : ∀ segment ∈ segments, Plain segment) :
    endsWith ("/" ++ String.intercalate "/" segments) "/" = true ↔ segments = [] := by
  induction segments with
  | nil => simp [endsWith_slash]
  | cons segment rest ih =>
    obtain ⟨⟨hempty, -, -, hslash⟩, hrest⟩ := forall_mem_cons.mp h
    rw [endsWith_slash]
    by_cases hnil : rest = []
    · have hne : segment.toList ≠ [] := by simpa using hempty
      have hlast := getLast_mem hne
      have hother : segment.toList.getLast hne ≠ '/' := fun h => hslash (h ▸ hlast)
      simp [hnil, getLast?_cons, getLast?_eq_some_getLast hne, hother]
    · have hlast := (not_congr (ih hrest)).mpr hnil
      rw [endsWith_slash] at hlast
      simp [String.intercalate_cons_of_ne_nil hnil, getLast?_cons] at hlast ⊢
      exact hlast

theorem parseUrl_ok {K : CaseMap} {url : String} {normalized : ParsedUrl}
    (h : parseUrl U K url = .ok normalized) :
    ∃ parsed, U.parse url = .ok parsed ∧ normalizePath U parsed.path = .ok normalized.path := by
  rw [parseUrl] at h
  split at h
  · cases h
  rename_i parsed hparse
  refine ⟨parsed, hparse, ?_⟩
  simp only at h
  split at h
  · cases h
  split at h
  · cases h
  split at h
  · cases h
  split at h
  · cases h
  rename_i hpath
  cases h
  exact hpath

theorem normalizePath_ok {result : String} (h : normalizePath U path = .ok result) :
    ∃ decoded, (rawSegments path).mapM U.decode = some decoded
      ∧ result = resolvedPath path decoded ∧ ∀ segment ∈ (resolve decoded).2, Plain segment := by
  rw [normalizePath] at h
  split at h
  · cases h
  rename_i out hfold
  obtain ⟨decoded, hdecoded, rfl, hplain⟩ := foldlM_pushSegment hfold
  refine ⟨decoded, hdecoded, ?_, hplain⟩
  have hjoin := endsWith_join hplain
  rw [← Except.ok.inj h, resolvedPath]
  simp only [length_nil, Nat.zero_sub, take_nil, nil_append, Bool.and_eq_true,
    Bool.not_eq_true', ← Bool.not_eq_true, hjoin, decide_eq_true_eq, and_assoc]
  split
  · rfl
  · rw [String.append_empty]

def dottedUrls : UrlCrate where
  parse _ := .ok ⟨"https", "", none, some "api.example.com", "/v1/%2e%2e/v2/"⟩
  decode s :=
    if s = "%2e%2e" then some ".." else if s = "%252e%252e" then some "%2e%2e" else some s
  encode := id

end TitanClaw.Tools.Wasm
