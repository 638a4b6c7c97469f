import TitanClaw.Tools.Wasm.HttpRequest

/-! # Host patterns

Four matchers of a host against a pattern such as `*.example.com`: those of the
credential injector and of an endpoint pattern compare letter by letter, the one of
the sandbox's policy lower-cases the pattern, and a domain pattern lower-cases both. -/

namespace TitanClaw.Sandbox

open Text Tools.Wasm List Tools

variable (U : CaseMap)

/-- `host_matches_pattern` of the policy decider. -/
def hostMatchesPattern (host pattern : String) : Bool :=
  matchesHost host (U.toLowercase pattern)

structure DomainPattern where
  pattern : String
  isWildcard : Bool
  baseDomain : String

def DomainPattern.new (pattern : String) : DomainPattern where
  pattern
  isWildcard := startsWith pattern "*."
  baseDomain := U.toLowercase ((stripPrefix pattern "*.").getD pattern)

def DomainPattern.matches (p : DomainPattern) (host : String) : Bool :=
  let hostLower := U.toLowercase host
  if p.isWildcard then hostLower == p.baseDomain || endsWith hostLower ("." ++ p.baseDomain)
  else hostLower == p.baseDomain

/-- The host is the pattern, or ends in `.d` where the pattern is `*.d`. -/
def Names (host pattern : String) : Prop :=
  host = pattern ∨ ∃ d, pattern = "*." ++ d ∧ ("." ++ d).toList <:+ host.toList

theorem matchesHost_iff {host pattern : String} :
    matchesHost host pattern = true ↔ Names host pattern := by
  rw [matchesHost, Names]
  by_cases heq : pattern = host
  · simp [heq]
  rw [if_neg heq, or_iff_right (Ne.symm heq)]
  cases hstrip : stripPrefix pattern "*." with
  | none =>
    have hnot : ∀ d, pattern ≠ "*." ++ d := by
      intro d hd
      simp [stripPrefix_eq_some_iff.mpr hd] at hstrip
    simp [hnot]
  | some d =>
    obtain rfl := stripPrefix_eq_some_iff.mp hstrip
    have htake : ∀ t, t ++ d.toList = host.toList →
        host.toList.take (host.toList.length - d.toList.length) = t := by
      intro t ht
      simp [← ht]
    simp only [endsWith, Bool.and_eq_true, isSuffixOf_iff_suffix, decide_eq_true_eq,
      gt_iff_lt, Bool.or_eq_true, beq_iff_eq, Bool.if_false_right]
    constructor
    · rintro ⟨⟨⟨t, ht⟩, hlen⟩, hdot⟩
      refine ⟨d, rfl, ?_⟩
      rw [htake t ht] at hdot
      rcases hdot with hdot | hempty
      · obtain ⟨t', rfl⟩ := getLast?_eq_some_iff.mp hdot
        exact ⟨t', by simpa using ht⟩
      · rw [isEmpty_iff.mp hempty, nil_append] at ht
        simp [len, ht] at hlen
    · rintro ⟨d', hd', t, ht⟩
      obtain rfl : d = d' := by simpa using hd'
      have ht' : (t ++ ['.']) ++ d.toList = host.toList := by simpa using ht
      rw [htake _ ht']
      refine ⟨⟨⟨_, ht'⟩, ?_⟩, by simp⟩
      have hpos := Char.utf8Size_pos '.'
      simp [len, ← ht']
      omega

/-! ## The four together -/

/-- What is expected of the four matchers for one host and one pattern. -/
structure Agree (U : CaseMap) (host pattern : String) : Prop where
  same : Wasm.hostMatchesPattern host pattern = hostMatchesPattern U host pattern
  only : Wasm.hostMatchesPattern host pattern ∨ hostMatchesPattern U host pattern →
    host.toList.map Char.toLower = pattern.toList.map Char.toLower
      ∨ ∃ d, pattern = "*." ++ d ∧ ("." ++ d).toList <:+ host.toList
  domain : ∀ endpoint : EndpointPattern, endpoint.host = pattern → endpoint.hostMatches host →
    (DomainPattern.new U pattern).matches U host

/-- `str::to_lowercase`: a text is left alone exactly if its letters are, these in whatever
company, and dots and stars are no letters. -/
structure LowerLetters (U : CaseMap) : Prop where
  part : ∀ s t, U.toLowercase (s ++ t) = s ++ t → U.toLowercase t = t
  keeps : ∀ s t, U.toLowercase t = t → ∃ s', U.toLowercase (s ++ t) = s' ++ t
  dots : ∀ s, (U.toLowercase s).toList.count '.' = s.toList.count '.'
  wildcard : ∀ d, ∃ d', U.toLowercase ("*." ++ d) = "*." ++ d'
  of_wildcard : ∀ s d', U.toLowercase s = "*." ++ d' → ∃ d, s = "*." ++ d

variable {U : CaseMap} {host pattern : String}

theorem Names.suffix {d : String} (h : Names host ("*." ++ d)) :
    ("." ++ d).toList <:+ host.toList := by
  rcases h with rfl | ⟨d', hd', h⟩
  · exact ⟨['*'], by simp⟩
  obtain rfl : d = d' := by simpa using hd'
  exact h

theorem eq_of_suffix {d d' : List Char} (h : '.' :: d <:+ '.' :: d')
    (hcount : d.count '.' = d'.count '.') : d = d' := by
  obtain ⟨e, he⟩ := h
  cases e with
  | nil => exact (cons.inj he).2
  | cons =>
    have hdots := congrArg (count '.') he
    obtain ⟨rfl, -⟩ := cons.inj he
    simp at hdots
    omega

theorem LowerLetters.eq_of_names (hU : LowerLetters U) (h : Names host pattern)
    (h' : Names host (U.toLowercase pattern)) : U.toLowercase pattern = pattern := by
  by_cases hwild : ∃ d, pattern = "*." ++ d
  · obtain ⟨d, rfl⟩ := hwild
    obtain ⟨d', hd'⟩ := hU.wildcard d
    have hdots := hU.dots ("*." ++ d)
    rw [hd'] at h' hdots ⊢
    -- both tails end the host, and neither has more dots
    have hcount : d'.toList.count '.' = d.toList.count '.' := by simpa using hdots
    have hsuffix := h.suffix
    have hsuffix' := h'.suffix
    rw [String.toList_append] at hsuffix hsuffix'
    have heq : d'.toList = d.toList := by
      rcases suffix_or_suffix_of_suffix hsuffix hsuffix' with hle | hle
      · exact (eq_of_suffix hle hcount.symm).symm
      · exact eq_of_suffix hle hcount
    rw [String.toList_inj.mp heq]
  · rcases h with rfl | ⟨d, hd, -⟩
    · rcases h' with heq | ⟨d', hd', -⟩
      · exact heq.symm
      · exact absurd (hU.of_wildcard _ d' hd') hwild
    · exact absurd ⟨d, hd⟩ hwild

theorem domain_of_lower (hU : LowerLetters U) (hlower : U.toLowercase pattern = pattern)
    (h : Names host pattern) : (DomainPattern.new U pattern).matches U host = true := by
  cases hstrip : stripPrefix pattern "*." with
  | none =>
    have hnot : startsWith pattern "*." = false := by simpa [stripPrefix] using hstrip
    have hsame : host = pattern := by
      refine h.resolve_right ?_
      rintro ⟨d, hd, -⟩
      simp [stripPrefix_eq_some_iff.mpr hd] at hstrip
    simp [DomainPattern.matches, DomainPattern.new, hnot, hstrip, hsame]
  | some d =>
    obtain rfl := stripPrefix_eq_some_iff.mp hstrip
    have hd : U.toLowercase d = d := hU.part "*." d hlower
    have hdot : U.toLowercase ("." ++ d) = "." ++ d :=
      hU.part "*" ("." ++ d) (by simpa [← String.append_assoc] using hlower)
    obtain ⟨t, ht⟩ := h.suffix
    obtain ⟨t', ht'⟩ := hU.keeps (String.ofList t) ("." ++ d) hdot
    have hhost : host = String.ofList t ++ ("." ++ d) := by
      rw [← String.toList_inj, ← ht]
      simp
    have hends : endsWith (U.toLowercase host) ("." ++ d) = true := by
      rw [hhost, ht', endsWith, isSuffixOf_iff_suffix]
      simp
    have hwild : startsWith ("*." ++ d) "*." = true := by simp [startsWith]
    simp [DomainPattern.matches, DomainPattern.new, hwild, hstrip, hd, hends]

/-- **Where the matchers agree**: on patterns without upper-case letters, and where neither the
pattern nor its lower-case form names the host. -/
theorem matchers_agree_iff (U : CaseMap) (hU : LowerLetters U) (host pattern : String) :
    Agree U host pattern ↔ U.toLowercase pattern = pattern
      ∨ ¬ Names host pattern ∧ ¬ Names host (U.toLowercase pattern) := by
  constructor
  · intro h
    by_cases hnames : Names host pattern
    · left
      have hboth := h.same
      rw [Wasm.hostMatchesPattern, matchesHost_iff.mpr hnames] at hboth
      exact hU.eq_of_names hnames (matchesHost_iff.mp hboth.symm)
    · right
      refine ⟨hnames, fun hlower => hnames ?_⟩
      have hboth := h.same
      rw [hostMatchesPattern, matchesHost_iff.mpr hlower] at hboth
      exact matchesHost_iff.mp hboth
  · rintro (hlower | ⟨hnames, hlower⟩)
    · have hsame : hostMatchesPattern U host pattern = Wasm.hostMatchesPattern host pattern := by
        rw [hostMatchesPattern, hlower, Wasm.hostMatchesPattern]
      refine ⟨hsame.symm, ?_, ?_⟩
      · rw [hsame, or_self, Wasm.hostMatchesPattern, matchesHost_iff]
        exact Or.imp_left (congrArg fun s : String => s.toList.map Char.toLower)
      · rintro endpoint rfl h
        exact domain_of_lower hU hlower (matchesHost_iff.mp h)
    · have hfalse : Wasm.hostMatchesPattern host pattern = false := by
        rw [Wasm.hostMatchesPattern, ← Bool.not_eq_true, matchesHost_iff]
        exact hnames
      have hfalse' : hostMatchesPattern U host pattern = false := by
        rw [hostMatchesPattern, ← Bool.not_eq_true, matchesHost_iff]
        exact hlower
      refine ⟨hfalse.trans hfalse'.symm, by simp [hfalse, hfalse'], ?_⟩
      rintro endpoint rfl h
      exact absurd (matchesHost_iff.mp h) hnames

theorem toLower_eq_iff {c x : Char} (hx : x.toNat < 65) : c.toLower = x ↔ c = x := by
  unfold Char.toLower
  split
  · next hupper =>
    have hlow : (65 : UInt32).toNat ≤ c.val.toNat := hupper.1
    have hhigh : c.val.toNat ≤ (90 : UInt32).toNat := hupper.2
    simp at hlow hhigh
    constructor
    · intro h
      have hval : (c.val + 32).toNat = x.toNat := congrArg Char.toNat h
      rw [UInt32.toNat_add] at hval
      simp at hval
      omega
    · intro h
      rw [h] at hlow
      omega
  · rfl

theorem asciiCase_lowerLetters : LowerLetters asciiCase where
  part s t h := by
    simp only [asciiCase, ← String.toList_inj, String.toList_append, String.toList_ofList,
      map_append] at h ⊢
    exact (append_inj h (by simp)).2
  keeps s t h := by
    refine ⟨asciiCase.toLowercase s, ?_⟩
    conv_rhs => rw [← h]
    simp [asciiCase]
  dots s := by
    have hdot : (fun c : Char => c.toLower == '.') = (· == '.') := by
      funext c
      rw [Bool.eq_iff_iff, beq_iff_eq, beq_iff_eq, toLower_eq_iff (by decide)]
    simp [asciiCase, count, countP_map, Function.comp_def, hdot]
  wildcard d := ⟨asciiCase.toLowercase d, by simp [asciiCase, ← String.toList_inj]⟩
  of_wildcard s d' h := by
    have hmap : s.toList.map Char.toLower = '*' :: '.' :: d'.toList := by
      simpa [asciiCase, ← String.toList_inj] using h
    obtain ⟨c, l, hs, hc, hl⟩ := map_eq_cons_iff.mp hmap
    obtain ⟨c', l', rfl, hc', -⟩ := map_eq_cons_iff.mp hl
    rw [toLower_eq_iff (by decide)] at hc hc'
    exact ⟨String.ofList l', by rw [← String.toList_inj, hs, hc, hc']; simp⟩

theorem lower_case_pattern_agrees : Agree asciiCase "API.example.com" "*.example.com" :=
  (matchers_agree_iff _ asciiCase_lowerLetters _ _).mpr (.inl (by decide))

theorem upper_case_pattern_differs :
    Wasm.hostMatchesPattern "api.example.com" "API.example.com" = false
      ∧ hostMatchesPattern asciiCase "api.example.com" "API.example.com" = true := by
  decide

end TitanClaw.Sandbox
