import TitanClaw.Lib.MultiSearch
import TitanClaw.Lib.Text
import Mathlib.Data.List.Sort

/-! # The leak detector

Secrets are looked for with one regex per kind of secret. Before any regex is
run, a single pass of an Aho–Corasick automaton over the literal prefixes of
the regexes decides WHICH of them run at all; `scan` then collects the matches
of the chosen patterns, decides whether to block, and redacts.

The regex crate is a parameter (`RegexEngine`): for a regex source and a text
it yields the matches of `find_iter` as byte ranges. -/

namespace TitanClaw.Safety

open Text List

/-! ## Patterns and results -/

inductive LeakAction where
  | block
  | redact
  | warn
  deriving DecidableEq

inductive LeakSeverity where
  | low
  | medium
  | high
  | critical
  deriving DecidableEq

/-- A byte range of the scanned text. -/
structure Span where
  start : Nat
  stop : Nat
  deriving DecidableEq

/-- A pattern for detecting secret leaks; `regex` is the regex's source. -/
structure LeakPattern where
  name : String
  regex : String
  severity : LeakSeverity
  action : LeakAction
  deriving DecidableEq

structure LeakMatch where
  patternName : String
  severity : LeakSeverity
  action : LeakAction
  location : Span
  maskedPreview : String

structure LeakScanResult where
  leakMatches : List LeakMatch
  shouldBlock : Bool
  redactedContent : Option String

inductive LeakDetectionError where
  | secretLeakBlocked (pattern preview : String)
  deriving DecidableEq

/-- The text `Display` gives the error. -/
def LeakDetectionError.toText : LeakDetectionError → String
  | .secretLeakBlocked pattern preview =>
      "Secret leak blocked: pattern '" ++ pattern ++ "' matched '" ++ preview ++ "'"

structure RegexEngine where
  findIter : (regex content : String) → List Span

/-- Mask a secret for display: the first and last four characters stay. The
length that decides is in BYTES, what is kept is counted in characters. -/
def maskSecret (secret : String) : String :=
  if len secret ≤ 8 then repeatChar '*' (len secret)
  else
    String.ofList (secret.toList.take 4)
      ++ repeatChar '*' (min (len secret - 8) 8)
      ++ String.ofList (secret.toList.drop (len secret - 4))

/-- The loop of `applyRedactions`: what has been written and up to where the
content has been consumed. -/
def applyRedactionsLoop (content : String) : List Span → String → Nat → String × Nat
  | [], result, lastEnd => (result, lastEnd)
  | range :: ranges, result, lastEnd =>
      let result :=
        if range.start > lastEnd then result ++ slice content lastEnd range.start
        else result
      applyRedactionsLoop content ranges (result ++ "[REDACTED]") range.stop

/-- Replace each range by `[REDACTED]`. -/
def applyRedactions (content : String) (ranges : List Span) : String :=
  if ranges.isEmpty then content
  else
    let (result, lastEnd) := applyRedactionsLoop content ranges "" 0
    if lastEnd < len content then result ++ slice content lastEnd (len content)
    else result

def isRegexSpecial (ch : Char) : Bool :=
  ['[', '(', '.', '*', '+', '?', '\x7b', '|', '^', '$', '\\'].contains ch

def extractLiteralPrefix (pattern : String) : Option String :=
  let lit := String.ofList (pattern.toList.takeWhile (! isRegexSpecial ·))
  if len lit ≥ 3 then some lit else none

/-! ## The detector -/

structure LeakDetector where
  patterns : List LeakPattern
  /-- the needles of the automaton, by automaton pattern id -/
  prefixMatcher : Option (List (List UInt8))
  /-- literal prefix and pattern index, by automaton pattern id -/
  knownPrefixes : List (String × Nat)

variable (patterns : List LeakPattern)

def literalPrefixes : List (String × Nat) :=
  patterns.zipIdx.filterMap fun (pattern, idx) =>
    match extractLiteralPrefix pattern.regex with
    | some lit => if len lit ≥ 3 then some (lit, idx) else none
    | none => none

/-- A detector for the given patterns. The automaton's builder fails only on
needle sets past its state limit, so building is total here. -/
def LeakDetector.withPatterns : LeakDetector :=
  let prefixes := literalPrefixes patterns
  { patterns
    prefixMatcher :=
      if prefixes.isEmpty then none else some (prefixes.map (utf8 ·.1))
    knownPrefixes := prefixes }

/-- Append an index unless it is already there. -/
def pushNew (indices : List Nat) (idx : Nat) : List Nat :=
  if indices.contains idx then indices else indices ++ [idx]

def pushEach {β : Type} (f : β → Option Nat) (xs : List β) (indices : List Nat) : List Nat :=
  xs.foldl (fun indices x =>
    match f x with
    | some idx => pushNew indices idx
    | none => indices) indices

/-- Which patterns' regexes are run on `content`. -/
def LeakDetector.candidateIndices (d : LeakDetector) (content : String) : List Nat :=
  match d.prefixMatcher with
  | some needles =>
      let indices := pushEach (fun id => (d.knownPrefixes[id]?).map (·.2))
        (MultiSearch.search needles [] (utf8 content)) []
      -- patterns without an indexed prefix are always candidates
      pushEach (fun idx =>
          if d.knownPrefixes.any (·.2 == idx) then none else some idx)
        (List.range d.patterns.length) indices
  | none => List.range d.patterns.length

/-- The accumulators of `scan`'s loop. -/
structure ScanAcc where
  leakMatches : List LeakMatch
  shouldBlock : Bool
  redactRanges : List Span

def LeakPattern.leakMatch (p : LeakPattern) (content : String) (location : Span) : LeakMatch :=
  { patternName := p.name, severity := p.severity, action := p.action, location
    maskedPreview := maskSecret (slice content location.start location.stop) }

def ScanAcc.push (content : String) (p : LeakPattern) (acc : ScanAcc) (location : Span) : ScanAcc :=
  { leakMatches := acc.leakMatches ++ [p.leakMatch content location]
    shouldBlock := if p.action = .block then true else acc.shouldBlock
    redactRanges :=
      if p.action = .redact then acc.redactRanges ++ [location]
      else acc.redactRanges }

variable (E : RegexEngine) (d : LeakDetector) (content : String)

/-- Run the regexes of the given patterns. -/
def LeakDetector.scanLoop (indices : List Nat) : ScanAcc :=
  indices.foldl (fun acc idx =>
    match d.patterns[idx]? with
    | some p => (E.findIter p.regex content).foldl (ScanAcc.push content p) acc
    | none => acc) ⟨[], false, []⟩

def LeakDetector.scan : LeakScanResult :=
  let acc := d.scanLoop E content (d.candidateIndices content)
  let redactRanges := acc.redactRanges.insertionSort (·.start ≤ ·.start)
  { leakMatches := acc.leakMatches.insertionSort (·.location.start ≤ ·.location.start)
    shouldBlock := acc.shouldBlock
    redactedContent :=
      if redactRanges.isEmpty then none
      else some (applyRedactions content redactRanges) }

def LeakDetector.scanAndClean : Except LeakDetectionError String :=
  let result := d.scan E content
  if result.shouldBlock then
    match result.leakMatches.find? (·.action = .block) with
    | some m => .error (.secretLeakBlocked m.patternName m.maskedPreview)
    | none => .error (.secretLeakBlocked "" "")
  else .ok (result.redactedContent.getD content)

def LeakDetector.scanHeaders (E : RegexEngine) (d : LeakDetector) :
    List (String × String) → Except LeakDetectionError Unit
  | [] => .ok ()
  | (name, value) :: headers =>
      match d.scanAndClean E value with
      | .error e => .error (.secretLeakBlocked ("header:" ++ name) e.toText)
      | .ok _ => d.scanHeaders E headers

/-- Scan an outbound request: the URL, each header value, the body as `lossy`
decodes it. -/
def LeakDetector.scanHttpRequest (lossy : List UInt8 → String)
    (d : LeakDetector) (url : String) (headers : List (String × String))
    (body : Option (List UInt8)) : Except LeakDetectionError Unit :=
  match d.scanAndClean E url with
  | .error e => .error e
  | .ok _ =>
      match d.scanHeaders E headers with
      | .error e => .error e
      | .ok () =>
          match body with
          | none => .ok ()
          | some bytes =>
              match d.scanAndClean E (lossy bytes) with
              | .error e => .error e
              | .ok _ => .ok ()

def LeakDetector.addPattern (p : LeakPattern) : LeakDetector :=
  { d with patterns := d.patterns ++ [p] }

/-! ## What a scan reports

`scanLoop` is a fold over the candidates; `mem_scanLoop` and its siblings say
what the accumulators hold at the end, and the rest of the development uses
only them. -/

/-- Pattern `p` at index `idx` of the detector matched at `location`. -/
def LeakDetector.Found (idx : Nat) (p : LeakPattern) (location : Span) : Prop :=
  d.patterns[idx]? = some p ∧ location ∈ E.findIter p.regex content

theorem ScanAcc.foldl_push (p : LeakPattern) (spans : List Span) (acc : ScanAcc) :
    (spans.foldl (ScanAcc.push content p) acc).leakMatches
        = acc.leakMatches ++ spans.map (p.leakMatch content)
      ∧ ((spans.foldl (ScanAcc.push content p) acc).shouldBlock = true
        ↔ acc.shouldBlock = true ∨ (p.action = .block ∧ spans ≠ [])) := by
  induction spans generalizing acc with
  | nil => simp
  | cons s _ ih =>
    obtain ⟨hmatches, hblock⟩ := ih (acc.push content p s)
    refine ⟨by rw [foldl_cons, hmatches]; simp [ScanAcc.push], ?_⟩
    simp only [foldl_cons, hblock]
    by_cases hact : p.action = .block
    · simp [ScanAcc.push, hact]
    · simp [ScanAcc.push, hact]

/-- The loop from any accumulator: what it adds to it. -/
private theorem foldl_scan (indices : List Nat) (acc : ScanAcc) :
    let acc' := indices.foldl (fun acc idx =>
      match d.patterns[idx]? with
      | some p => (E.findIter p.regex content).foldl (ScanAcc.push content p) acc
      | none => acc) acc
    (∀ m, m ∈ acc'.leakMatches ↔ m ∈ acc.leakMatches
        ∨ ∃ idx ∈ indices, ∃ p loc, d.Found E content idx p loc ∧ m = p.leakMatch content loc)
      ∧ (acc'.shouldBlock = true ↔ acc.shouldBlock = true
        ∨ ∃ idx ∈ indices, ∃ p loc, d.Found E content idx p loc ∧ p.action = .block) := by
  induction indices generalizing acc with
  | nil => simp
  | cons idx _ ih =>
    cases hp : d.patterns[idx]? with
    | none =>
      simp only [foldl_cons, hp]
      obtain ⟨hm, hb⟩ := ih acc
      refine ⟨fun m => (hm m).trans (or_congr_right ?_),
        hb.trans (or_congr_right ?_)⟩ <;>
        simp [LeakDetector.Found, hp]
    | some p =>
      simp only [foldl_cons, hp]
      obtain ⟨hm, hb⟩ := ih ((E.findIter p.regex content).foldl (ScanAcc.push content p) acc)
      obtain ⟨hm₁, hb₁⟩ := ScanAcc.foldl_push content p (E.findIter p.regex content) acc
      constructor
      · intro m
        rw [hm m, hm₁]
        simp only [mem_append, mem_map, or_assoc]
        refine or_congr_right ?_
        simp [LeakDetector.Found, hp, eq_comm]
      · rw [hb, hb₁, or_assoc]
        refine or_congr_right ?_
        simp only [LeakDetector.Found, mem_cons, exists_eq_or_imp, hp, Option.some.injEq]
        refine or_congr_left ?_
        constructor
        · rintro ⟨hact, hne⟩
          obtain ⟨loc, hloc⟩ := exists_mem_of_ne_nil _ hne
          exact ⟨p, loc, ⟨rfl, hloc⟩, hact⟩
        · rintro ⟨_, loc, ⟨rfl, hloc⟩, hact⟩
          exact ⟨hact, ne_nil_of_mem hloc⟩

variable {E : RegexEngine} {d : LeakDetector} {content : String}

/-- **What scan reports**: the matches of the candidate patterns, no others. -/
theorem LeakDetector.mem_scan {m : LeakMatch} :
    m ∈ (d.scan E content).leakMatches
      ↔ ∃ idx ∈ d.candidateIndices content, ∃ p loc,
          d.Found E content idx p loc ∧ m = p.leakMatch content loc := by
  have h := (foldl_scan E d content (d.candidateIndices content) ⟨[], false, []⟩).1 m
  simpa [LeakDetector.scan, LeakDetector.scanLoop] using h

theorem LeakDetector.scan_shouldBlock : (d.scan E content).shouldBlock = true
      ↔ ∃ idx ∈ d.candidateIndices content, ∃ p loc,
          d.Found E content idx p loc ∧ p.action = .block := by
  have h := (foldl_scan E d content (d.candidateIndices content) ⟨[], false, []⟩).2
  simpa [LeakDetector.scan, LeakDetector.scanLoop] using h

theorem LeakDetector.scan_of_no_find (h : ∀ regex, E.findIter regex content = []) :
    (d.scan E content).leakMatches = [] := by
  rw [eq_nil_iff_forall_not_mem]
  intro m hm
  obtain ⟨_, _, p, loc, ⟨_, hloc⟩, _⟩ := mem_scan.mp hm
  rw [h p.regex] at hloc
  cases hloc

theorem LeakDetector.not_shouldBlock (h : (d.scan E content).leakMatches = []) :
    ¬ (d.scan E content).shouldBlock = true := by
  rw [scan_shouldBlock]
  rintro ⟨idx, hidx, p, loc, hfound, -⟩
  have hmem : p.leakMatch content loc ∈ (d.scan E content).leakMatches :=
    mem_scan.mpr ⟨idx, hidx, p, loc, hfound, rfl⟩
  rw [h] at hmem
  cases hmem

theorem LeakDetector.scanAndClean_isOk : (∃ cleaned, d.scanAndClean E content = .ok cleaned)
      ↔ ¬ (d.scan E content).shouldBlock = true := by
  unfold scanAndClean
  by_cases hblock : (d.scan E content).shouldBlock = true
  · simp only [hblock, if_true, not_true, iff_false]
    rintro ⟨cleaned, hok⟩
    split at hok
    · cases hok
    · cases hok
  · simp [hblock]

theorem LeakDetector.scanHeaders_isOk {E : RegexEngine} {d : LeakDetector}
    {headers : List (String × String)} :
    d.scanHeaders E headers = .ok () ↔ ∀ h ∈ headers, ¬ (d.scan E h.2).shouldBlock = true := by
  induction headers with
  | nil => simp [scanHeaders]
  | cons h _ ih =>
    have hhead := @scanAndClean_isOk E d h.2
    rw [forall_mem_cons, ← ih, ← hhead]
    cases hclean : d.scanAndClean E h.2 with
    | error | ok => simp [scanHeaders, hclean]

/-- **What passes the scan**: a request none of whose texts is to be blocked. -/
theorem LeakDetector.scanHttpRequest_isOk {lossy : List UInt8 → String}
    {d : LeakDetector} {url : String} {headers : List (String × String)}
    {body : Option (List UInt8)} :
    d.scanHttpRequest E lossy url headers body = .ok ()
      ↔ ¬ (d.scan E url).shouldBlock = true
        ∧ (∀ h ∈ headers, ¬ (d.scan E h.2).shouldBlock = true)
        ∧ ∀ bytes ∈ body, ¬ (d.scan E (lossy bytes)).shouldBlock = true := by
  rw [← scanAndClean_isOk, ← scanHeaders_isOk]
  unfold scanHttpRequest
  cases hurl : d.scanAndClean E url with
  | error => simp
  | ok cleaned =>
    cases hheaders : d.scanHeaders E headers with
    | error => simp
    | ok =>
      cases body with
      | none => simp
      | some bytes =>
        have hbody := @scanAndClean_isOk E d (lossy bytes)
        simp only [Option.mem_some_iff, forall_eq', ← hbody]
        cases htext : d.scanAndClean E (lossy bytes) with
        | error | ok => simp

theorem mem_literalPrefixes {patterns : List LeakPattern} {lit : String} {idx : Nat}
    (h : (lit, idx) ∈ literalPrefixes patterns) :
    ∃ p, patterns[idx]? = some p ∧ extractLiteralPrefix p.regex = some lit := by
  simp only [literalPrefixes, mem_filterMap] at h
  obtain ⟨⟨p, i⟩, hmem, hsome⟩ := h
  have hget := mem_zipIdx_iff_getElem?.mp hmem
  cases hlit : extractLiteralPrefix p.regex with
  | none => simp [hlit] at hsome
  | some =>
    simp only [hlit] at hsome
    split at hsome
    · cases hsome
      exact ⟨p, hget, hlit⟩
    · cases hsome

theorem mem_pushNew {indices : List Nat} {idx i : Nat} :
    i ∈ pushNew indices idx ↔ i ∈ indices ∨ i = idx := by
  unfold pushNew
  split
  · rename_i hmem
    rw [contains_iff_mem] at hmem
    constructor
    · exact .inl
    · rintro (h | rfl)
      · exact h
      · exact hmem
  · simp

theorem mem_pushEach {β : Type} {f : β → Option Nat} {xs : List β} {indices : List Nat} {i : Nat} :
    i ∈ pushEach f xs indices ↔ i ∈ indices ∨ ∃ x ∈ xs, f x = some i := by
  unfold pushEach
  induction xs generalizing indices with
  | nil => simp
  | cons x _ ih =>
    rw [foldl_cons, ih]
    cases hx : f x with
    | none => simp [hx]
    | some => simp [hx, mem_pushNew, or_assoc, eq_comm]

/-- A pattern is a candidate if the automaton reported one of its prefixes, or
if it has none. -/
theorem LeakDetector.mem_candidateIndices
    {needles : List (List UInt8)} (hm : d.prefixMatcher = some needles) {i : Nat} :
    i ∈ d.candidateIndices content
      ↔ (∃ id ∈ MultiSearch.search needles [] (utf8 content),
            (d.knownPrefixes[id]?).map (·.2) = some i)
        ∨ (i < d.patterns.length ∧ ∀ k ∈ d.knownPrefixes, k.2 ≠ i) := by
  simp only [candidateIndices, hm, mem_pushEach, not_mem_nil, false_or, mem_range]
  refine or_congr_right ?_
  constructor
  · rintro ⟨x, hx, hsome⟩
    split at hsome
    · cases hsome
    rename_i hnone
    cases hsome
    refine ⟨hx, fun k hk heq => hnone ?_⟩
    exact any_eq_true.mpr ⟨k, hk, by simp [heq]⟩
  · rintro ⟨hlt, hnone⟩
    refine ⟨i, hlt, if_neg ?_⟩
    intro hany
    obtain ⟨k, hk, heq⟩ := any_eq_true.mp hany
    exact hnone k hk (by simpa using heq)

end TitanClaw.Safety
