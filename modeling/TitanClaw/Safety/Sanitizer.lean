import TitanClaw.Safety.LeakDetector

/-! # The sanitizer

External content is searched for the literals of known injections, in one pass of an Aho–Corasick
automaton that ignores the case of ASCII letters, and for a few regular expressions. A critical
finding has the whole content escaped. -/

namespace TitanClaw.Safety

open Text

/-! ## Patterns and results -/

inductive Severity where
  | low | medium | high | critical
  deriving DecidableEq

def Severity.value : Severity → Nat
  | low => 1
  | medium => 2
  | high => 3
  | critical => 4

structure InjectionWarning where
  pattern : String
  severity : Severity
  location : Span
  description : String
  deriving DecidableEq

structure SanitizedOutput where
  content : String
  warnings : List InjectionWarning
  wasModified : Bool
  deriving DecidableEq

structure PatternInfo where
  pattern : String
  severity : Severity
  description : String

structure RegexPattern where
  regex : String
  name : String
  severity : Severity
  description : String
  deriving DecidableEq

def injectionPatterns : List PatternInfo :=
  [ -- direct instruction injection
    ⟨"ignore previous", .high, "Attempt to override previous instructions"⟩,
    ⟨"ignore all previous", .critical, "Attempt to override all previous instructions"⟩,
    ⟨"disregard", .medium, "Potential instruction override"⟩,
    ⟨"forget everything", .high, "Attempt to reset context"⟩,
    -- role manipulation
    ⟨"you are now", .high, "Attempt to change assistant role"⟩,
    ⟨"act as", .medium, "Potential role manipulation"⟩,
    ⟨"pretend to be", .medium, "Potential role manipulation"⟩,
    -- system message injection
    ⟨"system:", .critical, "Attempt to inject system message"⟩,
    ⟨"assistant:", .high, "Attempt to inject assistant response"⟩,
    ⟨"user:", .high, "Attempt to inject user message"⟩,
    -- special tokens
    ⟨"<|", .critical, "Potential special token injection"⟩,
    ⟨"|>", .critical, "Potential special token injection"⟩,
    ⟨"[INST]", .critical, "Potential instruction token injection"⟩,
    ⟨"[/INST]", .critical, "Potential instruction token injection"⟩,
    -- new instructions
    ⟨"new instructions", .high, "Attempt to provide new instructions"⟩,
    ⟨"updated instructions", .high, "Attempt to update instructions"⟩,
    -- markers of code and commands
    ⟨"```system", .high, "Potential code block instruction injection"⟩,
    ⟨"```bash\nsudo", .medium, "Potential dangerous command injection"⟩ ]

def nullByte : RegexPattern := ⟨"\\x00", "null_byte", .critical, "Null byte injection attempt"⟩

def injectionRegexes : List RegexPattern :=
  [ ⟨"(?i)base64[:\\s]+[A-Za-z0-9+/=]\x7b50,\x7d", "base64_payload", .medium,
      "Potential encoded payload"⟩,
    ⟨"(?i)eval\\s*\\(", "eval_call", .high, "Potential code evaluation attempt"⟩,
    ⟨"(?i)exec\\s*\\(", "exec_call", .high, "Potential code execution attempt"⟩,
    nullByte ]

/-- The regex crate on these expressions, as far as it is known: the last one matches a null
byte wherever there is one. -/
structure SanitizerRegexes extends RegexEngine where
  null_byte_iff : ∀ content, findIter nullByte.regex content ≠ [] ↔ '\x00' ∈ content.toList

def nullSpans (offset : Nat) : List Char → List Span
  | [] => []
  | c :: cs =>
      if c = '\x00' then ⟨offset, offset + 1⟩ :: nullSpans (offset + 1) cs
      else nullSpans (offset + c.utf8Size) cs

theorem nullSpans_ne_nil_iff (offset : Nat) (l : List Char) :
    nullSpans offset l ≠ [] ↔ '\x00' ∈ l := by
  induction l generalizing offset with
  | nil => simp [nullSpans]
  | cons _ _ ih =>
    rw [nullSpans]
    split
    · next hc => simp [hc]
    · next hc => simp [ih, Ne.symm hc]

/-- An engine for contents in which the other expressions find nothing. -/
def nullOnly : SanitizerRegexes where
  findIter regex content := if regex = nullByte.regex then nullSpans 0 content.toList else []
  null_byte_iff content := nullSpans_ne_nil_iff 0 content.toList

/-! ## Escaping -/

/-- The case mapping of whole strings, which maps the ASCII characters that a string begins with
by themselves. -/
structure Lowercase where
  toLowercase : String → String
  lower_ascii_prefix : ∀ ascii rest : List Char, (∀ c ∈ ascii, c.toNat < 128) →
    ascii.map Char.toLower <+: (toLowercase (String.ofList (ascii ++ rest))).toList

def asciiLower : Lowercase where
  toLowercase s := String.ofList (s.toList.map Char.toLower)
  lower_ascii_prefix ascii rest _ := by
    rw [String.toList_ofList, String.toList_ofList, List.map_append]
    exact List.prefix_append _ _

def roleMarkers : List String := ["system:", "user:", "assistant:"]

def escapeLine (U : Lowercase) (line : String) : String :=
  let trimmed := U.toLowercase (String.ofList (line.toList.dropWhile isWhitespace))
  if roleMarkers.any (startsWith trimmed) then "[ESCAPED] " ++ line else line

def escapeContent (U : Lowercase) (content : String) : String :=
  let escaped := replace content "<|" "\\<|"
  let escaped := replace escaped "|>" "|\\>"
  let escaped := replace escaped "[INST]" "\\[INST]"
  let escaped := replace escaped "[/INST]" "\\[/INST]"
  let escaped := replace escaped "\x00" ""
  "\n".intercalate ((lines escaped).map (escapeLine U))

/-! ## Detection -/

/-- The automaton compares ASCII letters without their case. -/
def foldByte (b : UInt8) : UInt8 := if 65 ≤ b && b ≤ 90 then b + 32 else b

def foldText (s : String) : List UInt8 := (utf8 s).map foldByte

def injectionNeedles : List (List UInt8) := injectionPatterns.map (foldText ·.pattern)

def literalWarnings (content : String) : List InjectionWarning :=
  (MultiSearch.searchAt injectionNeedles [] 0 (foldText content)).filterMap fun (id, stop) =>
    injectionPatterns[id]?.map fun info =>
      ⟨info.pattern, info.severity, ⟨stop - len info.pattern, stop⟩, info.description⟩

variable (E : RegexEngine) (content : String)

def regexWarnings : List InjectionWarning :=
  injectionRegexes.flatMap fun pattern =>
    (E.findIter pattern.regex content).map fun location =>
      ⟨pattern.name, pattern.severity, location, pattern.description⟩

/-- Critical first; the sort is stable. -/
def injectionWarnings : List InjectionWarning :=
  (literalWarnings content ++ regexWarnings E content).mergeSort fun a b =>
    decide (b.severity.value ≤ a.severity.value)

def hasCritical : Bool := (injectionWarnings E content).any (·.severity == .critical)

def sanitize (U : Lowercase) (content : String) : SanitizedOutput :=
  let warnings := injectionWarnings E content
  if hasCritical E content then ⟨escapeContent U content, warnings, true⟩
  else ⟨content, warnings, false⟩

end TitanClaw.Safety
