import TitanClaw.Lib.Json
import TitanClaw.Lib.Text

/-! # Input validation

Length, encoding and content checks on a text, and on every string of a tool's
parameters. -/

namespace TitanClaw.Safety

open Text

inductive ValidationErrorCode where
  | empty
  | tooLong
  | tooShort
  | invalidFormat
  | forbiddenContent
  | invalidEncoding
  | suspiciousPattern
  deriving DecidableEq

structure ValidationError where
  field : String
  message : String
  code : ValidationErrorCode

structure ValidationResult where
  isValid : Bool := true
  errors : List ValidationError := []
  warnings : List String := []

namespace ValidationResult

def error (e : ValidationError) : ValidationResult := ⟨false, [e], []⟩

variable (r : ValidationResult)

def withWarning (warning : String) : ValidationResult :=
  { r with warnings := r.warnings ++ [warning] }

def merge (r other : ValidationResult) : ValidationResult :=
  ⟨r.isValid && other.isValid, r.errors ++ other.errors, r.warnings ++ other.warnings⟩

def check (bad : Bool) (e : ValidationError) : ValidationResult :=
  if bad then r.merge (.error e) else r

end ValidationResult

structure Validator where
  maxLength : Nat := 100000
  minLength : Nat := 1
  /-- Lower-case substrings that are not allowed. -/
  forbiddenPatterns : List String := []

/-- The longest run of one character. -/
def maxRepeat : List Char → Nat
  | [] => 1
  | c :: cs => go c 1 1 cs
where
  go (last : Char) (current best : Nat) : List Char → Nat
    | [] => best
    | c :: cs =>
        if c = last then go c (current + 1) (max best (current + 1)) cs
        else go c 1 best cs

def hasExcessiveRepetition (s : String) : Bool :=
  if len s < 50 then false else maxRepeat s.toList > 20

def Validator.validate (U : CaseMap) (v : Validator) (input : String) : ValidationResult :=
  if input.isEmpty then .error ⟨"input", "Input cannot be empty", .empty⟩
  else
    let size := len input
    let result : ValidationResult := {}
    let result := result.check (size > v.maxLength)
      ⟨"input", "Input too long: " ++ toString size ++ " bytes (max "
        ++ toString v.maxLength ++ ")", .tooLong⟩
    let result := result.check (size < v.minLength)
      ⟨"input", "Input too short: " ++ toString size ++ " bytes (min "
        ++ toString v.minLength ++ ")", .tooShort⟩
    let result := result.check (input.toList.contains '\x00')
      ⟨"input", "Input contains null bytes", .invalidEncoding⟩
    let lowerInput := U.toLowercase input
    let result := v.forbiddenPatterns.foldl (fun r pattern =>
      r.check (contains lowerInput pattern)
        ⟨"input", "Input contains forbidden pattern: " ++ pattern, .forbiddenContent⟩) result
    let whitespace := (input.toList.filter isWhitespace).length
    let result := if whitespace * 10 > size * 9 ∧ size > 100 then
      result.withWarning "Input has unusually high whitespace ratio" else result
    if hasExcessiveRepetition input then
      result.withWarning "Input has excessive character repetition" else result

mutual

def Validator.checkStrings (U : CaseMap) (v : Validator) (result : ValidationResult) :
    JsonValue → ValidationResult
  | .str s => result.merge (v.validate U s)
  | .arr items => Validator.checkItems U v result items
  | .obj fields => Validator.checkFields U v result fields
  | _ => result

def Validator.checkItems (U : CaseMap) (v : Validator) (result : ValidationResult) :
    List JsonValue → ValidationResult
  | [] => result
  | item :: rest => Validator.checkItems U v (Validator.checkStrings U v result item) rest

def Validator.checkFields (U : CaseMap) (v : Validator) (result : ValidationResult) :
    List (String × JsonValue) → ValidationResult
  | [] => result
  | (_, value) :: rest => Validator.checkFields U v (Validator.checkStrings U v result value) rest

end

def Validator.validateToolParams (U : CaseMap) (v : Validator) (params : JsonValue) :
    ValidationResult :=
  Validator.checkStrings U v {} params

end TitanClaw.Safety
