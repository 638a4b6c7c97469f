import Mathlib.Algebra.Ring.Int.Defs
import Mathlib.Algebra.Ring.Nat
import Mathlib.Data.List.Basic

/-! # JSON values

The value type that tool parameters, tool results and schemas are made of.
Objects are key–value lists in the order the library keeps them; numbers are
integers or decimal floats, which is all that integer accessors distinguish. -/

inductive JsonValue where
  | null
  | bool (b : Bool)
  | int (n : Int)
  | float (mantissa : Int) (exponent : Int)
  | str (s : String)
  | arr (items : List JsonValue)
  | obj (fields : List (String × JsonValue))

namespace JsonValue

/-- `Value::get` with a string key: a field of an object, nothing elsewhere. -/
def get? (v : JsonValue) (key : String) : Option JsonValue :=
  match v with
  | obj fields => fields.lookup key
  | _ => none

def asStr? : JsonValue → Option String
  | str s => some s
  | _ => none

def asBool? : JsonValue → Option Bool
  | bool b => some b
  | _ => none

/-- `Value::as_u64`: an integer in the range of a `u64`. -/
def asU64? : JsonValue → Option Nat
  | int n => if 0 ≤ n ∧ n < 2 ^ 64 then some n.toNat else none
  | _ => none

def asArr? : JsonValue → Option (List JsonValue)
  | arr items => some items
  | _ => none

variable (fields : List (String × JsonValue))

def setField (key : String) (v : JsonValue) : List (String × JsonValue) :=
  if fields.any (·.1 == key) then fields.map fun f => if f.1 == key then (key, v) else f
  else fields ++ [(key, v)]

def removeField (key : String) : List (String × JsonValue) := fields.filter (·.1 != key)

end JsonValue

/-- A JSON library: values to text, plain and indented, and text to values. -/
structure JsonCodec where
  toText : JsonValue → String
  toTextPretty : JsonValue → Except String String
  fromText : String → Except String JsonValue
