import TitanClaw.Settings.Schema

/-! # Settings in the database

Settings go to the database as a flat map from dotted paths to JSON values. They come back by
setting one path after the other, each from a text, and the type of the value is guessed from
what is at the path. -/

namespace TitanClaw

open SettingsField JsonValue

inductive KeySource where
  | keychain
  | env
  | none
  deriving DecidableEq

def KeySource.name : KeySource → String
  | keychain => "keychain"
  | env => "env"
  | none => "none"

def KeySource.ofName (s : String) : Option KeySource :=
  if s = "keychain" then some keychain
  else if s = "env" then some env
  else if s = "none" then some none
  else Option.none

inductive OsPath where
  | text (s : String)
  /-- Bytes that are not UTF-8. -/
  | bytes (raw : List UInt8)

/-- The libraries: JSON, and floating point numbers with their shortest decimals, which those
that are not finite do not have. -/
structure SettingsDeps where
  json : JsonCodec
  Float : FloatWidth → Type
  toDecimal : (w : FloatWidth) → Float w → Option (Int × Int)
  ofDecimal : (w : FloatWidth) → (mantissa exponent : Int) → Float w
  parseF64 : String → Option (Float .f64)
  /-- Why a value is not one of settings. -/
  valueError : JsonValue → String

/-! ## Fields -/

namespace FieldType

@[reducible] def Value (D : SettingsDeps) : FieldType → Type
  | .bool .. => Bool
  | .uint width _ _ => Fin (2 ^ width.bits)
  | .text _ => String
  | .optText => Option String
  | .optUint width => Option (Fin (2 ^ width.bits))
  | .optInt => Option { n : Int // -2 ^ 63 ≤ n ∧ n < 2 ^ 63 }
  | .optPath => Option OsPath
  | .texts => List String
  | .keySource => KeySource
  | .float w _ _ _ => D.Float w

variable (D : SettingsDeps)

def default : (t : FieldType) → t.Value D
  | .bool d _ => d
  | .uint _ d h => ⟨d, h⟩
  | .text d => d
  | .optText => none
  | .optUint _ => none
  | .optInt => none
  | .optPath => none
  | .texts => []
  | .keySource => .none
  | .float w m e _ => D.ofDecimal w m e

/-- The value when the section has no such field. -/
def missing : (t : FieldType) → t.Value D
  | .bool _ m => m
  | .uint width d h => default D (.uint width d h)
  | .text d => default D (.text d)
  | .optText => default D .optText
  | .optUint width => default D (.optUint width)
  | .optInt => default D .optInt
  | .optPath => default D .optPath
  | .texts => default D .texts
  | .keySource => default D .keySource
  | .float w m e h => default D (.float w m e h)

def toJson : (t : FieldType) → t.Value D → Option JsonValue
  | .bool .., b => some (.bool b)
  | .uint .., n => some (.int n.val)
  | .text _, s => some (.str s)
  | .optText, none => some .null
  | .optText, some s => some (.str s)
  | .optUint _, none => some .null
  | .optUint _, some n => some (.int n.val)
  | .optInt, none => some .null
  | .optInt, some n => some (.int n.val)
  | .optPath, none => some .null
  | .optPath, some (.text s) => some (.str s)
  | .optPath, some (.bytes _) => none
  | .texts, xs => some (.arr (xs.map .str))
  | .keySource, k => some (.str k.name)
  | .float w _ _ _, x =>
      match D.toDecimal w x with
      | some (m, e) => some (.float m e)
      | none => some .null

def uintOf (width : UintWidth) (n : Int) : Option (Fin (2 ^ width.bits)) :=
  if h : 0 ≤ n ∧ n.toNat < 2 ^ width.bits then some ⟨n.toNat, h.2⟩ else none

def intOf (n : Int) : Option { n : Int // -2 ^ 63 ≤ n ∧ n < 2 ^ 63 } :=
  if h : -2 ^ 63 ≤ n ∧ n < 2 ^ 63 then some ⟨n, h⟩ else none

def ofJson : (t : FieldType) → JsonValue → Option (t.Value D)
  | .bool .., .bool b => some b
  | .uint width _ _, .int n => uintOf width n
  | .text _, .str s => some s
  | .optText, .null => some none
  | .optText, .str s => some (some s)
  | .optUint _, .null => some none
  | .optUint width, .int n => (uintOf width n).map some
  | .optInt, .null => some none
  | .optInt, .int n => (intOf n).map some
  | .optPath, .null => some none
  | .optPath, .str s => some (some (.text s))
  | .texts, .arr items => items.mapM asStr?
  | .keySource, .str s => KeySource.ofName s
  | .keySource, .obj [(s, .null)] => KeySource.ofName s
  | .float w _ _ _, .float m e => some (D.ofDecimal w m e)
  | .float w _ _ _, .int n => some (D.ofDecimal w n 0)
  | _, _ => none

end FieldType

/-- A value for every field. -/
def Settings (D : SettingsDeps) : Type := (f : SettingsField) → f.type.Value D

namespace Settings

variable (D : SettingsDeps)

def default : Settings D := fun f => f.type.default D

/-! ## Settings as a JSON value -/

/-- The fields of an object. -/
def group (leaf : SettingsField → JsonValue) (sect : Option SettingsSection) :
    List (String × JsonValue) :=
  (inSection sect).map fun f => (f.name, leaf f)

/-- The object with these values of the fields. -/
def tree (leaf : SettingsField → JsonValue) : JsonValue :=
  .obj (group leaf none
    ++ SettingsSection.all.map fun sect => (sect.name, .obj (group leaf (some sect))))

variable {D} in
def leaf (s : Settings D) (f : SettingsField) : JsonValue := (f.type.toJson D (s f)).getD .null

variable {D} in
def toValue (s : Settings D) : Option JsonValue :=
  if all.all fun f => (f.type.toJson D (s f)).isSome then some (tree s.leaf)
  else none

/-- The value of a field, from an object that may have it; two names for it are one too
many. -/
def fieldOf (fields : List (String × JsonValue)) (f : SettingsField)
    (absent : f.type.Value D) : Option (f.type.Value D) :=
  match fields.lookup f.name, f.alias?.bind (fields.lookup ·) with
  | some v, none => f.type.ofJson D v
  | none, some v => f.type.ofJson D v
  | none, none => some absent
  | some _, some _ => none

/-- The value of a field from an array, which has the fields of the section in their order and
may end before the last. -/
def itemOf (items : List JsonValue) (f : SettingsField) (absent : f.type.Value D) :
    Option (f.type.Value D) :=
  if (fieldsOf f.sect).length < items.length then none
  else
    match items[f.pos.val]? with
    | some v => f.type.ofJson D v
    | none => some absent

variable (v : JsonValue) (f : SettingsField)

def sectionField : Option (f.type.Value D) :=
  match v with
  | .obj fields => fieldOf D fields f (f.type.missing D)
  | .arr items => itemOf D items f (f.type.missing D)
  | _ => none

def readField : Option (f.type.Value D) :=
  match v, f.sect with
  | .obj top, none => fieldOf D top f (f.type.missing D)
  | .obj top, some sect =>
      match top.lookup sect.name with
      | none => some (f.type.default D)
      | some v => sectionField D v f
  | _, _ => none

def fromValue : Option (Settings D) :=
  if h : ∀ f ∈ all, (readField D v f).isSome = true then
    some fun f => (readField D v f).get (h f (mem_all f))
  else none

/-! ## Setting a path -/

def parseDigits (cs : List Char) : Option Nat :=
  if cs.isEmpty || !cs.all Char.isDigit then none else some (Nat.ofDigitChars 10 cs 0)

/-- `parse::<u64>`. -/
def parseU64 (s : String) : Option Nat :=
  (parseDigits (match s.toList with
    | '+' :: cs => cs
    | cs => cs)).filter (· < 2 ^ 64)

/-- `parse::<i64>`. -/
def parseI64 (s : String) : Option Int :=
  (match s.toList with
    | '-' :: cs => (parseDigits cs).map fun n => -(n : Int)
    | '+' :: cs => (parseDigits cs).map fun n => (n : Int)
    | cs => (parseDigits cs).map fun n => (n : Int)).filter fun n =>
      decide (-2 ^ 63 ≤ n ∧ n < 2 ^ 63)

def newValue (path value : String) (existing : Option JsonValue) : Except String JsonValue :=
  let expected (what : String) : String :=
    "Expected " ++ what ++ " for " ++ path ++ ", got '" ++ value ++ "'"
  match existing with
  | some (.bool _) =>
      if value = "true" then .ok (.bool true)
      else if value = "false" then .ok (.bool false)
      else .error (expected "boolean")
  | some (.int n) =>
      if 0 ≤ n then
        match parseU64 value with
        | some n => .ok (.int n)
        | none => .error (expected "integer")
      else
        match parseI64 value with
        | some n => .ok (.int n)
        | none => .error (expected "integer")
  | some (.float _ _) =>
      match D.parseF64 value with
      | some x =>
          match D.toDecimal .f64 x with
          | some (m, e) => .ok (.float m e)
          | none => .ok (.str value)
      | none => .error (expected "number")
  | some .null | none => .ok ((D.json.fromText value).toOption.getD (.str value))
  | some (.arr _) =>
      match D.json.fromText value with
      | .ok v => .ok v
      | .error e => .error ("Invalid JSON array for " ++ path ++ ": " ++ e)
  | some (.obj _) =>
      match D.json.fromText value with
      | .ok v => .ok v
      | .error e => .error ("Invalid JSON object for " ++ path ++ ": " ++ e)
  | some (.str _) => .ok (.str value)

/-- Put the new value at the end of the path. -/
def setAt (path value : String) : List String → JsonValue → Except String JsonValue
  | [], _ => .error "Empty path"
  | [key], .obj fields =>
      (newValue D path value (fields.lookup key)).map fun v => .obj (setField fields key v)
  | [_], _ => .error ("Parent is not an object: " ++ path)
  | key :: rest, .obj fields =>
      match fields.lookup key with
      | none => .error ("Path not found: " ++ path)
      | some child => (setAt path value rest child).map fun v => .obj (setField fields key v)
  | _ :: _, _ => .error ("Path not found: " ++ path)

/-- `str::split` at dots. -/
def splitPath (path : String) : List String := (path.toList.splitOn '.').map String.ofList

variable {D}

def set (s : Settings D) (path value : String) : Except String (Settings D) :=
  match s.toValue with
  | none => .error "Failed to serialize settings: path contains invalid UTF-8 characters"
  | some json =>
      match setAt D path value (splitPath path) json with
      | .error e => .error e
      | .ok json =>
          match fromValue D json with
          | none => .error ("Failed to apply setting: " ++ D.valueError json)
          | some s => .ok s

/-! ## The map -/

mutual

/-- The values that are not objects, with their paths. -/
def collectSettingsJson (path : String) : JsonValue → List (String × JsonValue)
  | .obj fields => collectFields path fields
  | v => [(path, v)]

def collectFields (path : String) : List (String × JsonValue) → List (String × JsonValue)
  | [] => []
  | (key, v) :: rest =>
      collectSettingsJson (if path.isEmpty then key else path ++ "." ++ key) v
        ++ collectFields path rest

end

def toDbMap (s : Settings D) : List (String × JsonValue) :=
  match s.toValue with
  | none => []
  | some json => collectSettingsJson "" json

def valueText (D : SettingsDeps) : JsonValue → Option String
  | .str s => some s
  | .bool b => some (toString b)
  | .null => none
  | v => some (D.json.toText v)

def applyEntry (s : Settings D) (entry : String × JsonValue) : Settings D :=
  match valueText D entry.2 with
  | none => s
  | some text =>
      match s.set entry.1 text with
      | .ok s => s
      | .error _ => s

def fromDbMap (D : SettingsDeps) (entries : List (String × JsonValue)) : Settings D :=
  entries.foldl applyEntry (default D)

end Settings

end TitanClaw
