import Mathlib.Data.List.Perm.Basic
import TitanClaw.Lib.JsonText
import TitanClaw.Settings.Tree

/-! # Settings through the database

A field without a type of its own in its default, an optional text or path, comes back as
whatever its text is in JSON. All other fields come back as they were. -/

namespace TitanClaw

open List Option String JsonValue JsonText FieldType Nat SettingsField

/-- What the libraries do. What is written for an integer, a list of texts or a finite floating
point number is read as that, short decimals are finite, and no text is the JSON text of
itself. -/
structure SettingsDeps.Lawful (D : SettingsDeps) : Prop where
  intText : ∀ n : Int, D.json.toText (.int n) = toString n
  ofInt : ∀ n : Int, -2 ^ 63 ≤ n → n < 2 ^ 64 → D.json.fromText (toString n) = .ok (.int n)
  ofTexts : ∀ xs : List String,
    D.json.fromText (D.json.toText (.arr (xs.map .str))) = .ok (.arr (xs.map .str))
  notItself : ∀ s, D.json.fromText s ≠ .ok (.str s)
  ofDecimal_toDecimal : ∀ w x m e, D.toDecimal w x = some (m, e) → D.ofDecimal w m e = x
  parse_text : ∀ w x m e, D.toDecimal w x = some (m, e) →
    ∃ y, D.parseF64 (D.json.toText (.float m e)) = some y ∧ D.toDecimal .f64 y = some (m, e)
  shortDecimal : ∀ w (m e : Int), m.natAbs < 10 ^ 6 → e.natAbs ≤ 6 →
    (D.toDecimal w (D.ofDecimal w m e)).isSome = true

/-- The JSON values that fields have. -/
inductive SettingsDeps.IsLeaf (D : SettingsDeps) : JsonValue → Prop where
  | null : IsLeaf D .null
  | bool (b : Bool) : IsLeaf D (.bool b)
  | int (n : Int) (hlow : -2 ^ 63 ≤ n) (hhigh : n < 2 ^ 64) : IsLeaf D (.int n)
  | float {w : FloatWidth} {x : D.Float w} {m e : Int} (h : D.toDecimal w x = some (m, e)) :
      IsLeaf D (.float m e)
  | str (s : String) : IsLeaf D (.str s)
  | texts (xs : List String) : IsLeaf D (.arr (xs.map .str))

namespace Settings

theorem toString_natCast (n : Nat) : toString (n : Int) = String.ofList (toDigits 10 n) :=
  repr_eq_ofList_toDigits

theorem parseDigits_toDigits (n : Nat) : parseDigits (toDigits 10 n) = some n := by
  have hempty : (toDigits 10 n).isEmpty = false := by simp [toDigits_ne_nil]
  have hdigits : (toDigits 10 n).all Char.isDigit = true :=
    all_eq_true.mpr fun c hc => isDigit_of_mem_toDigits (by decide) (by decide) hc
  simp [parseDigits, hempty, hdigits, ofDigitChars_toDigits]

theorem toDigits_ne_cons {c : Char} (hc : c.isDigit = false) (n : Nat) (cs : List Char) :
    toDigits 10 n ≠ c :: cs := by
  intro heq
  have hmem : c ∈ toDigits 10 n := by
    rw [heq]
    exact mem_cons_self
  rw [isDigit_of_mem_toDigits (by decide) (by decide) hmem] at hc
  cases hc

theorem parseU64_toString {n : Nat} (h : n < 2 ^ 64) : parseU64 (toString (n : Int)) = some n := by
  rw [parseU64, toString_natCast, toList_ofList]
  split
  · next heq => exact absurd heq (toDigits_ne_cons (by decide) n _)
  · rw [parseDigits_toDigits, filter_some, if_pos (by simpa using h)]

end Settings

/-! ## One field -/

namespace FieldType

open Settings

variable {D : SettingsDeps}

theorem bits_le (width : UintWidth) : 2 ^ width.bits ≤ 2 ^ 64 := by cases width <;> decide

theorem uintOf_val {width : UintWidth} (n : Fin (2 ^ width.bits)) :
    uintOf width (n.val : Int) = some n := by
  simp [uintOf]

theorem intOf_val (n : { n : Int // -2 ^ 63 ≤ n ∧ n < 2 ^ 63 }) : intOf n.val = some n :=
  dif_pos n.property

theorem mapM_asStr (xs : List String) : (xs.map str).mapM asStr? = some xs := by
  induction xs with
  | nil => rfl
  | cons _ _ ih =>
    rw [map_cons, mapM_cons, ih]
    rfl

theorem filterMap_asStr (xs : List String) : (xs.map str).filterMap asStr? = xs := by
  rw [filterMap_map]
  exact filterMap_some

theorem ofName_name (k : KeySource) : KeySource.ofName k.name = some k := by cases k <;> decide

variable (t : FieldType)

/-- The value is read back from its JSON. -/
def Stored (v : t.Value D) : Prop := ∃ j, t.toJson D v = some j ∧ t.ofJson D j = some v

variable (D)

/-- What an entry of the map makes of a field. -/
def applied (path : String) (old : t.Value D) (entry : JsonValue) : t.Value D :=
  match valueText D entry with
  | none => old
  | some written =>
      match newValue D path written (t.toJson D old) with
      | .error _ => old
      | .ok new => (t.ofJson D new).getD old

/-- The value that comes back from the database. -/
def rebuilt (path : String) (v : t.Value D) : t.Value D :=
  applied D t path (t.default D) ((t.toJson D v).getD .null)

/-- An optional text that is set is not JSON, and an optional path that is set is a text and
not JSON. -/
def Survives : (t : FieldType) → t.Value D → Prop
  | .optText, v => ∀ s, v = some s → ∃ e, D.json.fromText s = .error e
  | .optPath, v => ∀ p, v = some p → ∃ s e, p = .text s ∧ D.json.fromText s = .error e
  | _, _ => True

theorem isLeaf_uint {width : UintWidth} (n : Fin (2 ^ width.bits)) : D.IsLeaf (.int n.val) := by
  have hn := lt_of_lt_of_le n.isLt (bits_le width)
  exact .int n.val (by omega) (by exact_mod_cast hn)

variable {D} {t} {j : JsonValue} {v : t.Value D}

theorem toJson_float {w : FloatWidth} {m e : Int} {hshort : m.natAbs < 10 ^ 6 ∧ e.natAbs ≤ 6}
    (x : D.Float w) : toJson D (.float w m e hshort) x = match D.toDecimal w x with
      | some (m, e) => some (.float m e)
      | none => some .null := rfl

theorem isLeaf_of_toJson (h : t.toJson D v = some j) : D.IsLeaf j := by
  cases t with
  | bool => cases h; exact .bool v
  | uint => cases h; exact isLeaf_uint D v
  | text | keySource => cases h; exact .str _
  | texts => cases h; exact .texts v
  | optText =>
    cases v with
    | none => cases h; exact .null
    | some s => cases h; exact .str s
  | optUint =>
    cases v with
    | none => cases h; exact .null
    | some n => cases h; exact isLeaf_uint D n
  | optInt =>
    cases v with
    | none => cases h; exact .null
    | some n =>
      cases h
      exact .int n.val n.property.1 (by omega)
  | optPath =>
    cases v with
    | none => cases h; exact .null
    | some p =>
      cases p with
      | text s => cases h; exact .str s
      | bytes => cases h
  | float =>
    rw [toJson_float] at h
    split at h
    · next hdecimal => cases h; exact .float hdecimal
    · cases h; exact .null

theorem toJson_ne_obj (h : t.toJson D v = some j)
    (fields : List (String × JsonValue)) : j ≠ .obj fields := by
  rintro rfl
  cases isLeaf_of_toJson h

theorem of_toJson_eq_none (h : t.toJson D v = none) :
    t.isFloat = false ∧ t.default D ≠ v ∧ ¬Survives D t v := by
  cases t with
  | bool | uint | text | texts | keySource => cases h
  | optText | optUint | optInt => cases v <;> cases h
  | optPath =>
    cases v with
    | none => cases h
    | some p =>
      cases p with
      | text => cases h
      | bytes =>
        refine ⟨rfl, nofun, fun hsurvives => ?_⟩
        obtain ⟨s, e, hs, -⟩ := hsurvives _ rfl
        cases hs
  | float =>
    rw [toJson_float] at h
    split at h <;> cases h

theorem survives_default (t : FieldType) : Survives D t (t.default D) := by
  cases t with
  | optText | optPath => nofun
  | bool | uint | text | optUint | optInt | texts | keySource | float => trivial

theorem survives_of_isFloat (h : t.isFloat = true) : Survives D t v := by
  cases t with
  | float => trivial
  | bool | uint | text | optText | optUint | optInt | optPath | texts | keySource => cases h

/-- Every value but a path in other bytes or a number that is not finite is stored. -/
theorem stored_of_toJson (hD : D.Lawful) {v : t.Value D}
    (h : t.toJson D v = some j) (hj : t.isFloat = true → j ≠ .null) : t.Stored v := by
  refine ⟨j, h, ?_⟩
  cases t with
  | bool | text =>
    cases h
    rfl
  | uint =>
    cases h
    exact uintOf_val v
  | optText => cases v <;> cases h <;> rfl
  | optUint =>
    cases v with
    | none => cases h; rfl
    | some n => cases h; exact congrArg (Option.map some) (uintOf_val n)
  | optInt =>
    cases v with
    | none => cases h; rfl
    | some n => cases h; exact congrArg (Option.map some) (intOf_val n)
  | optPath =>
    cases v with
    | none => cases h; rfl
    | some p =>
      cases p with
      | text => cases h; rfl
      | bytes => cases h
  | texts =>
    cases h
    exact mapM_asStr v
  | keySource =>
    cases h
    exact ofName_name v
  | float w =>
    rw [toJson_float] at h
    cases hdecimal : D.toDecimal w v with
    | none =>
      rw [hdecimal] at h
      cases h
      exact absurd rfl (hj rfl)
    | some =>
      rw [hdecimal] at h
      cases h
      exact congrArg some (hD.ofDecimal_toDecimal w v _ _ hdecimal)

theorem stored_default (hD : D.Lawful) (t : FieldType) : t.Stored (t.default D) := by
  cases t with
  | float w m e hshort =>
    obtain ⟨d, hdecimal⟩ := isSome_iff_exists.mp (hD.shortDecimal w m e hshort.1 hshort.2)
    refine stored_of_toJson hD (j := .float d.1 d.2) ?_ nofun
    simp [toJson_float, default, hdecimal]
  | bool | uint | text | optText | optUint | optInt | optPath | texts | keySource =>
    exact stored_of_toJson hD rfl nofun

/-- What is read can be written. -/
theorem isSome_of_ofJson (h : t.ofJson D j = some v) : (t.toJson D v).isSome = true := by
  cases t with
  | bool | uint | text | texts | keySource => rfl
  | optText | optUint | optInt => cases v <;> rfl
  | optPath =>
    cases j with
    | null | str => cases h; rfl
    | bool | int | float | arr | obj => cases h
  | float =>
    rw [toJson_float]
    split <;> rfl

section

variable (hD : D.Lawful)

include hD

theorem stored_of_ofJson (hfloat : t.isFloat = false) {v : t.Value D}
    (h : t.ofJson D j = some v) : t.Stored v := by
  obtain ⟨j', hj'⟩ := isSome_iff_exists.mp (isSome_of_ofJson h)
  exact stored_of_toJson hD hj' (by simp [hfloat])

theorem stored_applied (hfloat : t.isFloat = false)
    {path : String} {old : t.Value D} (hold : t.Stored old) (entry : JsonValue) :
    t.Stored (applied D t path old entry) := by
  unfold applied
  split
  · exact hold
  split
  · exact hold
  next new hnew =>
  cases hread : t.ofJson D new with
  | none => exact hold
  | some => exact stored_of_ofJson hD hfloat hread

/-- A finite number comes back, for another one the default stays. -/
theorem rebuilt_float {w : FloatWidth} {m e : Int}
    {hshort : m.natAbs < 10 ^ 6 ∧ e.natAbs ≤ 6} (path : String) (x : D.Float w) :
    rebuilt D (.float w m e hshort) path x = x ∧ (D.toDecimal w x).isSome = true
      ∨ rebuilt D (.float w m e hshort) path x = D.ofDecimal w m e := by
  obtain ⟨d, hdefault⟩ := isSome_iff_exists.mp (hD.shortDecimal w m e hshort.1 hshort.2)
  cases hdecimal : D.toDecimal w x with
  | none => simp [rebuilt, toJson_float, hdecimal, applied, valueText, default]
  | some d' =>
    obtain ⟨y, hparse, hy⟩ := hD.parse_text w x d'.1 d'.2 hdecimal
    simp [rebuilt, toJson_float, hdecimal, applied, valueText, default, hdefault, newValue, hparse, hy,
      ofJson, hD.ofDecimal_toDecimal w x _ _ hdecimal]

theorem stored_rebuilt (t : FieldType) (path : String) (v : t.Value D) :
    t.Stored (rebuilt D t path v) := by
  cases hfloat : t.isFloat with
  | false => exact stored_applied hD hfloat (stored_default hD t) _
  | true =>
    cases t with
    | float w m e hshort =>
      rcases rebuilt_float hD path v with ⟨heq, hfinite⟩ | heq
      · obtain ⟨d, hdecimal⟩ := isSome_iff_exists.mp hfinite
        rw [heq]
        refine stored_of_toJson hD (j := .float d.1 d.2) ?_ nofun
        simp [toJson_float, hdecimal]
      · rw [heq]
        exact stored_default hD (.float w m e hshort)
    | bool | uint | text | optText | optUint | optInt | optPath | texts | keySource => cases hfloat

end

variable {path written : String}

theorem applied_eq {old v : t.Value D}
    {entry new : JsonValue} (hentry : valueText D entry = some written)
    (hnew : newValue D path written (t.toJson D old) = .ok new) (hread : t.ofJson D new = some v) :
    applied D t path old entry = v := by
  simp [applied, hentry, hnew, hread]

/-- An optional field takes what its text is in JSON, and itself if it is not JSON. -/
theorem applied_of_null {old : t.Value D} {entry : JsonValue} (hold : t.toJson D old = some .null)
    (hentry : valueText D entry = some written) :
    applied D t path old entry
      = (t.ofJson D ((D.json.fromText written).toOption.getD (.str written))).getD old := by
  simp [applied, hentry, hold, newValue]

variable (hD : D.Lawful)

include hD

/-- An integer in an optional field comes back. -/
theorem applied_int_of_null {old v : t.Value D} (hold : t.toJson D old = some .null) {n : Int}
    (hlow : -2 ^ 63 ≤ n) (hhigh : n < 2 ^ 64) (hread : t.ofJson D (.int n) = some v) :
    applied D t path old (.int n) = v := by
  have htext : valueText D (.int n) = some (toString n) := congrArg some (hD.intText n)
  rw [applied_of_null hold htext, hD.ofInt n hlow hhigh]
  exact congrArg (·.getD old) hread

/-- A text in an optional field comes back if it is not JSON: what it is in JSON is not itself. -/
theorem rebuilt_written_iff {v : t.Value D}
    (hdefault : t.toJson D (t.default D) = some .null) (hset : t.default D ≠ v)
    (hwritten : t.toJson D v = some (.str written))
    (hread : ∀ j, t.ofJson D j = some v ↔ j = .str written) :
    rebuilt D t path v = v ↔ ∃ e, D.json.fromText written = .error e := by
  have hrebuilt : rebuilt D t path v
      = (t.ofJson D ((D.json.fromText written).toOption.getD (.str written))).getD
        (t.default D) := by
    rw [rebuilt, hwritten]
    exact applied_of_null hdefault rfl
  rw [hrebuilt]
  cases hjson : D.json.fromText written with
  | error e =>
    refine iff_of_true ?_ ⟨e, rfl⟩
    exact congrArg (·.getD (t.default D)) ((hread _).mpr rfl)
  | ok j =>
    refine iff_of_false (fun hsame => ?_) nofun
    have hsame' : (t.ofJson D j).getD (t.default D) = v := hsame
    cases hj : t.ofJson D j with
    | none =>
      rw [hj] at hsame'
      exact hset hsame'
    | some =>
      rw [hj, getD_some] at hsame'
      rw [hsame'] at hj
      rw [(hread j).mp hj] at hjson
      exact hD.notItself written hjson

theorem rebuilt_optText_iff (path : String) (v : Option String) :
    rebuilt D .optText path v = v ↔ Survives D .optText v := by
  cases v with
  | none => exact iff_of_true rfl nofun
  | some s =>
    have hset : (none : Option String) ≠ some s := nofun
    refine (rebuilt_written_iff hD (t := .optText) rfl hset rfl fun j => ?_).trans ?_
    · cases j <;> simp [ofJson]
    · refine ⟨fun hjson s' hs' => ?_, fun hsurvives => hsurvives s rfl⟩
      rwa [← Option.some.inj hs']

theorem rebuilt_optPath_iff (path : String) (v : Option OsPath) :
    rebuilt D .optPath path v = v ↔ Survives D .optPath v := by
  cases v with
  | none => exact iff_of_true rfl nofun
  | some p =>
    cases p with
    | bytes =>
      refine iff_of_false nofun fun hsurvives => ?_
      obtain ⟨s, e, hs, -⟩ := hsurvives _ rfl
      cases hs
    | text s =>
      have hset : (none : Option OsPath) ≠ some (.text s) := nofun
      refine (rebuilt_written_iff hD (t := .optPath) rfl hset rfl fun j => ?_).trans ⟨?_, ?_⟩
      · cases j <;> simp [ofJson]
      · rintro ⟨e, he⟩ p hp
        exact ⟨s, e, (Option.some.inj hp).symm, he⟩
      · intro hsurvives
        obtain ⟨s', e, hs', he⟩ := hsurvives _ rfl
        cases hs'
        exact ⟨e, he⟩

/-- A field of any other type comes back. -/
theorem rebuilt_eq_iff (hfloat : t.isFloat = false)
    (path : String) (v : t.Value D) : rebuilt D t path v = v ↔ Survives D t v := by
  cases t with
  | float => cases hfloat
  | optText => exact rebuilt_optText_iff hD path v
  | optPath => exact rebuilt_optPath_iff hD path v
  | bool =>
    refine iff_of_true ?_ trivial
    cases v <;> rfl
  | text => exact iff_of_true rfl trivial
  | uint width d =>
    have htext : valueText D (.int v.val) = some (toString (v.val : Int)) :=
      congrArg some (hD.intText v.val)
    have hparse := parseU64_toString (lt_of_lt_of_le v.isLt (bits_le width))
    have hnew : newValue D path (toString (v.val : Int)) (some (.int d)) = .ok (.int v.val) := by
      simp only [newValue, if_pos (Int.natCast_nonneg d), hparse]
    exact iff_of_true (applied_eq htext hnew (uintOf_val v)) trivial
  | optUint width =>
    cases v with
    | none => exact iff_of_true rfl trivial
    | some n =>
      have hn := lt_of_lt_of_le n.isLt (bits_le width)
      have hread := congrArg (Option.map some) (uintOf_val n)
      refine iff_of_true (applied_int_of_null hD rfl (by omega) ?_ hread) trivial
      exact_mod_cast hn
  | optInt =>
    cases v with
    | none => exact iff_of_true rfl trivial
    | some n =>
      have hread := congrArg (Option.map some) (intOf_val n)
      exact iff_of_true (applied_int_of_null hD rfl n.property.1 (by omega) hread) trivial
  | texts =>
    have hnew : newValue D path (D.json.toText (.arr (v.map .str))) (some (.arr []))
        = .ok (.arr (v.map .str)) := by
      simp only [newValue, hD.ofTexts v]
    exact iff_of_true (applied_eq rfl hnew (mapM_asStr v)) trivial
  | keySource => exact iff_of_true (applied_eq rfl rfl (ofName_name v)) trivial

end FieldType

/-! ## All fields -/

namespace Settings

variable {D : SettingsDeps} {s : Settings D}

/-- All fields are read back. -/
def Stored (s : Settings D) : Prop := ∀ f : SettingsField, f.type.Stored (s f)

theorem Stored.toJson (hs : s.Stored) (f : SettingsField) :
    f.type.toJson D (s f) = some (s.leaf f) := by
  obtain ⟨j, hj, -⟩ := hs f
  rw [leaf, hj]
  rfl

theorem Stored.isSome (hs : s.Stored) (f : SettingsField) :
    (f.type.toJson D (s f)).isSome = true := by
  rw [hs.toJson f]
  rfl

theorem Stored.ofJson (hs : s.Stored) (f : SettingsField) :
    f.type.ofJson D (s.leaf f) = some (s f) := by
  obtain ⟨j, hj, hread⟩ := hs f
  rw [leaf, hj]
  exact hread

theorem toValue_of_some (h : ∀ f : SettingsField, (f.type.toJson D (s f)).isSome = true) :
    s.toValue = some (tree s.leaf) :=
  if_pos (all_eq_true.mpr fun f _ => h f)

theorem Stored.toValue (hs : s.Stored) : s.toValue = some (tree s.leaf) := toValue_of_some hs.isSome

theorem stored_default (hD : D.Lawful) : (default D).Stored := fun f => f.type.stored_default hD

/-- Settings with another value of one field. -/
def update (s : Settings D) (f : SettingsField) (v : f.type.Value D) : Settings D :=
  Function.update s f v

theorem update_self (s : Settings D) (f : SettingsField) (v : f.type.Value D) :
    s.update f v f = v :=
  Function.update_self (β := fun f : SettingsField => f.type.Value D) f v s

theorem update_of_ne {f g : SettingsField} (h : g ≠ f) (s : Settings D) (v : f.type.Value D) :
    s.update f v g = s g :=
  Function.update_of_ne (β := fun f : SettingsField => f.type.Value D) h v s

theorem leaf_update (s : Settings D) (f : SettingsField) (v : f.type.Value D) :
    (s.update f v).leaf f = (f.type.toJson D v).getD .null := by
  rw [leaf, update_self]

theorem update_eq_self (s : Settings D) (f : SettingsField) : s.update f (s f) = s :=
  Function.update_eq_self f s

variable {f : SettingsField}

theorem forall_update {P : (g : SettingsField) → g.type.Value D → Prop} (hs : ∀ g, P g (s g))
    {v : f.type.Value D} (hv : P f v) (g : SettingsField) : P g (s.update f v g) := by
  by_cases hg : g = f
  · subst hg
    rwa [update_self]
  · rw [update_of_ne hg]
    exact hs g

theorem Stored.update (hs : s.Stored) {v : f.type.Value D} (hv : f.type.Stored v) :
    (s.update f v).Stored :=
  forall_update (P := fun g => g.type.Stored) hs hv

/-- With one field changed all fields are read, and the others as they were. -/
theorem fromValue_update (hs : s.Stored) {j : JsonValue} {v : f.type.Value D}
    (h : f.type.ofJson D j = some v) :
    fromValue D (tree (Function.update s.leaf f j)) = some (s.update f v) := by
  refine fromValue_tree fun g => ?_
  by_cases hg : g = f
  · subst hg
    rw [Function.update_self, update_self, h]
  · rw [Function.update_of_ne hg, update_of_ne hg, hs.ofJson g]

theorem applyEntry_path (hs : s.Stored) (f : SettingsField) (entry : JsonValue) :
    s.applyEntry (f.path, entry) = s.update f (applied D f.type f.path (s f) entry) := by
  unfold applyEntry applied
  cases valueText D entry with
  | none => exact (update_eq_self s f).symm
  | some written =>
    simp only [set, hs.toValue, splitPath_path, setAt_tree, ← hs.toJson f]
    cases newValue D f.path written (f.type.toJson D (s f)) with
    | error => exact (update_eq_self s f).symm
    | ok j =>
      simp only [Except.map]
      cases hread : f.type.ofJson D j with
      | none =>
        rw [fromValue_tree_eq_none (f := f) (by rwa [Function.update_self])]
        exact (update_eq_self s f).symm
      | some =>
        rw [fromValue_update hs hread]
        rfl

theorem foldl_applyEntry {fields : List SettingsField} (hnodup : fields.Nodup)
    (entry : SettingsField → JsonValue) (hs : s.Stored)
    (hstored : ∀ f ∈ fields, f.type.Stored (applied D f.type f.path (s f) (entry f)))
    (g : SettingsField) :
    (fields.map fun f => (f.path, entry f)).foldl applyEntry s g
      = if g ∈ fields then applied D g.type g.path (s g) (entry g) else s g := by
  induction fields generalizing s with
  | nil => rfl
  | cons f fields ih =>
    obtain ⟨hf, hfields⟩ := nodup_cons.mp hnodup
    obtain ⟨hfirst, hrest⟩ := forall_mem_cons.mp hstored
    have hothers : ∀ h ∈ fields, h ≠ f := fun h hh heq => hf (heq ▸ hh)
    rw [map_cons, foldl_cons, applyEntry_path hs]
    rw [ih hfields (hs.update hfirst) fun h hh => by
      rw [update_of_ne (hothers h hh)]
      exact hrest h hh]
    by_cases hg : g = f
    · subst hg
      rw [if_neg hf, update_self, if_pos mem_cons_self]
    · rw [update_of_ne hg]
      simp [hg]

theorem leaf_ne_obj (s : Settings D) (f : SettingsField) (fields : List (String × JsonValue)) :
    s.leaf f ≠ .obj fields := by
  unfold leaf
  cases hj : f.type.toJson D (s f) with
  | none => nofun
  | some => exact toJson_ne_obj hj fields

theorem toDbMap_of_some (h : ∀ f : SettingsField, (f.type.toJson D (s f)).isSome = true) :
    s.toDbMap = all.map fun f => (f.path, s.leaf f) := by
  unfold toDbMap
  rw [toValue_of_some h]
  exact collect_tree s.leaf_ne_obj

theorem toDbMap_of_none (h : f.type.toJson D (s f) = none) : s.toDbMap = [] := by
  have hnot : ¬(all.all fun f => (f.type.toJson D (s f)).isSome) = true := by
    intro hall
    have hf := all_eq_true.mp hall f (mem_all f)
    rw [h] at hf
    cases hf
  unfold toDbMap
  rw [toValue, if_neg hnot]

variable {entries : List (String × JsonValue)}

/-- Entries in another order are those of the fields in another order. -/
theorem exists_map_of_perm {fields : List SettingsField}
    {entry : SettingsField → String × JsonValue} (h : entries.Perm (fields.map entry)) :
    ∃ fields' : List SettingsField, entries = fields'.map entry ∧ fields'.Perm fields := by
  have hall : List.Forall₂ (fun e f => e = entry f) (fields.map entry) fields :=
    forall₂_map_left_iff.mpr (forall₂_same.mpr fun _ _ => rfl)
  obtain ⟨fields', hentries, hperm⟩ := perm_comp_forall₂ h hall
  refine ⟨fields', ?_, hperm⟩
  rw [← forall₂_eq_eq_eq, forall₂_map_right_iff]
  exact hentries

/-- Each field comes back on its own, whatever the order of the entries. -/
theorem fromDbMap_apply (hD : D.Lawful)
    (h : ∀ f : SettingsField, (f.type.toJson D (s f)).isSome = true) (hentries : entries.Perm s.toDbMap) (f : SettingsField) :
    fromDbMap D entries f = rebuilt D f.type f.path (s f) := by
  rw [toDbMap_of_some h] at hentries
  obtain ⟨fields, hmap, hfields⟩ := exists_map_of_perm hentries
  have hmem : f ∈ fields := hfields.mem_iff.mpr (mem_all f)
  rw [hmap, fromDbMap, foldl_applyEntry (hfields.nodup_iff.mpr nodup_all) s.leaf
    (stored_default hD) fun g _ => g.type.stored_rebuilt hD g.path (s g), if_pos hmem]
  rfl

/-- **Settings come back from the database**, in every field that is not a floating point number
and in every order of the map, exactly if no optional text that is set is JSON and every
optional path that is set is a text and not JSON. -/
theorem fromDbMap_toDbMap_iff (D : SettingsDeps) (hD : D.Lawful) (s : Settings D)
    (entries : List (String × JsonValue)) (hentries : entries.Perm s.toDbMap) :
    (∀ f : SettingsField, f.type.isFloat = false → fromDbMap D entries f = s f)
      ↔ ∀ f : SettingsField, f.type.Survives D (s f) := by
  by_cases h : ∀ f : SettingsField, (f.type.toJson D (s f)).isSome = true
  · refine forall_congr' fun f => ?_
    rw [fromDbMap_apply hD h hentries]
    cases hfloat : f.type.isFloat with
    | true => exact iff_of_true nofun (survives_of_isFloat hfloat)
    | false => simp only [forall_const, rebuilt_eq_iff hD hfloat]
  · obtain ⟨f, hf⟩ := not_forall.mp h
    have hnone : f.type.toJson D (s f) = none := by simpa using hf
    obtain ⟨hfloat, hdefault, hsurvives⟩ := of_toJson_eq_none hnone
    rw [toDbMap_of_none hnone, perm_nil] at hentries
    refine iff_of_false (fun hback => hdefault ?_) fun hall => hsurvives (hall f)
    rw [← hback f hfloat, hentries]
    rfl

/-! ## A library -/

/-- Integers and lists of texts, and nothing else. -/
def plainJson : JsonCodec where
  toText
    | .int n => toString n
    | .arr items => String.ofList (array (items.filterMap asStr?))
    | _ => ""
  toTextPretty _ := .error "not supported"
  fromText s :=
    match readInt s.toList, readArray s.toList with
    | some n, _ => .ok (.int n)
    | none, some (xs, []) => .ok (.arr (xs.map .str))
    | none, _ => .error "expected value at line 1 column 1"
where
  readInt : List Char → Option Int
    | '-' :: cs => (parseDigits cs).map fun n => -(n : Int)
    | cs => (parseDigits cs).map fun n => (n : Int)

/-- There is one floating point number. -/
def plainDeps : SettingsDeps where
  json := plainJson
  Float _ := Unit
  toDecimal _ _ := some (0, 0)
  ofDecimal _ _ _ := ()
  parseF64 _ := some ()
  valueError _ := "invalid type"

theorem toList_toString_negSucc (n : Nat) :
    (toString (Int.negSucc n)).toList = '-' :: toDigits 10 (n + 1) := by
  have hneg : toString (Int.negSucc n) = "-" ++ toString (n + 1) := rfl
  have hdigits : toString (n + 1) = String.ofList (toDigits 10 (n + 1)) := repr_eq_ofList_toDigits
  rw [hneg, hdigits, toList_append]
  exact congrArg (cons '-') toList_ofList

theorem readInt_toString (n : Int) : plainJson.readInt (toString n).toList = some n := by
  cases n with
  | ofNat n =>
    rw [Int.ofNat_eq_natCast, toString_natCast, toList_ofList]
    unfold plainJson.readInt
    split
    · next heq => exact absurd heq (toDigits_ne_cons (by decide) n _)
    rw [parseDigits_toDigits]
    rfl
  | negSucc =>
    rw [toList_toString_negSucc, plainJson.readInt, parseDigits_toDigits]
    rfl

theorem readInt_array (xs : List String) : plainJson.readInt (array xs) = none := by
  have hhead : ∃ cs, array xs = '[' :: cs := by
    cases xs with
    | nil | cons => exact ⟨_, rfl⟩
  obtain ⟨cs, hcs⟩ := hhead
  rw [hcs]
  rfl

theorem plainDeps_lawful : plainDeps.Lawful where
  intText _ := rfl
  ofInt n _ _ := by
    show plainJson.fromText (toString n) = .ok (.int n)
    simp only [plainJson, readInt_toString]
  ofTexts xs := by
    have hread := readArray_array xs []
    rw [append_nil] at hread
    show plainJson.fromText (plainJson.toText (.arr (xs.map .str))) = .ok (.arr (xs.map .str))
    simp only [plainJson, filterMap_asStr, toList_ofList, readInt_array, hread]
  notItself s := by
    show plainJson.fromText s ≠ .ok (.str s)
    unfold plainJson
    dsimp only
    split <;> nofun
  ofDecimal_toDecimal _ _ _ _ _ := rfl
  parse_text _ _ _ _ h := ⟨(), rfl, h⟩
  shortDecimal _ _ _ _ _ := rfl

def selectedModel : SettingsField := ⟨none, ⟨10, by decide⟩⟩

def notifyUser : SettingsField := ⟨some .heartbeat, ⟨3, by decide⟩⟩

theorem modelName_comesBack :
    let s := (default plainDeps).update selectedModel (some "llama3:latest")
    s selectedModel = some "llama3:latest" ∧
      ∀ f : SettingsField, f.type.isFloat = false →
        fromDbMap plainDeps s.toDbMap.reverse f = s f := by
  refine ⟨update_self _ _ _, ?_⟩
  refine (fromDbMap_toDbMap_iff plainDeps plainDeps_lawful _ _ (reverse_perm _)).mpr ?_
  refine forall_update (fun f => f.type.survives_default) ?_
  intro name hname
  obtain rfl := Option.some.inj hname
  exact ⟨_, rfl⟩

theorem numericUser_forgotten :
    let s := (default plainDeps).update notifyUser (some "123456789")
    s notifyUser = some "123456789" ∧ fromDbMap plainDeps s.toDbMap notifyUser = none := by
  have hstored : ((default plainDeps).update notifyUser (some "123456789")).Stored :=
    (stored_default plainDeps_lawful).update ⟨.str "123456789", rfl, rfl⟩
  refine ⟨update_self _ _ _, ?_⟩
  rw [fromDbMap_apply plainDeps_lawful hstored.isSome (.refl _)]
  rfl

end Settings

end TitanClaw
