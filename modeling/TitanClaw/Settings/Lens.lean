import TitanClaw.Settings.Paths

/-! # The laws of get and set

What is set can be got and set again, and nothing else changes. A name that is no setting is
taken all the same where there are settings beside it, and a number can be too large for its
field. -/

namespace TitanClaw

open List JsonText

/-- What JSON text keeps. An object of values of fields is read as the object of what their
texts are read as; of a floating point number that may be another number. -/
structure SettingsDeps.LawfulText (D : SettingsDeps) : Prop extends D.Lawful where
  nullText : D.json.toText .null = "null"
  ofNull : D.json.fromText "null" = .ok .null
  ofBool : ∀ b : Bool, D.json.fromText (D.json.toText (.bool b)) = .ok (.bool b)
  ofStr : ∀ s : String, D.json.fromText (D.json.toText (.str s)) = .ok (.str s)
  ofObject : ∀ fields : List (String × JsonValue), (fields.map (·.1)).Nodup →
    (∀ field ∈ fields, D.IsLeaf field.2) →
    ∃ fields', D.json.fromText (D.json.toText (.obj fields)) = .ok (.obj fields') ∧
      ∀ key j, fields.lookup key = some j →
        ∃ j', D.json.fromText (D.json.toText j) = .ok j' ∧ fields'.lookup key = some j'

/-! ## One field -/

namespace Settings

theorem parseI64_toString {n : Int} (hneg : n < 0) (h : -2 ^ 63 ≤ n) :
    parseI64 (toString n) = some n := by
  obtain ⟨m, rfl⟩ : ∃ m, n = Int.negSucc m := Int.eq_negSucc_of_lt_zero hneg
  have hrange : decide (-2 ^ 63 ≤ Int.negSucc m ∧ Int.negSucc m < 2 ^ 63) = true :=
    decide_eq_true ⟨h, by omega⟩
  rw [parseI64, toList_toString_negSucc]
  simp only [parseDigits_toDigits]
  show Option.filter (fun n : Int => decide (-2 ^ 63 ≤ n ∧ n < 2 ^ 63)) (some (Int.negSucc m)) = _
  rw [Option.filter_some, if_pos hrange]

end Settings

namespace FieldType

open Settings

variable {D : SettingsDeps} {t : FieldType}

def TextKept (t : FieldType) (v : t.Value D) : Prop :=
  ∃ j j', t.toJson D v = some j ∧ D.json.fromText (D.json.toText j) = .ok j'
    ∧ t.ofJson D j' = some v

theorem isFloat_of_toJson {v : t.Value D} {m e : Int} (h : t.toJson D v = some (.float m e)) :
    t.isFloat = true := by
  cases t with
  | float => rfl
  | bool | uint | text | texts | keySource => cases h
  | optText | optUint | optInt => cases v <;> cases h
  | optPath =>
    cases v with
    | none => cases h
    | some p => cases p <;> cases h

theorem newValue_shown (hD : D.LawfulText) {j : JsonValue} (h : D.IsLeaf j) (path : String) :
    newValue D path (shown D j) (some j) = .ok j := by
  cases h with
  | null => simp [newValue, shown, hD.ofNull, Except.toOption]
  | bool b => cases b <;> rfl
  | int n hlow hhigh =>
    by_cases hneg : n < 0
    · simp only [newValue, shown, hD.intText, if_neg (Int.not_le.mpr hneg),
        parseI64_toString hneg hlow]
    · obtain ⟨m, rfl⟩ := Int.eq_ofNat_of_zero_le (Int.not_lt.mp hneg)
      have hparse := parseU64_toString (n := m) (by exact_mod_cast hhigh)
      simp only [newValue, shown, hD.intText, if_pos (Int.natCast_nonneg m), hparse]
  | float hdecimal =>
    obtain ⟨y, hparse, hy⟩ := hD.parse_text _ _ _ _ hdecimal
    simp only [newValue, shown, hparse, hy]
  | str => rfl
  | texts xs => simp only [newValue, shown, hD.ofTexts xs]

/-- JSON text keeps every value but perhaps a floating point number. -/
theorem fromText_toText_of_isLeaf (hD : D.LawfulText) {j : JsonValue} (h : D.IsLeaf j)
    (hfloat : ∀ m e, j ≠ .float m e) : D.json.fromText (D.json.toText j) = .ok j := by
  cases h with
  | null => rw [hD.nullText, hD.ofNull]
  | bool b => exact hD.ofBool b
  | int n hlow hhigh => rw [hD.intText, hD.ofInt n hlow hhigh]
  | float => exact absurd rfl (hfloat _ _)
  | str s => exact hD.ofStr s
  | texts xs => exact hD.ofTexts xs

theorem textKept_of_isFloat (hD : D.LawfulText) (hfloat : t.isFloat = false) {v : t.Value D}
    (h : (t.toJson D v).isSome = true) : t.TextKept v := by
  obtain ⟨j, hj⟩ := Option.isSome_iff_exists.mp h
  obtain ⟨j', hj', hread⟩ := stored_of_toJson hD.toLawful hj (by simp [hfloat])
  obtain rfl : j = j' := Option.some.inj (hj.symm.trans hj')
  refine ⟨j, j, hj, fromText_toText_of_isLeaf hD (isLeaf_of_toJson hj) ?_, hread⟩
  rintro m e rfl
  rw [isFloat_of_toJson hj] at hfloat
  cases hfloat

theorem isSome_missing (t : FieldType) : (t.toJson D (t.missing D)).isSome = true := by
  cases t with
  | float =>
    rw [toJson_float]
    split <;> rfl
  | bool | uint | text | optText | optUint | optInt | optPath | texts | keySource => rfl

end FieldType

namespace Settings

open SettingsField

variable {D : SettingsDeps} {s s' : Settings D} {path value : String}

/-! ## Setting what was got -/

theorem setInPlace_eq_ok_iff :
    s.setInPlace path value = (.ok (), s') ↔ s.set path value = .ok s' := by
  unfold setInPlace
  cases s.set path value <;> simp

variable {f : SettingsField} {fields : List (String × JsonValue)} {v : f.type.Value D}

theorem isSome_of_fieldOf (h : fieldOf D fields f (f.type.missing D) = some v) :
    (f.type.toJson D v).isSome = true := by
  unfold fieldOf at h
  split at h
  · exact FieldType.isSome_of_ofJson h
  · exact FieldType.isSome_of_ofJson h
  · cases h
    exact f.type.isSome_missing
  · cases h

theorem isSome_of_itemOf {items : List JsonValue} {v : f.type.Value D}
    (h : itemOf D items f (f.type.missing D) = some v) : (f.type.toJson D v).isSome = true := by
  unfold itemOf at h
  split at h
  · cases h
  split at h
  · exact FieldType.isSome_of_ofJson h
  cases h
  exact f.type.isSome_missing

theorem isSome_of_sectionField {json : JsonValue} {v : f.type.Value D}
    (h : sectionField D json f = some v) : (f.type.toJson D v).isSome = true := by
  unfold sectionField at h
  split at h
  · exact isSome_of_fieldOf h
  · exact isSome_of_itemOf h
  · cases h

theorem isSome_of_given
    (h : s.given path value f = some v) : (f.type.toJson D v).isSome = true := by
  unfold given at h
  split at h
  · obtain ⟨j, -, hread⟩ := Option.bind_eq_some_iff.mp h
    exact FieldType.isSome_of_ofJson hread
  · obtain ⟨v, -, hread⟩ := Option.bind_eq_some_iff.mp h
    exact isSome_of_sectionField hread

theorem SetsTo.written_after (h : s.SetsTo path value s') : s'.Written := by
  intro f
  by_cases hf : Under path f
  · exact isSome_of_given (h.given f hf)
  rw [h.others f hf]
  exact h.written f

/-- The value of a field is parsed again from what is shown of it. In the text of a section the
JSON text of each value is read. -/
def Kept (path : String) (f : SettingsField) (v : f.type.Value D) : Prop :=
  if splitPath path = f.parts then f.type.Stored v else f.type.TextKept v

theorem kept_field (h : splitPath path = f.parts) {v : f.type.Value D} :
    Kept path f v ↔ f.type.Stored v := by
  rw [Kept, if_pos h]

theorem kept_of_isFloat (hD : D.LawfulText) (hfloat : f.type.isFloat = false)
    {v : f.type.Value D} (h : (f.type.toJson D v).isSome = true) : Kept path f v := by
  unfold Kept
  split
  · obtain ⟨j, hj⟩ := Option.isSome_iff_exists.mp h
    exact FieldType.stored_of_toJson hD.toLawful hj (by simp [hfloat])
  · exact FieldType.textKept_of_isFloat hD hfloat h

theorem group_names_nodup (v : SettingsField → JsonValue) (sect : Option SettingsSection) :
    ((group v sect).map (·.1)).Nodup := by
  rw [group, map_map]
  refine (nodup_inSection sect).map_on fun f hf g hg hname => ?_
  exact eq_of_name ((mem_inSection.mp hf).trans (mem_inSection.mp hg).symm) hname

theorem given_sectionText (hD : D.LawfulText) (hs : s.Written) {sect : SettingsSection}
    (h : splitPath path = [sect.name]) (hf : f.sect = some sect) :
    ∃ j, D.json.fromText (D.json.toText (s.leaf f)) = .ok j
      ∧ s.given path (D.json.toText (.obj (group s.leaf (some sect)))) f = f.type.ofJson D j := by
  have hlookup := lookup_group s.leaf f
  rw [hf] at hlookup
  have hfields : ∀ field ∈ group s.leaf (some sect), D.IsLeaf field.2 := by
    intro field hfield
    obtain ⟨g, -, rfl⟩ := mem_map.mp hfield
    exact FieldType.isLeaf_of_toJson (hs.toJson g)
  obtain ⟨fields, hread, hmembers⟩ := hD.ofObject _ (group_names_nodup s.leaf (some sect)) hfields
  obtain ⟨j, hj, hmember⟩ := hmembers f.name (s.leaf f) hlookup
  have halias : f.alias? = none := by simp [alias?, hf]
  refine ⟨j, hj, ?_⟩
  rw [given_section h hf, hread]
  simp [Except.toOption, Option.bind_some, sectionField, fieldOf, hmember, halias, Option.bind_none]

variable (f)

theorem given_got_iff (hD : D.LawfulText) (hs : s.Written) (h : LeadsTo path) :
    ∃ text, s.get path = some text ∧
      ∀ f, Under path f → (s.given path text f = some (s f) ↔ Kept path f (s f)) := by
  cases h with
  | field f hparts =>
    refine ⟨_, get_field hs hparts, fun g hg => ?_⟩
    obtain rfl := (under_iff_of_field hparts).mp hg
    rw [given_field hparts,
      FieldType.newValue_shown hD (FieldType.isLeaf_of_toJson (hs.toJson g)), kept_field hparts]
    show g.type.ofJson D (s.leaf g) = some (s g) ↔ g.type.Stored (s g)
    rw [ofJson_leaf_iff hD.toLawful hs, eq_self, and_true]
  | sect _ hparts =>
    refine ⟨_, get_section hs hparts, fun f hf => ?_⟩
    have hsect := (under_iff_of_section hparts).mp hf
    obtain ⟨j, hj, hgiven⟩ := given_sectionText hD hs hparts hsect
    have hne : splitPath path ≠ f.parts := by
      rw [hparts, parts, hsect]
      exact fun heq => cons_ne_nil _ _ (cons.inj heq).2.symm
    rw [hgiven, Kept, if_neg hne]
    constructor
    · intro hread
      exact ⟨_, j, hs.toJson f, hj, hread⟩
    -- the JSON of a value is unique, and so is what its text is read as
    · rintro ⟨_, j', hj₀, hj', hread⟩
      rw [hs.toJson f] at hj₀
      cases hj₀
      rw [hj] at hj'
      cases hj'
      exact hread

theorem SetsTo.got_iff (hD : D.LawfulText) (hunder : ∃ f, Under path f)
    (h : s.SetsTo path value s') :
    (∃ text, s'.get path = some text ∧ s'.setInPlace path text = (.ok (), s'))
      ↔ ∀ f, Under path f → Kept path f (s' f) := by
  have hs := h.written_after
  obtain ⟨text, hget, hgiven⟩ := given_got_iff hD hs (leadsTo_iff.mpr hunder)
  simp only [hget, Option.some.injEq, exists_eq_left', setInPlace_eq_ok_iff,
    set_eq_ok_iff_of_under hD.toLawful hunder]
  constructor
  · intro hagain f hf
    exact (hgiven f hf).mp (hagain.given f hf)
  · intro hkept
    refine ⟨hs, fun f hf => (hgiven f hf).mpr (hkept f hf), fun f hf => ?_, fun f _ => rfl⟩
    rw [h.others f hf]
    exact h.stored f hf

/-! ## The laws -/

/-- What a caller expects of `get` and `set` at a path. -/
structure LensLaws (s : Settings D) (path value : String) : Prop where
  got : ∀ s', s.setInPlace path value = (.ok (), s') →
    ∃ text, s'.get path = some text ∧ s'.setInPlace path text = (.ok (), s')
  others : ∀ s', s.setInPlace path value = (.ok (), s') → ∀ f, ¬Under path f → s' f = s f
  unknown : (¬∃ f, Under path f) → ∃ e, (s.setInPlace path value).1 = .error e
  failed : ∀ e, (s.setInPlace path value).1 = .error e → (s.setInPlace path value).2 = s

/-- The settings do not go through JSON, or the text is not one for all fields at the path. -/
def Unfit (s : Settings D) (path value : String) : Prop :=
  ¬s.Written ∨ (∃ f, ¬Under path f ∧ ¬f.type.Stored (s f))
    ∨ ∃ f, Under path f ∧ s.given path value f = none

theorem lensLaws_of_error {e : String} (h : s.set path value = .error e) :
    LensLaws s path value := by
  have hfails : s.setInPlace path value = (.error e, s) := by rw [setInPlace, h]
  have hnot (s' : Settings D) : s.setInPlace path value ≠ (.ok (), s') := by
    rw [hfails]
    nofun
  refine ⟨fun s' hok => absurd hok (hnot s'), fun s' hok => absurd hok (hnot s'), fun _ => ⟨e, ?_⟩,
    fun _ _ => ?_⟩
  · rw [hfails]
  · rw [hfails]

theorem SetsTo.not_unfit (h : s.SetsTo path value s') : ¬s.Unfit path value := by
  rintro (hwritten | ⟨f, hf, hstored⟩ | ⟨f, hf, hgiven⟩)
  · exact hwritten h.written
  · exact hstored (h.stored f hf)
  rw [h.given f hf] at hgiven
  cases hgiven

theorem exists_setsTo (h : ¬s.Unfit path value) : ∃ s', s.SetsTo path value s' := by
  simp only [Unfit, not_or, not_exists, not_and, not_not] at h
  obtain ⟨hwritten, hstored, hgiven⟩ := h
  have hsome (f : SettingsField) (hf : Under path f) : (s.given path value f).isSome = true :=
    Option.isSome_iff_ne_none.mpr (hgiven f hf)
  refine ⟨fun f => if hf : Under path f then (s.given path value f).get (hsome f hf) else s f,
    hwritten, fun f hf => ?_, hstored, fun f hf => dif_neg hf⟩
  rw [dif_pos hf, Option.some_get]

theorem SetsTo.lensLaws_iff_kept (hD : D.LawfulText) (hunder : ∃ f, Under path f)
    (h : s.SetsTo path value s') :
    LensLaws s path value ↔ ∀ f, Under path f → Kept path f (s' f) := by
  have hok : s.setInPlace path value = (.ok (), s') :=
    setInPlace_eq_ok_iff.mpr ((set_eq_ok_iff_of_under hD.toLawful hunder).mpr h)
  rw [← h.got_iff hD hunder]
  -- the other laws hold whenever something was set
  refine ⟨fun hlaws => hlaws.got s' hok, fun hgot => ?_⟩
  refine ⟨fun t ht => ?_, fun t ht => ?_, absurd hunder, fun e he => ?_⟩
  · obtain rfl := congrArg Prod.snd (hok.symm.trans ht)
    exact hgot
  · obtain rfl := congrArg Prod.snd (hok.symm.trans ht)
    exact h.others
  · rw [hok] at he
    cases he

theorem lensLaws_iff_of_under (hD : D.LawfulText) (hunder : ∃ f, Under path f) :
    LensLaws s path value ↔ s.Unfit path value ∨ ∀ f, Under path f → f.type.isFloat = true →
      ∀ v, s.given path value f = some v → Kept path f v := by
  by_cases hfit : s.Unfit path value
  · cases hset : s.set path value with
    | error => exact iff_of_true (lensLaws_of_error hset) (.inl hfit)
    | ok => exact absurd hfit ((set_eq_ok_iff_of_under hD.toLawful hunder).mp hset).not_unfit
  · obtain ⟨s', h⟩ := exists_setsTo hfit
    simp only [h.lensLaws_iff_kept hD hunder, hfit, false_or]
    constructor
    · intro hkept f hf _ v hv
      rw [h.given f hf] at hv
      cases hv
      exact hkept f hf
    · intro hfloats f hf
      cases hfloat : f.type.isFloat with
      | true => exact hfloats f hf hfloat _ (h.given f hf)
      | false => exact kept_of_isFloat hD hfloat (h.written_after f)

/-- A name beside the settings is taken, and dropped again when they are read. -/
theorem lensLaws_iff_of_beside (hD : D.LawfulText) (h : Beside path) :
    LensLaws s path value ↔ ¬s.Stored := by
  have hset : s.set path value = .ok s ↔ s.Stored := by
    rw [set_eq_ok_iff_of_beside hD.toLawful h, eq_self, and_true]
  constructor
  · intro hlaws hs
    obtain ⟨e, he⟩ := hlaws.unknown h.1
    rw [setInPlace_eq_ok_iff.mpr (hset.mpr hs)] at he
    cases he
  · intro hs
    cases hresult : s.set path value with
    | error => exact lensLaws_of_error hresult
    | ok => exact absurd ((set_eq_ok_iff_of_beside hD.toLawful h).mp hresult).1 hs

theorem lensLaws_elsewhere (hunder : ¬∃ f, Under path f) (h : ¬Beside path) :
    LensLaws s path value := by
  cases hset : s.set path value with
  | error => exact lensLaws_of_error hset
  | ok => exact absurd hset (set_elsewhere hunder h)

theorem unfit_iff_of_beside (h : Beside path) : s.Unfit path value ↔ ¬s.Stored := by
  have hothers (f : SettingsField) : ¬Under path f := fun hf => h.1 ⟨f, hf⟩
  constructor
  · rintro (hwritten | ⟨f, -, hf⟩ | ⟨f, hf, -⟩) hs
    · exact hwritten hs.written
    · exact hf (hs f)
    · exact hothers f hf
  · intro hs
    obtain ⟨f, hf⟩ := not_forall.mp hs
    exact .inr (.inl ⟨f, hothers f, hf⟩)

/-- **Getting and setting a path** follow the laws exactly if nothing can be set anyway, or the
path is not that of a name beside the settings and the floating point numbers that the text
gives to fields are kept: they are not too large for their fields and, in the text of a section,
read as they are written. -/
theorem lensLaws_iff (D : SettingsDeps) (hD : D.LawfulText) (s : Settings D) (path value : String) :
    LensLaws s path value ↔ s.Unfit path value ∨ ¬Beside path ∧
      ∀ f, Under path f → f.type.isFloat = true →
        ∀ v, s.given path value f = some v → Kept path f v := by
  by_cases hunder : ∃ f, Under path f
  · have hnot : ¬Beside path := fun hbeside => hbeside.1 hunder
    simp [lensLaws_iff_of_under hD hunder, hnot, not_false_eq_true, true_and]
  · by_cases hbeside : Beside path
    · simp [lensLaws_iff_of_beside hD hbeside, unfit_iff_of_beside hbeside, hbeside,
        not_true_eq_false, false_and, or_false]
    · refine iff_of_true (lensLaws_elsewhere hunder hbeside) (.inr ⟨hbeside, fun f hf => ?_⟩)
      exact absurd ⟨f, hf⟩ hunder

/-! ## A library -/

/-- Values of fields, with two floating point numbers, and objects of them. An object is an array
of its names and the texts of its values. -/
def smallJson : JsonCodec where
  toText
    | .obj fields => String.ofList ('{' :: array (members fields))
    | v => String.ofList (leafText v)
  toTextPretty _ := .error "not supported"
  fromText s :=
    match s.toList with
    | '{' :: cs =>
        match readArray cs with
        | some (texts, []) =>
            match readMembers texts with
            | some fields => .ok (.obj fields)
            | none => .error "expected value"
        | _ => .error "expected object"
    | cs =>
        match readLeaf cs with
        | some v => .ok v
        | none => .error "expected value"
where
  leafText : JsonValue → List Char
    | .null => "null".toList
    | .bool b => (toString b).toList
    | .int n => (toString n).toList
    | .float _ e => if e = 0 then "0.0".toList else "1e300".toList
    | .str s => quote s
    | .arr items => array (items.filterMap JsonValue.asStr?)
    | .obj _ => []
  members : List (String × JsonValue) → List String
    | [] => []
    | (name, v) :: fields => name :: String.ofList (leafText v) :: members fields
  readLeaf (cs : List Char) : Option JsonValue :=
    match plainJson.readInt cs, readArray cs with
    | some n, _ => some (.int n)
    | none, some (xs, []) => some (.arr (xs.map .str))
    | none, _ =>
        if cs = "null".toList then some .null
        else if cs = "true".toList then some (.bool true)
        else if cs = "false".toList then some (.bool false)
        else if cs = "0.0".toList then some (.float 0 0)
        else if cs = "1e300".toList then some (.float 1 300)
        else
          match cs with
          | '"' :: cs =>
              match readString cs with
              | some (s, []) => some (.str (String.ofList s))
              | _ => none
          | _ => none
  readMembers : List String → Option (List (String × JsonValue))
    | [] => some []
    | name :: text :: texts =>
        match readLeaf text.toList, readMembers texts with
        | some v, some fields => some ((name, v) :: fields)
        | _, _ => none
    | [_] => none

/-- The larger of the two numbers is not one of `f32`. -/
def smallDeps : SettingsDeps where
  json := smallJson
  Float _ := Option Bool
  toDecimal
    | _, some false => some (0, 0)
    | .f64, some true => some (1, 300)
    | _, _ => none
  ofDecimal w _ e :=
    if e ≤ 38 then some false
    else
      match w with
      | .f32 => none
      | .f64 => some true
  parseF64 s :=
    if s = "0.0" then some (some false)
    else if s = "1e300" then some (some true)
    else none
  valueError _ := "invalid type"

theorem readLeaf_brace (cs : List Char) : smallJson.readLeaf ('{' :: cs) = none := rfl

theorem fromText_of_readLeaf {cs : List Char} {v : JsonValue}
    (h : smallJson.readLeaf cs = some v) : smallJson.fromText (String.ofList cs) = .ok v := by
  unfold smallJson
  dsimp only
  rw [String.toList_ofList]
  split
  · rw [readLeaf_brace] at h
    cases h
  · rw [h]

theorem readLeaf_quote (s : String) : smallJson.readLeaf (quote s) = some (.str s) := by
  have hread := readString_quote s.toList []
  have hleaf (cs : List Char) : smallJson.readLeaf ('"' :: cs)
      = match readString cs with
        | some (s, []) => some (.str (String.ofList s))
        | _ => none := rfl
  rw [quote, cons_append, hleaf, hread]
  simp

theorem readLeaf_array (xs : List String) :
    smallJson.readLeaf (array xs) = some (.arr (xs.map .str)) := by
  have hread := readArray_array xs []
  rw [append_nil] at hread
  simp only [smallJson.readLeaf, readInt_array, hread]

theorem readLeaf_leafText {j : JsonValue} (h : smallDeps.IsLeaf j) :
    smallJson.readLeaf (smallJson.leafText j) = some j := by
  cases h with
  | null => rfl
  | bool b => cases b <;> rfl
  | int => simp only [smallJson.leafText, smallJson.readLeaf, readInt_toString]
  | @float w x m e hdecimal => cases w <;> rcases x with _ | _ | _ <;> cases hdecimal <;> rfl
  | str s => exact readLeaf_quote s
  | texts => rw [smallJson.leafText, FieldType.filterMap_asStr, readLeaf_array]

theorem fromText_toText {j : JsonValue} (h : smallDeps.IsLeaf j) :
    smallJson.fromText (smallJson.toText j) = .ok j := by
  have htext : smallJson.toText j = String.ofList (smallJson.leafText j) := by cases h <;> rfl
  rw [htext]
  exact fromText_of_readLeaf (readLeaf_leafText h)

section

variable (h : ∀ field ∈ fields, smallJson.readLeaf (smallJson.leafText field.2) = some field.2)

include h

theorem readMembers_members : smallJson.readMembers (smallJson.members fields) = some fields := by
  induction fields with
  | nil => rfl
  | cons field _ ih =>
    obtain ⟨hv, hfields⟩ := forall_mem_cons.mp h
    simp [smallJson.members, smallJson.readMembers, String.toList_ofList, hv, ih hfields]

theorem fromText_toText_obj :
    smallJson.fromText (smallJson.toText (.obj fields)) = .ok (.obj fields) := by
  have hread := readArray_array (smallJson.members fields) []
  rw [append_nil] at hread
  simp [smallJson, String.toList_ofList, hread, readMembers_members h]

end

theorem length_of_readLeaf {cs : List Char} {s : String}
    (h : smallJson.readLeaf cs = some (.str s)) : s.toList.length < cs.length := by
  unfold smallJson.readLeaf at h
  split at h
  · cases h
  · cases h
  split_ifs at h
  · cases h
  · cases h
  · cases h
  · cases h
  · cases h
  split at h
  · split at h
    · next s' hread =>
      cases h
      rw [String.toList_ofList]
      exact (length_readString hread).trans (Nat.lt_succ_self _)
    · cases h
  · cases h

theorem smallJson_notItself (s : String) : smallJson.fromText s ≠ .ok (.str s) := by
  intro h
  unfold smallJson at h
  dsimp only at h
  split at h
  · split at h
    · split at h <;> cases h
    · cases h
  · split at h
    · next v hread =>
      cases h
      exact lt_irrefl _ (length_of_readLeaf hread)
    · cases h

theorem smallDeps_json : smallDeps.json = smallJson := rfl

theorem smallDeps_lawful : smallDeps.LawfulText where
  intText n := String.ofList_toList
  ofInt n hlow hhigh := by
    have hread := fromText_of_readLeaf (readLeaf_leafText (.int n hlow hhigh))
    rwa [smallJson.leafText, String.ofList_toList] at hread
  ofTexts xs := by
    rw [smallDeps_json]
    exact fromText_toText (.texts xs)
  notItself := smallJson_notItself
  ofDecimal_toDecimal w x m e h := by cases w <;> rcases x with _ | _ | _ <;> cases h <;> rfl
  parse_text w x m e h := by cases w <;> rcases x with _ | _ | _ <;> cases h <;> exact ⟨_, rfl, rfl⟩
  shortDecimal w m e _ he := by
    have hle : e ≤ 38 := by omega
    simp [smallDeps, hle]
  nullText := rfl
  ofNull := rfl
  ofBool b := by
    rw [smallDeps_json]
    exact fromText_toText (.bool b)
  ofStr s := by
    rw [smallDeps_json]
    exact fromText_toText (.str s)
  ofObject fields _ h := by
    refine ⟨fields, fromText_toText_obj fun field hfield => readLeaf_leafText (h field hfield),
      fun key j hj => ⟨j, fromText_toText ?_, hj⟩⟩
    obtain ⟨l, l', hl, -⟩ := lookup_eq_some_iff.mp hj
    exact h (key, j) (by simp [hl])

def margin : SettingsField := ⟨some .agent, ⟨12, by decide⟩⟩

theorem splitPath_margin :
    splitPath "agent.autonomy_smart_rules_proactive_margin" = margin.parts := by decide

theorem given_margin (value : String) {x : Option Bool}
    (hparse : smallDeps.parseF64 value = some x) {m e : Int}
    (hdecimal : smallDeps.toDecimal .f64 x = some (m, e)) :
    (default smallDeps).given "agent.autonomy_smart_rules_proactive_margin" value margin
      = some (smallDeps.ofDecimal .f32 m e) := by
  rw [given_field splitPath_margin]
  have hleaf : (default smallDeps).leaf margin = .float 0 0 := rfl
  simp only [hleaf, newValue, hparse, hdecimal]
  rfl

/-- A margin that an `f32` can hold. -/
theorem margin_lens :
    (default smallDeps).setInPlace "agent.autonomy_smart_rules_proactive_margin" "0.0"
        = (.ok (), (default smallDeps).update margin (some false)) ∧
      LensLaws (default smallDeps) "agent.autonomy_smart_rules_proactive_margin" "0.0" := by
  have hgiven := given_margin "0.0" (x := some false) rfl rfl
  constructor
  · exact setInPlace_eq_ok_iff.mpr (set_field_of_given smallDeps_lawful.toLawful
      (stored_default smallDeps_lawful.toLawful) splitPath_margin hgiven)
  · refine (lensLaws_iff smallDeps smallDeps_lawful _ _ _).mpr (.inr ⟨fun hbeside => ?_, ?_⟩)
    · exact hbeside.1 ⟨margin, under_of_eq splitPath_margin⟩
    · intro f hf _ v hv
      obtain rfl := (under_iff_of_field splitPath_margin).mp hf
      cases hv
      exact (kept_field splitPath_margin).mpr ⟨.float 0 0, rfl, rfl⟩

theorem not_under_misspelt : ¬Under "agent.max_paralel_jobs" f := by
  have hall : ∀ f ∈ SettingsField.all, ¬Under "agent.max_paralel_jobs" f := by decide
  exact hall f (mem_all f)

/-- A misspelt name is taken, and a margin that is too large for an `f32` is lost. -/
theorem misspelt_taken :
    ((¬∃ f, Under "agent.max_paralel_jobs" f) ∧
      (default smallDeps).setInPlace "agent.max_paralel_jobs" "8" = (.ok (), default smallDeps) ∧
      (default smallDeps).get "agent.max_paralel_jobs" = none) ∧
    ∃ s' : Settings smallDeps,
      (default smallDeps).setInPlace "agent.autonomy_smart_rules_proactive_margin" "1e300"
        = (.ok (), s') ∧
      s'.get "agent.autonomy_smart_rules_proactive_margin" = some "null" ∧
      ∀ s'', s'.setInPlace "agent.autonomy_smart_rules_proactive_margin" "null"
        ≠ (.ok (), s'') := by
  have hD := smallDeps_lawful.toLawful
  have hs := stored_default hD
  have hunknown : ¬∃ f, Under "agent.max_paralel_jobs" f := fun ⟨f, hf⟩ => not_under_misspelt f hf
  refine ⟨⟨hunknown, ?_, get_eq_none hunknown⟩, ?_⟩
  · have hbeside : Beside "agent.max_paralel_jobs" :=
      ⟨hunknown, .inr ⟨.agent, "max_paralel_jobs", by decide⟩⟩
    exact setInPlace_eq_ok_iff.mpr ((set_eq_ok_iff_of_beside hD hbeside).mpr ⟨hs, rfl⟩)
  · have hgiven := given_margin "1e300" (x := some true) rfl rfl
    have hset := set_field_of_given hD hs splitPath_margin hgiven
    have hafter := ((set_field_iff hD splitPath_margin).mp hset).written_after
    have hleaf : ((default smallDeps).update margin (smallDeps.ofDecimal .f32 1 300)).leaf margin
        = .null := leaf_update _ _ _
    refine ⟨_, setInPlace_eq_ok_iff.mpr hset, ?_, fun s'' hok => ?_⟩
    · rw [get_field hafter splitPath_margin, hleaf]
      rfl
    · have hagain := (set_field_iff hD splitPath_margin).mp (setInPlace_eq_ok_iff.mp hok)
      have hnull := hagain.given margin (under_of_eq splitPath_margin)
      cases hnull

end Settings

end TitanClaw
