import TitanClaw.Settings.RoundTrip

/-! # Settings by dotted path

`get` and `set` take any path. A path leads to a field, to a section or to nothing, and `set`
goes through the JSON of all settings: what it does is said for each kind of path, from the
lookups that reading the settings makes. -/

namespace TitanClaw.Settings

open SettingsField List Option JsonValue Prod

variable {D : SettingsDeps} {s s' : Settings D} {path value : String}

/-- Follow the path. -/
def lookupAt : List String → JsonValue → Option JsonValue
  | [], v => some v
  | part :: rest, v => (v.get? part).bind (lookupAt rest)

/-- The text of a value. -/
def shown (D : SettingsDeps) : JsonValue → String
  | .str s => s
  | .bool b => toString b
  | .null => "null"
  | v => D.json.toText v

variable (s)

def get (path : String) : Option String :=
  s.toValue.bind fun json => (lookupAt (splitPath path) json).map (shown D)

/-- `set` on settings in place: its result and the settings afterwards. -/
def setInPlace (path value : String) : Except String Unit × Settings D :=
  match s.set path value with
  | .ok s' => (.ok (), s')
  | .error e => (.error e, s)

def reset (path : String) : Except String Unit × Settings D :=
  match (default D).get path with
  | none => (.error ("Unknown setting: " ++ path), s)
  | some value => s.setInPlace path value

variable {s}

/-! ## What a path leads to -/

/-- The field is at the path or below it. -/
def Under (path : String) (f : SettingsField) : Prop := splitPath path <+: f.parts

instance (path : String) (f : SettingsField) : Decidable (Under path f) :=
  inferInstanceAs (Decidable (splitPath path <+: f.parts))

theorem splitPath_ne_nil (path : String) : splitPath path ≠ [] := by
  simp [splitPath, splitOn_ne_nil]

variable {f : SettingsField}

theorem under_of_eq (h : splitPath path = f.parts) : Under path f := by rw [Under, h]

theorem parts_isPrefix_iff {f g : SettingsField} : f.parts <+: g.parts ↔ g = f := by
  refine ⟨fun h => ?_, fun h => h ▸ prefix_rfl⟩
  unfold parts at h
  split at h
  · next hf =>
    split at h
    · next hg =>
      simp only [cons_prefix_cons, prefix_rfl, and_true] at h
      exact eq_of_name (hg.trans hf.symm) h.symm
    · next sect hg =>
      rw [cons_prefix_cons] at h
      exact absurd h.1 (sectionName_ne hf sect)
  · next sect hf =>
    split at h
    · next hg => simp at h
    next sect' hg =>
    simp only [cons_prefix_cons, prefix_rfl, and_true] at h
    refine eq_of_name ?_ h.2.symm
    rw [hf, hg, sectionName_inj h.1]

variable {sect : SettingsSection}

theorem section_isPrefix_iff {g : SettingsField} :
    [sect.name] <+: g.parts ↔ g.sect = some sect := by
  unfold parts
  split
  · next hg =>
    rw [hg, cons_prefix_cons]
    exact iff_of_false (fun h => sectionName_ne hg sect h.1.symm) nofun
  · next sect' hg =>
    rw [hg, cons_prefix_cons]
    refine ⟨fun h => congrArg some (sectionName_inj h.1).symm, fun h => ?_⟩
    rw [Option.some.inj h]
    exact ⟨rfl, nil_prefix⟩

inductive LeadsTo (path : String) : Prop where
  | field (f : SettingsField) (h : splitPath path = f.parts)
  | sect (sect : SettingsSection) (h : splitPath path = [sect.name])

theorem leadsTo_iff : LeadsTo path ↔ ∃ f, Under path f := by
  constructor
  · rintro (⟨f, h⟩ | ⟨sect, h⟩)
    · exact ⟨f, under_of_eq h⟩
    have hpos : 0 < (fieldsOf (some sect)).length := by cases sect <;> decide
    refine ⟨⟨some sect, ⟨0, hpos⟩⟩, ?_⟩
    rw [Under, h]
    exact section_isPrefix_iff.mpr rfl
  · rintro ⟨f, h⟩
    unfold Under at h
    obtain ⟨key, rest, hparts⟩ := exists_cons_of_ne_nil (splitPath_ne_nil path)
    cases hsect : f.sect with
    | none =>
      have hname : f.parts = [f.name] := by simp [parts, hsect]
      rw [hname, hparts, cons_prefix_cons, prefix_nil] at h
      refine .field f ?_
      rw [hparts, hname, h.1, h.2]
    | some sect =>
      have hnames : f.parts = [sect.name, f.name] := by simp [parts, hsect]
      rw [hnames, hparts, cons_prefix_cons] at h
      obtain ⟨rfl, hrest⟩ := h
      cases rest with
      | nil => exact .sect sect hparts
      | cons =>
        rw [cons_prefix_cons, prefix_nil] at hrest
        refine .field f ?_
        rw [hparts, hnames, hrest.1, hrest.2]

/-- The path leads to nothing, but to a place beside settings: at the top, where one more name
is that of a field, or in a section. -/
def Beside (path : String) : Prop :=
  (¬∃ f, Under path f) ∧ ((∃ key, splitPath path = [key] ∧ key ≠ "setup_completed")
    ∨ ∃ (sect : SettingsSection) (key : String), splitPath path = [sect.name, key])

/-! ## Reading settings -/

/-- All values have JSON. -/
def Written (s : Settings D) : Prop := ∀ f : SettingsField, (f.type.toJson D (s f)).isSome = true

theorem Stored.written (hs : s.Stored) : s.Written := hs.isSome

theorem Written.toJson (hs : s.Written) (f : SettingsField) :
    f.type.toJson D (s f) = some (s.leaf f) := by
  obtain ⟨j, hj⟩ := isSome_iff_exists.mp (hs f)
  rw [leaf, hj]
  rfl

theorem toValue_eq_some_iff {json : JsonValue} :
    s.toValue = some json ↔ s.Written ∧ json = tree s.leaf := by
  constructor
  · intro h
    unfold toValue at h
    split at h
    · next hall => exact ⟨fun f => all_eq_true.mp hall f (mem_all f), (Option.some.inj h).symm⟩
    · cases h
  · rintro ⟨hs, rfl⟩
    exact toValue_of_some hs

theorem set_eq_ok_iff : s.set path value = .ok s' ↔ s.Written ∧ ∃ json,
    setAt D path value (splitPath path) (tree s.leaf) = .ok json ∧ fromValue D json = some s' := by
  unfold set
  cases hvalue : s.toValue with
  | none =>
    -- a value without JSON
    refine iff_of_false nofun fun h => ?_
    rw [toValue_of_some h.1] at hvalue
    cases hvalue
  | some json =>
    obtain ⟨hs, rfl⟩ := toValue_eq_some_iff.mp hvalue
    simp only [hs, true_and]
    cases setAt D path value (splitPath path) (tree s.leaf) with
    | error => simp
    | ok json => cases hread : fromValue D json <;> simp [hread]

def topNames (f : SettingsField) : List String :=
  match f.sect with
  | none => f.name :: f.alias?.toList
  | some sect => [sect.name]

variable {key : String}

theorem readField_setField {top : List (String × JsonValue)}
    (h : key ∉ topNames f) (new : JsonValue) :
    readField D (.obj (setField top key new)) f = readField D (.obj top) f := by
  have hlookup : ∀ k ∈ topNames f, (setField top key new).lookup k = top.lookup k := by
    intro k hk
    rw [lookup_setField, if_neg]
    rintro rfl
    exact h hk
  unfold topNames at hlookup
  cases hsect : f.sect with
  | none =>
    rw [hsect] at hlookup
    have halias : (f.alias?.bind fun k => (setField top key new).lookup k)
        = f.alias?.bind fun k => top.lookup k := by
      cases halias : f.alias? with
      | none => rfl
      | some k => exact hlookup k (by simp [halias])
    simp [readField, hsect, fieldOf, hlookup f.name (by simp), halias]
  | some sect =>
    rw [hsect] at hlookup
    simp [readField, hsect, hlookup sect.name (by simp)]

theorem readField_section (h : f.sect = some sect)
    {top fields : List (String × JsonValue)} (htop : top.lookup sect.name = some (.obj fields)) :
    readField D (.obj top) f = match fields.lookup f.name with
      | some v => f.type.ofJson D v
      | none => some (f.type.missing D) := by
  have halias : f.alias? = none := by simp [alias?, h]
  simp only [readField, h, htop, sectionField, fieldOf, halias, bind_none]
  cases fields.lookup f.name <;> rfl

theorem sectionName_notMem_topNames (h : f.sect ≠ some sect) : sect.name ∉ topNames f := by
  unfold topNames
  cases hsect : f.sect with
  | none =>
    have hname := sectionName_ne hsect sect
    have halias : ∀ k, f.alias? = some k → sect.name ≠ k := by
      intro k hk
      simp only [alias?, ite_none_right_eq_some, Option.some.injEq] at hk
      exact hk.2 ▸ sectionName_ne_alias sect
    simp only [mem_cons, mem_toList, not_or]
    exact ⟨Ne.symm hname, fun hk => halias _ hk rfl⟩
  | some =>
    rw [mem_singleton]
    intro hname
    rw [hsect, sectionName_inj hname] at h
    exact h rfl

/-! ## Setting a path -/

theorem setAt_of_not_obj {v : JsonValue} (hv : ∀ fields, v ≠ .obj fields) (parts : List String) :
    ∃ e, setAt D path value parts v = .error e := by
  unfold setAt
  split
  · exact ⟨_, rfl⟩
  · exact absurd rfl (hv _)
  · exact ⟨_, rfl⟩
  · exact absurd rfl (hv _)
  · exact ⟨_, rfl⟩

variable {v : SettingsField → JsonValue} {child : JsonValue}

theorem lookup_top_cases (h : (group v none ++ sections v).lookup key = some child) :
    (∃ f, f.parts = [key] ∧ child = v f)
      ∨ ∃ sect, sect.name = key ∧ child = .obj (group v (some sect)) := by
  obtain ⟨l, l', hl, -⟩ := lookup_eq_some_iff.mp h
  have hmem : (key, child) ∈ group v none ++ sections v := by simp [hl]
  rcases mem_append.mp hmem with hmem | hmem
  · obtain ⟨f, hf, heq⟩ := mem_map.mp hmem
    refine .inl ⟨f, ?_, (mk.inj heq).2.symm⟩
    rw [parts, mem_inSection.mp hf, (mk.inj heq).1]
  · obtain ⟨sect, -, heq⟩ := mem_map.mp hmem
    exact .inr ⟨sect, (mk.inj heq).1, (mk.inj heq).2.symm⟩

theorem lookup_group_cases (h : (group v (some sect)).lookup key = some child) :
    ∃ f, f.parts = [sect.name, key] ∧ child = v f := by
  obtain ⟨l, l', hl, -⟩ := lookup_eq_some_iff.mp h
  have hmem : (key, child) ∈ group v (some sect) := by simp [hl]
  obtain ⟨f, hf, heq⟩ := mem_map.mp hmem
  refine ⟨f, ?_, (mk.inj heq).2.symm⟩
  rw [parts, mem_inSection.mp hf, (mk.inj heq).1]

variable (v)

theorem setAt_beside_top (hnot : ¬∃ f, Under path f) (hparts : splitPath path = [key])
    (hkey : key ≠ "setup_completed") :
    ∃ json, setAt D path value (splitPath path) (tree v) = .ok json
      ∧ ∀ f, readField D json f = f.type.ofJson D (v f) := by
  have hnone : (group v none ++ sections v).lookup key = none := by
    rw [eq_none_iff_forall_ne_some]
    intro child hchild
    rcases lookup_top_cases hchild with ⟨f, hf, -⟩ | ⟨sect, hsect, -⟩
    · exact hnot ⟨f, under_of_eq (hparts.trans hf.symm)⟩
    · exact hnot (leadsTo_iff.mp (.sect sect (hsect ▸ hparts)))
  have hjson : setAt D path value (splitPath path) (tree v)
      = .ok (.obj (setField (group v none ++ sections v) key
        ((D.json.fromText value).toOption.getD (.str value)))) := by
    rw [hparts, tree_eq, setAt, hnone]
    rfl
  refine ⟨_, hjson, fun f => ?_⟩
  rw [readField_setField, ← tree_eq, readField_tree]
  -- the name is none of those that are looked at
  unfold topNames
  cases hsect : f.sect with
  | none =>
    simp only [mem_cons, mem_toList, not_or]
    refine ⟨fun hname => hnot ⟨f, under_of_eq ?_⟩, fun halias => ?_⟩
    · rw [hparts, parts, hsect, hname]
    · simp only [alias?, ite_none_right_eq_some] at halias
      exact hkey (Option.some.inj halias.2).symm
  | some sect =>
    rw [mem_singleton]
    exact fun hname => hnot (leadsTo_iff.mp (.sect sect (hname ▸ hparts)))

theorem setAt_beside_section (hnot : ¬∃ f, Under path f)
    (hparts : splitPath path = [sect.name, key]) :
    ∃ json, setAt D path value (splitPath path) (tree v) = .ok json
      ∧ ∀ f, readField D json f = f.type.ofJson D (v f) := by
  have hnone : (group v (some sect)).lookup key = none := by
    rw [eq_none_iff_forall_ne_some]
    intro child hchild
    obtain ⟨f, hf, -⟩ := lookup_group_cases hchild
    exact hnot ⟨f, under_of_eq (hparts.trans hf.symm)⟩
  have hjson : setAt D path value (splitPath path) (tree v)
      = .ok (.obj (setField (group v none ++ sections v) sect.name
        (.obj (setField (group v (some sect)) key
          ((D.json.fromText value).toOption.getD (.str value)))))) := by
    rw [hparts, tree_eq, setAt]
    · simp only [lookup_top_section, setAt, hnone]
      rfl
    · exact cons_ne_nil key []
  refine ⟨_, hjson, fun f => ?_⟩
  by_cases hf : f.sect = some sect
  · have hlookup := lookup_group v f
    have hne : f.name ≠ key := by
      rintro rfl
      refine hnot ⟨f, under_of_eq ?_⟩
      rw [hparts, parts, hf]
    rw [hf] at hlookup
    rw [readField_section hf (by rw [lookup_setField, if_pos rfl]),
      lookup_setField, if_neg hne, hlookup]
  · rw [readField_setField (sectionName_notMem_topNames hf), ← tree_eq, readField_tree]

theorem setAt_beside (h : Beside path) :
    ∃ json, setAt D path value (splitPath path) (tree v) = .ok json
      ∧ ∀ f, readField D json f = f.type.ofJson D (v f) := by
  obtain ⟨hnot, ⟨key, hparts, hkey⟩ | ⟨sect, key, hparts⟩⟩ := h
  · exact setAt_beside_top v hnot hparts hkey
  · exact setAt_beside_section v hnot hparts

theorem setAt_cons_error {fields : List (String × JsonValue)} {parts : List String}
    (hparts : parts ≠ []) (h : ∀ child, fields.lookup key = some child →
      ∃ e, setAt D path value parts child = .error e) :
    ∃ e, setAt D path value (key :: parts) (.obj fields) = .error e := by
  rw [setAt]
  · cases hchild : fields.lookup key with
    | none => exact ⟨_, rfl⟩
    | some child =>
      obtain ⟨e, he⟩ := h child hchild
      refine ⟨e, ?_⟩
      simp only [he, Except.map]
  · rintro rfl
    exact hparts rfl

variable {v}

/-- Elsewhere there is no object to put the value into, or its name is another name of a
field. -/
theorem set_elsewhere (hnot : ¬∃ f, Under path f) (h : ¬Beside path) :
    s.set path value ≠ .ok s' := by
  intro hset
  obtain ⟨-, json, hjson, hread⟩ := set_eq_ok_iff.mp hset
  have hno (e : String)
      (he : setAt D path value (splitPath path) (tree s.leaf) = .error e) : False := by
    rw [he] at hjson
    cases hjson
  obtain ⟨key, rest, hparts⟩ := exists_cons_of_ne_nil (splitPath_ne_nil path)
  cases rest with
  | nil =>
    have hkey : key = "setup_completed" := by_contra fun hkey => h ⟨hnot, .inl ⟨key, hparts, hkey⟩⟩
    rw [hparts, tree_eq, hkey, setAt, lookup_top_alias] at hjson
    cases hjson
    cases hread
  | cons next rest =>
    rw [hparts, tree_eq] at hno
    refine (setAt_cons_error (cons_ne_nil next rest) fun child hchild => ?_).elim hno
    rcases lookup_top_cases hchild with ⟨f, -, rfl⟩ | ⟨sect, rfl, rfl⟩
    · exact setAt_of_not_obj (s.leaf_ne_obj f) _
    -- below a section there are only values that are no objects
    · cases rest with
      | nil => exact absurd ⟨hnot, .inr ⟨sect, next, hparts⟩⟩ h
      | cons last rest =>
        refine setAt_cons_error (cons_ne_nil last rest) fun child hchild => ?_
        obtain ⟨f, -, rfl⟩ := lookup_group_cases hchild
        exact setAt_of_not_obj (s.leaf_ne_obj f) _

/-! ## What set does -/

/-- What the text gives to a field at the path or below it. -/
def given (s : Settings D) (path value : String) (f : SettingsField) : Option (f.type.Value D) :=
  if splitPath path = f.parts then
    (newValue D path value (some (s.leaf f))).toOption.bind (f.type.ofJson D)
  else (D.json.fromText value).toOption.bind fun v => sectionField D v f

theorem ofJson_leaf_iff (hD : D.Lawful) (hs : s.Written) {x : f.type.Value D} :
    f.type.ofJson D (s.leaf f) = some x ↔ f.type.Stored (s f) ∧ x = s f := by
  constructor
  · intro h
    have hstored : f.type.Stored (s f) := by
      refine FieldType.stored_of_toJson hD (hs.toJson f) fun hfloat hnull => ?_
      rw [hnull] at h
      generalize f.type = t at *
      cases t <;> cases hfloat
      cases h
    obtain ⟨j, hj, hread⟩ := hstored
    rw [leaf, hj] at h
    exact ⟨⟨j, hj, hread⟩, Option.some.inj (h.symm.trans hread)⟩
  · rintro ⟨⟨j, hj, hread⟩, rfl⟩
    rw [leaf, hj]
    exact hread

/-- The fields at the path or below it are as given. The others, which have to be such that they
are read back, are as they were. -/
structure SetsTo (s : Settings D) (path value : String) (s' : Settings D) : Prop where
  written : s.Written
  given : ∀ f, Under path f → s.given path value f = some (s' f)
  stored : ∀ f, ¬Under path f → f.type.Stored (s f)
  others : ∀ f, ¬Under path f → s' f = s f

theorem set_eq_ok_iff_of_setAt (hD : D.Lawful) {json : JsonValue}
    (hjson : setAt D path value (splitPath path) (tree s.leaf) = .ok json)
    (hunder : ∀ f, Under path f → readField D json f = s.given path value f)
    (hothers : ∀ f, ¬Under path f → readField D json f = f.type.ofJson D (s.leaf f)) :
    s.set path value = .ok s' ↔ s.SetsTo path value s' := by
  simp only [set_eq_ok_iff, hjson, Except.ok.injEq, exists_eq_left', fromValue_eq_some_iff]
  constructor
  · rintro ⟨hs, h⟩
    have hkept (f : SettingsField) (hf : ¬Under path f) :=
      (ofJson_leaf_iff hD hs).mp ((hothers f hf).symm.trans (h f))
    exact ⟨hs, fun f hf => (hunder f hf).symm.trans (h f), fun f hf => (hkept f hf).1,
      fun f hf => (hkept f hf).2⟩
  · intro h
    refine ⟨h.written, fun f => ?_⟩
    by_cases hf : Under path f
    · exact (hunder f hf).trans (h.given f hf)
    refine (hothers f hf).trans ((ofJson_leaf_iff hD h.written).mpr ?_)
    exact ⟨h.stored f hf, h.others f hf⟩

theorem set_eq_ok_iff_of_beside (hD : D.Lawful) (h : Beside path) :
    s.set path value = .ok s' ↔ s.Stored ∧ s' = s := by
  have hothers (f : SettingsField) : ¬Under path f := fun hf => h.1 ⟨f, hf⟩
  obtain ⟨json, hjson, hread⟩ := setAt_beside s.leaf h
  rw [set_eq_ok_iff_of_setAt hD hjson (fun f hf => absurd hf (hothers f)) fun f _ => hread f]
  constructor
  · intro h
    exact ⟨fun f => h.stored f (hothers f), funext fun f => h.others f (hothers f)⟩
  · rintro ⟨hs, rfl⟩
    exact ⟨hs.written, fun f hf => absurd hf (hothers f), fun f _ => hs f, fun f _ => rfl⟩

/-- A text that cannot be parsed gives nothing, and nothing is set. -/
theorem set_eq_ok_iff_of_error {e : String}
    (hjson : setAt D path value (splitPath path) (tree s.leaf) = .error e)
    (hunder : Under path f) (hgiven : s.given path value f = none) :
    s.set path value = .ok s' ↔ s.SetsTo path value s' := by
  refine iff_of_false (fun hset => ?_) fun hall => ?_
  · obtain ⟨-, json, hok, -⟩ := set_eq_ok_iff.mp hset
    rw [hjson] at hok
    cases hok
  · have hsome := hall.given f hunder
    rw [hgiven] at hsome
    cases hsome

theorem under_iff_of_field {f g : SettingsField} (h : splitPath path = f.parts) :
    Under path g ↔ g = f := by
  rw [Under, h]
  exact parts_isPrefix_iff

theorem under_iff_of_section {g : SettingsField}
    (h : splitPath path = [sect.name]) : Under path g ↔ g.sect = some sect := by
  rw [Under, h]
  exact section_isPrefix_iff

theorem given_field (h : splitPath path = f.parts) :
    s.given path value f
      = (newValue D path value (some (s.leaf f))).toOption.bind (f.type.ofJson D) :=
  if_pos h

theorem given_section (h : splitPath path = [sect.name]) (hf : f.sect = some sect) :
    s.given path value f = (D.json.fromText value).toOption.bind fun v => sectionField D v f := by
  refine if_neg fun hparts => ?_
  rw [h, parts, hf] at hparts
  cases hparts

section

variable (hD : D.Lawful)

include hD

theorem set_field_iff (h : splitPath path = f.parts) :
    s.set path value = .ok s' ↔ s.SetsTo path value s' := by
  have hjson := setAt_tree (D := D) s.leaf f path value
  rw [← h] at hjson
  cases hnew : newValue D path value (some (s.leaf f)) with
  | error =>
    rw [hnew] at hjson
    refine set_eq_ok_iff_of_error hjson (under_of_eq h) ?_
    rw [given_field h, hnew]
    rfl
  | ok =>
    rw [hnew] at hjson
    refine set_eq_ok_iff_of_setAt hD hjson (fun g hg => ?_) fun g hg => ?_
    · obtain rfl := (under_iff_of_field h).mp hg
      rw [readField_tree, Function.update_self, given_field h, hnew]
      rfl
    · have hne : g ≠ f := fun heq => hg ((under_iff_of_field h).mpr heq)
      rw [readField_tree, Function.update_of_ne hne]

theorem set_section_iff (h : splitPath path = [sect.name]) :
    s.set path value = .ok s' ↔ s.SetsTo path value s' := by
  have hjson : setAt D path value (splitPath path) (tree s.leaf)
      = (newValue D path value (some (.obj (group s.leaf (some sect))))).map fun new =>
        .obj (setField (group s.leaf none ++ sections s.leaf) sect.name new) := by
    rw [h, tree_eq, setAt, lookup_top_section]
  cases hread : D.json.fromText value with
  | error =>
    obtain ⟨f, hf⟩ := leadsTo_iff.mp (.sect sect h)
    simp only [newValue, hread, Except.map] at hjson
    refine set_eq_ok_iff_of_error hjson hf ?_
    rw [given_section h ((under_iff_of_section h).mp hf), hread]
    rfl
  | ok =>
    simp only [newValue, hread, Except.map] at hjson
    refine set_eq_ok_iff_of_setAt hD hjson (fun f hf => ?_) fun f hf => ?_
    · have hsect := (under_iff_of_section h).mp hf
      rw [given_section h hsect, hread]
      simp only [readField, hsect, lookup_setField, if_pos]
      rfl
    · have hsect : f.sect ≠ some sect := fun heq => hf ((under_iff_of_section h).mpr heq)
      rw [readField_setField (sectionName_notMem_topNames hsect), ← tree_eq, readField_tree]

/-- **Setting a path**: a field or a section takes what is given to it, and the fields outside
it stay as they are. -/
theorem set_eq_ok_iff_of_under (h : ∃ f, Under path f) :
    s.set path value = .ok s' ↔ s.SetsTo path value s' := by
  cases leadsTo_iff.mpr h with
  | field f hparts => exact set_field_iff hD hparts
  | sect _ hparts => exact set_section_iff hD hparts

theorem set_field_of_given (hs : s.Stored)
    (h : splitPath path = f.parts) {v : f.type.Value D} (hv : s.given path value f = some v) :
    s.set path value = .ok (s.update f v) := by
  refine (set_field_iff hD h).mpr ⟨hs.written, fun g hg => ?_, fun g _ => hs g, fun g hg => ?_⟩
  · obtain rfl := (under_iff_of_field h).mp hg
    rw [hv, update_self]
  · exact update_of_ne (fun heq => hg ((under_iff_of_field h).mpr heq)) s v

end

theorem get_field (hs : s.Written) (h : splitPath path = f.parts) :
    s.get path = some (shown D (s.leaf f)) := by
  rw [get, toValue_of_some hs, bind_some, h, tree_eq]
  cases hsect : f.sect with
  | none =>
    rw [parts, hsect]
    simp [lookupAt, get?, lookup_top_name hsect, map_some]
  | some =>
    have hlookup := lookup_group s.leaf f
    rw [hsect] at hlookup
    rw [parts, hsect]
    simp [lookupAt, get?, lookup_top_section, bind_some, hlookup, map_some]

theorem get_section (hs : s.Written) (h : splitPath path = [sect.name]) :
    s.get path = some (D.json.toText (.obj (group s.leaf (some sect)))) := by
  rw [get, toValue_of_some hs, bind_some, h, tree_eq]
  simp [lookupAt, get?, lookup_top_section, map_some, shown]

theorem lookupAt_of_not_obj {v : JsonValue} (hv : ∀ fields, v ≠ .obj fields)
    {parts : List String} (hparts : parts ≠ []) : lookupAt parts v = none := by
  obtain ⟨key, rest, rfl⟩ := exists_cons_of_ne_nil hparts
  cases v with
  | obj fields => exact absurd rfl (hv fields)
  | null | bool | int | float | str | arr => rfl

theorem get_eq_none (h : ¬∃ f, Under path f) : s.get path = none := by
  cases hvalue : s.toValue with
  | none =>
    rw [get, hvalue]
    rfl
  | some =>
    obtain ⟨-, rfl⟩ := toValue_eq_some_iff.mp hvalue
    obtain ⟨key, rest, hparts⟩ := exists_cons_of_ne_nil (splitPath_ne_nil path)
    rw [get, hvalue, bind_some, map_eq_none_iff, hparts, tree_eq, lookupAt, get?, bind_eq_none_iff]
    intro child hchild
    rcases lookup_top_cases hchild with ⟨f, hf, rfl⟩ | ⟨sect, rfl, rfl⟩
    · refine lookupAt_of_not_obj (s.leaf_ne_obj f) fun hnil => h ⟨f, under_of_eq ?_⟩
      rw [hparts, hnil, hf]
    · cases rest with
      | nil => exact absurd (leadsTo_iff.mp (.sect sect hparts)) h
      | cons =>
        rw [lookupAt, get?, bind_eq_none_iff]
        intro child hchild
        obtain ⟨f, hf, rfl⟩ := lookup_group_cases hchild
        refine lookupAt_of_not_obj (s.leaf_ne_obj f) fun hnil => h ⟨f, under_of_eq ?_⟩
        rw [hparts, hnil, hf]

end TitanClaw.Settings
