import TitanClaw.Settings.DbMap

/-! # Paths in the settings' value

The value of settings is an object of two levels, and its paths are the fields: a field is read
from its path, the path of a field is set without touching another, and the flat map has an
entry for each field. -/

/-! ## Objects with given names -/

namespace JsonValue

open List

variable {ι : Type*} {name : ι → String} {l : List ι} {a : ι}

theorem lookup_map (hinj : ∀ b ∈ l, name b = name a → b = a) (ha : a ∈ l) (v : ι → JsonValue) :
    (l.map fun i => (name i, v i)).lookup (name a) = some (v a) := by
  induction l with
  | nil => exact absurd ha not_mem_nil
  | cons b l ih =>
    obtain ⟨hb, hl⟩ := forall_mem_cons.mp hinj
    rw [map_cons, lookup_cons]
    by_cases hname : name b = name a
    · rw [hb hname]
      simp
    · have hne : (name a == name b) = false := by simpa using Ne.symm hname
      rw [hne]
      refine ih hl ((mem_cons.mp ha).resolve_left fun heq => hname ?_)
      rw [heq]

theorem lookup_map_eq_none {key : String} (h : ∀ b ∈ l, name b ≠ key) (v : ι → JsonValue) :
    (l.map fun i => (name i, v i)).lookup key = none := by
  rw [lookup_eq_none_iff]
  intro entry hentry
  obtain ⟨b, hb, rfl⟩ := mem_map.mp hentry
  simpa using (h b hb).symm

variable {fields : List (String × JsonValue)}

theorem setField_of_mem {key : String} (h : key ∈ fields.map (·.1)) (v : JsonValue) :
    setField fields key v = fields.map fun f => if f.1 == key then (key, v) else f := by
  obtain ⟨field, hfield, hkey⟩ := mem_map.mp h
  exact if_pos (any_eq_true.mpr ⟨field, hfield, by simpa using hkey⟩)

variable (fields)

theorem lookup_map_set (key k : String) (v : JsonValue) :
    (fields.map fun f => if f.1 == key then (key, v) else f).lookup k
      = if k = key then (fields.lookup key).map fun _ => v else fields.lookup k := by
  induction fields with
  | nil => simp
  | cons f _ ih =>
    obtain ⟨name, old⟩ := f
    simp only [beq_iff_eq] at ih
    simp only [map_cons, beq_iff_eq]
    by_cases hk : k = key
    · subst hk
      rw [if_pos rfl] at ih ⊢
      by_cases hname : name = k
      · simp [hname]
      have hne : (k == name) = false := by simpa using Ne.symm hname
      simp [hname, lookup_cons, hne, ih]
    · rw [if_neg hk] at ih ⊢
      by_cases hname : name = key
      · have hne : (k == key) = false := by simpa using hk
        simp [hname, lookup_cons, hne, ih]
      · simp [hname, lookup_cons, ih]

theorem lookup_setField (key k : String) (v : JsonValue) :
    (setField fields key v).lookup k = if k = key then some v else fields.lookup k := by
  by_cases hmem : key ∈ fields.map (·.1)
  · obtain ⟨field, hfield, hkey⟩ := mem_map.mp hmem
    have hsome : (fields.lookup key).isSome = true := by
      rw [Option.isSome_iff_ne_none]
      intro hnone
      have hne := lookup_eq_none_iff.mp hnone field hfield
      simp [hkey] at hne
    obtain ⟨old, hold⟩ := Option.isSome_iff_exists.mp hsome
    rw [setField_of_mem hmem, lookup_map_set, hold, Option.map_some]
  · have hany : fields.any (·.1 == key) = false := by
      rw [any_eq_false]
      intro field hfield hkey
      exact hmem (mem_map.mpr ⟨field, hfield, by simpa using hkey⟩)
    rw [setField, hany, if_neg Bool.false_ne_true, lookup_append]
    by_cases hk : k = key
    · have hnone : fields.lookup key = none := by
        rw [lookup_eq_none_iff]
        intro field hfield
        have hne : key ≠ field.1 := fun heq => hmem (mem_map.mpr ⟨field, hfield, heq.symm⟩)
        simpa using hne
      rw [hk, hnone]
      simp
    · have hne : (k == key) = false := by simpa using hk
      simp [hk, lookup_cons, hne]

theorem map_set [DecidableEq ι] (hinj : ∀ b ∈ l, name b = name a → b = a) (v : ι → JsonValue)
    (new : JsonValue) :
    ((l.map fun i => (name i, v i)).map fun f => if f.1 == name a then (name a, new) else f)
      = l.map fun i => (name i, Function.update v a new i) := by
  rw [map_map]
  refine map_congr_left fun b hb => ?_
  by_cases hba : b = a
  · simp [hba]
  have hname : name b ≠ name a := fun heq => hba (hinj b hb heq)
  simp [hba, hname]

variable {fields}

/-- Fields of other names stay as they are. -/
theorem map_set_of_ne {key : String} (h : ∀ f ∈ fields, f.1 ≠ key) (new : JsonValue) :
    (fields.map fun f => if f.1 == key then (key, new) else f) = fields := by
  refine (map_congr_left fun f hf => ?_).trans (map_id _)
  simp [h f hf]

end JsonValue

namespace TitanClaw.Settings

open SettingsField

variable {D : SettingsDeps} {v : SettingsField → JsonValue}

/-! ## The two levels -/

variable {f : SettingsField}

theorem sectionName_ne (h : f.sect = none) (sect : SettingsSection) : f.name ≠ sect.name := by
  obtain ⟨top, pos⟩ := f
  obtain rfl : top = none := h
  revert pos
  cases sect <;> decide

theorem name_ne_alias (h : f.sect = none) : f.name ≠ "setup_completed" := by
  obtain ⟨top, pos⟩ := f
  obtain rfl : top = none := h
  revert pos
  decide

variable (sect : SettingsSection)

theorem sectionName_ne_alias : sect.name ≠ "setup_completed" := by cases sect <;> decide

theorem mem_allSections : sect ∈ SettingsSection.all := by cases sect <;> decide

theorem eq_of_mem_inSection {f g : SettingsField} (hg : g ∈ inSection f.sect)
    (hname : g.name = f.name) : g = f :=
  eq_of_name (mem_inSection.mp hg) hname

variable (v) (f)

theorem lookup_group : (group v f.sect).lookup f.name = some (v f) :=
  JsonValue.lookup_map (fun _ hg hname => eq_of_mem_inSection hg hname) (mem_inSection.mpr rfl) v

theorem setField_group (new : JsonValue) :
    JsonValue.setField (group v f.sect) f.name new = group (Function.update v f new) f.sect := by
  rw [JsonValue.setField_of_mem]
  · exact JsonValue.map_set (fun _ hg hname => eq_of_mem_inSection hg hname) v new
  · rw [group, List.map_map]
    exact List.mem_map.mpr ⟨f, mem_inSection.mpr rfl, rfl⟩

variable {f} {v}

theorem group_update_of_ne {sect : Option SettingsSection}
    (h : f.sect ≠ sect) (v : SettingsField → JsonValue) (new : JsonValue) :
    group (Function.update v f new) sect = group v sect := by
  refine List.map_congr_left fun g hg => ?_
  have hne : g ≠ f := by
    rintro rfl
    exact h (mem_inSection.mp hg)
  rw [Function.update_of_ne hne]

variable (v)

def sections : List (String × JsonValue) :=
  SettingsSection.all.map fun sect => (sect.name, .obj (group v (some sect)))

theorem tree_eq : tree v = .obj (group v none ++ sections v) := rfl

theorem lookup_sections : (sections v).lookup sect.name = some (.obj (group v (some sect))) :=
  JsonValue.lookup_map (fun _ _ hname => sectionName_inj hname) (mem_allSections sect) _

variable {v}

theorem lookup_top_name (h : f.sect = none) :
    (group v none ++ sections v).lookup f.name = some (v f) := by
  have hgroup := lookup_group v f
  rw [h] at hgroup
  rw [List.lookup_append, hgroup]
  rfl

theorem lookup_top_section :
    (group v none ++ sections v).lookup sect.name = some (.obj (group v (some sect))) := by
  have hnone : (group v none).lookup sect.name = none :=
    JsonValue.lookup_map_eq_none (fun g hg => sectionName_ne (mem_inSection.mp hg) sect) v
  rw [List.lookup_append, hnone, lookup_sections]
  rfl

theorem lookup_top_alias : (group v none ++ sections v).lookup "setup_completed" = none := by
  have hgroup : (group v none).lookup "setup_completed" = none :=
    JsonValue.lookup_map_eq_none (fun g hg => name_ne_alias (mem_inSection.mp hg)) v
  have hsections : (sections v).lookup "setup_completed" = none :=
    JsonValue.lookup_map_eq_none (fun sect _ => sectionName_ne_alias sect) _
  rw [List.lookup_append, hgroup, hsections]
  rfl

theorem setField_top_name (h : f.sect = none) (new : JsonValue) :
    JsonValue.setField (group v none ++ sections v) f.name new
      = group (Function.update v f new) none ++ sections (Function.update v f new) := by
  have hgroup := setField_group v f new
  have hmem : f.name ∈ (group v none).map (·.1) := by
    rw [group, List.map_map]
    exact List.mem_map.mpr ⟨f, mem_inSection.mpr h, rfl⟩
  have hsections : sections (Function.update v f new) = sections v := by
    refine List.map_congr_left fun sect _ => ?_
    rw [group_update_of_ne (by simp [h])]
  rw [h, JsonValue.setField_of_mem hmem] at hgroup
  rw [JsonValue.setField_of_mem (by simp [hmem]), List.map_append, hgroup, hsections]
  congr 1
  refine JsonValue.map_set_of_ne (fun entry hentry => ?_) new
  obtain ⟨sect, -, rfl⟩ := List.mem_map.mp hentry
  exact (sectionName_ne h sect).symm

theorem setField_top_section {sect : SettingsSection} (h : f.sect = some sect) (new : JsonValue) :
    JsonValue.setField (group v none ++ sections v) sect.name
        (.obj (group (Function.update v f new) (some sect)))
      = group (Function.update v f new) none ++ sections (Function.update v f new) := by
  have hmem : sect.name ∈ (group v none ++ sections v).map (·.1) := by
    rw [List.map_append, List.mem_append]
    refine .inr ?_
    rw [sections, List.map_map]
    exact List.mem_map.mpr ⟨sect, mem_allSections sect, rfl⟩
  have htop : group (Function.update v f new) none = group v none :=
    group_update_of_ne (by simp [h]) v new
  rw [JsonValue.setField_of_mem hmem, List.map_append, htop]
  congr 1
  · refine JsonValue.map_set_of_ne (fun entry hentry => ?_) _
    obtain ⟨g, hg, rfl⟩ := List.mem_map.mp hentry
    exact sectionName_ne (mem_inSection.mp hg) sect
  · -- of the sections only this one has changed
    refine (JsonValue.map_set (fun _ _ hname => sectionName_inj hname) _ _).trans ?_
    refine List.map_congr_left fun other _ => ?_
    by_cases hother : other = sect
    · simp [hother]
    have hne : f.sect ≠ some other := by
      rw [h]
      exact fun heq => hother (Option.some.inj heq).symm
    simp [Function.update_of_ne hother, group_update_of_ne hne]

theorem setAt_tree (v : SettingsField → JsonValue) (f : SettingsField) (path value : String) :
    setAt D path value f.parts (tree v)
      = (newValue D path value (some (v f))).map fun new => tree (Function.update v f new) := by
  cases hsect : f.sect with
  | none =>
    have hparts : f.parts = [f.name] := by simp [parts, hsect]
    rw [hparts, tree_eq, setAt, lookup_top_name hsect]
    congr 1
    funext new
    rw [tree_eq, setField_top_name hsect]
  | some sect =>
    have hparts : f.parts = [sect.name, f.name] := by simp [parts, hsect]
    have hlookup := lookup_group v f
    have hset := setField_group v f
    rw [hsect] at hlookup hset
    rw [hparts, tree_eq, setAt]
    simp only [lookup_top_section, setAt, hlookup]
    cases newValue D path value (some (v f)) with
    | error => rfl
    | ok => simp [Except.map, hset, setField_top_section hsect, tree_eq]
    nofun

theorem readField_tree (D : SettingsDeps) (v : SettingsField → JsonValue) (f : SettingsField) :
    readField D (tree v) f = f.type.ofJson D (v f) := by
  cases hsect : f.sect with
  | none =>
    have halias : (f.alias?.bind fun key => (group v none ++ sections v).lookup key) = none := by
      unfold alias?
      split
      · rw [Option.bind_some, lookup_top_alias]
      · rfl
    simp [readField, tree_eq, hsect, fieldOf, lookup_top_name hsect, halias]
  | some =>
    have halias : f.alias? = none := by simp [alias?, hsect]
    have hlookup := lookup_group v f
    rw [hsect] at hlookup
    simp [readField, tree_eq, hsect, lookup_top_section, sectionField, fieldOf, hlookup, halias,
      Option.bind_none]

theorem fromValue_eq_some_iff {json : JsonValue} {s : Settings D} :
    fromValue D json = some s ↔ ∀ f, readField D json f = some (s f) := by
  unfold fromValue
  constructor
  · intro h f
    split at h
    · cases h
      simp
    · cases h
  · intro h
    rw [dif_pos fun f _ => by rw [h f]; rfl]
    congr 1
    funext f
    simp [h f]

theorem fromValue_tree {s : Settings D} (h : ∀ f, f.type.ofJson D (v f) = some (s f)) :
    fromValue D (tree v) = some s :=
  fromValue_eq_some_iff.mpr fun f => by rw [readField_tree, h f]

theorem fromValue_tree_eq_none (h : f.type.ofJson D (v f) = none) :
    fromValue D (tree v) = none := by
  rw [Option.eq_none_iff_forall_ne_some]
  intro s hs
  have hread := fromValue_eq_some_iff.mp hs f
  rw [readField_tree, h] at hread
  cases hread

/-! ## The flat map -/

variable (f)

theorem dot_not_mem_name : '.' ∉ f.name.toList := by
  have hall : ∀ sect, ∀ entry ∈ fieldsOf sect, '.' ∉ entry.1.toList := by
    intro sect
    cases sect with
    | none => decide +kernel
    | some sect => cases sect <;> decide +kernel
  exact hall f.sect _ (List.get_mem _ f.pos)

theorem dot_not_mem_part {f : SettingsField} {part : String} (h : part ∈ f.parts) :
    '.' ∉ part.toList := by
  unfold parts at h
  split at h
  · rw [List.mem_singleton.mp h]
    exact dot_not_mem_name f
  · next sect hsect =>
      rcases List.mem_pair.mp h with rfl | rfl
      · cases sect <;> decide
      · exact dot_not_mem_name f

theorem splitPath_path : splitPath f.path = f.parts := by
  have hdots : ∀ cs ∈ f.parts.map String.toList, '.' ∉ cs := by
    intro cs hcs
    obtain ⟨part, hpart, rfl⟩ := List.mem_map.mp hcs
    exact dot_not_mem_part hpart
  have hne : f.parts.map String.toList ≠ [] := by
    unfold parts
    split <;> nofun
  have hdot : ".".toList = ['.'] := rfl
  rw [splitPath, path, String.toList_intercalate, hdot, List.splitOn_intercalate '.' hdots hne,
    List.map_map]
  exact (List.map_congr_left fun part _ => String.ofList_toList).trans (List.map_id _)

theorem collectSettingsJson_of_not_obj {new : JsonValue} (h : ∀ fields, new ≠ .obj fields)
    (path : String) : collectSettingsJson path new = [(path, new)] := by
  cases new with
  | obj fields => exact absurd rfl (h fields)
  | null | bool | int | float | str | arr => rfl

theorem collectFields_cons (path key : String) (new : JsonValue)
    (l : List (String × JsonValue)) : collectFields path ((key, new) :: l)
      = collectSettingsJson (if path.isEmpty then key else path ++ "." ++ key) new
        ++ collectFields path l := rfl

theorem collectFields_append (path : String) (l l' : List (String × JsonValue)) :
    collectFields path (l ++ l') = collectFields path l ++ collectFields path l' := by
  induction l with
  | nil => rfl
  | cons entry l ih =>
    obtain ⟨key, new⟩ := entry
    rw [List.cons_append, collectFields_cons, collectFields_cons, ih, List.append_assoc]

variable (h : ∀ f fields, v f ≠ .obj fields)

include h

theorem collectFields_map {path : String} {l : List SettingsField}
    (hpath : ∀ f ∈ l, (if path.isEmpty then f.name else path ++ "." ++ f.name) = f.path) :
    collectFields path (l.map fun f => (f.name, v f)) = l.map fun f => (f.path, v f) := by
  induction l with
  | nil => rfl
  | cons f l ih =>
    obtain ⟨hf, hl⟩ := List.forall_mem_cons.mp hpath
    rw [List.map_cons, collectFields_cons, hf, collectSettingsJson_of_not_obj (h f), ih hl]
    rfl

theorem collectFields_section (sect : SettingsSection) :
    collectFields sect.name (group v (some sect))
      = (inSection (some sect)).map fun f => (f.path, v f) := by
  refine collectFields_map h fun f hf => ?_
  have hname : sect.name.isEmpty = false := by cases sect <;> decide
  rw [hname, path, parts, mem_inSection.mp hf]
  rfl

theorem collectFields_sections (sects : List SettingsSection) :
    collectFields "" (sects.map fun sect => (sect.name, .obj (group v (some sect))))
      = (sects.flatMap fun sect => inSection (some sect)).map fun f => (f.path, v f) := by
  induction sects with
  | nil => rfl
  | cons sect _ ih =>
    rw [List.map_cons, collectFields_cons, ih, List.flatMap_cons, List.map_append,
      ← collectFields_section h sect]
    rfl

/-- One entry for every field, under its path. -/
theorem collect_tree : collectSettingsJson "" (tree v) = all.map fun f => (f.path, v f) := by
  have htop : collectFields "" (group v none) = (inSection none).map fun f => (f.path, v f) := by
    refine collectFields_map h fun f hf => ?_
    rw [path, parts, mem_inSection.mp hf]
    rfl
  show collectFields "" (group v none ++ sections v) = _
  rw [collectFields_append, htop, sections, collectFields_sections h, ← List.map_append]
  rfl

end TitanClaw.Settings
