import Mathlib.Data.List.Infix

/-! # A file system with symbolic links

Places are named by the path of names from the root; what is at a place is a
directory, a file or a symbolic link. A path is RESOLVED by walking it component
by component, following every link, as far as places exist: it leads to an
object that is there, or to a place where one would be made. A link whose target
is not there is dangling: the path through it leads to the missing target. -/

namespace LinkFs

open List Option Bool

inductive Component where
  | curDir
  | parentDir
  | normal (name : String)
  deriving DecidableEq

/-- A path as the system reads it: a slash at the end, and an empty component,
stand for the directory itself. -/
structure Path where
  absolute : Bool
  parts : List Component
  deriving DecidableEq

/-- The names that lead from the root to a place. -/
abbrev Loc := List String

variable (p : Path)

def Path.isEmpty : Bool := !p.absolute && p.parts.isEmpty

def Path.ofLoc (loc : Loc) : Path := ⟨true, loc.map .normal⟩

/-- Where the walk of a path that stands in `dir` begins. -/
def Path.start (dir : Loc) : Loc := if p.absolute then [] else dir

def Component.ofText (s : List Char) : Component :=
  if s = [] ∨ s = ['.'] then .curDir
  else if s = ['.', '.'] then .parentDir
  else .normal (String.ofList s)

def Path.ofText (s : String) : Path :=
  match s.toList with
  | [] => ⟨false, []⟩
  | '/' :: cs => ⟨true, (cs.splitOn '/').map Component.ofText⟩
  | cs => ⟨false, (cs.splitOn '/').map Component.ofText⟩

def Path.join (base p : Path) : Path :=
  if p.absolute || base.isEmpty then p
  else ⟨base.absolute, base.parts ++ if p.parts.isEmpty then [.curDir] else p.parts⟩

/-- The components of a path, with the root as one of them (`none`). -/
def Path.components : List (Option Component) :=
  (if p.absolute then [none] else []) ++ p.parts.map some

def Path.startsWith (p base : Path) : Bool := base.components.isPrefixOf p.components

inductive Entry where
  | dir
  | file
  | link (target : Path)
  deriving DecidableEq

/-- What is at each place, where the process stands, and how many links a walk
may follow. Only directories hold anything. -/
structure FileSystem where
  entry : Loc → Option Entry
  cwd : Loc
  maxLinks : Nat
  root_dir : entry [] = some .dir
  parent_dir : ∀ loc name, entry (loc ++ [name]) ≠ none → entry loc = some .dir
  cwd_dir : entry cwd = some .dir

def FileSystem.ofPlaces (places : List (Loc × Entry)) (cwd : Loc) (maxLinks : Nat)
    (hroot : places.lookup [] = some .dir)
    (hparents : ∀ e ∈ places, places.lookup e.1.dropLast = some .dir)
    (hcwd : places.lookup cwd = some .dir) : FileSystem where
  entry loc := places.lookup loc
  cwd := cwd
  maxLinks := maxLinks
  root_dir := hroot
  parent_dir := by
    intro loc name h
    obtain ⟨e, he⟩ := ne_none_iff_exists'.mp h
    obtain ⟨before, after, hplaces, -⟩ := lookup_eq_some_iff.mp he
    have hmem : (loc ++ [name], e) ∈ places := by simp [hplaces]
    simpa using hparents _ hmem
  cwd_dir := hcwd

/-- Where a path leads: to an object, or to where one would be made. -/
inductive Place where
  | found (loc : Loc)
  | missing (loc : Loc)
  deriving DecidableEq

def Place.loc : Place → Loc
  | .found loc => loc
  | .missing loc => loc

def names? : List Component → Option (List String)
  | [] => some []
  | .normal name :: rest => (names? rest).map (name :: ·)
  | _ :: _ => none

namespace FileSystem

/-- Walk from a place; `follow` goes on behind a link. -/
def walkWith (fs : FileSystem) (follow : Loc → List Component → Option Place) :
    Loc → List Component → Option Place
  | loc, [] => some (.found loc)
  | loc, c :: rest =>
      if fs.entry loc = some .dir then
        match c with
        | .curDir => fs.walkWith follow loc rest
        | .parentDir => fs.walkWith follow loc.dropLast rest
        | .normal name =>
            match fs.entry (loc ++ [name]) with
            | none => (names? rest).map fun names => .missing (loc ++ name :: names)
            | some (.link target) =>
                if target.isEmpty then none
                else follow (target.start loc) (target.parts ++ rest)
            | some _ => fs.walkWith follow (loc ++ [name]) rest
      else none

def walk (fs : FileSystem) : Nat → Loc → List Component → Option Place
  | 0 => fs.walkWith fun _ _ => none
  | links + 1 => fs.walkWith (fs.walk links)

variable (fs : FileSystem) (p : Path)

/-- Where a path leads, if anywhere. -/
def resolve : Option Place :=
  if p.isEmpty then none else fs.walk fs.maxLinks (p.start fs.cwd) p.parts

/-- The place of the object a path leads to; every component must be there. -/
def canonicalize : Option Loc :=
  match fs.resolve p with
  | some (.found loc) => some loc
  | _ => none

def pathExists : Bool := (fs.canonicalize p).isSome

def IsLink (loc : Loc) : Prop := ∃ target, fs.entry loc = some (.link target)

/-- An object that is no link is at the place. -/
def Real (loc : Loc) : Prop := fs.entry loc = some .dir ∨ fs.entry loc = some .file

variable {fs : FileSystem}

/-- What leads to something is a directory. -/
theorem dir_of_entry {pre : Loc} (post : Loc) (h : fs.entry (pre ++ post) ≠ none)
    (hpost : post ≠ []) : fs.entry pre = some .dir := by
  induction post using reverseRecOn with
  | nil => exact absurd rfl hpost
  | append_singleton post name ih =>
    have hparent : fs.entry (pre ++ post) = some .dir :=
      fs.parent_dir (pre ++ post) name (by simpa using h)
    by_cases hnil : post = []
    · simpa [hnil] using hparent
    · exact ih (by simp [hparent]) hnil

variable {loc : Loc}

theorem Real.entry_ne_none (h : fs.Real loc) : fs.entry loc ≠ none := by
  rcases h with h | h
  · simp [h]
  · simp [h]

theorem entry_ne_none_above {pre loc : Loc} (h : fs.Real loc) (hpre : pre <+: loc) :
    fs.entry pre ≠ none := by
  obtain ⟨post, rfl⟩ := hpre
  by_cases hpost : post = []
  · simpa [hpost] using h.entry_ne_none
  · simp [dir_of_entry post h.entry_ne_none hpost]

theorem dir_dropLast (h : fs.entry loc = some .dir) : fs.entry loc.dropLast = some .dir := by
  rcases eq_nil_or_concat loc with rfl | ⟨pre, name, rfl⟩
  · exact h
  rw [concat_eq_append] at h ⊢
  rw [dropLast_concat]
  exact fs.parent_dir pre name (by simp [h])

/-! ## Walks -/

theorem names?_append (cs : List Component) (names : List String) :
    names? (cs ++ names.map .normal) = (names? cs).map (· ++ names) := by
  induction cs with
  | nil =>
    induction names with
    | nil => rfl
    | cons _ names ih =>
      have hnames : names? (names.map .normal) = some names := by simpa [names?] using ih
      simp [names?, hnames]
  | cons c _ ih =>
    cases c with
    | curDir | parentDir => rfl
    | normal =>
      simp only [cons_append, names?, ih, Option.map_map]
      rfl

/-- The walks, a rule for each thing that can be met on the way. -/
inductive Walks (fs : FileSystem) : Nat → Loc → List Component → Option Place → Prop
  | done (links : Nat) (loc : Loc) : Walks fs links loc [] (some (.found loc))
  | notDir {links : Nat} {loc : Loc} {c : Component} {rest : List Component}
      (hdir : fs.entry loc ≠ some .dir) : Walks fs links loc (c :: rest) none
  | cur {links : Nat} {loc : Loc} {rest : List Component} {o : Option Place}
      (hdir : fs.entry loc = some .dir) (hrest : Walks fs links loc rest o) :
      Walks fs links loc (.curDir :: rest) o
  | parent {links : Nat} {loc : Loc} {rest : List Component} {o : Option Place}
      (hdir : fs.entry loc = some .dir) (hrest : Walks fs links loc.dropLast rest o) :
      Walks fs links loc (.parentDir :: rest) o
  | enter {links : Nat} {loc : Loc} {name : String} {rest : List Component} {o : Option Place}
      (hdir : fs.entry loc = some .dir) (hreal : fs.Real (loc ++ [name]))
      (hrest : Walks fs links (loc ++ [name]) rest o) :
      Walks fs links loc (.normal name :: rest) o
  | miss {links : Nat} {loc : Loc} {name : String} {rest : List Component}
      (hdir : fs.entry loc = some .dir) (hnone : fs.entry (loc ++ [name]) = none) :
      Walks fs links loc (.normal name :: rest)
        ((names? rest).map fun names => .missing (loc ++ name :: names))
  | blank {links : Nat} {loc : Loc} {name : String} {rest : List Component} {target : Path}
      (hdir : fs.entry loc = some .dir) (hlink : fs.entry (loc ++ [name]) = some (.link target))
      (hempty : target.isEmpty = true) : Walks fs links loc (.normal name :: rest) none
  | tooMany {loc : Loc} {name : String} {rest : List Component} {target : Path}
      (hdir : fs.entry loc = some .dir)
      (hlink : fs.entry (loc ++ [name]) = some (.link target)) :
      Walks fs 0 loc (.normal name :: rest) none
  | link {links : Nat} {loc : Loc} {name : String} {rest : List Component} {target : Path}
      {o : Option Place} (hdir : fs.entry loc = some .dir)
      (hlink : fs.entry (loc ++ [name]) = some (.link target))
      (hempty : target.isEmpty = false)
      (hrest : Walks fs links (target.start loc) (target.parts ++ rest) o) :
      Walks fs (links + 1) loc (.normal name :: rest) o

variable {links : Nat}

/-- One level of links: the walks of `walkWith`, if `follow` takes walks with fewer. -/
theorem walkWith_walks {follow : Loc → List Component → Option Place}
    (hlink : ∀ loc name rest target, fs.entry loc = some .dir →
      fs.entry (loc ++ [name]) = some (.link target) → target.isEmpty = false →
      Walks fs links loc (.normal name :: rest) (follow (target.start loc) (target.parts ++ rest)))
    (loc : Loc) (parts : List Component) :
    Walks fs links loc parts (fs.walkWith follow loc parts) := by
  induction parts generalizing loc with
  | nil => exact .done links loc
  | cons c rest ih =>
    unfold walkWith
    by_cases hdir : fs.entry loc = some .dir
    · rw [if_pos hdir]
      cases c with
      | curDir => exact .cur hdir (ih loc)
      | parentDir => exact .parent hdir (ih loc.dropLast)
      | normal name =>
        cases hentry : fs.entry (loc ++ [name]) with
        | none =>
          simp only [hentry]
          exact .miss hdir hentry
        | some e =>
          cases e with
          | dir =>
            simp only [hentry]
            exact .enter hdir (.inl hentry) (ih (loc ++ [name]))
          | file =>
            simp only [hentry]
            exact .enter hdir (.inr hentry) (ih (loc ++ [name]))
          | link target =>
            cases hempty : target.isEmpty with
            | true =>
              simp only [hentry, hempty, if_true]
              exact .blank hdir hentry hempty
            | false =>
              simp only [hentry, hempty, false_eq_true, if_false]
              exact hlink loc name rest target hdir hentry hempty
    · rw [if_neg hdir]
      exact .notDir hdir

theorem walk_walks (fs : FileSystem) (links : Nat) (loc : Loc) (parts : List Component) :
    Walks fs links loc parts (fs.walk links loc parts) := by
  induction links generalizing loc parts with
  | zero =>
    refine walkWith_walks ?_ loc parts
    intro loc name rest target hdir hlink _
    exact .tooMany hdir hlink
  | succ _ ih =>
    refine walkWith_walks ?_ loc parts
    intro loc name rest target hdir hlink hempty
    exact .link hdir hlink hempty (ih _ _)

theorem walk_cons (links : Nat) (loc : Loc) (c : Component) (rest : List Component) :
    fs.walk links loc (c :: rest)
      = if fs.entry loc = some .dir then
          match c with
          | .curDir => fs.walk links loc rest
          | .parentDir => fs.walk links loc.dropLast rest
          | .normal name =>
            match fs.entry (loc ++ [name]) with
            | none => (names? rest).map fun names => .missing (loc ++ name :: names)
            | some (.link target) =>
              if target.isEmpty then none
              else match links with
                | 0 => none
                | links + 1 => fs.walk links (target.start loc) (target.parts ++ rest)
            | some _ => fs.walk links (loc ++ [name]) rest
        else none := by
  cases links with
  | zero | succ => rfl

theorem walk_nil (links : Nat) (loc : Loc) : fs.walk links loc [] = some (.found loc) := by
  cases links with
  | zero | succ => rfl

variable {rest : List Component}

theorem walk_notDir {c : Component}
    (hdir : fs.entry loc ≠ some .dir) : fs.walk links loc (c :: rest) = none := by
  rw [walk_cons, if_neg hdir]

theorem walk_enter {name : String}
    (hdir : fs.entry loc = some .dir) (hreal : fs.Real (loc ++ [name])) :
    fs.walk links loc (.normal name :: rest) = fs.walk links (loc ++ [name]) rest := by
  rw [walk_cons, if_pos hdir]
  rcases hreal with h | h
  · simp only [h]
  · simp only [h]

theorem walk_miss {name : String}
    (hdir : fs.entry loc = some .dir) (hnone : fs.entry (loc ++ [name]) = none) :
    fs.walk links loc (.normal name :: rest)
      = (names? rest).map fun names => .missing (loc ++ name :: names) := by
  rw [walk_cons, if_pos hdir]
  simp only [hnone]

variable {pre : List Component}

/-- Behind a path that leads to an object the walk goes on from there. -/
theorem walk_append_found {loc d : Loc} (h : fs.walk links loc pre = some (.found d)) :
    ∃ left, ∀ rest, fs.walk links loc (pre ++ rest) = fs.walk left d rest := by
  have hwalks := fs.walk_walks links loc pre
  rw [h] at hwalks
  generalize ho : some (Place.found d) = o at hwalks
  clear h
  induction hwalks with
  | done links =>
    cases ho
    exact ⟨links, fun _ => rfl⟩
  | notDir | blank | tooMany => cases ho
  | cur hdir _ ih | parent hdir _ ih =>
    obtain ⟨left, hleft⟩ := ih ho
    exact ⟨left, fun rest => by rw [cons_append, walk_cons, if_pos hdir, hleft]⟩
  | enter hdir hreal _ ih =>
    obtain ⟨left, hleft⟩ := ih ho
    exact ⟨left, fun rest => by rw [cons_append, walk_enter hdir hreal, hleft]⟩
  | @miss _ _ _ rest =>
    cases hnames : names? rest with
    | none | some => simp [hnames] at ho
  | link hdir hlink hempty _ ih =>
    obtain ⟨left, hleft⟩ := ih ho
    refine ⟨left, fun rest => ?_⟩
    rw [cons_append, walk_cons, if_pos hdir]
    simp only [hlink, hempty, false_eq_true, if_false]
    rw [← append_assoc, hleft]

variable (names : List String)

/-- Names behind a path that leads to no object stay behind the place it leads to. -/
theorem walk_append_names (h : ∀ d, fs.walk links loc pre ≠ some (.found d)) :
    fs.walk links loc (pre ++ names.map .normal)
      = (fs.walk links loc pre).map fun place => .missing (place.loc ++ names) := by
  have hwalks := fs.walk_walks links loc pre
  generalize fs.walk links loc pre = o at hwalks h
  induction hwalks with
  | done _ loc => exact absurd rfl (h loc)
  | notDir hdir => exact walk_notDir hdir
  | cur hdir _ ih | parent hdir _ ih => rw [cons_append, walk_cons, if_pos hdir, ih h]
  | enter hdir hreal _ ih => rw [cons_append, walk_enter hdir hreal, ih h]
  | @miss _ _ _ rest hdir hnone =>
    rw [cons_append, walk_miss hdir hnone, names?_append, Option.map_map, Option.map_map]
    congr 1
    funext rest
    simp [Place.loc]
  | blank hdir hlink hempty =>
    rw [cons_append, walk_cons, if_pos hdir]
    simp [hlink, hempty]
  | tooMany hdir hlink =>
    rw [cons_append, walk_cons, if_pos hdir]
    simp [hlink]
  | link hdir hlink hempty _ ih =>
    rw [cons_append, walk_cons, if_pos hdir]
    simp only [hlink, hempty, false_eq_true, if_false]
    rw [← append_assoc, ih h]

/-! ## Where walks lead -/

theorem walk_real {loc d : Loc} {parts : List Component} (hloc : fs.Real loc)
    (h : fs.walk links loc parts = some (.found d)) : fs.Real d := by
  have hwalks := fs.walk_walks links loc parts
  rw [h] at hwalks
  generalize ho : some (Place.found d) = o at hwalks
  clear h
  induction hwalks with
  | done =>
    cases ho
    exact hloc
  | notDir | blank | tooMany => cases ho
  | cur hdir _ ih => exact ih (.inl hdir) ho
  | parent hdir _ ih => exact ih (.inl (dir_dropLast hdir)) ho
  | enter _ hreal _ ih => exact ih hreal ho
  | @miss _ _ _ rest =>
    cases hnames : names? rest with
    | none | some => simp [hnames] at ho
  | @link _ _ _ _ _ _ hdir _ _ _ ih =>
    refine ih ?_ ho
    unfold Path.start
    split
    · exact .inl fs.root_dir
    · exact .inl hdir

theorem entry_of_walk_missing {loc place : Loc} {parts : List Component}
    (h : fs.walk links loc parts = some (.missing place)) : fs.entry place = none := by
  have hwalks := fs.walk_walks links loc parts
  rw [h] at hwalks
  generalize ho : some (Place.missing place) = o at hwalks
  clear h
  induction hwalks with
  | done | notDir | blank | tooMany => cases ho
  | cur _ _ ih | parent _ _ ih | enter _ _ _ ih | link _ _ _ _ ih => exact ih ho
  | @miss _ loc name rest _ hnone =>
    cases hnames : names? rest with
    | none => simp [hnames] at ho
    | some names =>
      simp only [hnames, map_some, Option.some.injEq, Place.missing.injEq] at ho
      subst ho
      by_contra hsome
      by_cases hnil : names = []
      · rw [hnil] at hsome
        exact hsome hnone
      · have hdir' : fs.entry (loc ++ [name]) = some .dir :=
          dir_of_entry names (by simpa using hsome) hnil
        rw [hnone] at hdir'
        cases hdir'

theorem walk_names {pre post : Loc} (h : fs.Real (pre ++ post)) :
    fs.walk links pre (post.map .normal) = some (.found (pre ++ post)) := by
  induction post generalizing pre with
  | nil => rw [append_nil, map_nil, walk_nil]
  | cons name post ih =>
    have hnext : fs.Real ((pre ++ [name]) ++ post) := by simpa using h
    have hdir : fs.entry pre = some .dir := dir_of_entry (name :: post) h.entry_ne_none (by simp)
    have hreal : fs.Real (pre ++ [name]) := by
      by_cases hnil : post = []
      · simpa [hnil] using hnext
      · exact .inl (dir_of_entry post hnext.entry_ne_none hnil)
    rw [map_cons, walk_enter hdir hreal, ih hnext]
    simp

theorem start_real (p : Path) : fs.Real (p.start fs.cwd) := by
  unfold Path.start
  split
  · exact .inl fs.root_dir
  · exact .inl fs.cwd_dir

theorem resolve_eq_found {p : Path} :
    fs.canonicalize p = some loc ↔ fs.resolve p = some (.found loc) := by
  unfold canonicalize
  cases fs.resolve p with
  | none => simp
  | some place =>
    cases place with
    | found | missing => simp

theorem canonicalize_real {p : Path} (h : fs.canonicalize p = some loc) : fs.Real loc := by
  have hfound := resolve_eq_found.mp h
  unfold resolve at hfound
  split at hfound
  · cases hfound
  · exact walk_real (start_real p) hfound

theorem resolve_ofLoc (h : fs.Real loc) : fs.resolve (.ofLoc loc) = some (.found loc) := by
  have hwalk : fs.walk fs.maxLinks [] (loc.map .normal) = some (.found ([] ++ loc)) := walk_names h
  exact hwalk

theorem resolve_eq_walk {p : Path} (h : p.isEmpty = false) :
    fs.resolve p = fs.walk fs.maxLinks (p.start fs.cwd) p.parts := by
  simp [resolve, h]

theorem resolve_append_found {absolute : Bool} {d : Loc}
    (h : fs.canonicalize ⟨absolute, pre⟩ = some d) :
    ∃ left, ∀ rest, fs.resolve ⟨absolute, pre ++ rest⟩ = fs.walk left d rest := by
  have hfound := resolve_eq_found.mp h
  cases hempty : Path.isEmpty ⟨absolute, pre⟩ with
  | true => simp [resolve, hempty] at hfound
  | false =>
    rw [resolve_eq_walk hempty] at hfound
    obtain ⟨left, hleft⟩ := walk_append_found hfound
    refine ⟨left, fun rest => ?_⟩
    have hlonger : Path.isEmpty ⟨absolute, pre ++ rest⟩ = false := by
      cases absolute with
      | true => rfl
      | false =>
        cases pre with
        | nil => cases hempty
        | cons => rfl
    rw [resolve_eq_walk hlonger]
    exact hleft rest

theorem resolve_append_names {absolute : Bool} {c : Component}
    (h : fs.canonicalize ⟨absolute, pre ++ [c]⟩ = none) :
    fs.resolve ⟨absolute, pre ++ [c] ++ names.map .normal⟩
      = (fs.resolve ⟨absolute, pre ++ [c]⟩).map fun place => .missing (place.loc ++ names) := by
  have hshort : Path.isEmpty ⟨absolute, pre ++ [c]⟩ = false := by simp [Path.isEmpty]
  have hlong : Path.isEmpty ⟨absolute, pre ++ [c] ++ names.map .normal⟩ = false := by
    simp [Path.isEmpty]
  rw [resolve_eq_walk hlong, resolve_eq_walk hshort]
  refine walk_append_names names ?_
  intro d hfound
  have hsome : fs.canonicalize ⟨absolute, pre ++ [c]⟩ = some d :=
    resolve_eq_found.mpr (by rw [resolve_eq_walk hshort]; exact hfound)
  rw [h] at hsome
  cases hsome

variable {names}

/-- An object that a path through a missing place leads on from begins that place. -/
theorem prefix_of_missing {base place : Loc} (hbase : fs.Real base)
    (hplace : fs.entry place = none) (h : base <+: place ++ names) : base <+: place := by
  rcases prefix_or_prefix_of_prefix h (prefix_append place names) with h | h
  · exact h
  · exact absurd hplace (entry_ne_none_above hbase h)

theorem prefix_of_link {base d : Loc} {name : String}
    (hbase : fs.Real base) (hlink : fs.IsLink (d ++ [name]))
    (h : base <+: d ++ name :: names) : base <+: d := by
  obtain ⟨target, htarget⟩ := hlink
  have hwhole : d ++ [name] <+: d ++ name :: names := ⟨names, by simp⟩
  -- a link is not on the way to an object that is no link, nor is it one
  have hnot : ¬ (d ++ [name] <+: base) := by
    intro hpre
    obtain ⟨post, rfl⟩ := hpre
    by_cases hnil : post = []
    · rw [hnil, append_nil] at hbase
      rcases hbase with hdir | hfile
      · rw [htarget] at hdir
        cases hdir
      · rw [htarget] at hfile
        cases hfile
    · have hdir := dir_of_entry post hbase.entry_ne_none hnil
      rw [htarget] at hdir
      cases hdir
  rcases prefix_or_prefix_of_prefix h hwhole with hpre | hpre
  · rcases prefix_concat_iff.mp hpre with heq | hshort
    · exact absurd (heq ▸ prefix_refl _) hnot
    · exact hshort
  · exact absurd hpre hnot

end FileSystem

end LinkFs
