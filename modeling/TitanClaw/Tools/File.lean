import TitanClaw.Lib.LinkFs
import TitanClaw.Tools.Tool

/-! # Paths of the file tools

The file tools take a path from the model and keep it inside a base directory.
What exists is canonicalised; what does not exist yet is normalised lexically,
and the check is made on its nearest existing ancestor. The path that is checked
is not the path that is returned. -/

namespace TitanClaw.Tools

open LinkFs List FileSystem Component Path

/-- The names that are left when `.` and `..` are resolved lexically, from `names` on. -/
def lexicalNames (names : List String) : List Component → List String
  | [] => names
  | .parentDir :: rest => lexicalNames names.dropLast rest
  | .curDir :: rest => lexicalNames names rest
  | .normal name :: rest => lexicalNames (names ++ [name]) rest

/-- A path without `.` and `..`; the file system is not looked at. -/
def normalizeLexical (p : Path) : Path := ⟨p.absolute, (lexicalNames [] p.parts).map .normal⟩

variable (fs : FileSystem)

def canonicalOr (p fallback : Path) : Path :=
  match fs.canonicalize p with
  | some loc => .ofLoc loc
  | none => fallback

def pushNames (p : Path) (names : List String) : Path := ⟨p.absolute, p.parts ++ names.map .normal⟩

/-- Walk up from a path that does not exist: the nearest ancestor that does,
canonical, with the rest of the path behind it. The ancestor's components are given
last first. -/
def nearestAncestor (fs : FileSystem) (resolved : Path) : List Component → List String → Path
  | [], tail =>
      let ancestor : Path := ⟨resolved.absolute, []⟩
      if fs.pathExists ancestor then pushNames (canonicalOr fs ancestor ancestor) tail
      else resolved
  | c :: up, tail =>
      let ancestor : Path := ⟨resolved.absolute, (c :: up).reverse⟩
      if fs.pathExists ancestor then pushNames (canonicalOr fs ancestor ancestor) tail
      else
        nearestAncestor fs resolved up
          (match c with
            | .normal name => name :: tail
            | _ => tail)

def checkedPath (resolved : Path) : Path :=
  if fs.pathExists resolved then canonicalOr fs resolved resolved
  else nearestAncestor fs resolved resolved.parts.reverse []

def validatePath (pathStr : String) (baseDir : Option Path) : Except ToolError Path :=
  let path := ofText pathStr
  let resolved :=
    if path.absolute then canonicalOr fs path (normalizeLexical path)
    else
      match baseDir with
      | some base => canonicalOr fs (base.join path) (normalizeLexical (base.join path))
      | none => normalizeLexical ((ofLoc fs.cwd).join path)
  match baseDir with
  | some base =>
      let baseCanonical := canonicalOr fs base (normalizeLexical base)
      if (checkedPath fs resolved).startsWith baseCanonical then .ok resolved
      else .error (.notAuthorized ("Path escapes sandbox: " ++ pathStr))
  | none => .ok resolved

/-- Where an accepted path leads, once every link in it is followed, is under the
canonical base directory. -/
def Confined (base : Path) (pathStr : String) : Prop :=
  ∀ canonicalBase, fs.canonicalize base = some canonicalBase →
    ∀ r, validatePath fs pathStr (some base) = .ok r →
      ∀ place, fs.resolve r = some place → canonicalBase <+: place.loc

/-- No component of the path is a dangling link, in a directory under the base, that
leads out of the base. -/
def LinksStayInside (canonicalBase : Loc) (p : Path) : Prop :=
  ∀ pre name dir place, pre ++ [.normal name] <+: p.parts →
    fs.canonicalize ⟨p.absolute, pre⟩ = some dir → canonicalBase <+: dir →
    fs.IsLink (dir ++ [name]) →
    fs.resolve ⟨p.absolute, pre ++ [.normal name]⟩ = some (.missing place) →
    canonicalBase <+: place

variable {fs : FileSystem} {r : Path} {p fallback : Path}

theorem canonicalOr_some {loc : Loc} (h : fs.canonicalize p = some loc) :
    canonicalOr fs p fallback = .ofLoc loc := by
  simp [canonicalOr, h]

theorem canonicalOr_none (h : fs.canonicalize p = none) : canonicalOr fs p fallback = fallback := by
  simp [canonicalOr, h]

variable {pre : List Component}

/-- The walk stops at the ancestor `pre` if nothing longer exists. -/
theorem nearestAncestor_stops {post : List String} {dir : Loc}
    (hdir : fs.canonicalize ⟨r.absolute, pre⟩ = some dir) (hpost : ∀ q, q ≠ [] → q <+: post →
      fs.canonicalize ⟨r.absolute, pre ++ q.map normal⟩ = none) (tail : List String) :
    nearestAncestor fs r (pre ++ post.map normal).reverse tail
      = .ofLoc (dir ++ (post ++ tail)) := by
  induction post using reverseRecOn generalizing tail with
  | nil =>
    have hexists : fs.pathExists ⟨r.absolute, pre⟩ = true := by simp [pathExists, hdir]
    have hpush : pushNames (canonicalOr fs ⟨r.absolute, pre⟩ ⟨r.absolute, pre⟩) tail
        = .ofLoc (dir ++ tail) := by
      rw [canonicalOr_some hdir]
      simp [pushNames, ofLoc]
    cases hrev : pre.reverse with
    | nil =>
      have hnil : pre = [] := by simpa using hrev
      subst hnil
      simp [nearestAncestor, hexists, hpush]
    | cons c up =>
      have hback : (c :: up).reverse = pre := by rw [← hrev, reverse_reverse]
      simp [map_nil, append_nil, hrev, nearestAncestor, hback, hexists, hpush, nil_append]
  | append_singleton post name ih =>
    have hmissing : fs.canonicalize ⟨r.absolute, pre ++ (post ++ [name]).map normal⟩
        = none := hpost _ (by simp) (prefix_refl _)
    have hup : (pre ++ (post ++ [name]).map normal).reverse
        = normal name :: (pre ++ post.map normal).reverse := by simp
    have hback : (normal name :: (pre ++ post.map normal).reverse).reverse
        = pre ++ (post ++ [name]).map normal := by simp
    rw [hup, nearestAncestor]
    simp only [hback, pathExists, hmissing, Option.isSome_none, Bool.false_eq_true, if_false]
    rw [ih (fun q hq hpre => hpost q hq (hpre.trans (prefix_append _ _)))]
    simp

/-- The prefix of the names at which the walk up stops, if there is one. -/
theorem exists_nearest (fs : FileSystem) (absolute : Bool) (names : List String) :
    (∃ pre post dir, names = pre ++ post
        ∧ fs.canonicalize ⟨absolute, pre.map normal⟩ = some dir
        ∧ ∀ q, q ≠ [] → q <+: post →
          fs.canonicalize ⟨absolute, pre.map normal ++ q.map normal⟩ = none)
      ∨ ∀ q, q <+: names → fs.canonicalize ⟨absolute, q.map normal⟩ = none := by
  induction names using reverseRecOn with
  | nil =>
    cases hroot : fs.canonicalize ⟨absolute, []⟩ with
    | none =>
      right
      intro q hq
      rw [prefix_nil.mp hq]
      exact hroot
    | some dir =>
      left
      exact ⟨[], [], dir, rfl, hroot, fun q hq hpre => absurd (prefix_nil.mp hpre) hq⟩
  | append_singleton names name ih =>
    cases hwhole : fs.canonicalize ⟨absolute, (names ++ [name]).map normal⟩ with
    | some dir =>
      left
      exact ⟨names ++ [name], [], dir, by simp, hwhole,
        fun q hq hpre => absurd (prefix_nil.mp hpre) hq⟩
    | none =>
      rcases ih with ⟨pre, post, dir, rfl, hdir, hpost⟩ | hnone
      · left
        refine ⟨pre, post ++ [name], dir, by simp, hdir, ?_⟩
        intro q hq hpre
        rcases prefix_concat_iff.mp hpre with heq | hshort
        · rw [heq, ← map_append, ← append_assoc]
          exact hwhole
        · exact hpost q hq hshort
      · right
        intro q hpre
        rcases prefix_concat_iff.mp hpre with heq | hshort
        · rw [heq]
          exact hwhole
        · exact hnone q hshort

theorem nearestAncestor_none {names : List String}
    (h : ∀ q, q <+: names → fs.canonicalize ⟨r.absolute, q.map normal⟩ = none)
    (tail : List String) : nearestAncestor fs r (names.map normal).reverse tail = r := by
  induction names using reverseRecOn generalizing tail with
  | nil =>
    have hroot : fs.canonicalize ⟨r.absolute, []⟩ = none := h [] (prefix_refl _)
    simp [nearestAncestor, pathExists, hroot]
  | append_singleton names name ih =>
    have hwhole := h (names ++ [name]) (prefix_refl _)
    have hup : ((names ++ [name]).map normal).reverse
        = normal name :: (names.map normal).reverse := by simp
    have hback : (normal name :: (names.map normal).reverse).reverse
        = (names ++ [name]).map normal := by simp
    rw [hup, nearestAncestor]
    simp only [hback, pathExists, hwhole, Option.isSome_none, Bool.false_eq_true, if_false]
    exact ih (fun q hq => h q (hq.trans (prefix_append _ _))) _

theorem startsWith_ofLoc (p : Path) (base : Loc) :
    p.startsWith (.ofLoc base) = true ↔ p.absolute = true ∧ base.map normal <+: p.parts := by
  unfold startsWith components
  rw [ isPrefixOf_iff_prefix]
  cases hp : p.absolute with
  | true =>
    simp only [ofLoc, if_true, singleton_append, cons_prefix_cons, true_and]
    exact prefix_map_iff_of_injective fun _ _ h => Option.some.inj h
  | false =>
    simp only [ofLoc, if_true, Bool.false_eq_true, if_false, nil_append, false_and,
      iff_false, singleton_append]
    intro hpre
    have hmem : none ∈ p.parts.map some := hpre.subset mem_cons_self
    simp at hmem

theorem ofLoc_startsWith (loc base : Loc) :
    (ofLoc loc).startsWith (.ofLoc base) = true ↔ base <+: loc := by
  rw [startsWith_ofLoc]
  have hmap : base.map normal <+: loc.map normal ↔ base <+: loc :=
    prefix_map_iff_of_injective fun _ _ => normal.inj
  simpa [ofLoc] using hmap

theorem validatePath_some (fs : FileSystem) (pathStr : String) (base r : Path) :
    validatePath fs pathStr (some base) = .ok r
      ↔ r = canonicalOr fs (base.join (.ofText pathStr))
          (normalizeLexical (base.join (.ofText pathStr)))
        ∧ (checkedPath fs r).startsWith (canonicalOr fs base (normalizeLexical base)) = true := by
  have hjoin : (if (ofText pathStr).absolute then
        canonicalOr fs (.ofText pathStr) (normalizeLexical (.ofText pathStr))
      else canonicalOr fs (base.join (.ofText pathStr))
        (normalizeLexical (base.join (.ofText pathStr))))
      = canonicalOr fs (base.join (.ofText pathStr))
        (normalizeLexical (base.join (.ofText pathStr))) := by
    cases habs : (ofText pathStr).absolute with
    | true => simp [join, habs]
    | false => simp
  simp only [validatePath, hjoin]
  split
  next hstarts =>
    constructor
    · intro h
      cases h
      exact ⟨rfl, hstarts⟩
    · intro h
      rw [h.1]
  next hstarts =>
    constructor
    · intro h
      cases h
    · intro h
      rw [← h.1] at hstarts
      exact absurd h.2 hstarts

/-! ## Containment -/

theorem checkedPath_exists {loc : Loc} (h : fs.canonicalize r = some loc) :
    checkedPath fs r = .ofLoc loc := by
  simp [checkedPath, pathExists, h, canonicalOr_some h]

theorem checkedPath_missing (h : fs.canonicalize r = none) :
    checkedPath fs r = nearestAncestor fs r r.parts.reverse [] := by
  simp [checkedPath, pathExists, h]

theorem place_of_exists {base loc : Loc} {place : Place} (hloc : fs.canonicalize r = some loc)
    (hstarts : (checkedPath fs r).startsWith (.ofLoc base) = true)
    (hplace : fs.resolve r = some place) : base <+: place.loc := by
  rw [checkedPath_exists hloc, ofLoc_startsWith] at hstarts
  rw [resolve_eq_found.mp hloc] at hplace
  cases hplace
  exact hstarts

/-- What stands behind the nearest existing ancestor is a link: any other object would
be a nearer one. -/
theorem isLink_of_next_missing {absolute : Bool} {dir : Loc}
    {name : String} {left : Nat} {e : Entry}
    (hleft : ∀ rest, fs.resolve ⟨absolute, pre ++ rest⟩ = fs.walk left dir rest)
    (hisDir : fs.entry dir = some .dir)
    (hnext : fs.canonicalize ⟨absolute, pre ++ [.normal name]⟩ = none)
    (hentry : fs.entry (dir ++ [name]) = some e) : fs.IsLink (dir ++ [name]) := by
  by_contra hlink
  have hreal : fs.Real (dir ++ [name]) := by
    cases e with
    | dir => exact .inl hentry
    | file => exact .inr hentry
    | link target => exact absurd ⟨target, hentry⟩ hlink
  have hfound : fs.resolve ⟨absolute, pre ++ [.normal name]⟩ = some (.found (dir ++ [name])) := by
    rw [hleft, walk_enter hisDir hreal, walk_nil]
  rw [resolve_eq_found.mpr hfound] at hnext
  cases hnext

theorem place_behind_link {base dir : Loc} {name : String} {post : List String} {place : Place}
    (hparts : r.parts = pre ++ .normal name :: post.map normal)
    (hlinks : LinksStayInside fs base r)
    (hdir : fs.canonicalize ⟨r.absolute, pre⟩ = some dir) (hinside : base <+: dir)
    (hlink : fs.IsLink (dir ++ [name]))
    (hnext : fs.canonicalize ⟨r.absolute, pre ++ [.normal name]⟩ = none)
    (hplace : fs.resolve r = some place) : base <+: place.loc := by
  obtain ⟨absolute, parts⟩ := r
  subst hparts
  have hsplit := resolve_append_names post hnext
  rw [append_assoc, singleton_append] at hsplit
  rw [hsplit] at hplace
  obtain ⟨target, htarget, rfl⟩ := Option.map_eq_some_iff.mp hplace
  cases target with
  | found =>
    rw [resolve_eq_found.mpr htarget] at hnext
    cases hnext
  | missing loc =>
    have hpre : pre ++ [.normal name] <+: pre ++ .normal name :: post.map normal :=
      ⟨post.map normal, by simp⟩
    exact (hlinks _ name dir loc hpre hdir hinside hlink htarget).trans (prefix_append _ _)

/-- Where a path leads that does not exist: behind its nearest existing ancestor, unless
a link hangs there. -/
theorem place_of_missing {base : Loc} {names : List String} {place : Place}
    (hbase : fs.Real base) (hnames : r.parts = names.map normal)
    (hmissing : fs.canonicalize r = none) (hlinks : LinksStayInside fs base r)
    (hstarts : (checkedPath fs r).startsWith (.ofLoc base) = true)
    (hplace : fs.resolve r = some place) : base <+: place.loc := by
  obtain ⟨absolute, parts⟩ := r
  subst hnames
  rw [checkedPath_missing hmissing] at hstarts
  rcases exists_nearest fs absolute names with ⟨pre, post, dir, rfl, hdir, hpost⟩ | hnone
  · rw [map_append, nearestAncestor_stops hdir hpost, append_nil, ofLoc_startsWith] at hstarts
    cases post with
    | nil =>
      rw [append_nil] at hmissing
      rw [hmissing] at hdir
      cases hdir
    | cons name post =>
      obtain ⟨left, hleft⟩ := resolve_append_found hdir
      have hnext : fs.canonicalize ⟨absolute, pre.map normal ++ [normal name]⟩ = none :=
        hpost [name] (by simp) ⟨post, rfl⟩
      have hwalk : fs.walk left dir (.normal name :: post.map normal) = some place := by
        rw [← hleft, ← hplace]
        simp
      by_cases hisDir : fs.entry dir = some .dir
      · cases hentry : fs.entry (dir ++ [name]) with
        | none =>
          -- nothing is there: the path leads where it was checked
          rw [walk_miss hisDir hentry] at hwalk
          have hnamed : names? (post.map normal) = some post := by
            simpa [names?] using names?_append [] post
          rw [hnamed] at hwalk
          cases hwalk
          exact hstarts
        | some =>
          have hlink := isLink_of_next_missing hleft hisDir hnext hentry
          have hinside := prefix_of_link hbase hlink hstarts
          have hparts : (pre ++ name :: post).map normal
              = pre.map normal ++ .normal name :: post.map normal := by
            simp
          exact place_behind_link hparts hlinks hdir hinside hlink hnext hplace
      · rw [walk_notDir hisDir] at hwalk
        cases hwalk
  · rw [nearestAncestor_none hnone, startsWith_ofLoc] at hstarts
    have hroot : fs.canonicalize ⟨true, []⟩ = none := by
      have h := hnone [] nil_prefix
      rwa [show absolute = true from hstarts.1] at h
    have hfound : fs.canonicalize ⟨true, []⟩ = some [] :=
      resolve_eq_found.mpr (resolve_ofLoc (.inl fs.root_dir))
    rw [hfound] at hroot
    cases hroot

theorem accepted_through_link {base dir place : Loc} {name : String}
    (hpre : pre ++ [.normal name] <+: r.parts)
    (hnames : ∃ names : List String, r.parts = names.map normal)
    (hdir : fs.canonicalize ⟨r.absolute, pre⟩ = some dir) (hinside : base <+: dir)
    (hplace : fs.resolve ⟨r.absolute, pre ++ [.normal name]⟩ = some (.missing place)) :
    (checkedPath fs r).startsWith (.ofLoc base) = true
      ∧ ∃ post, fs.resolve r = some (.missing (place ++ post)) := by
  obtain ⟨absolute, parts⟩ := r
  obtain ⟨names, hnames⟩ := hnames
  obtain ⟨rest, hrest⟩ := hpre
  obtain ⟨front, post, -, -, hpost⟩ := map_eq_append_iff.mp (hnames.symm.trans hrest.symm)
  have hparts : parts = pre ++ (name :: post).map normal := by
    rw [map_cons, hpost]
    simpa using hrest.symm
  subst hparts
  have hnot : fs.canonicalize ⟨absolute, pre ++ [normal name]⟩ = none := by
    simp [canonicalize, hplace]
  have hlonger : ∀ q, q ≠ [] → q <+: name :: post →
      fs.canonicalize ⟨absolute, pre ++ q.map normal⟩ = none := by
    intro q hq hqpre
    cases q with
    | nil => exact absurd rfl hq
    | cons c q =>
      have hresolve := resolve_append_names q hnot
      rw [hplace, append_assoc, singleton_append] at hresolve
      rw [(cons_prefix_cons.mp hqpre).1, map_cons]
      unfold canonicalize
      rw [hresolve]
      rfl
  constructor
  · rw [checkedPath_missing (hlonger (name :: post) (by simp) (prefix_refl _)),
      nearestAncestor_stops hdir hlonger, ofLoc_startsWith]
    exact hinside.trans (prefix_append _ _)
  · refine ⟨post, ?_⟩
    have hresolve := resolve_append_names post hnot
    rw [hplace, append_assoc, singleton_append] at hresolve
    rw [map_cons, hresolve]
    rfl

/-- **An accepted path stays inside the base exactly if no dangling link leads out of
it**: where the joined path can be canonicalised it always does, and where it cannot, a
link in the lexically normalised path that hangs inside the base must lead inside. -/
theorem accepted_path_confined_iff (fs : FileSystem) (base : Path) (pathStr : String) :
    Confined fs base pathStr ↔
      ∀ canonicalBase, fs.canonicalize base = some canonicalBase →
        fs.canonicalize (base.join (.ofText pathStr)) = none →
        LinksStayInside fs canonicalBase (normalizeLexical (base.join (.ofText pathStr))) := by
  constructor
  · intro hconfined canonicalBase hbase hjoined pre name dir place hpre hdir hinside hlink hplace
    have haccepted := accepted_through_link hpre ⟨_, rfl⟩ hdir hinside hplace
    obtain ⟨hstarts, post, hresolve⟩ := haccepted
    have hok : validatePath fs pathStr (some base)
        = .ok (normalizeLexical (base.join (.ofText pathStr))) := by
      rw [validatePath_some, canonicalOr_none hjoined, canonicalOr_some hbase]
      exact ⟨rfl, hstarts⟩
    have hunder := hconfined canonicalBase hbase _ hok _ hresolve
    have hempty : fs.entry place = none := by
      rw [resolve_eq_walk (by simp [Path.isEmpty])] at hplace
      exact entry_of_walk_missing hplace
    exact prefix_of_missing (canonicalize_real hbase) hempty hunder
  · intro hlinks canonicalBase hbase r hok place hplace
    rw [validatePath_some, canonicalOr_some hbase] at hok
    obtain ⟨hr, hstarts⟩ := hok
    have hreal := canonicalize_real hbase
    cases hjoined : fs.canonicalize (base.join (.ofText pathStr)) with
    | some loc =>
      rw [canonicalOr_some hjoined] at hr
      subst hr
      have hloc : fs.canonicalize (.ofLoc loc) = some loc :=
        resolve_eq_found.mpr (resolve_ofLoc (canonicalize_real hjoined))
      exact place_of_exists hloc hstarts hplace
    | none =>
      rw [canonicalOr_none hjoined] at hr
      subst hr
      cases hexists : fs.canonicalize (normalizeLexical (base.join (.ofText pathStr))) with
      | some => exact place_of_exists hexists hstarts hplace
      | none =>
        exact place_of_missing hreal rfl hexists (hlinks canonicalBase hbase hjoined) hstarts hplace

/-- A work directory with a link to a file, outside of it, that is not there. -/
def danglingPlaces : List (Loc × Entry) :=
  [([], .dir), (["work"], .dir),
    (["work", "log"], .link ⟨true, [.normal "etc", .normal "cron"]⟩), (["etc"], .dir)]

def danglingFs : FileSystem := .ofPlaces danglingPlaces [] 40 rfl (by decide +kernel) rfl

theorem dangling_log_leads_out :
    validatePath danglingFs "log" (some (.ofLoc ["work"])) = .ok (.ofLoc ["work", "log"])
      ∧ danglingFs.resolve (.ofLoc ["work", "log"]) = some (.missing ["etc", "cron"])
      ∧ ¬ Confined danglingFs (.ofLoc ["work"]) "log" := by
  have hok : validatePath danglingFs "log" (some (.ofLoc ["work"]))
      = .ok (.ofLoc ["work", "log"]) := by
    decide
  refine ⟨hok, by decide, ?_⟩
  intro h
  have hunder := h ["work"] (by decide) _ hok (.missing ["etc", "cron"])
  exact absurd hunder (by decide)

/-! ## Lexical normalisation -/

theorem lexicalNames_normal (names more : List String) :
    lexicalNames names (more.map .normal) = names ++ more := by
  induction more generalizing names with
  | nil => simp [lexicalNames]
  | cons name more ih => simp [lexicalNames, ih]

theorem eq_of_names? {parts : List Component} {names : List String} (h : names? parts = some names) :
    parts = names.map .normal := by
  induction parts generalizing names with
  | nil => simp_all [names?]
  | cons c rest ih =>
    cases c with
    | curDir | parentDir => cases h
    | normal name =>
      obtain ⟨more, hmore, rfl⟩ := Option.map_eq_some_iff.mp h
      rw [ih hmore, map_cons]

/-- Without links a walk goes where the names lead. -/
theorem loc_of_walks {fs : FileSystem} {links : Nat} {loc : Loc} {parts : List Component}
    {o : Option Place} (h : Walks fs links loc parts o) (hlinks : ∀ loc, ¬ fs.IsLink loc)
    {place : Place} (ho : o = some place) : place.loc = lexicalNames loc parts := by
  induction h with
  | done =>
    cases ho
    rfl
  | cur _ _ ih | parent _ _ ih | enter _ _ _ ih => exact ih ho
  | miss =>
    obtain ⟨names, hnames, rfl⟩ := Option.map_eq_some_iff.mp ho
    rw [eq_of_names? hnames, lexicalNames, lexicalNames_normal]
    simp [Place.loc]
  | notDir | blank | tooMany => cases ho
  | link _ hlink => exact absurd ⟨_, hlink⟩ (hlinks _)

/-- **Normalisation** leaves names only, the ones of what an absolute path denotes where there
are no links, and does nothing the second time. -/
theorem normalizeLexical_denotes (p : Path) :
    (∀ c ∈ (normalizeLexical p).parts, ∃ name, c = .normal name)
      ∧ (p.absolute = true → ∀ fs : FileSystem, (∀ loc, ¬ fs.IsLink loc) →
        ∀ place, fs.resolve p = some place → normalizeLexical p = .ofLoc place.loc)
      ∧ normalizeLexical (normalizeLexical p) = normalizeLexical p := by
  refine ⟨?_, fun habsolute fs hlinks place hplace => ?_, ?_⟩
  · intro c hc
    obtain ⟨name, -, rfl⟩ := mem_map.mp hc
    exact ⟨name, rfl⟩
  · have hempty : p.isEmpty = false := by simp [Path.isEmpty, habsolute]
    rw [resolve_eq_walk hempty] at hplace
    have hloc := loc_of_walks (walk_walks fs _ _ _) hlinks hplace
    rw [start, if_pos habsolute] at hloc
    rw [normalizeLexical, ofLoc, hloc, habsolute]
  · simp [normalizeLexical, lexicalNames_normal, nil_append]

end TitanClaw.Tools
