import Mathlib.Data.List.Infix

/-! # Multi-pattern search, earliest-ending and non-overlapping

What an Aho–Corasick automaton built with its STANDARD match kind reports: the
text is read once; as soon as some needle ends at the byte just read, that
needle is reported and the search starts afresh behind it.

The automaton's state after some text is determined by the `window`: the bytes
read since the last report. `hit` says which needle (if any) is reported when
the window has just grown, `search` is the whole scan. A needle is identified
by its index in the needle list, as the automaton's pattern ids are.

The results below are about which ids a search reports at all:

* `not_mem_search_of_contains` — a needle that has another one inside its
  proper prefix is never reported;
* `not_mem_search_of_duplicate` — neither is the second of two equal needles;
* `mem_search_iff` — any other needle is reported at an occurrence
  unless a DIFFERENT needle overlaps into it from the left.
-/

namespace MultiSearch

open List

variable {α : Type*} [DecidableEq α]

/-! ## The scan -/

/-- The needle reported when `window` has just been completed: the longest
needle that is a suffix of the window and, of equal needles, the first. -/
def hit (needles : List (List α)) : List α → Option Nat
  | [] => none
  | c :: cs =>
      match needles.idxOf? (c :: cs) with
      | some i => some i
      | none => hit needles cs

variable (needles : List (List α))

/-- The window after reading one more symbol: empty again behind a report. -/
def advance (window : List α) (c : α) : List α :=
  if (hit needles (window ++ [c])).isSome then [] else window ++ [c]

/-- The window after reading `text`. -/
def windowAfter (window text : List α) : List α := text.foldl (advance needles) window

/-- The ids reported while reading `text`, starting with `window`. -/
def search (needles : List (List α)) : List α → List α → List Nat
  | _, [] => []
  | window, c :: rest =>
      (hit needles (window ++ [c])).toList ++ search needles (advance needles window c) rest

/-- The same with the number of symbols read when an id is reported, `pos` of them before. -/
def searchAt (needles : List (List α)) : List α → Nat → List α → List (Nat × Nat)
  | _, _, [] => []
  | window, pos, c :: rest =>
      (hit needles (window ++ [c])).toList.map (·, pos + 1)
        ++ searchAt needles (advance needles window c) (pos + 1) rest

variable (w : List α)

theorem map_fst_searchAt (pos : Nat) (t : List α) :
    (searchAt needles w pos t).map Prod.fst = search needles w t := by
  induction t generalizing w pos with
  | nil => rfl
  | cons c t ih =>
    have hids : ((hit needles (w ++ [c])).toList.map (·, pos + 1)).map Prod.fst
        = (hit needles (w ++ [c])).toList := by
      rw [map_map]
      exact map_id _
    rw [searchAt, map_append, hids, ih, search]

@[simp] theorem windowAfter_nil : windowAfter needles w [] = w := rfl

@[simp] theorem windowAfter_cons (c : α) (t : List α) :
    windowAfter needles w (c :: t) = windowAfter needles (advance needles w c) t := rfl

theorem windowAfter_append (w t u : List α) :
    windowAfter needles w (t ++ u) = windowAfter needles (windowAfter needles w t) u := by
  simp [windowAfter, foldl_append]

theorem search_append (w t u : List α) :
    search needles w (t ++ u)
      = search needles w t ++ search needles (windowAfter needles w t) u := by
  induction t generalizing w with
  | nil => rfl
  | cons c t ih => simp [cons_append, search, windowAfter_cons, ih, append_assoc]

variable {needles w} {i : Nat}

theorem hit_some (h : hit needles w = some i) :
    ∃ p, needles.idxOf? p = some i ∧ p ≠ [] ∧ p <:+ w := by
  induction w with
  | nil => cases h
  | cons c cs ih =>
    simp only [hit] at h
    cases hidx : needles.idxOf? (c :: cs) with
    | some =>
      rw [hidx] at h
      cases h
      exact ⟨c :: cs, hidx, by simp, suffix_refl _⟩
    | none =>
      rw [hidx] at h
      obtain ⟨p, hp, hne, hsuf⟩ := ih h
      exact ⟨p, hp, hne, hsuf.trans (suffix_cons c cs)⟩

/-- A needle at the end of the window forces a hit, on that needle or on a
longer one. -/
theorem hit_of_suffix {w p : List α} (hp : p ∈ needles) (hne : p ≠ []) (hsuf : p <:+ w) :
    ∃ i q, hit needles w = some i ∧ needles.idxOf? q = some i ∧ q <:+ w ∧ p <:+ q := by
  induction w with
  | nil => exact absurd (suffix_nil.mp hsuf) hne
  | cons c cs ih =>
    cases hidx : needles.idxOf? (c :: cs) with
    | some j => exact ⟨j, c :: cs, by simp [hit, hidx], hidx, suffix_refl _, hsuf⟩
    | none =>
      rcases suffix_cons_iff.mp hsuf with heq | htail
      · subst heq
        exact absurd hp (idxOf?_eq_none_iff.mp hidx)
      · obtain ⟨i, q, hi, hq, hqs, hpq⟩ := ih htail
        exact ⟨i, q, by simp [hit, hidx, hi], hq, hqs.trans (suffix_cons c cs), hpq⟩

theorem hit_none_of_not_suffix (h : ∀ p ∈ needles, p ≠ [] → ¬ p <:+ w) : hit needles w = none := by
  cases hh : hit needles w with
  | none => rfl
  | some =>
    obtain ⟨p, hp, hne, hsuf⟩ := hit_some hh
    have hmem : p ∈ needles := by
      by_contra hnot
      rw [idxOf?_eq_none_iff.mpr hnot] at hp
      cases hp
    exact absurd hsuf (h p hmem hne)

theorem idxOf?_inj {p q : List α}
    (hp : needles.idxOf? p = some i) (hq : needles.idxOf? q = some i) : p = q := by
  obtain ⟨_, hp', _⟩ := idxOf?_eq_some_iff.mp hp
  obtain ⟨_, hq', _⟩ := idxOf?_eq_some_iff.mp hq
  rw [← hp', ← hq']

theorem mem_of_idxOf? {p : List α} (hp : needles.idxOf? p = some i) : p ∈ needles := by
  obtain ⟨_, hget, _⟩ := idxOf?_eq_some_iff.mp hp
  exact hget ▸ getElem_mem _

/-! ## The window

Two facts carry every later proof: a window never has a needle inside it, and
the window after `t` is either the old one with all of `t` behind it or, where
a report fell inside `t`, shorter than `t`. -/

variable (needles)

/-- No needle has been completed since the last report. -/
def Clean (w : List α) : Prop := ∀ p ∈ needles, p ≠ [] → ¬ p <:+: w

omit [DecidableEq α] in
theorem clean_nil : Clean needles [] := by
  intro p _ hne hinf
  exact hne (infix_nil.mp hinf)

variable {needles}

theorem advance_clean (hw : Clean needles w) (c : α) : Clean needles (advance needles w c) := by
  unfold advance
  split
  · exact clean_nil needles
  rename_i hnone
  intro p hp hne hinf
  rcases infix_concat_iff.mp hinf with hsuf | hold
  · obtain ⟨i, _, hi, _⟩ := hit_of_suffix hp hne hsuf
    simp [hi] at hnone
  · exact hw p hp hne hold

theorem windowAfter_clean (hw : Clean needles w) (t : List α) :
    Clean needles (windowAfter needles w t) := by
  induction t generalizing w with
  | nil => exact hw
  | cons c t ih => exact ih (advance_clean hw c)

variable (needles)

theorem windowAfter_eq_or_length_lt (w t : List α) :
    windowAfter needles w t = w ++ t ∨ (windowAfter needles w t).length < t.length := by
  induction t generalizing w with
  | nil => exact .inl (by simp)
  | cons c t ih =>
    simp only [windowAfter_cons]
    by_cases hhit : (hit needles (w ++ [c])).isSome
    · -- a report at `c`: only what follows it is in the window
      have hadv : advance needles w c = [] := by simp [advance, hhit]
      rw [hadv]
      rcases ih [] with heq | hlt
      · exact .inr (by simp [heq])
      · exact .inr (by simp only [length_cons]; omega)
    · have hadv : advance needles w c = w ++ [c] := by simp [advance, hhit]
      rw [hadv]
      rcases ih (w ++ [c]) with heq | hlt
      · exact .inl (by simp [heq])
      · exact .inr (by simp only [length_cons]; omega)

theorem windowAfter_suffix (w t : List α) : windowAfter needles w t <:+ w ++ t := by
  induction t generalizing w with
  | nil => simp
  | cons c t ih =>
    refine (ih _).trans ?_
    unfold advance
    split
    · exact ⟨w ++ [c], by simp⟩
    · simp

/-- No needle ends in a symbol of `t`. -/
def endsNone (t : List α) : Bool := t.all fun c => needles.all fun p => p.getLast? != some c

theorem windowAfter_of_endsNone {needles : List (List α)} (w : List α) {t : List α}
    (ht : endsNone needles t = true) : windowAfter needles w t = w ++ t := by
  induction t generalizing w with
  | nil => simp
  | cons c t ih =>
    simp only [endsNone, all_cons, Bool.and_eq_true] at ht
    have hnone : hit needles (w ++ [c]) = none := by
      apply hit_none_of_not_suffix
      intro p hp hne hsuf
      rcases suffix_concat_iff.mp hsuf with h | ⟨s, hs, _⟩
      · exact hne h
      have hlast := all_eq_true.mp ht.1 p hp
      simp [hs] at hlast
    have hadv : advance needles w c = w ++ [c] := by simp [advance, hnone]
    rw [windowAfter_cons, hadv, ih _ ht.2]
    simp

/-- Some needle ends in `x` after some text: it lies inside, or its end begins `x`. -/
def endsInside (x : List α) : Bool :=
  needles.any fun q => decide (q ≠ [] ∧ q <:+: x)
    || (List.range q.length).any fun k => (q.drop k).isPrefixOf x

variable {needles}

/-- Where no needle ends, the window only grows. Induction on what is left of `x`. -/
theorem windowAfter_of_not_endsInside {x : List α} (h : endsInside needles x = false) (w : List α) :
    windowAfter needles w x = w ++ x := by
  have hfree : ∀ q ∈ needles, q ≠ [] → ¬ q <:+: x ∧ ∀ y, y ≠ [] → y <:+ q → ¬ y <+: x := by
    intro q hq hne
    have hcheck := any_eq_false.mp h q hq
    simp only [Bool.or_eq_true, decide_eq_true_eq, any_eq_true, mem_range,
      isPrefixOf_iff_prefix, not_or, not_exists, not_and] at hcheck
    refine ⟨hcheck.1 hne, fun y hy hsuf hpre => ?_⟩
    have hlength := hsuf.length_le
    have hpos := length_pos_of_ne_nil hy
    refine hcheck.2 (q.length - y.length) (by omega) ?_
    rwa [← suffix_iff_eq_drop.mp hsuf]
  have hgrows : ∀ a b, x = a ++ b → windowAfter needles (w ++ a) b = w ++ x := by
    intro a b hab
    induction b generalizing a with
    | nil => simp [hab]
    | cons c b ih =>
      have hnone : hit needles (w ++ a ++ [c]) = none := by
        apply hit_none_of_not_suffix
        intro q hq hne hsuf
        obtain ⟨hinside, hoverlap⟩ := hfree q hq hne
        have hpre : a ++ [c] <+: x := ⟨b, by simp [hab]⟩
        rw [append_assoc] at hsuf
        by_cases hlen : q.length ≤ (a ++ [c]).length
        · have hshort := suffix_of_suffix_length_le hsuf (suffix_append w _) hlen
          exact hinside (hshort.isInfix.trans hpre.isInfix)
        · have hlong := suffix_of_suffix_length_le (suffix_append w (a ++ [c])) hsuf (by omega)
          exact hoverlap _ (by simp) hlong hpre
      have hadv : advance needles (w ++ a) c = w ++ (a ++ [c]) := by
        rw [advance, hnone, ← append_assoc]
        rfl
      rw [windowAfter_cons, hadv]
      exact ih (a ++ [c]) (by simp [hab])
  have hall := hgrows [] x rfl
  rwa [append_nil] at hall

/-! ## Which ids are reported -/

/-- A reported id was hit at some symbol of the text. -/
theorem mem_search {w t : List α} (h : i ∈ search needles w t) :
    ∃ u c v, t = u ++ c :: v ∧ hit needles (windowAfter needles w u ++ [c]) = some i := by
  induction t generalizing w with
  | nil => cases h
  | cons c t ih =>
    simp only [search, mem_append, Option.mem_toList] at h
    rcases h with hnow | hlater
    · exact ⟨[], c, t, rfl, hnow⟩
    obtain ⟨u, d, v, ht, hhit⟩ := ih hlater
    exact ⟨c :: u, d, v, by simp [ht], hhit⟩

/-- What is reported is in the text. -/
theorem infix_of_mem_search {t : List α}
    (h : i ∈ search needles [] t) : ∃ p, needles.idxOf? p = some i ∧ p <:+: t := by
  obtain ⟨u, c, v, rfl, hhit⟩ := mem_search h
  obtain ⟨p, hp, _, hsuf⟩ := hit_some hhit
  refine ⟨p, hp, ?_⟩
  obtain ⟨w, hw⟩ := windowAfter_suffix needles [] u
  refine hsuf.isInfix.trans ⟨w, v, ?_⟩
  rw [← append_assoc, hw]
  simp

/-- The id of a needle that stands earlier in the list as well is never
reported. -/
theorem not_mem_search_of_duplicate {i j : Nat}
    (hlt : j < i) (hsame : needles[j]? = needles[i]?) (w t : List α) : i ∉ search needles w t := by
  intro h
  obtain ⟨_, _, _, _, hhit⟩ := mem_search h
  obtain ⟨p, hp, _⟩ := hit_some hhit
  obtain ⟨hi, hpi, hfirst⟩ := idxOf?_eq_some_iff.mp hp
  apply hfirst j hlt
  rw [getElem?_eq_getElem hi, getElem?_eq_getElem (by omega)] at hsame
  rw [Option.some.inj hsame, hpi]

/-- A needle with another one inside its proper prefix is never reported: the
inner one ends first, and the window starts afresh behind it. -/
theorem not_mem_search_of_contains
    {p q : List α} (hp : needles.idxOf? p = some i) (hq : q ∈ needles)
    (hne : q ≠ []) (hin : q <:+: p.dropLast) (t : List α) : i ∉ search needles [] t := by
  intro h
  obtain ⟨u, c, _, _, hhit⟩ := mem_search h
  obtain ⟨p', hp', hne', hsuf⟩ := hit_some hhit
  rw [idxOf?_inj hp' hp] at hsuf hne'
  rcases suffix_concat_iff.mp hsuf with hnil | ⟨s, hs, hsw⟩
  · exact hne' hnil
  have hclean := windowAfter_clean (clean_nil needles) u
  refine hclean q hq hne (hin.trans ?_)
  rw [hs, dropLast_concat]
  exact hsw.isInfix

/-- The heads `x` of the OTHER needles `x ++ y` whose nonempty tail `y` begins
`p`: what stands before an occurrence of `p` that such a needle overlaps. -/
def overlapHeads (needles : List (List α)) (p : List α) : List (List α) :=
  (needles.filter (· ≠ p)).flatMap fun q =>
    ((List.range q.length).filter fun k => 0 < k ∧ (q.drop k).isPrefixOf p).map (q.take ·)

theorem mem_overlapHeads {p x : List α} :
    x ∈ overlapHeads needles p
      ↔ ∃ y, x ++ y ∈ needles ∧ x ++ y ≠ p ∧ x ≠ [] ∧ y ≠ [] ∧ y <+: p := by
  simp only [overlapHeads, mem_flatMap, mem_filter, mem_map,
    mem_range, decide_eq_true_eq, isPrefixOf_iff_prefix]
  constructor
  · rintro ⟨q, ⟨hq, hqp⟩, k, ⟨hk, hpos, hpre⟩, rfl⟩
    refine ⟨q.drop k, by simpa using hq, by simpa using hqp, ?_, ?_, hpre⟩
    · intro hnil
      rcases take_eq_nil_iff.mp hnil with h | h
      · omega
      · simp [h] at hk
    · intro hnil
      have := drop_eq_nil_iff.mp hnil
      omega
  · rintro ⟨y, hmem, hne, hx, hy, hpre⟩
    refine ⟨x ++ y, ⟨hmem, hne⟩, x.length, ⟨?_, ?_, ?_⟩, ?_⟩
    · have := length_pos_iff.mpr hy
      simp only [length_append]
      omega
    · exact length_pos_iff.mpr hx
    · simpa using hpre
    · simp

/-- Some other needle is under way in `w` that ends inside a following `p`. -/
def Overlapped (needles : List (List α)) (p w : List α) : Prop :=
  ∃ x ∈ overlapHeads needles p, x <:+ w

/-- Reading `p`, of which `a` has been read without a report, reports `p`
unless another needle overlaps into it. Induction on what is left to read. -/
private theorem mem_search_rest {p w : List α} (hp : needles.idxOf? p = some i)
    (hin : ∀ q ∈ needles, q ≠ [] → ¬ q <:+: p.dropLast)
    (hfree : ¬ Overlapped needles p w) {a b : List α} (hab : p = a ++ b)
    (hb : b ≠ []) : i ∈ search needles (w ++ a) b := by
  induction b generalizing a with
  | nil => exact absurd rfl hb
  | cons c b ih =>
    have hwin : w ++ a ++ [c] = w ++ (a ++ [c]) := by simp
    simp only [search, mem_append, Option.mem_toList]
    cases hhit : hit needles (w ++ a ++ [c]) with
    | none =>
      by_cases hb' : b = []
      · -- all of `p` has been read, so `p` itself must have been hit
        subst hb'
        have hsuf : p <:+ w ++ a ++ [c] := ⟨w, by simp [hab]⟩
        have hne : p ≠ [] := by simp [hab]
        obtain ⟨j, _, hj, _⟩ := hit_of_suffix (mem_of_idxOf? hp) hne hsuf
        rw [hj] at hhit
        cases hhit
      · refine .inr ?_
        have hadv : advance needles (w ++ a) c = w ++ (a ++ [c]) := by
          rw [← hwin]
          simp only [advance, hhit, Option.isSome_none, Bool.false_eq_true, if_false]
        rw [hadv]
        exact ih (a := a ++ [c]) (by simp [hab]) hb'
    | some j =>
      refine .inl ?_
      obtain ⟨q, hq, hqne, hqsuf⟩ := hit_some hhit
      have hsame : q = p → j = i := by
        rintro rfl
        exact Option.some.inj (hq.symm.trans hp)
      rw [hwin] at hqsuf
      have hpre : a ++ [c] <+: p := ⟨b, by simp [hab]⟩
      have hsufW := suffix_append w (a ++ [c])
      by_cases hlen : q.length ≤ (a ++ [c]).length
      · have hshort := suffix_of_suffix_length_le hqsuf hsufW hlen
        by_cases hb' : b = []
        · -- the last symbol: the hit is at least as long as `p`
          subst hb'
          have hsuf : p <:+ w ++ a ++ [c] := ⟨w, by simp [hab]⟩
          obtain ⟨k, q', hk, hq', _, hpq⟩ := hit_of_suffix (mem_of_idxOf? hp) (by simp [hab]) hsuf
          rw [hhit] at hk
          cases hk
          rw [idxOf?_inj hq' hq] at hpq
          rw [← hab] at hshort
          rw [hsame (hshort.eq_of_length_le hpq.length_le)]
        · -- before that, a hit no longer than what was read lies inside `p`
          refine absurd ?_ (hin q (mem_of_idxOf? hq) hqne)
          refine hshort.isInfix.trans (List.IsPrefix.isInfix ⟨b.dropLast, ?_⟩)
          rw [hab, dropLast_append_of_ne_nil (by simp)]
          simp [dropLast_cons_of_ne_nil hb']
      · obtain ⟨x, hx⟩ := suffix_of_suffix_length_le hsufW hqsuf (by omega)
        by_cases hqp : q = p
        · rw [hsame hqp]
        have hx0 : x ≠ [] := by
          rintro rfl
          simp [← hx] at hlen
        refine absurd ⟨x, ?_, ?_⟩ hfree
        · refine mem_overlapHeads.mpr ⟨a ++ [c], ?_, ?_, hx0, by simp, hpre⟩
          · rw [hx]; exact mem_of_idxOf? hq
          · rw [hx]; exact hqp
        · rw [← hx] at hqsuf
          exact ((suffix_append_inj_of_length_eq rfl).mp hqsuf).1

/-- **The reports of one needle.** Where no needle lies inside its proper
prefix, `p` is reported exactly if it occurs somewhere with no other needle
overlapping into the occurrence. -/
theorem mem_search_iff {p : List α} (hp : needles.idxOf? p = some i) (hne : p ≠ [])
    (hin : ∀ q ∈ needles, q ≠ [] → ¬ q <:+: p.dropLast) (t : List α) :
    i ∈ search needles [] t
      ↔ ∃ u v, t = u ++ p ++ v ∧ ¬ Overlapped needles p (windowAfter needles [] u) := by
  constructor
  · intro h
    obtain ⟨u, c, v, ht, hhit⟩ := mem_search h
    obtain ⟨p', hp', _, hsuf⟩ := hit_some hhit
    rw [idxOf?_inj hp' hp] at hsuf
    rcases suffix_concat_iff.mp hsuf with hnil | ⟨s, hs, hsw⟩
    · exact absurd hnil hne
    obtain ⟨u₀, hu₀⟩ := hsw.trans (windowAfter_suffix needles [] u)
    rw [nil_append] at hu₀
    subst hu₀
    refine ⟨u₀, v, by simp [ht, hs], ?_⟩
    -- nothing was reported while `s` was read
    have hkeep : windowAfter needles [] (u₀ ++ s) = windowAfter needles [] u₀ ++ s := by
      rw [windowAfter_append] at hsw ⊢
      rcases windowAfter_eq_or_length_lt needles (windowAfter needles [] u₀) s with heq | hlt
      · exact heq
      have := hsw.length_le
      omega
    rw [hkeep] at hhit
    rintro ⟨x, hx, z, hz⟩
    obtain ⟨y, hmem, _, hx0, hy0, hyp⟩ := mem_overlapHeads.mp hx
    rw [hs] at hyp
    rcases prefix_concat_iff.mp hyp with hall | hpart
    · -- the overlapping needle ends with `p`: it is the longer hit
      have hlong : x ++ y <:+ windowAfter needles [] u₀ ++ s ++ [c] := ⟨z, by simp [hall, ← hz]⟩
      obtain ⟨j, q, hj, hq, _, hle⟩ := hit_of_suffix hmem (by simp [hx0]) hlong
      rw [hhit] at hj
      cases hj
      rw [idxOf?_inj hq hp, hall, ← hs] at hle
      have hlen := hle.length_le
      have := length_pos_iff.mpr hx0
      simp only [length_append] at hlen
      omega
    · -- it ends before `p` does: the window would not be clean
      have hclean := windowAfter_clean (clean_nil needles) (u₀ ++ s)
      rw [hkeep] at hclean
      obtain ⟨r, hr⟩ := hpart
      exact hclean (x ++ y) hmem (by simp [hx0]) ⟨z, r, by simp [← hz, ← hr]⟩
  · rintro ⟨u, v, ht, hfree⟩
    rw [ht, append_assoc, search_append, search_append]
    have := mem_search_rest (a := []) hp hin hfree rfl hne
    simp only [append_nil] at this
    simp [this]

/-- A needle that no other one lies inside of or overlaps into is reported
exactly if it occurs. -/
theorem mem_search_iff_infix {p : List α} (hp : needles.idxOf? p = some i) (hne : p ≠ [])
    (hin : ∀ q ∈ needles, q ≠ [] → ¬ q <:+: p.dropLast)
    (hover : overlapHeads needles p = []) (t : List α) : i ∈ search needles [] t ↔ p <:+: t := by
  rw [mem_search_iff hp hne hin]
  constructor
  · rintro ⟨u, v, ht, _⟩
    exact ⟨u, v, ht.symm⟩
  · rintro ⟨u, v, ht⟩
    refine ⟨u, v, ht.symm, ?_⟩
    rintro ⟨x, hx, _⟩
    rw [hover] at hx
    cases hx

end MultiSearch
