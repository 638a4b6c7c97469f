import TitanClaw.Lib.Run
import TitanClaw.Lib.Text
import TitanClaw.Llm.StripTags

/-! # Internal tags in a response

Of every internal tag the two forms are stripped, one pass after the other. A pass joins what
stands on both sides of what it cuts out, and the two sides can make an opening tag that the
pass, or one before it, has looked for. -/

namespace TitanClaw.Llm

open Scan Replace Text Run

open List hiding replace contains

/-! ## The passes -/

def internalTags : List String := ["thinking", "tool_call", "function_call", "tool_calls"]

def collapseNewlines (result : String) : String :=
  if _h : contains result "\n\n\n" then collapseNewlines (replace result "\n\n\n" "\n\n")
  else result
termination_by result.toList.length
decreasing_by
  rw [replace, String.toList_ofList]
  exact (length_replaceAll (by decide) result.toList).2 (of_decide_eq_true _h)

def stripInternalTags (text : String) : String :=
  let result := internalTags.foldl (fun result tag =>
    stripPipeTag (stripXmlTag result tag) tag) text
  trim (collapseNewlines result)

inductive TagForm where
  | xml | pipe

structure Pass where
  tag : String
  form : TagForm

def Pass.pushes (p : Pass) (text : List Char) : List (List Char) :=
  match p.form with
  | .xml => xmlPushes id p.tag.toList text
  | .pipe => pipePushes id p.tag.toList text

def passes : List Pass := internalTags.flatMap fun tag => [⟨tag, .xml⟩, ⟨tag, .pipe⟩]

/-- The text between two passes, and the passes that were made. -/
structure Stripping where
  passed : List Pass := []
  text : List Char

def Stripping.step (s : Stripping) (p : Pass) : Stripping where
  passed := p :: s.passed
  text := (p.pushes s.text).flatten

theorem stripInternalTags_eq (text : String) :
    stripInternalTags text = trim (collapseNewlines
      (String.ofList (run Stripping.step { text := text.toList } passes).text)) := by
  simp [stripInternalTags, passes, internalTags, run, Stripping.step, Pass.pushes,
    stripXmlTag, stripPipeTag, stripXml, stripPipe]

/-! ## Opening tags -/

/-- An opening tag; one with attributes has its end somewhere behind. -/
structure Opening where
  word : List Char
  ended : Bool

def Pass.openings (p : Pass) : List Opening :=
  match p.form with
  | .xml => [⟨openExact p.tag.toList, false⟩, ⟨openPrefix p.tag.toList, true⟩]
  | .pipe => [⟨openPipe p.tag.toList, false⟩]

def Opening.In (o : Opening) (l : List Char) : Prop :=
  ∃ t ∈ l.tails, o.word <+: t ∧ (o.ended = true → '>' ∈ t.drop o.word.length)

instance (o : Opening) (l : List Char) : Decidable (o.In l) :=
  inferInstanceAs (Decidable (∃ t ∈ l.tails, _))

/-- The pieces put together have the opening tag, and none of them has it by itself. -/
def Opening.Forms (o : Opening) (pieces : List (List Char)) : Prop :=
  o.In pieces.flatten ∧ ∀ piece ∈ pieces, ¬ o.In piece

instance (o : Opening) (pieces : List (List Char)) : Decidable (o.Forms pieces) :=
  inferInstanceAs (Decidable (_ ∧ _))

/-- The pass forms an opening tag that it or an earlier one looks for, and none of the passes
that follow takes it out. -/
def Stripping.Leaves (s : Stripping) (p : Pass) (rest : List Pass) : Prop :=
  ∃ q ∈ p :: s.passed, ∃ o ∈ q.openings, o.Forms (p.pushes s.text)
    ∧ ∀ mid, mid <+: rest → o.In (run Stripping.step (s.step p) mid).text

namespace Opening

variable {o : Opening} {l l' : List Char}

theorem In.of_infix (h : o.In l) (hl : l <:+: l') : o.In l' := by
  obtain ⟨t, ht, hword, hended⟩ := h
  obtain ⟨x, y, rfl⟩ := hl
  obtain ⟨z, rfl⟩ := (mem_tails t l).mp ht
  refine ⟨t ++ y, (mem_tails _ _).mpr ⟨x ++ z, by simp⟩,
    hword.trans (prefix_append t y), fun h => ?_⟩
  rw [drop_append_of_le_length hword.length_le]
  exact mem_append_left y (hended h)

theorem prefix_of_prefix_append_cons {word p q : List Char} {x : Char} (hx : x ∉ word)
    (h : word <+: p ++ x :: q) : word <+: p := by
  by_cases hlength : word.length ≤ p.length
  · exact prefix_of_prefix_length_le h (prefix_append p _) hlength
  have hlong : p ++ [x] <+: word := by
    refine prefix_of_prefix_length_le ⟨q, append_assoc p [x] q⟩ h ?_
    rw [length_append, length_singleton]
    omega
  exact absurd (hlong.subset (by simp)) hx

/-- What the opening tags have in common: where they begin, that they are on one line, and where
they end. -/
def IsTag (o : Opening) : Prop :=
  o.word.head? = some '<' ∧ '\n' ∉ o.word ∧ (o.ended = false → o.word.getLast? = some '>')

instance (o : Opening) : Decidable o.IsTag := inferInstanceAs (Decidable (_ ∧ _ ∧ (_ → _)))

theorem openings_isTag : ∀ p ∈ passes, ∀ o ∈ p.openings, o.IsTag := by decide

variable (h : o.IsTag)

include h

theorem IsTag.exists_cons : ∃ w, o.word = '<' :: w := List.head?_eq_some_iff.mp h.1

theorem IsTag.ne_nil : o.word ≠ [] := by
  obtain ⟨w, hw⟩ := h.exists_cons
  rw [hw]
  exact cons_ne_nil _ _

theorem IsTag.in_cons_iff {c : Char} (hc : c ≠ '<') : o.In (c :: l) ↔ o.In l := by
  constructor
  · rintro ⟨t, ht, hpre, hended⟩
    rw [tails_cons, mem_cons] at ht
    rcases ht with rfl | ht
    · obtain ⟨w, hw⟩ := h.exists_cons
      rw [hw] at hpre
      exact absurd (cons_prefix_cons.mp hpre).1.symm hc
    · exact ⟨t, ht, hpre, hended⟩
  · exact fun hin => hin.of_infix (suffix_cons c l).isInfix

/-- An opening tag does not reach across a line feed; only its end may be behind it. -/
theorem IsTag.in_append_newline_iff {x y : List Char} :
    o.In (x ++ '\n' :: y)
      ↔ (∃ t ∈ x.tails, o.word <+: t ∧ (o.ended = true → '>' ∈ t.drop o.word.length ∨ '>' ∈ y))
        ∨ o.In y := by
  constructor
  · rintro ⟨t, ht, hpre, hended⟩
    obtain ⟨s, hs⟩ := (mem_tails _ _).mp ht
    rcases append_eq_append_iff.mp hs with ⟨a, hx, rfl⟩ | ⟨c, hx, ht⟩
    · have hin : o.word <+: a := prefix_of_prefix_append_cons h.2.1 hpre
      refine .inl ⟨a, (mem_tails _ _).mpr ⟨s, hx.symm⟩, hin, fun hend => ?_⟩
      have hbehind := hended hend
      rw [drop_append_of_le_length hin.length_le] at hbehind
      simpa using hbehind
    · have hfeed : '\n' ≠ '<' := by decide
      refine .inr ((h.in_cons_iff hfeed).mp ?_)
      exact ⟨t, (mem_tails _ _).mpr ⟨c, ht.symm⟩, hpre, hended⟩
  · rintro (⟨t, ht, hpre, hended⟩ | hin)
    · obtain ⟨s, rfl⟩ := (mem_tails _ _).mp ht
      refine ⟨t ++ '\n' :: y, (mem_tails _ _).mpr ⟨s, by simp⟩,
        hpre.trans (prefix_append t _), fun hend => ?_⟩
      rw [drop_append_of_le_length hpre.length_le]
      simpa using hended hend
    · exact hin.of_infix ⟨x ++ ['\n'], [], by simp⟩

theorem IsTag.in_collapse_iff (result : String) :
    o.In (collapseNewlines result).toList ↔ o.In result.toList := by
  fun_induction collapseNewlines result with
  | case1 result hcontains ih =>
    have hback : ∀ x y, o.In (x ++ "\n\n".toList ++ y)
        ↔ o.In (x ++ "\n\n\n".toList ++ y) := by
      intro x y
      simp [h.in_append_newline_iff, h.in_cons_iff]
    rw [ih, replace, String.toList_ofList]
    constructor
    · exact of_replaceAll (by decide) (fun x y => (hback x y).mp) [] result.toList
    · intro hin
      by_contra hnot
      exact of_replaceAll (P := fun l => ¬ o.In l) (by decide)
        (fun x y => mt (hback x y).mpr) [] result.toList hnot hin
  | case2 result hcontains => rfl

theorem IsTag.in_concat_iff {c : Char} (hc : c ≠ '>') : o.In (l ++ [c]) ↔ o.In l := by
  constructor
  · rintro ⟨t, ht, hpre, hended⟩
    rcases suffix_concat_iff.mp ((mem_tails _ _).mp ht) with rfl | ⟨a, rfl, ha⟩
    · exact absurd (prefix_nil.mp hpre) h.ne_nil
    rcases prefix_concat_iff.mp hpre with hword | hpre
    · -- the last letter of the tag, or the end behind it, would be the one put behind
      cases hended' : o.ended with
      | false =>
        have hlast := h.2.2 hended'
        rw [hword, List.getLast?_concat] at hlast
        exact absurd (Option.some.inj hlast) hc
      | true => simpa [hword] using hended hended'
    · refine ⟨a, (mem_tails _ _).mpr ha, hpre, fun hend => ?_⟩
      have hbehind := hended hend
      rw [drop_append_of_le_length hpre.length_le, mem_append, mem_singleton] at hbehind
      exact hbehind.resolve_right hc.symm
  · exact fun hin => hin.of_infix (prefix_append l [c]).isInfix

theorem IsTag.in_trim_iff (result : String) : o.In (trim result).toList ↔ o.In result.toList := by
  have hleft : ∀ l, o.In (l.dropWhile isWhitespace) ↔ o.In l := by
    intro l
    induction l with
    | nil => rfl
    | cons c l ih =>
      rw [dropWhile_cons]
      split
      · next hblank => exact ih.trans (h.in_cons_iff (by rintro rfl; cases hblank)).symm
      · rfl
  have hright : ∀ l, o.In (l.rdropWhile isWhitespace) ↔ o.In l := by
    intro l
    induction l using List.reverseRecOn with
    | nil => rfl
    | append_singleton l c ih =>
      rw [rdropWhile_concat]
      split
      · next hblank => exact ih.trans (h.in_concat_iff (by rintro rfl; cases hblank)).symm
      · rfl
  rw [trim, String.toList_ofList, hright, hleft]

end Opening

/-! ## One pass -/

section

variable {tag : List Char} {l piece : List Char}

/-- What stands before the first place of something does not have it. -/
theorem not_drop_take {P : List Char → Prop} (hmono : ∀ a b, a <+: b → P a → P b) (hnil : ¬ P [])
    {start : Nat} (hbefore : ∀ j < start, ¬ P (l.drop j)) (j : Nat) :
    ¬ P ((l.take start).drop j) := by
  intro hj
  by_cases hlt : j < start
  · exact hbefore j hlt (hmono _ _ ((List.take_prefix start l).drop j) hj)
  rw [drop_eq_nil_of_le ((length_take_le _ _).trans (Nat.not_lt.mp hlt))] at hj
  exact hnil hj

theorem starts_mono {word : List Char} (a b : List Char) (hab : a <+: b)
    (h : Starts id word a) : Starts id word b := h.trans (hab.map id)

/-- A piece is part of the text, and no opening tag in it has an end. -/
theorem xmlPushes_spec (h : piece ∈ xmlPushes id tag l) :
    piece <:+: l ∧ ∀ j, XmlOpens id tag (piece.drop j) → '>' ∉ piece.drop j := by
  have hmono : ∀ a b, a <+: b → XmlOpens id tag a → XmlOpens id tag b :=
    fun a b hab => Or.imp (starts_mono a b hab) (starts_mono a b hab)
  have hnil : ¬ XmlOpens id tag [] := fun h => h.ne_nil rfl
  have hbefore : ∀ {l : List Char} {start : Nat}, nextOpen id tag l = some start →
      ∀ j, XmlOpens id tag ((l.take start).drop j) → '>' ∉ (l.take start).drop j :=
    fun hopen j hj => absurd hj (not_drop_take hmono hnil (nextOpen_eq_some hopen).2 j)
  fun_induction xmlPushes id tag l with
  | case1 l hopen =>
    rw [mem_singleton.mp h]
    exact ⟨infix_refl _, fun j hj => absurd hj (nextOpen_eq_none hopen j)⟩
  | case2 l start hopen hend =>
    rcases mem_pair.mp h with rfl | rfl
    · exact ⟨(List.take_prefix _ _).isInfix, hbefore hopen⟩
    refine ⟨infix_refl _, fun j hj hmem => ?_⟩
    -- behind the place where the tag begins there is no end of it
    have hle : start ≤ j := by
      by_contra hlt
      exact (nextOpen_eq_some hopen).2 j (Nat.lt_of_not_le hlt) hj
    rw [← Nat.add_sub_cancel' hle, ← drop_drop] at hmem
    exact ne_of_find_eq_none hend (mem_of_mem_drop hmem) rfl
  | case3 l start hopen pos hend hclose =>
    rcases mem_pair.mp h with rfl | rfl
    · exact ⟨(List.take_prefix _ _).isInfix, hbefore hopen⟩
    · exact ⟨List.nil_infix, fun j hj => absurd drop_nil hj.ne_nil⟩
  | case4 l start hopen pos hend closeOffset hclose ih =>
    rcases mem_cons.mp h with rfl | h
    · exact ⟨(List.take_prefix _ _).isInfix, hbefore hopen⟩
    · exact ⟨(ih h).1.trans (drop_suffix _ _).isInfix, (ih h).2⟩

theorem pipePushes_spec (h : piece ∈ pipePushes id tag l) :
    piece <:+: l ∧ ∀ j, ¬ PipeOpens id tag (piece.drop j) := by
  have hnil : ¬ PipeOpens id tag [] := fun h => cons_ne_nil _ _ (prefix_nil.mp h)
  have hbefore : ∀ {l : List Char} {start : Nat}, find id (openPipe tag) l = some start →
      ∀ j, ¬ PipeOpens id tag ((l.take start).drop j) :=
    fun hopen => not_drop_take starts_mono hnil (find_eq_some hopen).2
  fun_induction pipePushes id tag l with
  | case1 l hopen =>
    rw [mem_singleton.mp h]
    exact ⟨infix_refl _, find_eq_none hopen⟩
  | case2 l start hopen hclose =>
    rcases mem_pair.mp h with rfl | rfl
    · exact ⟨(List.take_prefix _ _).isInfix, hbefore hopen⟩
    · exact ⟨List.nil_infix, fun j => by rwa [drop_nil]⟩
  | case3 l start hopen closeOffset hclose ih =>
    rcases mem_cons.mp h with rfl | h
    · exact ⟨(List.take_prefix _ _).isInfix, hbefore hopen⟩
    · exact ⟨(ih h).1.trans (drop_suffix _ _).isInfix, (ih h).2⟩

theorem Opening.In.exists_place {o : Opening} (h : o.In l) :
    ∃ j, o.word <+: l.drop j ∧ (o.ended = true → '>' ∈ (l.drop j).drop o.word.length) := by
  obtain ⟨t, ht, hfacts⟩ := h
  obtain ⟨x, rfl⟩ := (mem_tails _ _).mp ht
  exact ⟨x.length, by rwa [drop_left]⟩

theorem Pass.pushes_spec {p : Pass} (h : piece ∈ p.pushes l) :
    piece <:+: l ∧ ∀ o ∈ p.openings, ¬ o.In piece := by
  have hstarts : ∀ {word m : List Char}, word <+: m → Starts id word m := by simp [Starts]
  obtain ⟨tag, form⟩ := p
  cases form with
  | xml =>
    obtain ⟨hpart, hclear⟩ := xmlPushes_spec h
    refine ⟨hpart, fun o ho hin => ?_⟩
    obtain ⟨j, hpre, hended⟩ := hin.exists_place
    rcases mem_pair.mp ho with rfl | rfl
    · exact hclear j (.inl (hstarts hpre)) (hpre.subset (by simp [openExact]))
    · exact hclear j (.inr (hstarts hpre)) (mem_of_mem_drop (hended rfl))
  | pipe =>
    obtain ⟨hpart, hclear⟩ := pipePushes_spec h
    refine ⟨hpart, fun o ho hin => ?_⟩
    obtain ⟨j, hpre, -⟩ := hin.exists_place
    rw [mem_singleton.mp ho] at hpre
    exact hclear j (hstarts hpre)

end

/-! ## All passes -/

theorem Stripping.passed_run (s : Stripping) (steps : List Pass) :
    (run Stripping.step s steps).passed = steps.reverse ++ s.passed := by
  induction steps generalizing s with
  | nil => rfl
  | cons _ _ ih => simp [ih, step]

/-- A tag that one pass looks for comes into the text only if that pass or a later one forms it. -/
theorem Stripping.forms_of_step {s : Stripping} {p q : Pass} {o : Opening} (ho : o ∈ q.openings)
    (hq : q ∈ (s.step p).passed) (hin : o.In (s.step p).text)
    (hbefore : ¬ (q ∈ s.passed ∧ o.In s.text)) : o.Forms (p.pushes s.text) := by
  refine ⟨hin, fun piece hpiece hpin => ?_⟩
  rcases mem_cons.mp hq with rfl | hq
  · exact (Pass.pushes_spec hpiece).2 o ho hpin
  · exact hbefore ⟨hq, hpin.of_infix (Pass.pushes_spec hpiece).1⟩

def NoInternalTags (text : String) : Prop := ∀ p ∈ passes, ∀ o ∈ p.openings, ¬ o.In text.toList

instance (text : String) : Decidable (NoInternalTags text) :=
  inferInstanceAs (Decidable (∀ p ∈ passes, ∀ o ∈ p.openings, _))

theorem in_stripInternalTags_iff {p : Pass} (hp : p ∈ passes) {o : Opening} (ho : o ∈ p.openings)
    (text : String) : o.In (stripInternalTags text).toList
      ↔ o.In (run Stripping.step { text := text.toList } passes).text := by
  have htag := Opening.openings_isTag p hp o ho
  rw [stripInternalTags_eq, htag.in_trim_iff, htag.in_collapse_iff, String.toList_ofList]

end TitanClaw.Llm
