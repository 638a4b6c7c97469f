import TitanClaw.Lib.Scan

/-! # Tags that are stripped from a response

Each tag is stripped in two forms, the one of XML and one with pipes. Both loops push what stands
before the next opening tag and go on behind the closing tag. They are written over symbols that
are read as characters: a response is a text of characters, and a text of numbered characters
tells which of them are pushed. -/

namespace TitanClaw.Llm

open Scan List Function String Cuts

variable (tag : List Char)

def openExact : List Char := '<' :: tag ++ ['>']

def openPrefix : List Char := '<' :: tag ++ [' ']

def closeTag : List Char := '<' :: '/' :: tag ++ ['>']

def openPipe : List Char := '<' :: '|' :: tag ++ ['|', '>']

def closePipe : List Char := '<' :: '|' :: '/' :: tag ++ ['|', '>']

/-! ## The loops -/

section

variable {α : Type} (sym : α → Char) (tag : List Char)

def nextOpen (remaining : List α) : Option Nat :=
  match find sym (openExact tag) remaining, find sym (openPrefix tag) remaining with
  | some a, some b => some (min a b)
  | some a, none => some a
  | none, some b => some b
  | none, none => none

theorem find_drop_lt {word : List Char} (hword : word ≠ []) {l : List α} {start i : Nat}
    (h : find sym word (l.drop start) = some i) : start + i < l.length := by
  have := find_lt hword h
  rw [length_drop] at this
  omega

def xmlPushes (remaining : List α) : List (List α) :=
  match nextOpen sym tag remaining with
  | none => [remaining]
  | some start =>
      match _hend : find sym ['>'] (remaining.drop start) with
      -- malformed: the loop stops, and `remaining` is still as it was
      | none => [remaining.take start, remaining]
      | some pos =>
          match find sym (closeTag tag) (remaining.drop (start + pos + 1)) with
          | none => [remaining.take start, []]
          | some closeOffset =>
              remaining.take start
                :: xmlPushes (remaining.drop
                  (start + pos + 1 + closeOffset + (closeTag tag).length))
termination_by remaining.length
decreasing_by
  have := find_drop_lt sym (cons_ne_nil _ _) _hend
  rw [length_drop]
  omega

def pipePushes (remaining : List α) : List (List α) :=
  match _hopen : find sym (openPipe tag) remaining with
  | none => [remaining]
  | some start =>
      match find sym (closePipe tag) (remaining.drop start) with
      | none => [remaining.take start, []]
      | some closeOffset =>
          remaining.take start
            :: pipePushes (remaining.drop (start + closeOffset + (closePipe tag).length))
termination_by remaining.length
decreasing_by
  have := find_lt (cons_ne_nil _ _) _hopen
  have : 0 < (closePipe tag).length := Nat.zero_lt_succ _
  rw [length_drop]
  omega

def stripXml (text : List α) : List α := (xmlPushes sym tag text).flatten

def stripPipe (text : List α) : List α := (pipePushes sym tag text).flatten

end

def stripXmlTag (text tag : String) : String := String.ofList (stripXml id tag.toList text.toList)

def stripPipeTag (text tag : String) : String := String.ofList (stripPipe id tag.toList text.toList)

section

variable {α : Type} (sym : α → Char) (tag : List Char)

def XmlOpens (l : List α) : Prop := Starts sym (openExact tag) l ∨ Starts sym (openPrefix tag) l

def PipeOpens (l : List α) : Prop := Starts sym (openPipe tag) l

variable {sym tag} {l : List α} {start : Nat}

theorem nextOpen_eq_some (h : nextOpen sym tag l = some start) :
    XmlOpens sym tag (l.drop start) ∧ ∀ j < start, ¬ XmlOpens sym tag (l.drop j) := by
  unfold nextOpen at h
  cases hexact : find sym (openExact tag) l with
  | none =>
    cases hprefix : find sym (openPrefix tag) l with
    | none => simp [hexact, hprefix] at h
    | some =>
      rw [hexact, hprefix] at h
      cases h
      obtain ⟨hat, hbefore⟩ := find_eq_some hprefix
      exact ⟨.inr hat, fun j hj hopen => hopen.elim (find_eq_none hexact j) (hbefore j hj)⟩
  | some a =>
    cases hprefix : find sym (openPrefix tag) l with
    | none =>
      rw [hexact, hprefix] at h
      cases h
      obtain ⟨hat, hbefore⟩ := find_eq_some hexact
      exact ⟨.inl hat, fun j hj hopen => hopen.elim (hbefore j hj) (find_eq_none hprefix j)⟩
    | some b =>
      rw [hexact, hprefix] at h
      obtain ⟨hat, hbefore⟩ := find_eq_some hexact
      obtain ⟨hat', hbefore'⟩ := find_eq_some hprefix
      have hstart : start = min a b := (Option.some.inj h).symm
      refine ⟨?_, fun j hj hopen => hopen.elim (hbefore j (by omega)) (hbefore' j (by omega))⟩
      rcases Nat.le_total a b with hle | hle
      · rw [hstart, Nat.min_eq_left hle]
        exact .inl hat
      · rw [hstart, Nat.min_eq_right hle]
        exact .inr hat'

theorem nextOpen_eq_none (h : nextOpen sym tag l = none) (j : Nat) :
    ¬ XmlOpens sym tag (l.drop j) := by
  unfold nextOpen at h
  cases hexact : find sym (openExact tag) l with
  | none =>
    cases hprefix : find sym (openPrefix tag) l with
    | none => exact fun hopen => hopen.elim (find_eq_none hexact j) (find_eq_none hprefix j)
    | some => simp [hexact, hprefix] at h
  | some => cases hprefix : find sym (openPrefix tag) l <;> simp [hexact, hprefix] at h

theorem XmlOpens.ne_nil (h : XmlOpens sym tag l) : l ≠ [] := by
  rintro rfl
  rcases h with h | h
  · exact absurd (prefix_nil.mp h) (cons_ne_nil _ _)
  · exact absurd (prefix_nil.mp h) (cons_ne_nil _ _)

variable (sym tag)

theorem xmlPushes_eq (l : List α) : xmlPushes sym tag l =
    match nextOpen sym tag l with
    | none => [l]
    | some start =>
        match find sym ['>'] (l.drop start) with
        | none => [l.take start, l]
        | some pos =>
            match find sym (closeTag tag) (l.drop (start + pos + 1)) with
            | none => [l.take start, []]
            | some closeOffset => l.take start :: xmlPushes sym tag
                (l.drop (start + pos + 1 + closeOffset + (closeTag tag).length)) := by
  conv_lhs => unfold xmlPushes
  cases nextOpen sym tag l with
  | none => rfl
  | some =>
    dsimp only
    split
    · next hnone => rw [hnone]
    · next hsome => rw [hsome]

theorem pipePushes_eq (l : List α) : pipePushes sym tag l =
    match find sym (openPipe tag) l with
    | none => [l]
    | some start =>
        match find sym (closePipe tag) (l.drop start) with
        | none => [l.take start, []]
        | some closeOffset => l.take start
            :: pipePushes sym tag (l.drop (start + closeOffset + (closePipe tag).length)) := by
  conv_lhs => unfold pipePushes
  split
  · next hnone => rw [hnone]
  · next hsome => rw [hsome]

/-- Behind the blocks that are closed there is some text, and then an opening tag that no `>`
follows. -/
inductive Doubles : List α → Prop where
  | here {l : List α} {start : Nat} (hopen : nextOpen sym tag l = some start) (hpos : 0 < start)
      (hend : find sym ['>'] (l.drop start) = none) : Doubles l
  | behind {l : List α} {start pos closeOffset : Nat} (hopen : nextOpen sym tag l = some start)
      (hend : find sym ['>'] (l.drop start) = some pos)
      (hclose : find sym (closeTag tag) (l.drop (start + pos + 1)) = some closeOffset)
      (h : Doubles (l.drop (start + pos + 1 + closeOffset + (closeTag tag).length))) : Doubles l

variable {sym tag} {l : List α}

theorem stripXml_cuts (h : ¬ Doubles sym tag l) :
    Cuts (XmlOpens sym tag) l (stripXml sym tag l) := by
  unfold stripXml
  fun_induction xmlPushes sym tag l with
  | case1 l hopen =>
    rw [flatten_singleton]
    exact .refl l
  | case2 l start hopen hend =>
    -- nothing stands before the tag that is not closed
    have hzero : start = 0 := by
      by_contra hpos
      exact h (.here hopen (Nat.pos_of_ne_zero hpos) hend)
    simp only [hzero, take_zero, flatten_cons, nil_append, flatten_nil, append_nil]
    exact .refl l
  | case3 l start hopen pos hend hclose =>
    have hlt := find_drop_lt sym (cons_ne_nil _ _) hend
    refine keepThenCut (n := l.length) (by omega) (by omega) (nextOpen_eq_some hopen).1 ?_
    rw [drop_length]
    exact .done
  | case4 l start hopen pos hend closeOffset hclose ih =>
    have hlt := find_drop_lt sym (cons_ne_nil _ _) hend
    refine keepThenCut (by omega) (by omega) (nextOpen_eq_some hopen).1 (ih fun hrest => ?_)
    exact h (.behind hopen hend hclose hrest)

theorem stripPipe_cuts (l : List α) : Cuts (PipeOpens sym tag) l (stripPipe sym tag l) := by
  unfold stripPipe
  fun_induction pipePushes sym tag l with
  | case1 l hopen =>
    rw [flatten_singleton]
    exact .refl l
  | case2 l start hopen hclose =>
    have hlt := find_lt (cons_ne_nil _ _) hopen
    refine keepThenCut (n := l.length) hlt hlt (find_eq_some hopen).1 ?_
    rw [drop_length]
    exact .done
  | case3 l start hopen closeOffset hclose ih =>
    have hlt := find_lt (cons_ne_nil _ _) hopen
    have hlength : 0 < (closePipe tag).length := Nat.zero_lt_succ _
    exact keepThenCut (by omega) hlt (find_eq_some hopen).1 ih

/-- What stands before the tag is pushed twice. -/
theorem Doubles.not_nodup (h : Doubles sym tag l) : ¬ (stripXml sym tag l).Nodup := by
  unfold stripXml
  induction h with
  | @here l _ hopen hpos hend =>
    simp only [xmlPushes_eq sym tag l, hopen, hend, flatten_cons, flatten_nil, append_nil]
    have hne : l ≠ [] := by
      rintro rfl
      exact (nextOpen_eq_some hopen).1.ne_nil drop_nil
    obtain ⟨c, cs, rfl⟩ := exists_cons_of_ne_nil hne
    intro hnodup
    refine (disjoint_of_nodup_append hnodup) (a := c) ?_ mem_cons_self
    obtain ⟨k, rfl⟩ := Nat.exists_eq_add_one_of_ne_zero hpos.ne'
    exact mem_cons_self
  | @behind l _ _ _ hopen hend hclose _ ih =>
    simp only [xmlPushes_eq sym tag l, hopen, hend, hclose, flatten_cons]
    exact fun hnodup => ih hnodup.of_append_right

end

/-! ## Numbered characters -/

section

variable {α : Type} (sym : α → Char) (tag : List Char) (l : List α)

theorem nextOpen_map : nextOpen id tag (l.map sym) = nextOpen sym tag l := by
  simp only [nextOpen, find_map, id_comp]

theorem find_drop_map (word : List Char) (l : List α) (n : Nat) :
    find id word ((l.map sym).drop n) = find sym word (l.drop n) := by
  rw [← map_drop, find_map, id_comp]

/-- The loop reads nothing of a symbol but its character. -/
theorem map_xmlPushes : xmlPushes id tag (l.map sym) = (xmlPushes sym tag l).map (map sym) := by
  fun_induction xmlPushes sym tag l with
  | case1 l hopen => simp [xmlPushes_eq, nextOpen_map, hopen, map_cons, map_nil]
  | case2 l start hopen hend =>
    simp [xmlPushes_eq, nextOpen_map, find_drop_map, hopen, hend, map_cons, map_nil, map_take]
  | case3 l start hopen pos hend hclose =>
    simp [xmlPushes_eq, nextOpen_map, find_drop_map, hopen, hend, hclose, map_cons, map_nil,
      map_take]
  | case4 l start hopen pos hend closeOffset hclose ih =>
    rw [xmlPushes_eq]
    simp only [nextOpen_map, find_drop_map, hopen, hend, hclose]
    rw [← map_drop, ih, map_cons, map_take]

theorem map_pipePushes : pipePushes id tag (l.map sym) = (pipePushes sym tag l).map (map sym) := by
  have hfind : ∀ (word : List Char) (l : List α), find id word (l.map sym) = find sym word l :=
    fun word l => find_drop_map sym word l 0
  fun_induction pipePushes sym tag l with
  | case1 l hopen => simp [pipePushes_eq, hfind, hopen, map_cons, map_nil]
  | case2 l start hopen hclose =>
    simp [pipePushes_eq, hfind, find_drop_map, hopen, hclose, map_cons, map_nil, map_take]
  | case3 l start hopen closeOffset hclose ih =>
    rw [pipePushes_eq]
    simp only [hfind, find_drop_map, hopen, hclose]
    rw [← map_drop, ih, map_cons, map_take]

theorem doubles_map : Doubles id tag (l.map sym) ↔ Doubles sym tag l := by
  constructor
  · intro h
    generalize hm : l.map sym = m at h
    induction h generalizing l with
    | here hopen hpos hend =>
      subst hm
      rw [nextOpen_map] at hopen
      rw [find_drop_map] at hend
      exact .here hopen hpos hend
    | behind hopen hend hclose _ ih =>
      subst hm
      rw [nextOpen_map] at hopen
      rw [find_drop_map] at hend hclose
      exact .behind hopen hend hclose (ih _ (map_drop ..))
  · intro h
    induction h with
    | here hopen hpos hend =>
      exact .here ((nextOpen_map ..).trans hopen) hpos ((find_drop_map ..).trans hend)
    | behind hopen hend hclose =>
      refine .behind ((nextOpen_map ..).trans hopen) ((find_drop_map ..).trans hend)
        ((find_drop_map ..).trans hclose) ?_
      rwa [← map_drop]

end

variable (text : String)

/-- The characters of a text with their places. -/
def numbered : List (Char × Nat) := text.toList.zipIdx

theorem map_fst_numbered : (numbered text).map Prod.fst = text.toList := zipIdx_map_fst 0 _

theorem nodup_numbered : (numbered text).Nodup := by
  refine Nodup.of_map Prod.snd ?_
  rw [numbered, zipIdx_map_snd]
  exact nodup_range'

variable (text tag : String)

/-- The result is what the loop makes of the numbered characters. -/
theorem stripXmlTag_eq :
    stripXmlTag text tag
      = String.ofList ((stripXml Prod.fst tag.toList (numbered text)).map Prod.fst) := by
  rw [stripXmlTag, stripXml, stripXml, map_flatten, ← map_xmlPushes, map_fst_numbered]

theorem stripPipeTag_eq :
    stripPipeTag text tag
      = String.ofList ((stripPipe Prod.fst tag.toList (numbered text)).map Prod.fst) := by
  rw [stripPipeTag, stripPipe, stripPipe, map_flatten, ← map_pipePushes, map_fst_numbered]

/-- Both loops leave the characters that they do not cut out, each of them once and in order;
what they cut out are parts that begin with an opening tag, and where there is none they leave
the text as it is. -/
structure OnlyDeletes (text tag : String) : Prop where
  xml : Cuts (XmlOpens Prod.fst tag.toList) (numbered text)
    (stripXml Prod.fst tag.toList (numbered text))
  pipe : Cuts (PipeOpens Prod.fst tag.toList) (numbered text)
    (stripPipe Prod.fst tag.toList (numbered text))
  xmlPlain : (∀ j, ¬ XmlOpens id tag.toList (text.toList.drop j)) → stripXmlTag text tag = text
  pipePlain : (∀ j, ¬ PipeOpens id tag.toList (text.toList.drop j)) → stripPipeTag text tag = text

theorem stripXmlTag_plain {text tag : String}
    (h : ∀ j, ¬ XmlOpens id tag.toList (text.toList.drop j)) : stripXmlTag text tag = text := by
  have hnone : nextOpen id tag.toList text.toList = none := by
    cases hopen : nextOpen id tag.toList text.toList with
    | none => rfl
    | some start => exact absurd (nextOpen_eq_some hopen).1 (h start)
  rw [stripXmlTag, stripXml, xmlPushes_eq, hnone, flatten_singleton, ofList_toList]

theorem stripPipeTag_plain {text tag : String}
    (h : ∀ j, ¬ PipeOpens id tag.toList (text.toList.drop j)) : stripPipeTag text tag = text := by
  have hnone : find id (openPipe tag.toList) text.toList = none := by
    cases hopen : find id (openPipe tag.toList) text.toList with
    | none => rfl
    | some start => exact absurd (find_eq_some hopen).1 (h start)
  rw [stripPipeTag, stripPipe, pipePushes_eq, hnone, flatten_singleton, ofList_toList]

/-- The loops only delete, but for texts in which, behind the blocks that are closed, an opening
tag has no end and something stands before it. -/
theorem onlyDeletes_iff : OnlyDeletes text tag ↔ ¬ Doubles id tag.toList text.toList := by
  rw [← map_fst_numbered text, doubles_map]
  constructor
  · intro h hdoubles
    exact hdoubles.not_nodup (h.xml.sublist.nodup (nodup_numbered text))
  · intro h
    exact ⟨stripXml_cuts h, stripPipe_cuts _, stripXmlTag_plain, stripPipeTag_plain⟩

/-- The text before a tag without its end comes twice. -/
theorem unfinished_tag_doubles :
    stripXmlTag "Done.<thinking about it" "thinking" = "Done.Done.<thinking about it"
      ∧ ¬ OnlyDeletes "Done.<thinking about it" "thinking" := by
  refine ⟨by decide +kernel, fun h => ?_⟩
  have hlength := h.xml.sublist.length_le
  revert hlength
  decide +kernel

end TitanClaw.Llm
