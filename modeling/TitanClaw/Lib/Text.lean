import TitanClaw.Lib.Replace
import Mathlib.Algebra.Ring.Int.Defs
import Mathlib.Algebra.Ring.Nat
import Mathlib.Data.List.DropRight

/-! # Text — strings as the source language sees them

A string is a list of characters to everything that compares or rewrites it,
and a list of UTF-8 bytes to everything that MEASURES or SLICES it. Lengths
and offsets below are therefore byte counts, while the pieces handed out are
strings again. -/

namespace Text

open List Char

variable (s : String)

def utf8 : List UInt8 := s.toList.flatMap String.utf8EncodeChar

/-- The length of a string in bytes (`str::len`). -/
def len : Nat := (s.toList.map utf8Size).sum

/-- Drop `n` bytes' worth of characters. -/
def dropBytes : Nat → List Char → List Char
  | _, [] => []
  | n, c :: cs => if n = 0 then c :: cs else dropBytes (n - c.utf8Size) cs

/-- Take `n` bytes' worth of characters. -/
def takeBytes : Nat → List Char → List Char
  | _, [] => []
  | n, c :: cs => if n = 0 then [] else c :: takeBytes (n - c.utf8Size) cs

/-- The slice `&s[a..b]`, for offsets that are character boundaries. -/
def slice (a b : Nat) : String := String.ofList (takeBytes (b - a) (dropBytes a s.toList))

/-- The character `c` written `n` times. -/
def repeatChar (c : Char) (n : Nat) : String := String.ofList (List.replicate n c)

variable (s pat : String)

/-- `str::contains` of a literal. -/
def contains : Bool := decide (pat.toList <:+: s.toList)

/-- `str::starts_with` of a literal. -/
def startsWith : Bool := pat.toList.isPrefixOf s.toList

/-- `str::ends_with` of a literal. -/
def endsWith : Bool := pat.toList.isSuffixOf s.toList

/-- `str::strip_prefix` of a literal. -/
def stripPrefix : Option String :=
  if startsWith s pat then some (String.ofList (s.toList.drop pat.toList.length)) else none

theorem stripPrefix_eq_some_iff {s pat d : String} : stripPrefix s pat = some d ↔ s = pat ++ d := by
  rw [stripPrefix, startsWith, Option.ite_none_right_eq_some, isPrefixOf_iff_prefix,
    ← String.toList_inj, String.toList_append]
  constructor
  · rintro ⟨⟨t, ht⟩, hd⟩
    rw [← Option.some.inj hd, String.toList_ofList, ← ht, drop_left]
  · intro h
    rw [h, drop_left, String.ofList_toList]
    exact ⟨prefix_append _ _, rfl⟩

/-- `str::strip_suffix` of a literal. -/
def stripSuffix : Option String :=
  if endsWith s pat then some (String.ofList (s.toList.take (s.toList.length - pat.toList.length)))
  else none

/-- `str::replace` of a nonempty literal. -/
def replace (s pat by_ : String) : String :=
  String.ofList (Replace.replaceAll pat.toList by_.toList 0 s.toList)

def floorCharBoundary (pos : Nat) : Nat := go pos 0 s.toList
where
  go (pos at_ : Nat) : List Char → Nat
    | [] => at_
    | c :: cs => if at_ + c.utf8Size ≤ pos then go pos (at_ + c.utf8Size) cs else at_

/-- The character offsets of the non-overlapping occurrences of a nonempty
literal, left to right (`str::match_indices`); `skip` characters of the last
occurrence are still to be passed over. -/
def matchIndices (pat : List Char) (skip i : Nat) : List Char → List Nat
  | [] => []
  | c :: cs =>
      match skip with
      | skip + 1 => matchIndices pat skip (i + 1) cs
      | 0 =>
          if pat.isPrefixOf (c :: cs) then
            i :: matchIndices pat (pat.length - 1) (i + 1) cs
          else matchIndices pat 0 (i + 1) cs

/-- `str::lines`: the text split at line feeds, without the line ending's
carriage return; nothing behind a final line feed. -/
def lines : List String := (go [] s.toList).map String.ofList
where
  go (cur : List Char) : List Char → List (List Char)
    | [] => if cur.isEmpty then [] else [cur.reverse]
    | '\n' :: cs =>
        (match cur with
          | '\r' :: cur => cur.reverse
          | cur => cur.reverse) :: go [] cs
    | c :: cs => go (c :: cur) cs

section Lines

variable {Q : List Char → Prop}

theorem go_nil (cur : List Char) :
    lines.go cur [] = if cur.isEmpty then [] else [cur.reverse] := rfl

/-- The line that ends here, without its carriage return. -/
theorem go_feed (cur cs : List Char) : ∃ line, lines.go cur ('\n' :: cs) = line :: lines.go [] cs
    ∧ (line = cur.reverse ∨ line ++ ['\r'] = cur.reverse) := by
  cases cur with
  | nil => exact ⟨[], rfl, .inl rfl⟩
  | cons d cur =>
    by_cases hd : d = '\r'
    · subst hd
      exact ⟨cur.reverse, rfl, .inr reverse_cons.symm⟩
    · refine ⟨(d :: cur).reverse, ?_, .inl rfl⟩
      rw [lines.go]
      exact fun _ h => hd (cons.inj h).1

theorem go_letter {c : Char} (hc : c ≠ '\n') (cur cs : List Char) :
    lines.go cur (c :: cs) = lines.go (c :: cur) cs := by
  rw [lines.go]
  exact hc

/-- What holds of a text exactly when it holds of what is before and behind a line feed, and
does not see a carriage return at the end, holds of a text as it holds of its lines. -/
theorem forall_go_iff (hnil : Q []) (hfeed : ∀ x y, Q (x ++ '\n' :: y) ↔ Q x ∧ Q y)
    (hreturn : ∀ x, Q (x ++ ['\r']) ↔ Q x) (cur cs : List Char) :
    (∀ line ∈ lines.go cur cs, Q line) ↔ Q (cur.reverse ++ cs) := by
  induction cs generalizing cur with
  | nil =>
    rw [go_nil]
    split
    · next hempty =>
      rw [isEmpty_iff.mp hempty]
      exact iff_of_true (fun line h => absurd h not_mem_nil) hnil
    · simp
  | cons c cs ih =>
    by_cases hc : c = '\n'
    · subst hc
      obtain ⟨line, hgo, hline⟩ := go_feed cur cs
      rw [hgo, forall_mem_cons, hfeed, ih, reverse_nil, nil_append]
      rcases hline with hline | hline
      · rw [hline]
      · rw [← hline, hreturn]
    · rw [go_letter hc, ih, reverse_cons, append_assoc, singleton_append]

theorem forall_lines_iff (hnil : Q []) (hfeed : ∀ x y, Q (x ++ '\n' :: y) ↔ Q x ∧ Q y)
    (hreturn : ∀ x, Q (x ++ ['\r']) ↔ Q x) (s : String) :
    (∀ line ∈ lines s, Q line.toList) ↔ Q s.toList := by
  rw [lines, forall_mem_map]
  simp only [String.toList_ofList]
  exact forall_go_iff hnil hfeed hreturn [] s.toList

theorem forall_joined_iff (hnil : Q []) (hfeed : ∀ x y, Q (x ++ '\n' :: y) ↔ Q x ∧ Q y)
    (ls : List String) : (∀ l ∈ ls, Q l.toList) ↔ Q ("\n".intercalate ls).toList := by
  rw [String.toList_intercalate]
  induction ls with
  | nil => exact iff_of_true (fun l h => absurd h not_mem_nil) hnil
  | cons l ls ih =>
    cases ls with
    | nil => simp
    | cons =>
      rw [forall_mem_cons, ih]
      exact (hfeed _ _).symm

theorem newline_not_mem_go {cur : List Char} (hcur : '\n' ∉ cur) (cs : List Char) :
    ∀ line ∈ lines.go cur cs, '\n' ∉ line := by
  induction cs generalizing cur with
  | nil =>
    rw [go_nil]
    split
    · exact fun line h => absurd h not_mem_nil
    · simpa using hcur
  | cons c cs ih =>
    by_cases hc : c = '\n'
    · subst hc
      obtain ⟨line, hgo, hline⟩ := go_feed cur cs
      rw [hgo, forall_mem_cons]
      refine ⟨fun hmem => hcur (mem_reverse.mp ?_), ih not_mem_nil⟩
      rcases hline with hline | hline
      · exact hline ▸ hmem
      · exact hline ▸ mem_append_left _ hmem
    · rw [go_letter hc]
      exact ih (by simp [hcur, Ne.symm hc])

theorem newline_not_mem_lines : ∀ line ∈ lines s, '\n' ∉ line.toList := by
  rw [lines, forall_mem_map]
  simp only [String.toList_ofList]
  exact newline_not_mem_go not_mem_nil s.toList

/-- Up to the first line feed. -/
theorem go_append {x : List Char} (hx : '\n' ∉ x) (cur cs : List Char) :
    lines.go cur (x ++ cs) = lines.go (x.reverse ++ cur) cs := by
  induction x generalizing cur with
  | nil => rfl
  | cons c x ih =>
    rw [mem_cons, not_or] at hx
    rw [cons_append, go_letter (Ne.symm hx.1), ih hx.2, reverse_cons,
      append_assoc, singleton_append]

theorem lines_joined_prefix (ls : List String) (hls : ∀ l ∈ ls, '\n' ∉ l.toList) :
    ∀ line ∈ lines ("\n".intercalate ls), ∃ l ∈ ls, line.toList <+: l.toList := by
  have hfeed : "\n".toList = ['\n'] := rfl
  rw [lines, forall_mem_map, String.toList_intercalate, hfeed]
  simp only [String.toList_ofList]
  induction ls with
  | nil => exact fun line h => absurd h not_mem_nil
  | cons l ls ih =>
    rw [forall_mem_cons] at hls
    cases ls with
    | nil =>
      intro line hline
      refine ⟨l, mem_cons_self, ?_⟩
      have hone : intercalate ['\n'] ([l].map String.toList) = l.toList ++ [] := by simp
      rw [hone, go_append hls.1, append_nil, go_nil] at hline
      split at hline
      · cases hline
      · rw [mem_singleton.mp hline, reverse_reverse]
    | cons l' ls =>
      intro line hline
      have hmore : intercalate ['\n'] ((l :: l' :: ls).map String.toList)
          = l.toList ++ '\n' :: intercalate ['\n'] ((l' :: ls).map String.toList) := rfl
      obtain ⟨first, hgo, hfirst⟩ := go_feed (l.toList.reverse ++ [])
        (intercalate ['\n'] ((l' :: ls).map String.toList))
      rw [hmore, go_append hls.1, hgo] at hline
      rw [append_nil, reverse_reverse] at hfirst
      rcases mem_cons.mp hline with rfl | hrest
      · refine ⟨l, mem_cons_self, ?_⟩
        rcases hfirst with hfirst | hfirst
        · rw [hfirst]
        · exact ⟨['\r'], hfirst⟩
      · obtain ⟨l'', hl'', hpre⟩ := ih hls.2 line hrest
        exact ⟨l'', mem_cons_of_mem l hl'', hpre⟩

end Lines

/-! ## Bytes of slices -/

/-- The offset is the number of bytes of some first characters. -/
def Boundary (n : Nat) : Prop := ∃ k ≤ s.toList.length, n = ((s.toList.take k).map utf8Size).sum

theorem boundary_zero : Boundary s 0 := ⟨0, Nat.zero_le _, by simp⟩

theorem boundary_len : Boundary s (len s) :=
  ⟨s.toList.length, Nat.le_refl _, by rw [take_length, len]⟩

variable (l : List Char) (k : Nat)

theorem dropBytes_sum : dropBytes ((l.take k).map utf8Size).sum l = l.drop k := by
  induction l generalizing k with
  | nil => simp [dropBytes]
  | cons c _ ih =>
    cases k with
    | zero => simp [dropBytes]
    | succ =>
      have hpos := c.utf8Size_pos
      rw [take_succ_cons, map_cons, sum_cons, dropBytes, if_neg (by omega),
        Nat.add_sub_cancel_left, ih, drop_succ_cons]

theorem takeBytes_sum : takeBytes ((l.take k).map utf8Size).sum l = l.take k := by
  induction l generalizing k with
  | nil => simp [takeBytes]
  | cons c _ ih =>
    cases k with
    | zero => simp [takeBytes]
    | succ =>
      have hpos := c.utf8Size_pos
      rw [take_succ_cons, map_cons, sum_cons, takeBytes, if_neg (by omega),
        Nat.add_sub_cancel_left, ih]

theorem length_encode : (l.flatMap String.utf8EncodeChar).length = (l.map utf8Size).sum := by
  induction l with
  | nil => rfl
  | cons _ _ ih =>
    rw [flatMap_cons, length_append, ih, String.length_utf8EncodeChar, map_cons, sum_cons]

theorem length_utf8 : (utf8 s).length = len s := length_encode s.toList

theorem utf8_append (s t : String) : utf8 (s ++ t) = utf8 s ++ utf8 t := by
  rw [utf8, String.toList_append, flatMap_append, utf8, utf8]

theorem take_encode : (l.flatMap String.utf8EncodeChar).take ((l.take k).map utf8Size).sum
      = (l.take k).flatMap String.utf8EncodeChar := by
  conv_lhs => rw [← take_append_drop k l, flatMap_append]
  rw [take_append_drop, ← length_encode, take_left]

theorem drop_encode : (l.flatMap String.utf8EncodeChar).drop ((l.take k).map utf8Size).sum
      = (l.drop k).flatMap String.utf8EncodeChar := by
  conv_lhs => rw [← take_append_drop k l, flatMap_append]
  rw [take_append_drop, ← length_encode, drop_left]

/-- The bytes of a slice are the bytes of the text between its offsets. -/
theorem utf8_slice {s : String} {a b : Nat} (ha : Boundary s a) (hb : Boundary s b)
    (hab : a < b) : utf8 (slice s a b) = ((utf8 s).take b).drop a := by
  obtain ⟨i, hi, rfl⟩ := ha
  obtain ⟨j, hj, rfl⟩ := hb
  have hij : i < j := by
    by_contra hle
    obtain ⟨more, hmore⟩ : s.toList.take j <+: s.toList.take i :=
      take_prefix_take_left (Nat.not_lt.mp hle)
    rw [← hmore, map_append, sum_append] at hab
    omega
  have hbetween : (s.toList.take j).take i = s.toList.take i := by
    rw [take_take, Nat.min_eq_left hij.le]
  have hsum : ((s.toList.take j).map utf8Size).sum - ((s.toList.take i).map utf8Size).sum
      = (((s.toList.drop i).take (j - i)).map utf8Size).sum := by
    conv_lhs => rw [← take_append_drop i (s.toList.take j), hbetween]
    rw [map_append, sum_append, Nat.add_sub_cancel_left, drop_take]
  rw [slice, utf8, String.toList_ofList, hsum, dropBytes_sum, takeBytes_sum, utf8, take_encode,
    ← hbetween, drop_encode, drop_take]

/-- The Unicode `White_Space` characters. -/
def isWhitespace (c : Char) : Bool :=
  let n := c.toNat
  (9 ≤ n && n ≤ 13) || n == 0x20 || n == 0x85 || n == 0xA0 || n == 0x1680
    || (0x2000 ≤ n && n ≤ 0x200A) || n == 0x2028 || n == 0x2029 || n == 0x202F
    || n == 0x205F || n == 0x3000

/-- `str::trim`. -/
def trim : String := String.ofList ((s.toList.dropWhile isWhitespace).rdropWhile isWhitespace)

/-- `str::split_whitespace`. -/
def splitWhitespace : List String :=
  ((s.toList.splitOnP isWhitespace).filter (!·.isEmpty)).map String.ofList

theorem trim_trim : trim (trim s) = trim s := by
  have hhead : (trim s).toList.dropWhile isWhitespace = (trim s).toList := by
    rw [dropWhile_eq_self_iff]
    intro hl
    have hpre : (trim s).toList <+: s.toList.dropWhile isWhitespace := by
      simpa [trim] using rdropWhile_prefix isWhitespace _
    rw [hpre.getElem hl]
    exact dropWhile_get_zero_not isWhitespace s.toList _
  show String.ofList (((trim s).toList.dropWhile isWhitespace).rdropWhile isWhitespace) = trim s
  rw [hhead]
  simp [trim, rdropWhile_idempotent]

/-- The Unicode case mappings of whole strings, which agree with the ASCII
tables where a string is ASCII. -/
structure CaseMap where
  toLowercase : String → String
  toUppercase : String → String
  lower_ascii : ∀ s : String, (∀ c ∈ s.toList, c.toNat < 128) →
    toLowercase s = String.ofList (s.toList.map toLower)
  upper_ascii : ∀ s : String, (∀ c ∈ s.toList, c.toNat < 128) →
    toUppercase s = String.ofList (s.toList.map toUpper)

def asciiCase : CaseMap where
  toLowercase s := String.ofList (s.toList.map toLower)
  toUppercase s := String.ofList (s.toList.map toUpper)
  lower_ascii := fun _ _ => rfl
  upper_ascii := fun _ _ => rfl

/-- A literal whose first letter does not come again occurs nowhere else than where it is
found: the letters that are passed over do not begin one. -/
theorem mem_matchIndices_iff {first : Char} {tail : List Char} (hfirst : first ∉ tail)
    {skip : Nat} {l : List Char} (hskip : first ∉ l.take skip) (k i : Nat) :
    i ∈ matchIndices (first :: tail) skip k l ↔ ∃ j, i = k + j ∧ first :: tail <+: l.drop j := by
  induction l generalizing skip k with
  | nil => simp [matchIndices]
  | cons c cs ih =>
    have hsplit : (∃ j, i = k + j ∧ first :: tail <+: (c :: cs).drop j)
        ↔ (i = k ∧ first :: tail <+: c :: cs)
          ∨ ∃ j, i = k + 1 + j ∧ first :: tail <+: cs.drop j := by
      constructor
      · rintro ⟨j, rfl, hj⟩
        cases j with
        | zero => exact .inl ⟨rfl, hj⟩
        | succ j => exact .inr ⟨j, by omega, hj⟩
      · rintro (⟨rfl, h⟩ | ⟨j, rfl, hj⟩)
        · exact ⟨0, rfl, h⟩
        · exact ⟨j + 1, by omega, hj⟩
    rw [hsplit]
    cases skip with
    | succ skip =>
      rw [take_succ_cons, mem_cons, not_or] at hskip
      have hnot : ¬ first :: tail <+: c :: cs := fun h => hskip.1 (cons_prefix_cons.mp h).1
      simp [matchIndices, ih hskip.2, hnot, and_false, false_or]
    | zero =>
      simp only [matchIndices]
      split
      · next hpre =>
        have hhere := isPrefixOf_iff_prefix.mp hpre
        have htail : first ∉ cs.take ((first :: tail).length - 1) := by
          obtain ⟨rest, hrest⟩ := (cons_prefix_cons.mp hhere).2
          simpa [← hrest] using hfirst
        rw [mem_cons, ih htail, and_iff_left hhere]
      · next hpre =>
        have hnot : ¬ first :: tail <+: c :: cs := by rwa [← isPrefixOf_iff_prefix]
        rw [ih (by simp)]
        simp only [hnot, and_false, false_or]

/-- The characters that `Debug` writes as a code point: those that are not
printable and those that combine with the character before them. Of the ASCII
characters these are the control characters. -/
structure DebugTable where
  escaped : Char → Bool
  escaped_ascii : ∀ c : Char, c.toNat < 128 → escaped c = (decide (c.toNat < 32) || c.toNat == 127)

def asciiDebug : DebugTable where
  escaped c := decide (c.toNat < 32) || c.toNat == 127
  escaped_ascii := fun _ _ => rfl

def debugChar (T : DebugTable) (c : Char) : String :=
  if c = '\x00' then "\\0"
  else if c = '\t' then "\\t"
  else if c = '\r' then "\\r"
  else if c = '\n' then "\\n"
  else if c = '"' then "\\\""
  else if c = '\\' then "\\\\"
  else if T.escaped c then "\\u\x7b" ++ String.ofList (Nat.toDigits 16 c.toNat) ++ "\x7d"
  else String.singleton c

/-- The `Debug` output of a string. -/
def debugText (T : DebugTable) (s : String) : String :=
  "\"" ++ String.join (s.toList.map (debugChar T)) ++ "\""

end Text
