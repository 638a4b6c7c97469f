import Mathlib.Tactic.IntervalCases
import Std.Data.String.ToNat

/-! # JSON text

String literals and pretty-printed arrays of them, with a reader for what the
printer writes. The reader undoes the printer on every value (`readString_quote`,
`readArray_array`), whatever text follows. -/

namespace JsonText

open List Option

/-! ## String literals -/

def hexDigit (n : Nat) : Char := "0123456789abcdef".toList.getD n '0'

variable (c : Char)

/-- The escape of one character: the short forms, `\u00xx` for the other control
characters, and the character itself elsewhere. -/
def escapeChar : List Char :=
  if c = '"' then ['\\', '"']
  else if c = '\\' then ['\\', '\\']
  else if c = '\x08' then ['\\', 'b']
  else if c = '\x0c' then ['\\', 'f']
  else if c = '\n' then ['\\', 'n']
  else if c = '\r' then ['\\', 'r']
  else if c = '\t' then ['\\', 't']
  else if c.toNat < 32 then ['\\', 'u', '0', '0', hexDigit (c.toNat / 16), hexDigit (c.toNat % 16)]
  else [c]

/-- A string literal. -/
def quote (s : String) : List Char := '"' :: s.toList.flatMap escapeChar ++ ['"']

def hexValue : Option Nat := "0123456789abcdef".toList.idxOf? c.toLower

def hexChar (a b c d : Char) : Option Char := do
  let a ← hexValue a
  let b ← hexValue b
  let c ← hexValue c
  let d ← hexValue d
  pure (Char.ofNat (((a * 16 + b) * 16 + c) * 16 + d))

def shortEscape : Char → Option Char
  | '"' => some '"'
  | '\\' => some '\\'
  | '/' => some '/'
  | 'b' => some '\x08'
  | 'f' => some '\x0c'
  | 'n' => some '\n'
  | 'r' => some '\r'
  | 't' => some '\t'
  | _ => none

def readString : List Char → Option (List Char × List Char)
  | [] => none
  | c :: rest =>
      if c = '"' then some ([], rest)
      else if c = '\\' then
        match rest with
        | 'u' :: a :: b :: c :: d :: rest =>
            (hexChar a b c d).bind fun ch => (readString rest).map fun (cs, r) => (ch :: cs, r)
        | e :: rest =>
            (shortEscape e).bind fun ch => (readString rest).map fun (cs, r) => (ch :: cs, r)
        | [] => none
      else if c.toNat < 32 then none
      else (readString rest).map fun (cs, r) => (c :: cs, r)

theorem readString_escape_control {n : Nat} (hn : n < 32) (t : List Char) :
    readString (escapeChar (Char.ofNat n) ++ t)
      = (readString t).map fun (cs, r) => (Char.ofNat n :: cs, r) := by
  interval_cases n <;> rfl

theorem readString_escapeChar (t : List Char) :
    readString (escapeChar c ++ t) = (readString t).map fun (cs, r) => (c :: cs, r) := by
  by_cases hctl : c.toNat < 32
  · have hc := readString_escape_control hctl t
    rwa [Char.ofNat_toNat] at hc
  · by_cases hq : c = '"'
    · subst hq
      rfl
    · by_cases hb : c = '\\'
      · subst hb
        rfl
      · have hne : ∀ d, d.toNat < 32 → c ≠ d := by
          rintro d hd rfl
          exact hctl hd
        have hesc : escapeChar c = [c] := by
          simp [escapeChar, hq, hb, hctl, hne '\x08' (by decide),
            hne '\x0c' (by decide), hne '\n' (by decide), hne '\r' (by decide),
            hne '\t' (by decide)]
        rw [hesc, singleton_append, readString.eq_def]
        simp only [if_neg hq, if_neg hb, if_neg hctl]

theorem readString_quote (s t : List Char) :
    readString (s.flatMap escapeChar ++ '"' :: t) = some (s, t) := by
  induction s with
  | nil =>
    rw [flatMap_nil, nil_append, readString.eq_def]
    rfl
  | cons c s ih =>
    rw [flatMap_cons, append_assoc, readString_escapeChar, ih]
    rfl

theorem length_readString {text s rest : List Char} (h : readString text = some (s, rest)) :
    s.length < text.length := by
  -- one more character of the string takes one or more of the literal
  have hmore {tail s rest : List Char} {ch : Char}
      (ih : ∀ {s rest : List Char}, readString tail = some (s, rest) → s.length < tail.length)
      (hread : ((readString tail).map fun (cs, r) => (ch :: cs, r)) = some (s, rest)) :
      s.length < tail.length + 1 := by
    obtain ⟨⟨cs, r⟩, hcs, heq⟩ := map_eq_some_iff.mp hread
    cases heq
    exact Nat.succ_lt_succ (ih hcs)
  fun_induction readString text generalizing s rest with
  | case1 | case5 | case6 => cases h
  | case2 =>
    cases h
    exact Nat.succ_pos _
  | case3 _ _ _ _ _ _ ih | case4 _ _ _ _ ih =>
    obtain ⟨ch, -, hread⟩ := bind_eq_some_iff.mp h
    exact (hmore ih hread).trans (by simp)
  | case7 _ _ _ _ _ ih => exact hmore ih h

/-! ## Arrays of strings -/

/-- Cut a literal off the front of a text. -/
def strip (lit text : List Char) : Option (List Char) :=
  if lit.isPrefixOf text then some (text.drop lit.length) else none

@[simp] theorem strip_append (lit text : List Char) : strip lit (lit ++ text) = some text := by
  simp [strip]

def items : List String → List Char
  | [] => []
  | [s] => "\n    ".toList ++ quote s
  | s :: rest => "\n    ".toList ++ quote s ++ ',' :: items rest

theorem items_singleton (s : String) : items [s] = "\n    ".toList ++ quote s := rfl

theorem items_cons (s s' : String) (xs : List String) :
    items (s :: s' :: xs) = "\n    ".toList ++ quote s ++ ',' :: items (s' :: xs) := rfl

variable (xs : List String)

def array : List Char :=
  if xs.isEmpty then "[]".toList else '[' :: items xs ++ "\n  ]".toList

def readItems : (fuel : Nat) → List Char → Option (List String × List Char)
  | 0, _ => none
  | fuel + 1, text => do
      let text ← strip "\n    \"".toList text
      let (s, text) ← readString text
      match text with
      | ',' :: text =>
          let (rest, text) ← readItems fuel text
          pure (String.ofList s :: rest, text)
      | _ => pure ([String.ofList s], text)

def readArray (text : List Char) : Option (List String × List Char) :=
  match strip "[]".toList text with
  | some text => some ([], text)
  | none => do
      let text ← strip "[".toList text
      let (xs, text) ← readItems text.length text
      let text ← strip "\n  ]".toList text
      pure (xs, text)

theorem readItems_items {xs : List String} (hne : xs ≠ []) {fuel : Nat}
    (hfuel : xs.length ≤ fuel) {t : List Char} (ht : ∀ u, t ≠ ',' :: u) :
    readItems fuel (items xs ++ t) = some (xs, t) := by
  have hopen : ∀ (s : String) (u : List Char),
      strip "\n    \"".toList ("\n    ".toList ++ quote s ++ u)
        = some (s.toList.flatMap escapeChar ++ '"' :: u) := by
    intro s u
    have heq : "\n    ".toList ++ quote s ++ u
        = "\n    \"".toList ++ (s.toList.flatMap escapeChar ++ '"' :: u) := by
      simp [quote]
    rw [heq, strip_append]
  induction xs generalizing fuel with
  | nil => exact absurd rfl hne
  | cons s xs ih =>
    cases fuel with
    | zero => simp at hfuel
    | succ fuel =>
      cases xs with
      | nil =>
        simp only [items_singleton, readItems, hopen, bind_eq_bind, bind_some,
          readString_quote, String.ofList_toList]
        rfl
      | cons s' xs =>
        have hle : (s' :: xs).length ≤ fuel := by simpa using hfuel
        have ih' := ih (by simp) hle
        have htext : items (s :: s' :: xs) ++ t
            = "\n    ".toList ++ quote s ++ (',' :: (items (s' :: xs) ++ t)) := by
          simp [items_cons]
        rw [htext, readItems]
        simp only [hopen, bind_eq_bind, bind_some, readString_quote, ih', String.ofList_toList]
        rfl

theorem length_le_length_items : xs.length ≤ (items xs).length := by
  induction xs with
  | nil => simp
  | cons s xs ih =>
    cases xs with
    | nil => simp [items_singleton]
    | cons =>
      simp only [items_cons, length_append, length_cons] at ih ⊢
      omega

/-- **The reader undoes the printer** on every array of strings. -/
theorem readArray_array (t : List Char) : readArray (array xs ++ t) = some (xs, t) := by
  cases xs with
  | nil =>
    show readArray ("[]".toList ++ t) = _
    rw [readArray, strip_append]
  | cons s xs =>
    have htext : array (s :: xs) ++ t
        = "[".toList ++ (items (s :: xs) ++ ("\n  ]".toList ++ t)) := by
      simp [array]
    have hhead : ∃ u, items (s :: xs) = '\n' :: u := by
      cases xs with
      | nil | cons => exact ⟨_, rfl⟩
    have hnil : strip "[]".toList (array (s :: xs) ++ t) = none := by
      obtain ⟨u, hu⟩ := hhead
      rw [htext, hu]
      simp [strip]
    have hfuel : (s :: xs).length ≤ (items (s :: xs) ++ ("\n  ]".toList ++ t)).length := by
      have := length_le_length_items (s :: xs)
      rw [length_append]
      omega
    have hitems := readItems_items (by simp) hfuel (t := "\n  ]".toList ++ t) (by intro u; simp)
    rw [readArray, hnil, htext]
    simp only [strip_append, hitems, bind_eq_bind, bind_some]
    rfl

end JsonText
