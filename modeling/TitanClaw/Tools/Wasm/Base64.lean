import Mathlib.Data.List.Basic
import Mathlib.Tactic.Common

/-! # The encoder of Basic authentication

`base64_encode` against a decoder of RFC 4648: groups of 24 bits, four characters
a group, and a short last group padded with `=`. -/

namespace TitanClaw.Tools.Wasm

open List Option

/-- `ALPHABET`. -/
def alphabet : List Char :=
  "ABCDEFGHIJKLMNOPQRSTUVWXYZabcdefghijklmnopqrstuvwxyz0123456789+/".toList

/-- A turn of the loop; `none` if an index is out of bounds. -/
def encodeGroup (b0 : UInt8) (b1 b2 : Option UInt8) : Option (List Char) := do
  let c0 ← alphabet[(b0 >>> 2).toNat]?
  let c1 ← alphabet[((b0 &&& 0x03) <<< 4 ||| b1.getD 0 >>> 4).toNat]?
  let c2 ← if b1.isSome then alphabet[((b1.getD 0 &&& 0x0f) <<< 2 ||| b2.getD 0 >>> 6).toNat]?
    else some '='
  let c3 ← if b2.isSome then alphabet[(b2.getD 0 &&& 0x3f).toNat]? else some '='
  return [c0, c1, c2, c3]

/-- The loop, three bytes a turn. -/
def encodeGroups : List UInt8 → Option (List Char)
  | [] => some []
  | [b0] => encodeGroup b0 none none
  | [b0, b1] => encodeGroup b0 (some b1) none
  | b0 :: b1 :: b2 :: rest => do
    let group ← encodeGroup b0 (some b1) (some b2)
    return group ++ (← encodeGroups rest)

def base64Encode (input : List UInt8) : Option String := (encodeGroups input).map String.ofList

/-- The value of a character of the alphabet. -/
def sextet (c : Char) : Option Nat :=
  if c.isUpper then some (c.toNat - 'A'.toNat)
  else if c.isLower then some (c.toNat - 'a'.toNat + 26)
  else if c.isDigit then some (c.toNat - '0'.toNat + 52)
  else if c = '+' then some 62
  else if c = '/' then some 63
  else none

def decodeGroup (c0 c1 : Char) (c2 c3 : Option Char) : Option (List UInt8) := do
  let high := (← sextet c0) * 64 + (← sextet c1)
  match c2, c3 with
  | some c2, some c3 =>
    let bits := (high * 64 + (← sextet c2)) * 64 + (← sextet c3)
    return [.ofNat (bits / 65536), .ofNat (bits / 256 % 256), .ofNat (bits % 256)]
  | some c2, none =>
    let bits := high * 64 + (← sextet c2)
    if bits % 4 = 0 then return [.ofNat (bits / 1024), .ofNat (bits / 4 % 256)] else none
  | none, _ => if high % 16 = 0 then return [.ofNat (high / 16)] else none

def decodeGroups : List Char → Option (List UInt8)
  | [] => some []
  | [c0, c1, c2, c3] =>
    if c3 = '=' then
      if c2 = '=' then decodeGroup c0 c1 none none else decodeGroup c0 c1 (some c2) none
    else decodeGroup c0 c1 (some c2) (some c3)
  | c0 :: c1 :: c2 :: c3 :: rest => do
    let group ← decodeGroup c0 c1 (some c2) (some c3)
    return group ++ (← decodeGroups rest)
  | _ => none

def rfc4648Decode (text : String) : Option (List UInt8) := decodeGroups text.toList

/-- The character at a six-bit index. -/
theorem exists_alphabet {i : UInt8} {n : Nat} (h : i.toNat = n) (hn : n < 64) :
    ∃ c, alphabet[i.toNat]? = some c ∧ sextet c = some n := by
  have hall : ∀ i : Fin 64, alphabet[i.val]?.bind sextet = some i.val := by decide +kernel
  rw [h]
  exact bind_eq_some_iff.mp (hall ⟨n, hn⟩)

theorem toNat_shiftRight_two (b : UInt8) : (b >>> 2).toNat = b.toNat / 4 := by
  simp [Nat.shiftRight_eq_div_pow]

theorem toNat_and_low (b : UInt8) : (b &&& 0x3f).toNat = b.toNat % 64 := by
  simp [Nat.and_two_pow_sub_one_eq_mod _ 6]

/-- The low bits of one byte before the high bits of the next. -/
theorem toNat_joined_four (b b' : UInt8) :
    ((b &&& 0x03) <<< 4 ||| b' >>> 4).toNat = b.toNat % 4 * 16 + b'.toNat / 16 := by
  have hlow := b'.toNat_lt
  have hand := Nat.and_two_pow_sub_one_eq_mod b.toNat 2
  have hor := Nat.two_pow_add_eq_or_of_lt (i := 4) (b := b'.toNat / 16) (by omega) (b.toNat % 4)
  simp [Nat.shiftRight_eq_div_pow, Nat.shiftLeft_eq] at hand ⊢
  rw [hand, Nat.mod_eq_of_lt (by omega : b.toNat % 4 * 16 < 256), Nat.mul_comm, ← hor]

theorem toNat_joined_two (b b' : UInt8) :
    ((b &&& 0x0f) <<< 2 ||| b' >>> 6).toNat = b.toNat % 16 * 4 + b'.toNat / 64 := by
  have hlow := b'.toNat_lt
  have hand := Nat.and_two_pow_sub_one_eq_mod b.toNat 4
  have hor := Nat.two_pow_add_eq_or_of_lt (i := 2) (b := b'.toNat / 64) (by omega) (b.toNat % 16)
  simp [Nat.shiftRight_eq_div_pow, Nat.shiftLeft_eq] at hand ⊢
  rw [hand, Nat.mod_eq_of_lt (by omega : b.toNat % 16 * 4 < 256), Nat.mul_comm, ← hor]

/-! ## The round trip -/

/-- What the encoder makes of `input`: characters of the alphabet and padding, to be
read back. -/
structure Encodes (input : List UInt8) (body : List Char) : Prop where
  encoded : encodeGroups input = some (body ++ List.replicate ((3 - input.length % 3) % 3) '=')
  length : body.length + (3 - input.length % 3) % 3 = 4 * ((input.length + 2) / 3)
  alphabet : ∀ c ∈ body, (sextet c).isSome
  decoded : decodeGroups (body ++ List.replicate ((3 - input.length % 3) % 3) '=') = some input

theorem ne_pad {c : Char} (h : (sextet c).isSome) : c ≠ '=' := by
  intro hc
  rw [hc] at h
  exact absurd h (by decide)

theorem encodes_one (b0 : UInt8) : ∃ body, Encodes [b0] body := by
  have hb0 := b0.toNat_lt
  obtain ⟨c0, he0, hs0⟩ := exists_alphabet (toNat_shiftRight_two b0) (by omega)
  obtain ⟨c1, he1, hs1⟩ := exists_alphabet (toNat_joined_four b0 0) (by simp; omega)
  refine ⟨[c0, c1], ?_, by simp, by simp [hs0, hs1], ?_⟩
  · simp only [encodeGroups, encodeGroup, getD_none, he0, he1]
    rfl
  · have hbits : b0.toNat / 4 * 64 + b0.toNat % 4 * 16 = b0.toNat * 16 := by omega
    simp [decodeGroups, decodeGroup, hs0, hs1, hbits]
    omega

theorem encodes_two (b0 b1 : UInt8) : ∃ body, Encodes [b0, b1] body := by
  have hb0 := b0.toNat_lt
  have hb1 := b1.toNat_lt
  obtain ⟨c0, he0, hs0⟩ := exists_alphabet (toNat_shiftRight_two b0) (by omega)
  obtain ⟨c1, he1, hs1⟩ := exists_alphabet (toNat_joined_four b0 b1) (by omega)
  obtain ⟨c2, he2, hs2⟩ := exists_alphabet (toNat_joined_two b1 0) (by simp; omega)
  refine ⟨[c0, c1, c2], ?_, by simp, by simp [hs0, hs1, hs2], ?_⟩
  · simp only [encodeGroups, encodeGroup, getD_some, getD_none, isSome_some, if_true, he0, he1, he2]
    rfl
  · have hbits : ((b0.toNat / 4 * 64 + (b0.toNat % 4 * 16 + b1.toNat / 16)) * 64
          + b1.toNat % 16 * 4) = (b0.toNat * 256 + b1.toNat) * 4 := by omega
    have hhigh : (b0.toNat * 256 + b1.toNat) * 4 / 1024 = b0.toNat := by omega
    have hpad : c2 ≠ '=' := ne_pad (by simp [hs2])
    simp [decodeGroups, decodeGroup, hs0, hs1, hs2, hpad, hbits, hhigh]
    omega

theorem encodeGroup_whole (b0 b1 b2 : UInt8) :
    ∃ c0 c1 c2 c3, encodeGroup b0 (some b1) (some b2) = some [c0, c1, c2, c3]
      ∧ (∀ c ∈ [c0, c1, c2, c3], (sextet c).isSome)
      ∧ decodeGroup c0 c1 (some c2) (some c3) = some [b0, b1, b2] := by
  have hb0 := b0.toNat_lt
  have hb1 := b1.toNat_lt
  have hb2 := b2.toNat_lt
  obtain ⟨c0, he0, hs0⟩ := exists_alphabet (toNat_shiftRight_two b0) (by omega)
  obtain ⟨c1, he1, hs1⟩ := exists_alphabet (toNat_joined_four b0 b1) (by omega)
  obtain ⟨c2, he2, hs2⟩ := exists_alphabet (toNat_joined_two b1 b2) (by omega)
  obtain ⟨c3, he3, hs3⟩ := exists_alphabet (toNat_and_low b2) (by omega)
  refine ⟨c0, c1, c2, c3, ?_, by simp [hs0, hs1, hs2, hs3], ?_⟩
  · simp only [encodeGroup, getD_some, isSome_some, if_true, he0, he1, he2, he3]
    rfl
  · have hbits : (((b0.toNat / 4 * 64 + (b0.toNat % 4 * 16 + b1.toNat / 16)) * 64
          + (b1.toNat % 16 * 4 + b2.toNat / 64)) * 64 + b2.toNat % 64)
        = (b0.toNat * 256 + b1.toNat) * 256 + b2.toNat := by omega
    have hhigh : ((b0.toNat * 256 + b1.toNat) * 256 + b2.toNat) / 65536 = b0.toNat := by omega
    have hmid : ((b0.toNat * 256 + b1.toNat) * 256 + b2.toNat) / 256
        = b0.toNat * 256 + b1.toNat := by omega
    simp [decodeGroup, hs0, hs1, hs2, hs3, hbits, hhigh, hmid]

/-- A group whose last character is no padding, whatever comes after it. -/
theorem decodeGroups_whole {c0 c1 c2 c3 : Char} (h : (sextet c3).isSome) (rest : List Char) :
    decodeGroups (c0 :: c1 :: c2 :: c3 :: rest)
      = do return (← decodeGroup c0 c1 (some c2) (some c3)) ++ (← decodeGroups rest) := by
  cases rest with
  | nil => simp [decodeGroups, ne_pad h]
  | cons => rfl

theorem exists_encodes : ∀ input, ∃ body, Encodes input body
  | [] => ⟨[], rfl, rfl, by simp, rfl⟩
  | [b0] => encodes_one b0
  | [b0, b1] => encodes_two b0 b1
  | b0 :: b1 :: b2 :: rest => by
    obtain ⟨c0, c1, c2, c3, hgroup, halphabet, hdecoded⟩ := encodeGroup_whole b0 b1 b2
    obtain ⟨body, h⟩ := exists_encodes rest
    have hpad : (rest.length + 3) % 3 = rest.length % 3 := by omega
    refine ⟨[c0, c1, c2, c3] ++ body, ?_, ?_, ?_, ?_⟩
    · simp [encodeGroups, hgroup, h.encoded, hpad]
    · have hlength := h.length
      simp only [length_append, length_cons, length_nil, hpad]
      omega
    · intro c hc
      rcases mem_append.mp hc with hc | hc
      · exact halphabet c hc
      · exact h.alphabet c hc
    · show decodeGroups (c0 :: c1 :: c2 :: c3 :: (body ++ replicate _ '=')) = _
      simp only [length_cons, hpad]
      rw [decodeGroups_whole (halphabet c3 (by simp)), hdecoded, h.decoded]
      rfl

/-- **The encoding is the RFC's**: it has the length and the padding that the number of
bytes asks for, the rest is of the alphabet, and its decoding is the input. -/
theorem base64Encode_decodes (input : List UInt8) :
    ∃ text, base64Encode input = some text ∧ text.length = 4 * ((input.length + 2) / 3)
      ∧ (∃ body : List Char, (∀ c ∈ body, (sextet c).isSome)
        ∧ text.toList = body ++ List.replicate ((3 - input.length % 3) % 3) '=')
      ∧ rfc4648Decode text = some input := by
  obtain ⟨body, h⟩ := exists_encodes input
  refine ⟨_, by rw [base64Encode, h.encoded, Option.map_some], ?_,
    ⟨body, h.alphabet, String.toList_ofList⟩, ?_⟩
  · rw [String.length_ofList, length_append, length_replicate, h.length]
  · rw [rfc4648Decode, String.toList_ofList, h.decoded]

end TitanClaw.Tools.Wasm
