import Mathlib.Data.List.Infix

/-! # Replace — every occurrence of a word, left to right

`replaceAll` rewrites the non-overlapping occurrences of a word. What it leaves
standing are the GAPS between them, and a gap never holds the word. -/

namespace Replace

open List

variable {α : Type} [DecidableEq α]

/-- Replace the occurrences of a nonempty word, left to right; `skip` elements
of the last occurrence are still to be passed over. -/
def replaceAll (word by_ : List α) (skip : Nat) : List α → List α
  | [] => []
  | c :: cs =>
      match skip with
      | skip + 1 => replaceAll word by_ skip cs
      | 0 =>
          if word.isPrefixOf (c :: cs) then by_ ++ replaceAll word by_ (word.length - 1) cs
          else c :: replaceAll word by_ 0 cs

theorem replaceAll_skip (word by_ : List α) (skip : Nat) (l : List α) :
    replaceAll word by_ skip l = replaceAll word by_ 0 (l.drop skip) := by
  induction l generalizing skip with
  | nil => simp [replaceAll]
  | cons _ _ ih =>
    cases skip with
    | zero => rfl
    | succ => rw [replaceAll, ih, drop_succ_cons]

variable {word by_ : List α}

theorem replaceAll_of_prefix (hword : word ≠ []) (rest : List α) :
    replaceAll word by_ 0 (word ++ rest) = by_ ++ replaceAll word by_ 0 rest := by
  obtain ⟨c, cs, rfl⟩ := exists_cons_of_ne_nil hword
  have hpre : (c :: cs).isPrefixOf (c :: (cs ++ rest)) = true :=
    isPrefixOf_iff_prefix.mpr (prefix_append (c :: cs) rest)
  simp only [cons_append, replaceAll, hpre, if_true, length_cons, Nat.add_sub_cancel]
  rw [replaceAll_skip, drop_left]

theorem replaceAll_cons_of_not {word by_ : List α} {c : α} {cs : List α} (h : ¬ word <+: c :: cs) :
    replaceAll word by_ 0 (c :: cs) = c :: replaceAll word by_ 0 cs := by
  have hpre : word.isPrefixOf (c :: cs) = false := by
    rw [← Bool.not_eq_true, isPrefixOf_iff_prefix]
    exact h
  simp [replaceAll, hpre]

/-- A letter that is in no place of the word stays where it is. -/
theorem replaceAll_cons_of_ne {first : α} (hfirst : word.head? = some first)
    {c : α} (hc : c ≠ first) (cs : List α) :
    replaceAll word by_ 0 (c :: cs) = c :: replaceAll word by_ 0 cs := by
  obtain ⟨rest, rfl⟩ := head?_eq_some_iff.mp hfirst
  exact replaceAll_cons_of_not fun h => hc (cons_prefix_cons.mp h).1.symm

theorem replaceAll_append_of_not_mem {first : α}
    (hfirst : word.head? = some first) {a : List α} (ha : first ∉ a) (l : List α) :
    replaceAll word by_ 0 (a ++ l) = a ++ replaceAll word by_ 0 l := by
  induction a with
  | nil => rfl
  | cons c a ih =>
    rw [mem_cons, not_or] at ha
    rw [cons_append, replaceAll_cons_of_ne hfirst (Ne.symm ha.1), ih ha.2, cons_append]

theorem replaceAll_singleton (x : α) (by_ l : List α) :
    replaceAll [x] by_ 0 l = l.flatMap fun c => if c = x then by_ else [c] := by
  induction l with
  | nil => rfl
  | cons c cs ih =>
    rw [flatMap_cons, ← ih]
    by_cases hc : c = x
    · rw [hc, if_pos rfl]
      exact replaceAll_of_prefix (cons_ne_nil x []) cs
    · rw [if_neg hc]
      exact replaceAll_cons_of_ne rfl hc cs

theorem replaceAll_singleton_nil (x : α) (l : List α) :
    replaceAll [x] [] 0 l = l.filter fun c => decide (c ≠ x) := by
  rw [replaceAll_singleton]
  induction l with
  | nil => rfl
  | cons c cs ih => by_cases hc : c = x <;> simp [hc, ih]

/-- A word whose first letter does not come again, marked by a letter before it: one round for
each letter of the text. -/
theorem replaceAll_mark {first : α} {tail : List α} (hfirst : first ∉ tail) (x c : α)
    (cs : List α) :
    replaceAll (first :: tail) (x :: first :: tail) 0 (c :: cs)
      = (if first :: tail <+: c :: cs then [x] else [])
        ++ c :: replaceAll (first :: tail) (x :: first :: tail) 0 cs := by
  split
  · next hpre =>
    obtain ⟨rfl, rest, rfl⟩ := cons_prefix_cons.mp hpre
    rw [replaceAll_append_of_not_mem rfl hfirst, ← cons_append,
      replaceAll_of_prefix (cons_ne_nil first tail)]
    simp
  · next hpre => rw [replaceAll_cons_of_not hpre, nil_append]

/-- The mark in the middle of a word of two letters. -/
theorem replaceAll_split {a b : α} (hab : b ≠ a) (x c : α) (cs : List α) :
    replaceAll [a, b] [a, x, b] 0 (c :: cs)
      = c :: (if [a, b] <+: c :: cs then [x] else []) ++ replaceAll [a, b] [a, x, b] 0 cs := by
  split
  · next hpre =>
    obtain ⟨rfl, rest, rfl⟩ := cons_prefix_cons.mp hpre
    rw [singleton_append, replaceAll_cons_of_ne rfl hab]
    exact replaceAll_of_prefix (cons_ne_nil a [b]) rest
  · next hpre => rw [replaceAll_cons_of_not hpre, singleton_append]

/-- The occurrences can be put back one by one. -/
theorem of_replaceAll (hword : word ≠ []) {P : List α → Prop}
    (hback : ∀ x y, P (x ++ by_ ++ y) → P (x ++ word ++ y)) (x l : List α)
    (h : P (x ++ replaceAll word by_ 0 l)) : P (x ++ l) := by
  match l with
  | [] => exact h
  | c :: cs =>
    by_cases hpre : word <+: c :: cs
    · obtain ⟨rest, hrest⟩ := hpre
      have hlength : rest.length < (c :: cs).length := by
        have := length_pos_of_ne_nil hword
        rw [← hrest, length_append]
        omega
      rw [← hrest, replaceAll_of_prefix hword, ← append_assoc] at h
      have hput := of_replaceAll hword hback (x ++ by_) rest h
      rw [← hrest, ← append_assoc]
      exact hback x rest hput
    · rw [replaceAll_cons_of_not hpre, append_cons] at h
      have hput := of_replaceAll hword hback (x ++ [c]) cs h
      rwa [append_cons]
termination_by l.length
decreasing_by
  · exact hlength
  · exact Nat.lt_succ_self _

/-- A shorter word makes the text shorter. -/
theorem length_replaceAll (hlt : by_.length < word.length) (l : List α) :
    (replaceAll word by_ 0 l).length ≤ l.length
      ∧ (word <:+: l → (replaceAll word by_ 0 l).length < l.length) := by
  have hword : word ≠ [] := ne_nil_of_length_pos (by omega)
  match l with
  | [] => exact ⟨Nat.le_refl _, fun h => absurd (infix_nil.mp h) hword⟩
  | c :: cs =>
    by_cases hpre : word <+: c :: cs
    · obtain ⟨rest, hrest⟩ := hpre
      have hlength : rest.length < (c :: cs).length := by
        rw [← hrest, length_append]
        omega
      obtain ⟨hle, -⟩ := length_replaceAll hlt rest
      rw [← hrest, replaceAll_of_prefix hword, length_append, length_append]
      exact ⟨by omega, fun _ => by omega⟩
    · obtain ⟨hle, hstrict⟩ := length_replaceAll hlt cs
      rw [replaceAll_cons_of_not hpre, length_cons, length_cons]
      refine ⟨Nat.succ_le_succ hle, fun h => Nat.succ_lt_succ (hstrict ?_)⟩
      exact (infix_cons_iff.mp h).resolve_left hpre
termination_by l.length
decreasing_by
  · exact hlength
  · exact Nat.lt_succ_self _

end Replace
