import Mathlib.Data.List.Infix
import Mathlib.Data.List.Nodup

/-! # Scan — first occurrences, and texts with parts cut out

A text is a list of symbols, each read as a letter by `sym`; with the place of a letter as part
of its symbol, what a function does to a text says where each letter of the result comes from.
`find` is the place of the first occurrence of a word. `Cuts` relates a text to what is left
of it when parts are cut out that begin in a certain way. -/

namespace Scan

open List

variable {α β : Type*}

/-! ## First occurrences -/

section Find

variable [DecidableEq β] (sym : α → β) (word : List β)

/-- The number of symbols before the first occurrence of the word. -/
def find : List α → Option Nat
  | [] => if word.isEmpty then some 0 else none
  | c :: cs => if word.isPrefixOf ((c :: cs).map sym) then some 0 else (find cs).map (· + 1)

/-- The text begins with the word. -/
def Starts (l : List α) : Prop := word <+: l.map sym

instance (l : List α) : Decidable (Starts sym word l) :=
  inferInstanceAs (Decidable (word <+: l.map sym))

variable {sym word} {l : List α} {i : Nat}

theorem find_nil : find sym word ([] : List α) = if word.isEmpty then some 0 else none := rfl

theorem find_cons (c : α) (cs : List α) : find sym word (c :: cs)
    = if word.isPrefixOf ((c :: cs).map sym) then some 0 else (find sym word cs).map (· + 1) := rfl

theorem starts_iff : word.isPrefixOf (l.map sym) = true ↔ Starts sym word l := isPrefixOf_iff_prefix

theorem find_of_starts (h : Starts sym word l) : find sym word l = some 0 := by
  cases l with
  | nil =>
    have hword : word = [] := prefix_nil.mp h
    simp [find_nil, hword]
  | cons => rw [find_cons, if_pos (starts_iff.mpr h)]

theorem find_cons_of_not {c : α} {cs : List α} (h : ¬ Starts sym word (c :: cs)) :
    find sym word (c :: cs) = (find sym word cs).map (· + 1) := by
  rw [find_cons, if_neg (starts_iff.not.mpr h)]

theorem find_eq_some (h : find sym word l = some i) :
    Starts sym word (l.drop i) ∧ ∀ j < i, ¬ Starts sym word (l.drop j) := by
  induction l generalizing i with
  | nil =>
    by_cases hword : word = []
    · simp [find_nil, hword] at h
      simp [← h, Starts, hword]
    · simp [find_nil, hword] at h
  | cons c cs ih =>
    by_cases hstarts : Starts sym word (c :: cs)
    · rw [find_of_starts hstarts] at h
      cases h
      exact ⟨hstarts, fun j hj => absurd hj (Nat.not_lt_zero j)⟩
    · rw [find_cons_of_not hstarts] at h
      obtain ⟨k, hk, rfl⟩ := Option.map_eq_some_iff.mp h
      obtain ⟨hat, hbefore⟩ := ih hk
      refine ⟨hat, fun j hj => ?_⟩
      cases j with
      | zero => exact hstarts
      | succ j => exact hbefore j (Nat.lt_of_succ_lt_succ hj)

theorem find_eq_none (h : find sym word l = none) (j : Nat) : ¬ Starts sym word (l.drop j) := by
  induction l generalizing j with
  | nil =>
    by_cases hword : word = []
    · simp [find_nil, hword] at h
    rw [drop_nil]
    exact fun hstarts => hword (prefix_nil.mp hstarts)
  | cons c cs ih =>
    by_cases hstarts : Starts sym word (c :: cs)
    · rw [find_of_starts hstarts] at h
      cases h
    · rw [find_cons_of_not hstarts, Option.map_eq_none_iff] at h
      cases j with
      | zero => exact hstarts
      | succ j => exact ih h j

/-- A word that is not empty occurs before the end. -/
theorem find_lt (hword : word ≠ []) (h : find sym word l = some i) : i < l.length := by
  have hstarts := (find_eq_some h).1
  by_contra hge
  rw [drop_eq_nil_of_le (Nat.not_lt.mp hge)] at hstarts
  exact hword (prefix_nil.mp hstarts)

/-- A letter that is not found is the letter of no symbol. -/
theorem ne_of_find_eq_none {b : β} (h : find sym [b] l = none) {x : α} (hx : x ∈ l) :
    sym x ≠ b := by
  rintro rfl
  obtain ⟨before, behind, rfl⟩ := append_of_mem hx
  refine find_eq_none h before.length ?_
  rw [drop_left]
  exact ⟨behind.map sym, rfl⟩

omit word in
/-- Nothing of a symbol is read but its letter. -/
theorem find_map {γ : Type*} (f : γ → α) (word : List β) (l : List γ) :
    find sym word (l.map f) = find (sym ∘ f) word l := by
  induction l with
  | nil => rfl
  | cons _ _ ih => rw [map_cons, find_cons, find_cons, ih, ← map_cons, map_map]

end Find

/-- What is left of a text when parts of it are cut out, each at a place where the text goes on
in the given way. -/
inductive Cuts (starts : List α → Prop) : List α → List α → Prop where
  | done : Cuts starts [] []
  | keep (c : α) {l r : List α} (h : Cuts starts l r) : Cuts starts (c :: l) (c :: r)
  | cut (b : List α) {l r : List α} (hb : b ≠ []) (hstarts : starts (b ++ l))
      (h : Cuts starts l r) : Cuts starts (b ++ l) r

namespace Cuts

variable {starts : List α → Prop} {l r : List α}

theorem keeps (p : List α) (h : Cuts starts l r) : Cuts starts (p ++ l) (p ++ r) := by
  induction p with
  | nil => exact h
  | cons c p ih => exact ih.keep c

theorem refl (l : List α) : Cuts starts l l := by
  have hall : Cuts starts (l ++ []) (l ++ []) := .keeps l .done
  rwa [append_nil] at hall

theorem keepThenCut {k n : Nat} (hk : k < n) (hn : k < l.length) (hstarts : starts (l.drop k))
    (h : Cuts starts (l.drop n) r) : Cuts starts l (l.take k ++ r) := by
  have hparts : l.drop k = (l.drop k).take (n - k) ++ l.drop n := by
    conv_lhs => rw [← take_append_drop (n - k) (l.drop k)]
    rw [drop_drop, Nat.add_sub_cancel' hk.le]
  have hb : (l.drop k).take (n - k) ≠ [] := by
    intro hnil
    have hlength := congrArg length hnil
    rw [length_take, length_drop, length_nil] at hlength
    omega
  have hcut : Cuts starts (l.drop k) r := by
    rw [hparts]
    exact .cut _ hb (hparts ▸ hstarts) h
  have hall := hcut.keeps (l.take k)
  rwa [take_append_drop] at hall

theorem sublist (h : Cuts starts l r) : r.Sublist l := by
  induction h with
  | done => exact .slnil
  | keep c _ ih => exact ih.cons_cons c
  | cut b _ _ _ ih => exact ih.trans (sublist_append_right b _)

end Cuts

/-- At every place of the text the predicate holds of the last symbol before it that is kept
and of what follows; `prev` is what is before the text. -/
def Everywhere (keep : α → Bool) (P : Option α → List α → Prop) (prev : Option α)
    (l : List α) : Prop :=
  ∀ a s, a ++ s = l → P ((a.filter keep).getLast?.or prev) s

section Everywhere

variable {keep : α → Bool} {P : Option α → List α → Prop} {prev : Option α}

theorem everywhere_nil : Everywhere keep P prev [] ↔ P prev [] := by
  constructor
  · exact fun h => h [] [] rfl
  · intro h a s has
    obtain ⟨rfl, rfl⟩ := append_eq_nil_iff.mp has
    exact h

theorem everywhere_cons {c : α} {cs : List α} :
    Everywhere keep P prev (c :: cs)
      ↔ P prev (c :: cs) ∧ Everywhere keep P (if keep c then some c else prev) cs := by
  have hlast : ∀ a, ((c :: a).filter keep).getLast?.or prev
      = (a.filter keep).getLast?.or (if keep c then some c else prev) := by
    intro a
    by_cases hc : keep c = true
    · rw [filter_cons_of_pos hc, getLast?_cons, if_pos hc]
      cases (a.filter keep).getLast? <;> rfl
    · rw [filter_cons_of_neg hc, if_neg hc]
  constructor
  · refine fun h => ⟨h [] _ rfl, fun a s has => ?_⟩
    rw [← hlast]
    exact h (c :: a) s (by rw [cons_append, has])
  · rintro ⟨hhere, hrest⟩ a s has
    cases a with
    | nil =>
      rw [nil_append] at has
      rw [has]
      exact hhere
    | cons d a =>
      obtain ⟨rfl, htail⟩ := cons.inj has
      rw [hlast]
      exact hrest a s htail

end Everywhere

/-- Every occurrence of the word is behind an allowed symbol, or allowed at the beginning. -/
def Allowed (w : List α) (ok : Option α → Prop) (l : List α) : Prop :=
  ∀ a b, a ++ w ++ b = l → ok a.getLast?

section Allowed

variable {w : List α} {ok : Option α → Prop} {c : α}

theorem allowed_never : Allowed w (fun _ => False) l ↔ ¬ w <:+: l :=
  ⟨fun h ⟨a, b, hab⟩ => h a b hab, fun h a b hab => h ⟨a, b, hab⟩⟩

theorem allowed_nil (hw : w ≠ []) : Allowed w ok [] := by
  intro a b hab
  rw [append_assoc, append_eq_nil_iff, append_eq_nil_iff] at hab
  exact absurd hab.2.1 hw

theorem allowed_iff_everywhere :
    Allowed w ok l ↔ Everywhere (fun _ => true) (fun prev s => w <+: s → ok prev) none l := by
  have hall : ∀ a : List α, (a.filter fun _ => true).getLast?.or none = a.getLast? := by
    intro a
    rw [Option.or_none, filter_eq_self.mpr fun _ _ => rfl]
  constructor
  · rintro h a _ has ⟨b, rfl⟩
    rw [hall]
    exact h a b (by rw [append_assoc, has])
  · intro h a b hab
    rw [← hall]
    exact h a (w ++ b) (by rw [← append_assoc, hab]) (prefix_append w b)

/-- A symbol that is not of the word separates its occurrences. -/
theorem allowed_append_cons (hw : w ≠ []) (hc : c ∉ w) (hsame : ok (some c) ↔ ok none)
    (x y : List α) : Allowed w ok (x ++ c :: y) ↔ Allowed w ok x ∧ Allowed w ok y := by
  have hlast : ∀ a, ok (x ++ c :: a).getLast? ↔ ok a.getLast? := by
    intro a
    rw [getLast?_append, getLast?_cons]
    cases a.getLast? with
    | none => exact hsame
    | some => rfl
  constructor
  · intro h
    constructor
    · intro a b hab
      exact h a (b ++ c :: y) (by rw [← append_assoc, hab])
    · intro a b hab
      exact (hlast a).mp (h (x ++ c :: a) b (by simp [← hab]))
  · rintro ⟨hx, hy⟩ a b hab
    rw [append_assoc, append_eq_append_iff] at hab
    rcases hab with ⟨a', rfl, hrest⟩ | ⟨a', rfl, hrest⟩
    · -- the occurrence begins before the separator, so it ends before it
      rcases append_eq_append_iff.mp hrest with ⟨b', rfl, -⟩ | ⟨b', rfl, hb⟩
      · exact hx a b' (append_assoc _ _ _)
      cases b' with
      | nil => exact hx a [] (by simp)
      | cons =>
        exact absurd (by simp [(cons.inj hb).1]) hc
    · cases a' with
      | nil =>
        obtain ⟨d, w, rfl⟩ := exists_cons_of_ne_nil hw
        rw [nil_append, cons_append, cons.injEq] at hrest
        exact absurd (by simp [hrest.1]) hc
      | cons d a' =>
        obtain ⟨rfl, rfl⟩ := hrest
        exact (hlast a').mpr (hy a' b (append_assoc _ _ _))

end Allowed

end Scan
