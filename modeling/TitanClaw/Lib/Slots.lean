import Mathlib.Data.List.Basic

/-! # Lists with one place replaced

A list whose members are found by their place, and change there. What holds of the list
after one of them has changed is said in terms of the old and the new one. -/

namespace Slots

open List

variable {α : Type*} {l : List α} {k : Nat} {old new : α}

theorem split (h : l[k]? = some old) (new : α) :
    ∃ before after, l = before ++ old :: after ∧ l.set k new = before ++ new :: after := by
  obtain ⟨hk, rfl⟩ := List.getElem?_eq_some_iff.mp h
  refine ⟨l.take k, l.drop (k + 1), ?_, ?_⟩
  · rw [getElem_cons_drop, take_append_drop]
  · rw [set_eq_take_append_cons_drop, if_pos hk]

/-- What is said of all the members holds after a change if it holds of the new one, and
still of the others. -/
theorem forall_set {P Q : α → Prop} (hl : ∀ x ∈ l, P x) (hothers : ∀ x ∈ l, P x → Q x)
    (hnew : Q new) : ∀ x ∈ l.set k new, Q x := by
  intro x hx
  rcases mem_or_eq_of_mem_set hx with hx | rfl
  · exact hothers x hx (hl x hx)
  · exact hnew

theorem countP_set (h : l[k]? = some old) (new : α) (p : α → Bool) :
    (l.set k new).countP p + (if p old then 1 else 0) = l.countP p + if p new then 1 else 0 := by
  obtain ⟨before, after, hl, hset⟩ := split h new
  rw [hset, hl]
  simp only [countP_append, countP_cons]
  omega

theorem countP_set_le (h : l[k]? = some old) {p : α → Bool} (hp : p new = true → p old = true) :
    (l.set k new).countP p ≤ l.countP p := by
  have hset := countP_set h new p
  by_cases hnew : p new = true
  · rw [if_pos hnew, if_pos (hp hnew)] at hset
    omega
  · rw [if_neg hnew] at hset
    omega

theorem pairwise_set {R : α → α → Prop} (hl : l.Pairwise R) (h : l[k]? = some old)
    (hleft : ∀ x ∈ l, R old x → R new x) (hright : ∀ x ∈ l, R x old → R x new) :
    (l.set k new).Pairwise R := by
  obtain ⟨before, after, rfl, hset⟩ := split h new
  rw [hset]
  rw [pairwise_append] at hl ⊢
  obtain ⟨hbefore, hrest, hcross⟩ := hl
  obtain ⟨hold, hafter⟩ := pairwise_cons.mp hrest
  refine ⟨hbefore, pairwise_cons.mpr ⟨fun x hx => ?_, hafter⟩, fun x hx y hy => ?_⟩
  · exact hleft x (by simp [hx]) (hold x hx)
  · rcases mem_cons.mp hy with rfl | hy
    · exact hright x (by simp [hx]) (hcross x hx old (by simp))
    · exact hcross x hx y (by simp [hy])

/-- The others are those that the old one was in relation to. -/
theorem forall_set_of_pairwise {R : α → α → Prop} {Q : α → Prop} (hsymm : ∀ x y, R x y → R y x)
    (hl : l.Pairwise R) (h : l[k]? = some old) (hothers : ∀ x ∈ l, R old x → Q x)
    (hnew : Q new) : ∀ x ∈ l.set k new, Q x := by
  obtain ⟨before, after, rfl, hset⟩ := split h new
  rw [hset]
  obtain ⟨-, hrest, hcross⟩ := pairwise_append.mp hl
  obtain ⟨hold, -⟩ := pairwise_cons.mp hrest
  intro x hx
  rcases mem_append.mp hx with hx | hx
  · exact hothers x (by simp [hx]) (hsymm x old (hcross x hx old (by simp)))
  rcases mem_cons.mp hx with rfl | hx
  · exact hnew
  · exact hothers x (by simp [hx]) (hold x hx)

end Slots
