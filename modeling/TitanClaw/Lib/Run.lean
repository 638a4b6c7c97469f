import Mathlib.Data.List.Infix

/-! # Runs of a labelled machine

A deterministic machine is a step function on states and labels; what is not
determined by the state — inputs, schedules, answers of the outside world — is
in the label, so a run is a list of labels. A run is GUARDED when each of its
labels meets a condition in the state it is taken from; an invariant that
guarded steps keep holds in every state a guarded run reaches. -/

namespace Run

open List

variable {σ α : Type*} (step : σ → α → σ) (s : σ)

def run (labels : List α) : σ := labels.foldl step s

@[simp] theorem run_nil : run step s [] = s := rfl

@[simp] theorem run_cons (a : α) (as : List α) :
    run step s (a :: as) = run step (step s a) as := rfl

theorem run_append (as bs : List α) : run step s (as ++ bs) = run step (run step s as) bs := by
  simp [run, foldl_append]

/-- Every step of the run meets `guard` in the state it is taken from. -/
def Guarded (step : σ → α → σ) (guard : σ → α → Prop) : σ → List α → Prop
  | _, [] => True
  | s, a :: as => guard s a ∧ Guarded step guard (step s a) as

instance guardedDecidable (step : σ → α → σ) (guard : σ → α → Prop)
    [∀ s a, Decidable (guard s a)] : (s : σ) → (as : List α) → Decidable (Guarded step guard s as)
  | _, [] => .isTrue trivial
  | s, a :: as =>
      have := guardedDecidable step guard (step s a) as
      inferInstanceAs (Decidable (guard s a ∧ Guarded step guard (step s a) as))

variable {step : σ → α → σ} {guard : σ → α → Prop} {s : σ}

theorem guarded_append {as bs : List α} :
    Guarded step guard s (as ++ bs)
      ↔ Guarded step guard s as ∧ Guarded step guard (run step s as) bs := by
  induction as generalizing s with
  | nil => simp [Guarded]
  | cons _ _ ih => simp [cons_append, Guarded, run_cons, ih, and_assoc]

variable {as : List α} {Inv : σ → Prop}

theorem invariant_run (hstep : ∀ s a, Inv s → guard s a → Inv (step s a)) (h0 : Inv s)
    (hg : Guarded step guard s as) : Inv (run step s as) := by
  induction as generalizing s with
  | nil => exact h0
  | cons a _ ih => exact ih (hstep s a h0 hg.1) hg.2

theorem invariant_always (hstep : ∀ s a, Inv s → Inv (step s a))
    (h0 : Inv s) (as : List α) : Inv (run step s as) := by
  induction as generalizing s with
  | nil => exact h0
  | cons a _ ih => exact ih (hstep s a h0)

/-- An invariant of guarded steps holds in every state of a guarded run. -/
theorem invariant_reached
    (hstep : ∀ s a, Inv s → guard s a → Inv (step s a)) (h0 : Inv s) (hg : Guarded step guard s as)
    {pre : List α} (hpre : pre <+: as) :
    Inv (run step s pre) := by
  obtain ⟨post, rfl⟩ := hpre
  exact invariant_run hstep h0 (guarded_append.mp hg).1

def checks (step : σ → α → σ) (check : σ → α → Bool) : σ → List α → Bool
  | _, [] => true
  | s, a :: as => check s a && checks step check (step s a) as

theorem guarded_of_checks (check : σ → α → Bool) (hcheck : ∀ s a, check s a = true → guard s a)
    (h : checks step check s as = true) : Guarded step guard s as := by
  induction as generalizing s with
  | nil => trivial
  | cons a _ ih =>
    obtain ⟨hfirst, hrest⟩ := Bool.and_eq_true_iff.mp h
    exact ⟨hcheck s a hfirst, ih hrest⟩

theorem guarded_iff :
    Guarded step guard s as ↔ ∀ pre a, pre ++ [a] <+: as → guard (run step s pre) a := by
  induction as generalizing s with
  | nil => simp [Guarded]
  | cons a _ ih =>
    rw [Guarded, ih]
    constructor
    · rintro ⟨hfirst, hrest⟩ pre b hpre
      cases pre with
      | nil =>
        obtain rfl : b = a := (cons_prefix_cons.mp hpre).1
        exact hfirst
      | cons c pre =>
        obtain ⟨rfl, hbehind⟩ := cons_prefix_cons.mp hpre
        exact hrest pre b hbehind
    · intro h
      refine ⟨h [] a (cons_prefix_cons.mpr ⟨rfl, nil_prefix⟩), fun pre b hpre => ?_⟩
      exact h (a :: pre) b (cons_prefix_cons.mpr ⟨rfl, hpre⟩)

/-- What a run has where it begins, and keeps by a step exactly if the step is guarded, it has
at every place exactly if it is guarded. -/
theorem forall_prefix_iff_guarded {P : List α → Prop} (h0 : P [])
    (hstep : ∀ pre a, P pre → (P (pre ++ [a]) ↔ guard (run step s pre) a)) :
    (∀ pre, pre <+: as → P pre) ↔ Guarded step guard s as := by
  rw [guarded_iff]
  constructor
  · intro h pre a hpre
    exact (hstep pre a (h pre ((prefix_append pre [a]).trans hpre))).mp (h (pre ++ [a]) hpre)
  · intro h pre hpre
    induction pre using reverseRecOn with
    | nil => exact h0
    | append_singleton pre a ih =>
      exact (hstep pre a (ih ((prefix_append pre [a]).trans hpre))).mpr (h pre a hpre)

/-- Where the guard is all that a step needs to keep `Inv`, and no less, as long as `Aux`
holds, which every step keeps, `Inv` holds in every state of a run exactly if the run is
guarded. -/
theorem reached_iff_guarded_of_aux {Aux Inv : σ → Prop} (haux : ∀ s a, Aux s → Aux (step s a))
    (hstep : ∀ s a, Aux s → Inv s → (Inv (step s a) ↔ guard s a)) (hs : Aux s) (h0 : Inv s) :
    (∀ pre, pre <+: as → Inv (run step s pre)) ↔ Guarded step guard s as := by
  refine forall_prefix_iff_guarded h0 fun pre a h => ?_
  rw [run_append]
  exact hstep _ a (invariant_always haux hs pre) h

/-- The same with nothing else to be kept. -/
theorem reached_iff_guarded (hstep : ∀ s a, Inv s → (Inv (step s a) ↔ guard s a)) (h0 : Inv s) :
    (∀ pre, pre <+: as → Inv (run step s pre)) ↔ Guarded step guard s as :=
  reached_iff_guarded_of_aux (fun _ _ (_ : True) => trivial) (fun s a _ h => hstep s a h) trivial h0

/-- What holds at the end and not at the start has a step that made it hold for good. -/
theorem exists_last_turn {P : σ → Prop} (hstart : ¬ P s) (hend : P (run step s as)) :
    ∃ pre a post, as = pre ++ a :: post ∧ ¬ P (run step s pre)
      ∧ ∀ mid, mid <+: post → P (run step (step (run step s pre) a) mid) := by
  induction as using reverseRecOn with
  | nil => exact absurd hend hstart
  | append_singleton as a ih =>
    by_cases hbefore : P (run step s as)
    · obtain ⟨pre, b, post, rfl, hnot, hall⟩ := ih hbefore
      refine ⟨pre, b, post ++ [a], by simp, hnot, fun mid hmid => ?_⟩
      rcases prefix_concat_iff.mp hmid with rfl | hmid
      · simpa [run_append] using hend
      · exact hall mid hmid
    · refine ⟨as, a, [], rfl, hbefore, fun mid hmid => ?_⟩
      rw [prefix_nil.mp hmid]
      simpa [run_append] using hend

section Outputs

variable {β : Type*} {out : σ → α → List β}

/-- What the steps of a run give out, one after the other. -/
def outputs (step : σ → α → σ) (out : σ → α → List β) : σ → List α → List β
  | _, [] => []
  | s, a :: as => out s a ++ outputs step out (step s a) as

theorem outputs_append {s : σ} {as bs : List α} :
    outputs step out s (as ++ bs)
      = outputs step out s as ++ outputs step out (run step s as) bs := by
  induction as generalizing s with
  | nil => rfl
  | cons _ _ ih => rw [cons_append, outputs, outputs, ih, run_cons, append_assoc]

theorem outputs_singleton {s : σ} {a : α} : outputs step out s [a] = out s a := append_nil _

/-- An invariant may speak of what has been given out so far. -/
theorem invariant_outputs {Inv : σ → List β → Prop}
    (hstep : ∀ s log a, Inv s log → Inv (step s a) (log ++ out s a)) {s : σ} (h0 : Inv s [])
    (as : List α) : Inv (run step s as) (outputs step out s as) := by
  induction as using reverseRecOn with
  | nil => exact h0
  | append_singleton _ a ih =>
    rw [run_append, outputs_append, outputs_singleton]
    exact hstep _ _ a ih

theorem outputs_iff_guarded {Inv : σ → List β → Prop}
    (hstep : ∀ s log a, Inv s log → (Inv (step s a) (log ++ out s a) ↔ guard s a)) {s : σ}
    (h0 : Inv s []) {as : List α} :
    (∀ pre, pre <+: as → Inv (run step s pre) (outputs step out s pre))
      ↔ Guarded step guard s as := by
  refine forall_prefix_iff_guarded h0 fun pre a h => ?_
  rw [run_append, outputs_append, outputs_singleton]
  exact hstep _ _ a h

end Outputs

/-! ## Two runs

What an observer has in view is not changed by the steps that do not concern it, and by the
others in a way that depends on the view alone. Then two runs in which the same steps concern
the observer end with the same view. -/

section Views

variable {ν : Type*} {view : σ → ν} {concerns : α → Bool}

variable (hother : ∀ s a, concerns a = false → guard s a → view (step s a) = view s)

include hother

theorem view_run_of_unconcerned {s : σ}
    {as : List α} (hg : Guarded step guard s as) (hnone : as.filter concerns = []) :
    view (run step s as) = view s := by
  induction as generalizing s with
  | nil => rfl
  | cons a _ ih =>
    have ha : concerns a = false := by simpa using filter_eq_nil_iff.mp hnone a
    rw [filter_cons_of_neg (by simp [ha])] at hnone
    rw [run_cons, ih hg.2 hnone, hother s a ha hg.1]

theorem view_run (hown : ∀ s t a, concerns a = true → guard s a → guard t a → view s = view t →
      view (step s a) = view (step t a))
    {s t : σ} {as bs : List α} (hs : Guarded step guard s as) (ht : Guarded step guard t bs)
    (hsame : as.filter concerns = bs.filter concerns) (hview : view s = view t) :
    view (run step s as) = view (run step t bs) := by
  induction as generalizing s t bs with
  | nil =>
    rw [view_run_of_unconcerned hother ht hsame.symm]
    exact hview
  | cons a _ ih =>
    cases ha : concerns a with
    | false =>
      rw [filter_cons_of_neg (by simp [ha])] at hsame
      exact ih hs.2 ht hsame ((hother s a ha hs.1).trans hview)
    | true =>
      -- the other run gets to the same step, after some that do not concern the observer
      rw [filter_cons_of_pos ha] at hsame
      obtain ⟨before, behind, rfl, hnone, -, hrest⟩ := filter_eq_cons_iff.mp hsame.symm
      obtain ⟨hbefore, hstep, hbehind⟩ := guarded_append.mp ht
      have hquiet := view_run_of_unconcerned hother hbefore (filter_eq_nil_iff.mpr hnone)
      rw [run_append, run_cons, run_cons]
      exact ih hs.2 hbehind hrest.symm (hown s _ a ha hs.1 hstep (hview.trans hquiet.symm))

end Views

end Run
