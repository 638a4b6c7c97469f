import TitanClaw.Safety.LeakDetector

/-! # Redaction of ranges

The ranges come from many patterns, sorted by where they start, and may overlap or lie inside one
another. The loop keeps the end of the last range only: behind a range that lies inside an earlier
one it goes on copying, although the earlier one is not over. -/

namespace TitanClaw.Safety

open Text List

/-! ## Where the bytes of the result come from -/

/-- What the loop does to a list of symbols. -/
def redactFrom {α : Type} (mark content : List α) (lastEnd : Nat) : List Span → List α
  | [] => content.drop lastEnd
  | range :: ranges =>
      (content.take range.start).drop lastEnd ++ mark ++ redactFrom mark content range.stop ranges

variable (content : String) (ranges : List Span)

/-- The mark's own bytes, and the places of the others in the content. -/
def origins : List (UInt8 ⊕ Nat) :=
  redactFrom ((utf8 "[REDACTED]").map .inl) ((List.range (len content)).map .inr) 0 ranges

def byteAt : UInt8 ⊕ Nat → UInt8
  | .inl byte => byte
  | .inr i => (utf8 content).getD i 0

theorem redactFrom_map {α β : Type} (f : α → β) (mark content : List α) (lastEnd : Nat)
    (ranges : List Span) :
    redactFrom (mark.map f) (content.map f) lastEnd ranges
      = (redactFrom mark content lastEnd ranges).map f := by
  induction ranges generalizing lastEnd with
  | nil => exact map_drop.symm
  | cons _ _ ih => simp [redactFrom, ih, map_append, map_drop, map_take]

/-- The range lies in the content, between characters. -/
structure Span.Within (r : Span) (content : String) : Prop where
  ordered : r.start ≤ r.stop
  bounded : r.stop ≤ len content
  start : Boundary content r.start
  stop : Boundary content r.stop

variable {ranges}

theorem utf8_applyRedactionsLoop {content : String}
    (h : ∀ r ∈ ranges, r.Within content) (result : String) {lastEnd : Nat}
    (hend : Boundary content lastEnd) :
    utf8 result ++ redactFrom (utf8 "[REDACTED]") (utf8 content) lastEnd ranges
      = utf8 (applyRedactionsLoop content ranges result lastEnd).1
        ++ (utf8 content).drop (applyRedactionsLoop content ranges result lastEnd).2
    ∧ Boundary content (applyRedactionsLoop content ranges result lastEnd).2 := by
  induction ranges generalizing result lastEnd with
  | nil => exact ⟨rfl, hend⟩
  | cons range _ ih =>
    obtain ⟨hrange, hranges⟩ := forall_mem_cons.mp h
    obtain ⟨heq, hlast⟩ := ih hranges
      ((if range.start > lastEnd then result ++ slice content lastEnd range.start else result)
        ++ "[REDACTED]") hrange.stop
    refine ⟨?_, hlast⟩
    rw [applyRedactionsLoop, ← heq, redactFrom, utf8_append]
    split
    · next hgap => rw [utf8_append, utf8_slice hend hrange.start hgap]; simp
    next hgap =>
    have hnone : ((utf8 content).take range.start).drop lastEnd = [] := by
      refine drop_eq_nil_of_le ((length_take_le _ _).trans ?_)
      omega
    rw [hnone]
    simp

/-- The result is made of the bytes that the loop takes, by their places. -/
theorem utf8_applyRedactions {content : String} (h : ∀ r ∈ ranges, r.Within content) :
    utf8 (applyRedactions content ranges) = (origins content ranges).map (byteAt content) := by
  have hcontent : (range (len content)).map (fun i => (utf8 content).getD i 0) = utf8 content := by
    rw [← length_utf8]
    refine ext_getElem (by simp) fun i hi hi' => ?_
    rw [getElem_map, getElem_range, getD_eq_getElem?_getD,
      getElem?_eq_getElem hi', Option.getD_some]
  have horigins : (origins content ranges).map (byteAt content)
      = redactFrom (utf8 "[REDACTED]") (utf8 content) 0 ranges := by
    rw [origins, ← redactFrom_map, map_map, map_map]
    conv_rhs => rw [← hcontent, ← map_id (utf8 "[REDACTED]")]
    rfl
  obtain ⟨heq, hlast⟩ := utf8_applyRedactionsLoop h "" (boundary_zero content)
  have hempty : utf8 "" = [] := rfl
  rw [horigins]
  rw [hempty, nil_append] at heq
  unfold applyRedactions
  split
  · next hnil => rw [isEmpty_iff.mp hnil, redactFrom, drop_zero]
  rw [heq]
  simp only
  split
  · next hlt =>
    rw [utf8_append, utf8_slice hlast (boundary_len content) hlt, ← length_utf8, take_length]
  · next hge => rw [drop_eq_nil_of_le (by rw [length_utf8]; exact Nat.not_lt.mp hge), append_nil]

/-! ## Which places are taken -/

variable (ranges)

def covered (i : Nat) : Bool := ranges.any fun r => decide (r.start ≤ i ∧ i < r.stop)

/-- What is taken of the content are the places that no range covers, in order. -/
def Redacted : Prop :=
  (origins content ranges).filterMap Sum.getRight?
    = (List.range (len content)).filter fun i => !covered ranges i

/-- A range ends before an earlier one only if the next one starts no later than that. `lastEnd` is
where the last range ended, `reach` how far those so far go. -/
def EndsReached (lastEnd reach : Nat) : List Span → Prop
  | [] => reach ≤ lastEnd
  | range :: ranges =>
      (reach ≤ lastEnd ∨ range.start ≤ lastEnd)
        ∧ EndsReached range.stop (max reach range.stop) ranges

instance decidableEndsReached (lastEnd reach : Nat) :
    (ranges : List Span) → Decidable (EndsReached lastEnd reach ranges)
  | [] => inferInstanceAs (Decidable (reach ≤ lastEnd))
  | range :: ranges =>
      have := decidableEndsReached range.stop (max reach range.stop) ranges
      inferInstanceAs (Decidable ((reach ≤ lastEnd ∨ range.start ≤ lastEnd)
        ∧ EndsReached range.stop (max reach range.stop) ranges))

/-- Without the marks. -/
theorem filterMap_origins :
    (origins content ranges).filterMap Sum.getRight?
      = redactFrom [] (range (len content)) 0 ranges := by
  have hmark :
      ((utf8 "[REDACTED]").map (.inl : UInt8 → UInt8 ⊕ Nat)).filterMap Sum.getRight? = [] := by
    decide
  have hplaces : ∀ l : List Nat,
      (l.map (.inr : Nat → UInt8 ⊕ Nat)).filterMap Sum.getRight? = l := by
    intro l
    rw [filterMap_map]
    exact filterMap_some
  have hgeneral : ∀ lastEnd, (redactFrom ((utf8 "[REDACTED]").map Sum.inl)
        ((range (len content)).map Sum.inr) lastEnd ranges).filterMap Sum.getRight?
      = redactFrom [] (range (len content)) lastEnd ranges := by
    induction ranges with
    | nil =>
      intro lastEnd
      rw [redactFrom, redactFrom, ← map_drop, hplaces]
    | cons _ _ ih =>
      intro lastEnd
      rw [redactFrom, redactFrom, filterMap_append, filterMap_append, hmark, ih,
        ← map_take, ← map_drop, hplaces]
  exact hgeneral 0

section

variable {n : Nat} {ranges : List Span}

theorem range_take_drop {a b : Nat} (hb : b ≤ n) :
    ((range n).take b).drop a = range' a (b - a) := by
  rw [take_range, Nat.min_eq_left hb, range_eq_range', drop_range']
  simp

/-- Behind the first range of the rest nothing before its start is taken. -/
theorem le_of_mem_redactFrom {m lastEnd i : Nat} (hend : m ≤ lastEnd)
    (hstops : ∀ r ∈ ranges, m ≤ r.stop) (h : i ∈ redactFrom [] (range n) lastEnd ranges) :
    m ≤ i := by
  induction ranges generalizing lastEnd with
  | nil =>
    rw [redactFrom, range_eq_range', drop_range', mem_range'_1] at h
    omega
  | cons _ _ ih =>
    obtain ⟨hstop, hstops⟩ := forall_mem_cons.mp hstops
    rw [redactFrom, append_nil, mem_append] at h
    rcases h with h | h
    · rw [take_range, range_eq_range', drop_range', mem_range'_1] at h
      omega
    · exact ih hstop hstops h

/-- What no range covers, by the first range and the rest. -/
theorem filter_uncovered {reach : Nat} {range : Span} (hreach : reach ≤ n)
    (hordered : range.start ≤ range.stop) (hbounded : range.stop ≤ n)
    (hsorted : ∀ r ∈ ranges, range.start ≤ r.start) :
    (range' reach (n - reach)).filter (fun i => !covered (range :: ranges) i)
      = range' reach (range.start - reach)
        ++ (range' (max reach range.stop) (n - max reach range.stop)).filter
          fun i => !covered ranges i := by
  let low := max reach range.start
  let high := max reach range.stop
  have hparts : range' reach (n - reach)
      = range' reach (range.start - reach)
        ++ (range' low (high - low) ++ range' high (n - high)) := by
    have h₁ : low + (high - low) = high := by omega
    have h₂ : reach + (range.start - reach) = low := by omega
    have h₃ : n - reach = (range.start - reach) + ((high - low) + (n - high)) := by omega
    rw [h₃, ← range'_append_1, h₂, ← range'_append_1, h₁]
  rw [hparts, filter_append, filter_append]
  have hbefore : (range' reach (range.start - reach)).filter
      (fun i => !covered (range :: ranges) i) = range' reach (range.start - reach) := by
    refine filter_eq_self.mpr fun i hi => ?_
    rw [mem_range'_1] at hi
    simp only [covered, any_cons, Bool.not_eq_true', Bool.or_eq_false_iff,
      decide_eq_false_iff_not, any_eq_false, decide_eq_true_eq]
    refine ⟨by omega, fun r hr => ?_⟩
    have := hsorted r hr
    omega
  have hinside : (range' low (high - low)).filter (fun i => !covered (range :: ranges) i) = [] := by
    refine filter_eq_nil_iff.mpr fun i hi => ?_
    rw [mem_range'_1] at hi
    have hcover : range.start ≤ i ∧ i < range.stop := by omega
    simp [covered, hcover]
  have hbehind : (range' high (n - high)).filter (fun i => !covered (range :: ranges) i)
      = (range' high (n - high)).filter fun i => !covered ranges i := by
    refine filter_congr fun i hi => ?_
    rw [mem_range'_1] at hi
    have hover : decide (range.start ≤ i ∧ i < range.stop) = false := by
      refine decide_eq_false ?_
      omega
    rw [covered, any_cons, hover, Bool.false_or, covered]
  rw [hbefore, hinside, hbehind, nil_append]

/-- Lists that a predicate tells apart from what follows them. -/
theorem append_inj_of_lt {m : Nat} {xs xs' ys ys' : List Nat} (hxs : ∀ x ∈ xs, x < m)
    (hxs' : ∀ x ∈ xs', x < m) (hys : ∀ y ∈ ys, m ≤ y) (hys' : ∀ y ∈ ys', m ≤ y) :
    xs ++ ys = xs' ++ ys' ↔ xs = xs' ∧ ys = ys' := by
  have hlow : ∀ xs ys : List Nat, (∀ x ∈ xs, x < m) → (∀ y ∈ ys, m ≤ y) →
      (xs ++ ys).filter (fun i => decide (i < m)) = xs := by
    intro xs ys hxs hys
    rw [filter_append, filter_eq_self.mpr fun x hx => decide_eq_true (hxs x hx),
      filter_eq_nil_iff.mpr fun y hy => ?_, append_nil]
    simpa using hys y hy
  constructor
  · intro h
    have hfirst : xs = xs' := by rw [← hlow xs ys hxs hys, h, hlow xs' ys' hxs' hys']
    rw [hfirst] at h
    exact ⟨hfirst, append_cancel_left h⟩
  · rintro ⟨rfl, rfl⟩
    rfl

theorem range'_upTo_inj {a b c : Nat} (hab : a ≤ b) :
    range' a (c - a) = range' b (c - b) ↔ b ≤ a ∨ c ≤ a := by
  constructor
  · intro h
    have hlength := congrArg length h
    rw [length_range', length_range'] at hlength
    omega
  · rintro (h | h)
    · rw [Nat.le_antisymm hab h]
    rw [Nat.sub_eq_zero_of_le h, Nat.sub_eq_zero_of_le (h.trans hab)]
    rfl

/-- Induction on the ranges: before the start of the next one, what is taken is what is not
covered if the last range reached as far as any, or if there is nothing to take. -/
theorem redactFrom_eq_iff {lastEnd reach : Nat} (hle : lastEnd ≤ reach) (hreach : reach ≤ n)
    (hsorted : ranges.Pairwise fun a b => a.start ≤ b.start)
    (hranges : ∀ r ∈ ranges, r.start ≤ r.stop ∧ r.stop ≤ n) :
    redactFrom [] (range n) lastEnd ranges
        = (range' reach (n - reach)).filter (fun i => !covered ranges i)
      ↔ EndsReached lastEnd reach ranges := by
  induction ranges generalizing lastEnd reach with
  | nil =>
    have hall : (range' reach (n - reach)).filter (fun i => !covered [] i)
        = range' reach (n - reach) := filter_eq_self.mpr fun _ _ => rfl
    have htail : (range n).drop lastEnd = range' lastEnd (n - lastEnd) := by
      rw [range_eq_range', drop_range']
      simp
    rw [hall, redactFrom, htail, EndsReached, range'_upTo_inj hle]
    omega
  | cons range _ ih =>
    obtain ⟨hlater, hsorted⟩ := pairwise_cons.mp hsorted
    obtain ⟨⟨hordered, hbounded⟩, hranges⟩ := forall_mem_cons.mp hranges
    rw [filter_uncovered hreach hordered hbounded hlater, redactFrom, append_nil,
      range_take_drop (hordered.trans hbounded), EndsReached,
      ← ih (le_max_right _ _) (max_le hreach hbounded) hsorted hranges]
    rw [append_inj_of_lt (m := range.start)]
    · exact and_congr_left fun _ => range'_upTo_inj hle
    · intro i hi
      rw [mem_range'_1] at hi
      omega
    · intro i hi
      rw [mem_range'_1] at hi
      omega
    · intro i hi
      refine le_of_mem_redactFrom hordered (fun r hr => ?_) hi
      exact (hlater r hr).trans (hranges r hr).1
    · intro i hi
      have := (mem_range'_1.mp (mem_of_mem_filter hi)).1
      omega

end

/-- The result is made of marks and of bytes of the content. These are, in order, the bytes that
no range covers, exactly if no range ends before an earlier one, unless the next one starts no
later than that. -/
theorem redacted_iff (hsorted : ranges.Pairwise fun a b => a.start ≤ b.start)
    (hwithin : ∀ r ∈ ranges, r.Within content) :
    utf8 (applyRedactions content ranges) = (origins content ranges).map (byteAt content)
      ∧ (Redacted content ranges ↔ EndsReached 0 0 ranges) := by
  refine ⟨utf8_applyRedactions hwithin, ?_⟩
  have hplaces : range (len content) = range' 0 (len content - 0) := range_eq_range'
  rw [Redacted, filterMap_origins]
  conv_lhs => rhs; rw [hplaces]
  exact redactFrom_eq_iff (Nat.le_refl 0) (Nat.zero_le _) hsorted
    fun r hr => ⟨(hwithin r hr).ordered, (hwithin r hr).bounded⟩

theorem overlapping_redacted :
    applyRedactions "key sk-1234567890 end" [⟨4, 12⟩, ⟨7, 17⟩] = "key [REDACTED][REDACTED] end"
      ∧ Redacted "key sk-1234567890 end" [⟨4, 12⟩, ⟨7, 17⟩] := by
  refine ⟨by decide, (redacted_iff _ _ (by decide) ?_).2.mpr (by decide)⟩
  intro r hr
  rcases mem_pair.mp hr with rfl | rfl
  · exact ⟨by decide, by decide, ⟨4, by decide, by decide⟩, ⟨12, by decide, by decide⟩⟩
  · exact ⟨by decide, by decide, ⟨7, by decide, by decide⟩, ⟨17, by decide, by decide⟩⟩

/-- A range inside another: what is behind it of the outer one comes out. -/
theorem nested_not_redacted :
    applyRedactions "key sk-1234567890 end" [⟨4, 17⟩, ⟨7, 12⟩] = "key [REDACTED][REDACTED]67890 end"
      ∧ ¬ Redacted "key sk-1234567890 end" [⟨4, 17⟩, ⟨7, 12⟩] := by
  unfold Redacted
  decide

end TitanClaw.Safety
