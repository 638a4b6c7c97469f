import TitanClaw.Lib.Scan
import TitanClaw.Safety.CriticalFindings

/-! # What escaping leaves

The tokens are escaped first and the null bytes are removed after that. A token with a null byte
inside is not escaped, and it is a token when the null byte is gone. -/

namespace TitanClaw.Safety

open Text Replace Scan

open List hiding replace

/-! ## The statement -/

abbrev special : List Char := ['<', '|']

abbrev inst : List Char := ['[', 'I', 'N', 'S', 'T', ']']

abbrev endInst : List Char := ['[', '/', 'I', 'N', 'S', 'T', ']']

def markedTokens : List (List Char) := [special, inst, endInst]

structure Neutralised (s : String) : Prop where
  noNull : '\x00' ∉ s.toList
  noPipe : ¬ ['|', '>'] <:+: s.toList
  escaped : ∀ t ∈ markedTokens, ∀ a b, a ++ t ++ b = s.toList → a.getLast? = some '\\'
  noRole : ∀ line ∈ lines s, ∀ marker ∈ roleMarkers,
    ¬ marker.toList <+: (line.toList.dropWhile isWhitespace).map Char.toLower

def notNull (c : Char) : Bool := decide (c ≠ '\x00')

/-- The text goes on with the token once the null bytes are out, but has null bytes inside. -/
def Interrupted (t s : List Char) : Prop :=
  s.head? ≠ some '\x00' ∧ t <+: s.filter notNull ∧ ¬ t <+: s

/-- At no place there is an interrupted `|>`, and every other interrupted token has a backslash
before it, null bytes aside. -/
def NullsApart (l : List Char) : Prop :=
  ∀ a s, a ++ s = l → ¬ Interrupted ['|', '>'] s
    ∧ ∀ t ∈ markedTokens, Interrupted t s → (a.filter notNull).getLast? = some '\\'

/-! ## The tokens -/

def markIf (b : Bool) : List Char := if b then ['\\'] else []

def escapeTokens : List Char → List Char
  | [] => []
  | c :: cs =>
      markIf (markedTokens.any fun t => decide (t <+: c :: cs))
        ++ c :: (markIf (decide (['|', '>'] <+: c :: cs)) ++ escapeTokens cs)

section

variable {w : List Char}

theorem prefix_mark_iff {first : Char} {tail : List Char} (hfirst : first ∉ tail)
    (hw : first ∉ w) (hmark : '\\' ∉ w) (l : List Char) :
    w <+: replaceAll (first :: tail) ('\\' :: first :: tail) 0 l ↔ w <+: l := by
  induction l generalizing w with
  | nil => rfl
  | cons _ _ ih =>
    cases w with
    | nil => simp
    | cons =>
      rw [mem_cons, not_or] at hw hmark
      rw [replaceAll_mark hfirst]
      split
      · next hpre =>
          refine iff_of_false (fun h => ?_) fun h => ?_
          · rw [singleton_append] at h
            exact hmark.1 (cons_prefix_cons.mp h).1.symm
          · rw [(cons_prefix_cons.mp h).1] at hw
            exact hw.1 (cons_prefix_cons.mp hpre).1
      · rw [nil_append, cons_prefix_cons, cons_prefix_cons, ih hw.2 hmark.2]

theorem prefix_split_iff {a b : Char} (hab : b ≠ a) (hw : b ∉ w) (hmark : '\\' ∉ w)
    (l : List Char) : w <+: replaceAll [a, b] [a, '\\', b] 0 l ↔ w <+: l := by
  induction l generalizing w with
  | nil => rfl
  | cons _ _ ih =>
    cases w with
    | nil => simp
    | cons d w =>
      rw [mem_cons, not_or] at hw hmark
      rw [replaceAll_split hab]
      split
      · next hpre =>
          -- the marked letter comes next
          obtain ⟨rest, hrest⟩ := (cons_prefix_cons.mp hpre).2
          subst hrest
          rw [cons_append, cons_prefix_cons, cons_prefix_cons]
          refine and_congr_right fun _ => ?_
          cases w with
          | nil => simp
          | cons =>
            rw [mem_cons, not_or] at hw hmark
            refine iff_of_false (fun h => ?_) fun h => ?_
            · exact hmark.2.1 (cons_prefix_cons.mp h).1.symm
            · exact hw.2.1 (cons_prefix_cons.mp h).1.symm
      · rw [cons_append, nil_append, cons_prefix_cons, cons_prefix_cons, ih hw.2 hmark.2]

theorem not_mem_markIf (b : Bool) {c : Char} (hc : c ≠ '\\') : c ∉ markIf b := by
  cases b with
  | false => exact not_mem_nil
  | true =>
    show c ∉ ['\\']
    rw [mem_singleton]
    exact hc

theorem ite_eq_markIf (p : Prop) [Decidable p] :
    (if p then ['\\'] else []) = markIf (decide p) := by
  by_cases hp : p <;> simp [markIf, hp]

def replacePipes (l : List Char) : List Char :=
  replaceAll ['|', '>'] ['|', '\\', '>'] 0 (replaceAll special ('\\' :: special) 0 l)

theorem replacePipes_cons (c : Char) (cs : List Char) :
    replacePipes (c :: cs)
      = markIf (decide (special <+: c :: cs))
        ++ c :: (markIf (decide (['|', '>'] <+: c :: cs)) ++ replacePipes cs) := by
  have hnext : ['|', '>'] <+: c :: replaceAll special ('\\' :: special) 0 cs
      ↔ ['|', '>'] <+: c :: cs := by
    rw [cons_prefix_cons, cons_prefix_cons, prefix_mark_iff (by decide) (by decide) (by decide)]
  rw [replacePipes, replaceAll_mark (by decide), ite_eq_markIf,
    replaceAll_append_of_not_mem rfl (not_mem_markIf _ (by decide)), replaceAll_split (by decide),
    ite_eq_markIf]
  simp only [hnext, cons_append, replacePipes]

theorem prefix_replacePipes_iff (h : '<' ∉ w) (h' : '>' ∉ w) (hmark : '\\' ∉ w) (l : List Char) :
    w <+: replacePipes l ↔ w <+: l := by
  rw [replacePipes, prefix_split_iff (by decide) h' hmark, prefix_mark_iff (by decide) h hmark]

theorem replaceAll_bracket {tail : List Char} (htail : '[' ∉ tail) (b b' : Bool) (c : Char)
    (cs : List Char) :
    replaceAll ('[' :: tail) ('\\' :: '[' :: tail) 0 (markIf b ++ c :: (markIf b' ++ cs))
      = markIf b ++ (markIf (decide ('[' :: tail <+: c :: (markIf b' ++ cs)))
        ++ c :: (markIf b' ++ replaceAll ('[' :: tail) ('\\' :: '[' :: tail) 0 cs)) := by
  rw [replaceAll_append_of_not_mem rfl (not_mem_markIf _ (by decide)), replaceAll_mark htail,
    ite_eq_markIf, replaceAll_append_of_not_mem rfl (not_mem_markIf _ (by decide))]

theorem token_unique {s t t' : List Char} (ht : t ∈ markedTokens) (ht' : t' ∈ markedTokens)
    (h : t <+: s) (h' : t' <+: s) : t = t' := by
  have hall : ∀ t ∈ markedTokens, ∀ t' ∈ markedTokens, t <+: t' → t = t' := by decide
  rcases prefix_or_prefix_of_prefix h h' with hpre | hpre
  · exact hall t ht t' ht' hpre
  · exact (hall t' ht' t ht hpre).symm

theorem marks_eq (s : List Char) :
    markIf (decide (special <+: s))
        ++ (markIf (decide (inst <+: s)) ++ markIf (decide (endInst <+: s)))
      = markIf (markedTokens.any fun t => decide (t <+: s)) := by
  have hspecial : special ∈ markedTokens := by decide
  have hinst : inst ∈ markedTokens := by decide
  have hend : endInst ∈ markedTokens := by decide
  have hnot : ∀ t ∈ markedTokens, ∀ t' ∈ markedTokens, t ≠ t' → t <+: s →
      decide (t' <+: s) = false :=
    fun t ht t' ht' hne h => decide_eq_false fun h' => hne (token_unique ht ht' h h')
  simp only [markedTokens, any_cons, any_nil, Bool.or_false]
  by_cases h₁ : special <+: s
  · rw [hnot _ hspecial _ hinst (by decide) h₁, hnot _ hspecial _ hend (by decide) h₁,
      decide_eq_true h₁]
    rfl
  · rw [decide_eq_false h₁]
    by_cases h₂ : inst <+: s
    · rw [hnot _ hinst _ hend (by decide) h₂, decide_eq_true h₂]
      rfl
    · rw [decide_eq_false h₂]
      rfl

theorem replaced_eq (l : List Char) :
    replaceAll endInst ('\\' :: endInst) 0 (replaceAll inst ('\\' :: inst) 0 (replacePipes l))
      = escapeTokens l := by
  induction l with
  | nil => rfl
  | cons c cs ih =>
    rw [replacePipes_cons, replaceAll_bracket (by decide),
      replaceAll_append_of_not_mem rfl (not_mem_markIf _ (by decide)),
      replaceAll_bracket (by decide), ih, escapeTokens]
    -- no mark separates a bracket from what follows it
    have hpipe : '[' = c → decide (['|', '>'] <+: c :: cs) = false := by
      rintro rfl
      exact decide_eq_false fun h => absurd (cons_prefix_cons.mp h).1 (by decide)
    generalize decide (['|', '>'] <+: c :: cs) = pipe at hpipe
    have hinst : inst <+: c :: (markIf pipe ++ replacePipes cs) ↔ inst <+: c :: cs := by
      rw [cons_prefix_cons, cons_prefix_cons]
      refine and_congr_right fun hc => ?_
      rw [hpipe hc]
      exact prefix_replacePipes_iff (by decide) (by decide) (by decide) cs
    have hend : endInst <+: c :: (markIf pipe ++ replaceAll inst ('\\' :: inst) 0 (replacePipes cs))
        ↔ endInst <+: c :: cs := by
      rw [cons_prefix_cons, cons_prefix_cons]
      refine and_congr_right fun hc => ?_
      rw [hpipe hc, ← prefix_replacePipes_iff (by decide) (by decide) (by decide) cs]
      exact prefix_mark_iff (by decide) (by decide) (by decide) _
    simp only [hinst, hend, ← marks_eq, append_assoc]

end

/-! ## Without the null bytes -/

/-- The escaped tokens without the null bytes. -/
def unnulled (l : List Char) : List Char := (escapeTokens l).filter notNull

section

variable {w t cs : List Char} {c : Char}

theorem filter_markIf (b : Bool) : (markIf b).filter notNull = markIf b := by cases b <;> decide

theorem unnulled_null : unnulled ('\x00' :: cs) = unnulled cs := by
  have hnone : (markedTokens.any fun t => decide (t <+: '\x00' :: cs)) = false := by
    refine any_eq_false.mpr fun t ht h => ?_
    have hall : ∀ t ∈ markedTokens, t ≠ [] ∧ t.head? ≠ some '\x00' := by decide
    obtain ⟨hne, hhead⟩ := hall t ht
    obtain ⟨d, t, rfl⟩ := exists_cons_of_ne_nil hne
    exact hhead (congrArg some (cons_prefix_cons.mp (of_decide_eq_true h)).1)
  have hpipe : decide (['|', '>'] <+: '\x00' :: cs) = false :=
    decide_eq_false fun h => absurd (cons_prefix_cons.mp h).1 (by decide)
  rw [unnulled, escapeTokens, hnone, hpipe]
  exact filter_cons_of_neg (by decide)

theorem unnulled_cons (hc : c ≠ '\x00') :
    unnulled (c :: cs) = markIf (markedTokens.any fun t => decide (t <+: c :: cs))
      ++ c :: (markIf (decide (['|', '>'] <+: c :: cs)) ++ unnulled cs) := by
  have hkeep : notNull c = true := decide_eq_true hc
  rw [unnulled, escapeTokens, filter_append, filter_markIf, filter_cons_of_pos hkeep,
    filter_append, filter_markIf, unnulled]

/-- The letters that a mark stands before are at the beginning of a token, or behind a pipe. -/
theorem head_of_marked (h : (markedTokens.any fun t => decide (t <+: c :: cs)) = true) :
    c = '<' ∨ c = '[' := by
  obtain ⟨t, ht, hpre⟩ := any_eq_true.mp h
  have hall : ∀ t ∈ markedTokens, t.head? = some '<' ∨ t.head? = some '[' := by decide
  have hhead : t ≠ [] → t.head? = some c := by
    intro hne
    obtain ⟨d, t, rfl⟩ := exists_cons_of_ne_nil hne
    rw [(cons_prefix_cons.mp (of_decide_eq_true hpre)).1]
    rfl
  rcases hall t ht with hfirst | hfirst
  · rw [hhead (by rintro rfl; cases hfirst)] at hfirst
    exact .inl (Option.some.inj hfirst)
  · rw [hhead (by rintro rfl; cases hfirst)] at hfirst
    exact .inr (Option.some.inj hfirst)

/-- Words that no mark can separate. -/
theorem prefix_unnulled_iff (hmark : '\\' ∉ w) (hangle : '<' ∉ w) (hbracket : '[' ∉ w)
    (hend : '>' ∉ w.tail) (l : List Char) : w <+: unnulled l ↔ w <+: l.filter notNull := by
  induction l generalizing w with
  | nil => rfl
  | cons c cs ih =>
    by_cases hc : c = '\x00'
    · subst hc
      rw [unnulled_null, ih hmark hangle hbracket hend, filter_cons_of_neg (by decide)]
    · have hkeep : notNull c = true := decide_eq_true hc
      rw [unnulled_cons hc, filter_cons_of_pos hkeep]
      cases w with
      | nil => simp
      | cons d w =>
        rw [mem_cons, not_or] at hmark hangle hbracket
        rw [tail_cons] at hend
        cases hmarked : markedTokens.any fun t => decide (t <+: c :: cs) with
        | true =>
          refine iff_of_false (fun h => ?_) fun h => ?_
          · exact hmark.1 (cons_prefix_cons.mp h).1.symm
          · have hd := (cons_prefix_cons.mp h).1
            rcases head_of_marked hmarked with rfl | rfl
            · exact hangle.1 hd.symm
            · exact hbracket.1 hd.symm
        | false =>
          have htail : '>' ∉ w.tail := fun h => hend (mem_of_mem_tail h)
          have hrest : w <+: markIf (decide (['|', '>'] <+: c :: cs)) ++ unnulled cs
              ↔ w <+: cs.filter notNull := by
            by_cases hpipe : ['|', '>'] <+: c :: cs
            · -- the word would go on with what is behind the pipe
              obtain ⟨rest, rfl⟩ := (cons_prefix_cons.mp hpipe).2
              rw [decide_eq_true hpipe]
              cases w with
              | nil => simp
              | cons =>
                rw [mem_cons, not_or] at hmark hend
                refine iff_of_false (fun h => ?_) fun h => ?_
                · exact hmark.2.1 (cons_prefix_cons.mp h).1.symm
                · rw [singleton_append, filter_cons_of_pos (by decide)] at h
                  exact hend.1 (cons_prefix_cons.mp h).1.symm
            · rw [decide_eq_false hpipe]
              exact ih hmark.2 hangle.2 hbracket.2 htail
          exact cons_prefix_cons.trans
            ((and_congr_right fun _ => hrest).trans cons_prefix_cons.symm)

/-! ## The tokens that are left -/

/-- A marked token at its first letter: what the rest of it is like. -/
theorem token_shape (ht : t ∈ markedTokens) :
    ∃ d w, t = d :: w ∧ (d = '<' ∨ d = '[') ∧ '\\' ∉ w ∧ '<' ∉ w ∧ '[' ∉ w ∧ '>' ∉ w.tail
      ∧ '\x00' ∉ t := by
  simp only [markedTokens, mem_cons, not_mem_nil, or_false] at ht
  rcases ht with rfl | rfl | rfl
  · exact ⟨'<', ['|'], rfl, by decide⟩
  · exact ⟨'[', ['I', 'N', 'S', 'T', ']'], rfl, by decide⟩
  · exact ⟨'[', ['/', 'I', 'N', 'S', 'T', ']'], rfl, by decide⟩

theorem not_prefix_mark (ht : t ∈ markedTokens) (s : List Char) : ¬ t <+: '\\' :: s := by
  obtain ⟨d, w, rfl, hd, -⟩ := token_shape ht
  intro h
  have hmark := (cons_prefix_cons.mp h).1
  rcases hd with rfl | rfl <;> exact absurd hmark (by decide)

theorem prefix_filter_of_prefix (hnull : '\x00' ∉ w) (h : w <+: cs) : w <+: cs.filter notNull := by
  have hself : w.filter notNull = w :=
    filter_eq_self.mpr fun c hc => decide_eq_true fun heq => hnull (heq ▸ hc)
  rw [← hself]
  exact h.filter _

theorem not_interrupted_of_marked (ht : t ∈ markedTokens)
    (h : (markedTokens.any fun t => decide (t <+: c :: cs)) = true) :
    ¬ Interrupted t (c :: cs) := by
  rintro ⟨-, hpre, hnot⟩
  obtain ⟨t', ht', hthere⟩ := any_eq_true.mp h
  obtain ⟨-, -, -, -, -, -, -, -, hnull⟩ := token_shape ht'
  have hthere' := prefix_filter_of_prefix hnull (of_decide_eq_true hthere)
  rw [token_unique ht ht' hpre hthere'] at hnot
  exact hnot (of_decide_eq_true hthere)

/-- Every token has a backslash before it. -/
abbrev Escaped (t : List Char) (prev : Option Char) (s : List Char) : Prop :=
  t <+: s → prev = some '\\'

abbrev EscapedInterrupted (t : List Char) (prev : Option Char) (s : List Char) : Prop :=
  Interrupted t s → prev = some '\\'

section

variable (ht : t ∈ markedTokens)

include ht

/-- What is behind a pipe: a mark there is before a `>`, which begins no token. -/
theorem escaped_behind_pipe (prev : Option Char) :
    Everywhere (fun _ => true) (Escaped t) prev
        (markIf (decide (['|', '>'] <+: c :: cs)) ++ unnulled cs)
      ↔ Everywhere (fun _ => true) (Escaped t) prev (unnulled cs) := by
  by_cases hpipe : ['|', '>'] <+: c :: cs
  · obtain ⟨rest, rfl⟩ := (cons_prefix_cons.mp hpipe).2
    have hnone : (markedTokens.any fun t => decide (t <+: '>' :: rest)) = false := by
      refine Bool.eq_false_iff.mpr fun h => ?_
      rcases head_of_marked h with h | h <;> exact absurd h (by decide)
    have hend : ¬ ∃ s, t <+: '>' :: s := by
      rintro ⟨s, h⟩
      obtain ⟨d, w, rfl, hd, -⟩ := token_shape ht
      have hfirst := (cons_prefix_cons.mp h).1
      rcases hd with rfl | rfl <;> exact absurd hfirst (by decide)
    rw [decide_eq_true hpipe, singleton_append, unnulled_cons (by decide), hnone]
    show Everywhere _ _ _ ('\\' :: '>' :: _) ↔ Everywhere _ _ _ ('>' :: _)
    rw [everywhere_cons, everywhere_cons, everywhere_cons, if_pos rfl, if_pos rfl]
    constructor
    · exact fun h => ⟨fun hpre => absurd ⟨_, hpre⟩ hend, h.2.2⟩
    · exact fun h => ⟨fun hpre => absurd hpre (not_prefix_mark ht _),
        fun hpre => absurd ⟨_, hpre⟩ hend, h.2⟩
  · rw [decide_eq_false hpipe]
    rfl

/-- A token that is not there with the null bytes is there without them. -/
theorem prefix_unmarked_iff (hc : c ≠ '\x00')
    (h : (markedTokens.any fun t => decide (t <+: c :: cs)) = false) :
    t <+: c :: (markIf (decide (['|', '>'] <+: c :: cs)) ++ unnulled cs)
      ↔ Interrupted t (c :: cs) := by
  have hkeep : notNull c = true := decide_eq_true hc
  have hnot : ¬ t <+: c :: cs := of_decide_eq_false (by
    simpa using any_eq_false.mp h t ht)
  have hfilter : t <+: c :: (markIf (decide (['|', '>'] <+: c :: cs)) ++ unnulled cs)
      ↔ t <+: (c :: cs).filter notNull := by
    obtain ⟨d, w, rfl, hd, hmark, hangle, hbracket, hend, -⟩ := token_shape ht
    rw [filter_cons_of_pos hkeep]
    refine cons_prefix_cons.trans (Iff.trans (and_congr_right ?_) cons_prefix_cons.symm)
    rintro rfl
    have hpipe : ¬ ['|', '>'] <+: d :: cs := by
      intro hpre
      have hfirst := (cons_prefix_cons.mp hpre).1
      rcases hd with rfl | rfl <;> exact absurd hfirst (by decide)
    rw [decide_eq_false hpipe]
    exact prefix_unnulled_iff hmark hangle hbracket hend cs
  rw [hfilter]
  exact ⟨fun hpre => ⟨fun hnull => hc (Option.some.inj hnull), hpre, hnot⟩, fun h => h.2.1⟩

theorem escaped_unnulled_iff (l : List Char) (prev : Option Char) :
    Everywhere (fun _ => true) (Escaped t) prev (unnulled l)
      ↔ Everywhere notNull (EscapedInterrupted t) prev l := by
  induction l generalizing prev with
  | nil =>
    have hne : ¬ t <+: [] := by
      obtain ⟨d, w, rfl, -⟩ := token_shape ht
      exact fun h => cons_ne_nil _ _ (prefix_nil.mp h)
    rw [unnulled, escapeTokens, filter_nil, everywhere_nil, everywhere_nil]
    exact iff_of_true (fun h => absurd h hne) fun h => absurd h.2.1 hne
  | cons c cs ih =>
    by_cases hc : c = '\x00'
    · subst hc
      rw [unnulled_null, everywhere_cons, ih, if_neg (by decide)]
      exact ⟨fun h => ⟨fun hin => absurd rfl hin.1, h⟩, fun h => h.2⟩
    · have hkeep : notNull c = true := decide_eq_true hc
      rw [unnulled_cons hc, everywhere_cons, if_pos hkeep, ← ih]
      cases hmarked : markedTokens.any fun t => decide (t <+: c :: cs) with
      | true =>
        show Everywhere _ _ _ ('\\' :: c :: _) ↔ _
        rw [everywhere_cons, everywhere_cons, if_pos rfl, if_pos rfl, escaped_behind_pipe ht]
        constructor
        · exact fun h => ⟨fun hin => absurd hin (not_interrupted_of_marked ht hmarked), h.2.2⟩
        · exact fun h => ⟨fun hpre => absurd hpre (not_prefix_mark ht _), fun _ => rfl, h.2⟩
      | false =>
        show Everywhere _ _ _ (c :: _) ↔ _
        rw [everywhere_cons, if_pos rfl, escaped_behind_pipe ht, Escaped,
          prefix_unmarked_iff ht hc hmarked]

end

theorem pipe_infix_mark_iff (b : Bool) (l : List Char) :
    ['|', '>'] <:+: markIf b ++ l ↔ ['|', '>'] <:+: l := by
  cases b with
  | false => rfl
  | true =>
    show ['|', '>'] <:+: '\\' :: l ↔ _
    rw [infix_cons_iff]
    refine or_iff_right fun h => ?_
    exact absurd (cons_prefix_cons.mp h).1 (by decide)

theorem noPipe_unnulled_iff (l : List Char) (prev : Option Char) : ¬ ['|', '>'] <:+: unnulled l
      ↔ Everywhere notNull (fun _ s => ¬ Interrupted ['|', '>'] s) prev l := by
  induction l generalizing prev with
  | nil =>
    rw [unnulled, escapeTokens, filter_nil, everywhere_nil]
    exact iff_of_true (by decide) fun h => absurd h.2.1 (by decide)
  | cons c cs ih =>
    by_cases hc : c = '\x00'
    · subst hc
      rw [unnulled_null, everywhere_cons, ← ih]
      exact ⟨fun h => ⟨fun hin => hin.1 rfl, h⟩, fun h => h.2⟩
    · have hkeep : notNull c = true := decide_eq_true hc
      have hhere : ['|', '>'] <+: c :: (markIf (decide (['|', '>'] <+: c :: cs)) ++ unnulled cs)
          ↔ Interrupted ['|', '>'] (c :: cs) := by
        by_cases hpipe : ['|', '>'] <+: c :: cs
        · rw [decide_eq_true hpipe]
          refine iff_of_false (fun h => ?_) fun h => h.2.2 hpipe
          have hsecond := (cons_prefix_cons.mp h).2
          exact absurd (cons_prefix_cons.mp hsecond).1 (by decide)
        · have hfilter : ['|', '>'] <+: c :: unnulled cs
              ↔ ['|', '>'] <+: (c :: cs).filter notNull := by
            rw [filter_cons_of_pos hkeep, cons_prefix_cons, cons_prefix_cons,
              prefix_unnulled_iff (by decide) (by decide) (by decide) (by decide)]
          rw [decide_eq_false hpipe]
          refine hfilter.trans ⟨fun h => ?_, fun h => h.2.1⟩
          exact ⟨fun hnull => hc (Option.some.inj hnull), h, hpipe⟩
      rw [unnulled_cons hc, pipe_infix_mark_iff, infix_cons_iff, pipe_infix_mark_iff,
        everywhere_cons, ← ih, not_or, hhere]

end

section

variable {U : Lowercase} {content : String} {w : List Char} {ok : Option Char → Prop}

theorem escapeContent_eq : escapeContent U content
    = "\n".intercalate ((lines (String.ofList (unnulled content.toList))).map (escapeLine U)) := by
  have hnull : (fun c => decide (c ≠ '\x00')) = notNull := rfl
  simp only [escapeContent, replace, String.toList_ofList]
  rw [unnulled, ← replaced_eq, ← hnull, ← replaceAll_singleton_nil]
  rfl

theorem escapeLine_cases (line : String) :
    (escapeLine U line).toList = line.toList
      ∨ (escapeLine U line).toList = "[ESCAPED]".toList ++ ' ' :: line.toList := by
  rw [escapeLine]
  split
  · exact .inr String.toList_append
  · exact .inl rfl

/-- The lines are taken apart and put together again, and none of it matters to a word that has
no line ending and no blank and is not part of the label. -/
theorem allowed_escapeContent_iff (hw : w ≠ []) (hletters : '\n' ∉ w ∧ '\r' ∉ w ∧ ' ' ∉ w)
    (hlabel : ¬ w <:+: "[ESCAPED]".toList) (hok : ∀ c ∈ ['\n', '\r', ' '], ok (some c) ↔ ok none) :
    Allowed w ok (escapeContent U content).toList ↔ Allowed w ok (unnulled content.toList) := by
  have hseps : ∀ c ∈ ['\n', '\r', ' '], c ∉ w := by simpa using hletters
  have hsep : ∀ c ∈ ['\n', '\r', ' '], ∀ x y,
      Allowed w ok (x ++ c :: y) ↔ Allowed w ok x ∧ Allowed w ok y :=
    fun c hc => allowed_append_cons hw (hseps c hc) (hok c hc)
  have hnil : Allowed w ok [] := allowed_nil hw
  have hreturn : ∀ x, Allowed w ok (x ++ ['\r']) ↔ Allowed w ok x :=
    fun x => (hsep '\r' (by decide) x []).trans (and_iff_left hnil)
  have hline : ∀ line, Allowed w ok (escapeLine U line).toList ↔ Allowed w ok line.toList := by
    intro line
    rcases escapeLine_cases (U := U) line with heq | heq
    · rw [heq]
    rw [heq, hsep ' ' (by decide)]
    exact and_iff_right fun a b hab => absurd ⟨a, b, hab⟩ hlabel
  rw [escapeContent_eq, ← forall_joined_iff hnil (hsep '\n' (by decide)), forall_mem_map]
  simp only [hline]
  rw [forall_lines_iff hnil (hsep '\n' (by decide)) hreturn, String.toList_ofList]

abbrev NoRole (line : List Char) : Prop :=
  ∀ marker ∈ roleMarkers, ¬ marker.toList <+: (line.dropWhile isWhitespace).map Char.toLower

theorem noRole_of_prefix {line l : List Char} (hpre : line <+: l) (h : NoRole l) : NoRole line := by
  intro marker hmarker hline
  obtain ⟨rest, rfl⟩ := hpre
  refine h marker hmarker ?_
  rw [dropWhile_append]
  split
  · next hempty =>
      have hne : ∀ marker ∈ roleMarkers, marker.toList ≠ [] := by decide
      rw [isEmpty_iff.mp hempty] at hline
      exact absurd (prefix_nil.mp hline) (hne marker hmarker)
  · rw [map_append]
    exact hline.trans (prefix_append _ _)

theorem ascii_of_toLower {c : Char} (h : c.toLower.toNat < 128) : c.toNat < 128 := by
  unfold Char.toLower at h
  split at h
  · next hupper =>
      have hle : c.val ≤ 90 := hupper.2
      have hnat : c.val.toNat ≤ 90 := hle
      exact Nat.lt_of_le_of_lt hnat (by decide)
  · exact h

theorem noRole_escapeLine (line : String) : NoRole (escapeLine U line).toList := by
  intro marker hmarker hpre
  rw [escapeLine] at hpre
  split at hpre
  · -- the label begins with a bracket
    have hhead : ∀ marker ∈ roleMarkers, marker.toList.head? ≠ some '[' ∧ marker.toList ≠ [] := by
      decide
    obtain ⟨hbracket, hne⟩ := hhead marker hmarker
    obtain ⟨c, m, hm⟩ := exists_cons_of_ne_nil hne
    rw [String.toList_append, hm] at hpre
    rw [hm] at hbracket
    exact hbracket (congrArg some (cons_prefix_cons.mp hpre).1)
  · next hnone =>
      have hascii : ∀ marker ∈ roleMarkers, marker.toList.all (·.toNat < 128) = true := by decide
      have htake := prefix_iff_eq_take.mp hpre
      rw [← map_take] at htake
      refine hnone (any_eq_true.mpr ⟨marker, hmarker, isPrefixOf_iff_prefix.mpr ?_⟩)
      have hlower := U.lower_ascii_prefix
        ((line.toList.dropWhile isWhitespace).take marker.toList.length)
        ((line.toList.dropWhile isWhitespace).drop marker.toList.length) fun c hc => by
          refine ascii_of_toLower (of_decide_eq_true (all_eq_true.mp (hascii marker hmarker) _ ?_))
          rw [htake]
          exact mem_map_of_mem hc
      rwa [← htake, take_append_drop] at hlower

theorem noRole_lines : ∀ line ∈ lines (escapeContent U content), NoRole line.toList := by
  intro line hline
  rw [escapeContent_eq] at hline
  have hfeed : ∀ l ∈ (lines (String.ofList (unnulled content.toList))).map (escapeLine U),
      '\n' ∉ l.toList := by
    refine forall_mem_map.mpr fun l hl => ?_
    have hline := newline_not_mem_lines _ l hl
    rcases escapeLine_cases (U := U) l with heq | heq
    · rwa [heq]
    rw [heq, mem_append, mem_cons, not_or, not_or]
    exact ⟨by decide, by decide, hline⟩
  obtain ⟨l, hl, hpre⟩ := lines_joined_prefix _ hfeed line hline
  obtain ⟨l, -, rfl⟩ := mem_map.mp hl
  exact noRole_of_prefix hpre (noRole_escapeLine l)

theorem nullsApart_iff (l : List Char) : NullsApart l
    ↔ Everywhere notNull (fun _ s => ¬ Interrupted ['|', '>'] s) none l
      ∧ ∀ t ∈ markedTokens, Everywhere notNull (EscapedInterrupted t) none l := by
  simp only [NullsApart, Everywhere, Option.or_none]
  constructor
  · exact fun h => ⟨fun a s has => (h a s has).1, fun t ht a s has => (h a s has).2 t ht⟩
  · exact fun h a s has => ⟨h.1 a s has, fun t ht => h.2 t ht a s has⟩

theorem nullsApart_of_noNull {l : List Char} (h : '\x00' ∉ l) : NullsApart l := by
  intro a s has
  have hself : s.filter notNull = s :=
    filter_eq_self.mpr fun c hc => decide_eq_true fun heq => h (has ▸ mem_append_right a (heq ▸ hc))
  have hnone : ∀ t, ¬ Interrupted t s := fun t hin => hin.2.2 (hself ▸ hin.2.1)
  exact ⟨hnone _, fun t _ hin => absurd hin (hnone t)⟩

theorem neutralised_escapeContent_iff :
    Neutralised (escapeContent U content) ↔ NullsApart content.toList := by
  have hletters : ∀ t ∈ ['|', '>'] :: ['\x00'] :: markedTokens, t ≠ []
      ∧ ('\n' ∉ t ∧ '\r' ∉ t ∧ ' ' ∉ t) ∧ ¬ t <:+: "[ESCAPED]".toList := by decide
  have hescaped : ∀ t ∈ markedTokens,
      Allowed t (· = some '\\') (escapeContent U content).toList
        ↔ Everywhere notNull (EscapedInterrupted t) none content.toList := by
    intro t ht
    obtain ⟨hne, hseps, hlabel⟩ := hletters t (by simp [ht])
    rw [allowed_escapeContent_iff hne hseps hlabel (by simp), allowed_iff_everywhere]
    exact escaped_unnulled_iff ht content.toList none
  have hpipe : ¬ ['|', '>'] <:+: (escapeContent U content).toList
      ↔ Everywhere notNull (fun _ s => ¬ Interrupted ['|', '>'] s) none content.toList := by
    obtain ⟨hne, hseps, hlabel⟩ := hletters ['|', '>'] (by simp)
    rw [← allowed_never, allowed_escapeContent_iff hne hseps hlabel (fun _ _ => Iff.rfl),
      allowed_never]
    exact noPipe_unnulled_iff content.toList none
  have hnull : ¬ ['\x00'] <:+: (escapeContent U content).toList := by
    obtain ⟨hne, hseps, hlabel⟩ := hletters ['\x00'] (by simp)
    rw [← allowed_never, allowed_escapeContent_iff hne hseps hlabel (fun _ _ => Iff.rfl),
      allowed_never]
    intro hin
    have hmem := hin.subset (mem_singleton_self _)
    exact absurd (mem_filter.mp hmem).2 (by decide)
  rw [nullsApart_iff, ← hpipe]
  constructor
  · exact fun h => ⟨h.noPipe, fun t ht => (hescaped t ht).mp (h.escaped t ht)⟩
  · intro h
    refine ⟨fun hmem => hnull ?_, h.1, fun t ht => (hescaped t ht).mpr (h.2 t ht), noRole_lines⟩
    obtain ⟨a, b, hab⟩ := append_of_mem hmem
    exact ⟨a, b, by rw [append_assoc, singleton_append, hab]⟩

end

theorem sanitized_neutralised_iff (E : SanitizerRegexes) (U : Lowercase) (content : String) :
    (hasCritical E.toRegexEngine content = true
        → Neutralised (sanitize E.toRegexEngine U content).content)
      ↔ NullsApart content.toList := by
  by_cases hcritical : hasCritical E.toRegexEngine content = true
  · rw [sanitize, if_pos hcritical, neutralised_escapeContent_iff]
    exact forall_prop_of_true hcritical
  · refine iff_of_true (fun h => absurd h hcritical) (nullsApart_of_noNull fun hnull => ?_)
    exact hcritical (hasCritical_iff.mpr (.inr hnull))

theorem null_inside_token : hasCritical nullOnly.toRegexEngine "<\x00|im_start|\x00>" = true
      ∧ (sanitize nullOnly.toRegexEngine asciiLower "<\x00|im_start|\x00>").content = "<|im_start|>"
      ∧ ¬ Neutralised
        (sanitize nullOnly.toRegexEngine asciiLower "<\x00|im_start|\x00>").content := by
  have hcritical : hasCritical nullOnly.toRegexEngine "<\x00|im_start|\x00>" = true :=
    hasCritical_iff.mpr (.inr (by decide))
  have hcontent : (sanitize nullOnly.toRegexEngine asciiLower "<\x00|im_start|\x00>").content
      = "<|im_start|>" := by
    rw [sanitize, if_pos hcritical]
    decide
  refine ⟨hcritical, hcontent, fun h => ?_⟩
  have hpipe := h.noPipe
  rw [hcontent] at hpipe
  exact hpipe (by decide)

end TitanClaw.Safety
