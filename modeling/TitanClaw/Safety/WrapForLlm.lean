import TitanClaw.Agent.Execute

/-! # The block around a tool's output

`wrap_for_llm` puts name and content into a template, through escapers of their own.
The angle brackets of the result are those of the template, so the block ends where
it says, and reading it the way it was written gives both back. -/

namespace TitanClaw.Safety

open Agent Replace List

/-! ## The escapers as the source has them -/

/-- One `replace` of a character after the other. -/
def replaceChars (steps : List (Char × String)) (s : List Char) : List Char :=
  steps.foldl (fun s step => replaceAll [step.1] step.2.toList 0 s) s

variable (s : String)

def escapeXmlContent : String :=
  String.ofList (replaceChars [('&', "&amp;"), ('<', "&lt;"), ('>', "&gt;")] s.toList)

def escapeXmlAttr : String :=
  String.ofList (replaceChars [('&', "&amp;"), ('"', "&quot;"), ('<', "&lt;"), ('>', "&gt;")]
    s.toList)

theorem replaceChars_eq (steps : List (Char × String)) (s : List Char) :
    replaceChars steps s = s.flatMap fun c => replaceChars steps [c] := by
  induction steps generalizing s with
  | nil => simp [replaceChars]
  | cons step steps ih =>
    have hstep : ∀ s, replaceChars (step :: steps) s
        = replaceChars steps (replaceAll [step.1] step.2.toList 0 s) := fun _ => rfl
    simp only [hstep]
    rw [ih, replaceAll_singleton, flatMap_assoc]
    congr 1
    funext c
    rw [ih (replaceAll _ _ _ [c]), replaceAll_singleton, flatMap_singleton]

/-- One replacement after the other makes of each letter what one pass does. -/
theorem escapeXmlAttr_eq : escapeXmlAttr s = escapeXml true s := by
  rw [escapeXmlAttr, escapeXml, replaceChars_eq]
  congr 2
  funext c
  by_cases hc : c ∈ ['&', '"', '<', '>']
  · simp only [mem_cons, not_mem_nil, or_false] at hc
    rcases hc with rfl | rfl | rfl | rfl <;> rfl
  · simp only [mem_cons, not_mem_nil, or_false, not_or] at hc
    simp [replaceChars, replaceAll_singleton, hc]

theorem escapeXmlContent_eq : escapeXmlContent s = escapeXml false s := by
  rw [escapeXmlContent, escapeXml, replaceChars_eq]
  congr 2
  funext c
  by_cases hc : c ∈ ['&', '<', '>']
  · simp only [mem_cons, not_mem_nil, or_false] at hc
    rcases hc with rfl | rfl | rfl <;> rfl
  · simp only [mem_cons, not_mem_nil, or_false, not_or] at hc
    simp [replaceChars, replaceAll_singleton, hc]

variable (toolName content : String) (sanitized : Bool)

def wrapForLlm : String :=
  "<tool_output name=\"" ++ escapeXmlAttr toolName ++ "\" sanitized=\"" ++ toString sanitized
    ++ "\">\n" ++ escapeXmlContent content ++ "\n</tool_output>"

/-! ## What is between the tags -/

/-- Put back what an escape stands for, by its second letter; `skip` letters of the last
one are still to be passed over. -/
def unescape (skip : Nat) : List Char → List Char
  | [] => []
  | c :: cs =>
    match skip with
    | skip + 1 => unescape skip cs
    | 0 =>
      if c = '&' then
        match cs.head? with
        | some 'a' => '&' :: unescape 4 cs
        | some 'l' => '<' :: unescape 3 cs
        | some 'g' => '>' :: unescape 3 cs
        | _ => '"' :: unescape 5 cs
      else c :: unescape 0 cs

/-- What a letter is escaped to: it is read back, and has no bracket and no quote. -/
theorem escapeXml_cons (quotes : Bool) (c : Char) (cs : List Char) :
    ∃ e, (escapeXml quotes (String.ofList (c :: cs))).toList
        = e ++ (escapeXml quotes (String.ofList cs)).toList
      ∧ (∀ rest, unescape 0 (e ++ rest) = c :: unescape 0 rest)
      ∧ '<' ∉ e ∧ (quotes = true → '"' ∉ e) := by
  simp only [escapeXml, String.toList_ofList, flatMap_cons]
  refine ⟨_, rfl, ?_⟩
  split
  next h => subst h; exact ⟨fun _ => rfl, by decide, fun _ => by decide⟩
  next hamp =>
    split
    next h => subst h; exact ⟨fun _ => rfl, by decide, fun _ => by decide⟩
    next hlt =>
      split
      next h => subst h; exact ⟨fun _ => rfl, by decide, fun _ => by decide⟩
      next =>
        split
        next h =>
          obtain rfl : c = '"' := by simp_all
          exact ⟨fun _ => rfl, by decide, fun _ => by decide⟩
        next h =>
          refine ⟨fun rest => by simp [unescape, hamp], by simpa using Ne.symm hlt, fun hq => ?_⟩
          simp [hq] at h
          simpa using Ne.symm h

theorem unescape_escapeXml (quotes : Bool) (s : String) :
    unescape 0 (escapeXml quotes s).toList = s.toList ∧ '<' ∉ (escapeXml quotes s).toList
      ∧ (quotes = true → '"' ∉ (escapeXml quotes s).toList) := by
  rw [← String.ofList_toList (s := s)]
  induction s.toList with
  | nil => simp [escapeXml, unescape]
  | cons c cs ih =>
    obtain ⟨e, heq, hread, hlt, hquot⟩ := escapeXml_cons quotes c cs
    rw [heq, hread, ih.1]
    simp only [String.toList_ofList, mem_append, not_or]
    exact ⟨trivial, ⟨hlt, ih.2.1⟩, fun hq => ⟨hquot hq, ih.2.2 hq⟩⟩

theorem append_cons_inj_of_not_mem {α : Type} {c : α} {x x' y y' : List α} (hx : c ∉ x)
    (hx' : c ∉ x') (h : x ++ c :: y = x' ++ c :: y') : x = x' ∧ y = y' := by
  rcases append_eq_append_iff.mp h with ⟨as, rfl, heq⟩ | ⟨as, rfl, heq⟩
  · cases as with
    | nil | cons => simp_all
  · cases as with
    | nil | cons => simp_all

theorem wrapForLlm_toList : (wrapForLlm toolName content sanitized).toList
      = "<tool_output name=\"".toList ++ ((escapeXml true toolName).toList
        ++ '"' :: (" sanitized=\"".toList ++ ((toString sanitized).toList
        ++ '"' :: (">\n".toList ++ ((escapeXml false content).toList
        ++ "\n</tool_output>".toList))))) := by
  have hquot : "\" sanitized=\"".toList = '"' :: " sanitized=\"".toList := by simp
  have hend : "\">\n".toList = '"' :: ">\n".toList := by simp
  unfold wrapForLlm
  simp [String.toList_append, append_assoc, escapeXmlAttr_eq, escapeXmlContent_eq, hquot, hend,
    cons_append]

theorem wrapForLlm_injective :
    Function.Injective fun p : String × Bool × String => wrapForLlm p.1 p.2.2 p.2.1 := by
  intro ⟨toolName, sanitized, content⟩ ⟨toolName', sanitized', content'⟩ h
  have hflag : ∀ b : Bool, '"' ∉ (toString b).toList := by decide
  have htext := congrArg String.toList h
  simp only [wrapForLlm_toList, append_cancel_left_eq] at htext
  obtain ⟨hname, hrest⟩ := append_cons_inj_of_not_mem ((unescape_escapeXml true _).2.2 rfl)
    ((unescape_escapeXml true _).2.2 rfl) htext
  rw [append_cancel_left_eq] at hrest
  obtain ⟨hsanitized, hbody⟩ := append_cons_inj_of_not_mem (hflag _) (hflag _) hrest
  rw [append_cancel_left_eq, append_cancel_right_eq] at hbody
  have hinj : ∀ b b' : Bool, (toString b).toList = (toString b').toList → b = b' := by decide
  have hback : ∀ quotes s s',
      (escapeXml quotes s).toList = (escapeXml quotes s').toList → s = s' := by
    intro quotes s s' heq
    rw [← String.toList_inj, ← (unescape_escapeXml quotes s).1, heq,
      (unescape_escapeXml quotes s').1]
  rw [hback _ _ _ hname, hback _ _ _ hbody, hinj _ _ hsanitized]

/-- **A wrapped block is one block**: one opening and one closing tag, the closing one at its
end, and name, flag and content can be recovered from it. -/
theorem wrapForLlm_one_block :
    let text := (wrapForLlm toolName content sanitized).toList
    (∃ post, text = "<tool_output".toList ++ post)
    ∧ (∀ pre post, text = pre ++ "<tool_output".toList ++ post → pre = [])
    ∧ (∃ pre, text = pre ++ "</tool_output>".toList)
    ∧ (∀ pre post, text = pre ++ "</tool_output>".toList ++ post → post = [])
    ∧ (∃ recover : String → String × Bool × String, ∀ toolName sanitized content,
        recover (wrapForLlm toolName content sanitized) = (toolName, sanitized, content))
    ∧ ∀ toolName' content' sanitized',
        wrapForLlm toolName' content' sanitized' = wrapForLlm toolName content sanitized →
          toolName' = toolName ∧ content' = content := by
  intro text
  obtain ⟨mid, hmid, htext⟩ : ∃ mid, '<' ∉ mid
      ∧ text = '<' :: ("tool_output".toList ++ mid ++ '<' :: "/tool_output>".toList) := by
    have hflag : '<' ∉ (toString sanitized).toList := by cases sanitized <;> decide
    refine ⟨" name=\"".toList ++ ((escapeXml true toolName).toList ++ '"' ::
      (" sanitized=\"".toList ++ ((toString sanitized).toList ++ '"' ::
        (">\n".toList ++ ((escapeXml false content).toList ++ ['\n']))))), ?_, ?_⟩
    · simp [(unescape_escapeXml true toolName).2.1, (unescape_escapeXml false content).2.1, hflag]
    · rw [show text = _ from wrapForLlm_toList ..]
      simp
  -- the brackets of the tags are all there are
  have hplaces : ∀ pre post, text = pre ++ '<' :: post →
      pre = [] ∨ post = "/tool_output>".toList := by
    intro pre post h
    cases pre with
    | nil => exact .inl rfl
    | cons =>
      have hrest := (cons.inj (htext.symm.trans h)).2
      exact .inr ((append_cons_inj_of_notMem (by simp [hmid]) (by simp)).mp hrest).2.2.symm
  obtain ⟨recover, hrecover⟩ := wrapForLlm_injective.hasLeftInverse
  refine ⟨⟨mid ++ "</tool_output>".toList, by simp [htext]⟩, ?_,
    ⟨"<tool_output".toList ++ mid, by simp [htext]⟩, ?_,
    ⟨recover, fun toolName sanitized content => hrecover (toolName, sanitized, content)⟩, ?_⟩
  · intro pre post h
    refine (hplaces pre ("tool_output".toList ++ post) (by simpa using h)).resolve_right ?_
    simp
  · intro pre post h
    rcases hplaces pre ("/tool_output>".toList ++ post) (by simpa using h) with rfl | hpost
    · rw [htext] at h
      simp at h
    · simpa using hpost
  · intro toolName' content' sanitized' h
    have hsame : (toolName', sanitized', content') = (toolName, sanitized, content) :=
      wrapForLlm_injective h
    simp only [Prod.mk.injEq] at hsame
    exact ⟨hsame.1, hsame.2.2⟩

end TitanClaw.Safety
