import TitanClaw.Tools.Shell

/-! # What the command checks see

A command is lower-cased before it is searched, and the entries of the lists are not, so an
entry with a capital letter is never found. A pipe to a shell is found with one blank behind
it or none. -/

namespace TitanClaw.Tools

open Text List

/-! ## Blocked commands -/

section

variable (U : CaseMap) (tool : ShellTool) (cmd : String)

/-- The command contains the entry, letter case aside. -/
def ContainsAnyCase (entry : String) : Prop :=
  contains (U.toLowercase cmd) (U.toLowercase entry) = true

structure BlocksListed : Prop where
  blocked : ∀ entry ∈ blockedCommands, ContainsAnyCase U cmd entry →
    (tool.isBlocked U cmd).isSome = true
  dangerous : tool.allowDangerous = false → ∀ entry ∈ dangerousPatterns,
    ContainsAnyCase U cmd entry → (tool.isBlocked U cmd).isSome = true

/-- The entry with a capital letter is not in the command, or one of the others is. -/
def CapitalsCovered : Prop :=
  ContainsAnyCase U cmd "chmod -R 777 /" →
    (∃ entry ∈ blockedCommands, entry ≠ "chmod -R 777 /" ∧ ContainsAnyCase U cmd entry)
      ∨ tool.allowDangerous = false ∧ ∃ entry ∈ dangerousPatterns, ContainsAnyCase U cmd entry

end

variable {U : CaseMap} {tool : ShellTool} {cmd : String}

theorem toLowercase_listed :
    ∀ entry ∈ blockedCommands ++ dangerousPatterns, entry ≠ "chmod -R 777 /" →
      U.toLowercase entry = entry := by
  have hall : ∀ entry ∈ blockedCommands ++ dangerousPatterns, entry ≠ "chmod -R 777 /" →
      entry.toList.all (·.toNat < 128)
        ∧ String.ofList (entry.toList.map Char.toLower) = entry := by decide
  intro entry hentry hne
  obtain ⟨hascii, hlower⟩ := hall entry hentry hne
  rw [U.lower_ascii entry (by simpa using hascii), hlower]

theorem isBlocked_iff : (tool.isBlocked U cmd).isSome = true
    ↔ (∃ entry ∈ blockedCommands, contains (U.toLowercase cmd) entry = true)
      ∨ tool.allowDangerous = false
        ∧ ∃ entry ∈ dangerousPatterns, contains (U.toLowercase cmd) entry = true := by
  simp only [ShellTool.isBlocked]
  split
  · next h => simpa using .inl (any_eq_true.mp h)
  next h =>
  have hnone := mt any_eq_true.mpr h
  split
  · next h' => simpa [hnone] using h'
  · next h' => simpa [hnone] using h'

/-- **A listed command is blocked** exactly if the one entry with a capital letter is not in
it or another one is. -/
theorem blocksListed_iff (U : CaseMap) (hlower : ∀ s, 'R' ∉ (U.toLowercase s).toList)
    (tool : ShellTool) (cmd : String) :
    BlocksListed U tool cmd ↔ CapitalsCovered U tool cmd := by
  have hsame : ∀ entry ∈ blockedCommands ++ dangerousPatterns, entry ≠ "chmod -R 777 /" →
      (ContainsAnyCase U cmd entry ↔ contains (U.toLowercase cmd) entry = true) := by
    intro entry hentry hne
    rw [ContainsAnyCase, toLowercase_listed entry hentry hne]
  have hcapital : contains (U.toLowercase cmd) "chmod -R 777 /" ≠ true := by
    intro h
    exact hlower cmd ((of_decide_eq_true h).subset (by decide))
  have hdangerous : ∀ entry ∈ dangerousPatterns, entry ≠ "chmod -R 777 /" := by decide
  constructor
  · intro h hin
    rcases isBlocked_iff.mp (h.blocked _ (by decide) hin) with
      ⟨entry, hentry, hc⟩ | ⟨hno, entry, hentry, hc⟩
    · have hne : entry ≠ "chmod -R 777 /" := fun heq => hcapital (heq ▸ hc)
      exact .inl ⟨entry, hentry, hne, (hsame entry (by simp [hentry]) hne).mpr hc⟩
    · exact .inr ⟨hno, entry, hentry,
        (hsame entry (by simp [hentry]) (hdangerous entry hentry)).mpr hc⟩
  · intro h
    have hother : ∀ entry ∈ blockedCommands, entry ≠ "chmod -R 777 /" →
        ContainsAnyCase U cmd entry → (tool.isBlocked U cmd).isSome = true :=
      fun entry hentry hne hin =>
        isBlocked_iff.mpr (.inl ⟨entry, hentry, (hsame entry (by simp [hentry]) hne).mp hin⟩)
    have hpattern : tool.allowDangerous = false → ∀ entry ∈ dangerousPatterns,
        ContainsAnyCase U cmd entry → (tool.isBlocked U cmd).isSome = true :=
      fun hno entry hentry hin => isBlocked_iff.mpr (.inr ⟨hno, entry, hentry,
        (hsame entry (by simp [hentry]) (hdangerous entry hentry)).mp hin⟩)
    refine ⟨fun entry hentry hin => ?_, hpattern⟩
    by_cases hne : entry = "chmod -R 777 /"
    · rcases h (hne ▸ hin) with ⟨other, hmem, hother', hin'⟩ | ⟨hno, other, hmem, hin'⟩
      · exact hother other hmem hother' hin'
      · exact hpattern hno other hmem hin'
    · exact hother entry hentry hne hin

theorem asciiCase_lower (s : String) : 'R' ∉ (asciiCase.toLowercase s).toList := by
  rw [asciiCase, String.toList_ofList, mem_map]
  rintro ⟨c, -, hc⟩
  unfold Char.toLower at hc
  split at hc
  · next hupper =>
    have hge : 65 ≤ c.val.toNat := hupper.1
    have hle : c.val.toNat ≤ 90 := hupper.2
    have hval : (c.val.toNat + 32) % 2 ^ 32 = 82 := congrArg (·.val.toNat) hc
    omega
  · next hupper =>
    subst hc
    exact hupper (by decide)

theorem mkfs_blocked : ('R' ∉ (asciiCase.toLowercase "sudo MKFS /dev/sdb").toList)
    ∧ (BlocksListed asciiCase {} "sudo MKFS /dev/sdb"
      ↔ CapitalsCovered asciiCase {} "sudo MKFS /dev/sdb") :=
  ⟨asciiCase_lower _, blocksListed_iff asciiCase asciiCase_lower {} "sudo MKFS /dev/sdb"⟩

theorem chmod_not_blocked :
    ContainsAnyCase asciiCase "chmod -R 777 /" "chmod -R 777 /"
      ∧ (({} : ShellTool).isBlocked asciiCase "chmod -R 777 /") = none := by
  unfold ContainsAnyCase
  decide

/-! ## Pipes to a shell -/

/-- The interpreters that are looked for. -/
def shells : List String := ["sh", "bash", "zsh", "dash", "/bin/sh", "/bin/bash"]

/-- What may stand behind the name of a shell. -/
def EndsWord (behind : List Char) : Prop :=
  ∀ c, behind.head? = some c → c ∈ [' ', '\t', '\n', ';', '|', '&', ')']

variable (lower : String)

/-- A pipe, with the gap behind it, leads to the shell. -/
def PipesTo (gap : List Char) (shell : String) : Prop :=
  ∃ before behind, lower.toList = before ++ '|' :: gap ++ shell.toList ++ behind ∧ EndsWord behind

theorem any_matchIndices_iff {lower shell : String} {gap : List Char}
    (hpipe : '|' ∉ gap ++ shell.toList) :
    ((matchIndices ('|' :: (gap ++ shell.toList)) 0 0 lower.toList).any fun i =>
      match lower.toList[i + ('|' :: (gap ++ shell.toList)).length]? with
      | none => true
      | some c => [' ', '\t', '\n', ';', '|', '&', ')'].contains c) = true
        ↔ PipesTo lower gap shell := by
  simp only [any_eq_true, mem_matchIndices_iff hpipe (by simp : '|' ∉ lower.toList.take 0)]
  constructor
  · rintro ⟨i, ⟨j, rfl, behind, hj⟩, hend⟩
    refine ⟨lower.toList.take j, behind, ?_, fun c hc => ?_⟩
    · conv_lhs => rw [← take_append_drop j lower.toList, ← hj]
      simp
    · rw [Nat.zero_add, ← List.getElem?_drop, ← hj, List.getElem?_append_right (Nat.le_refl _),
        Nat.sub_self, ← List.head?_eq_getElem?, hc] at hend
      simpa using hend
  · rintro ⟨before, behind, heq, hend⟩
    have hdrop : lower.toList.drop before.length = '|' :: (gap ++ shell.toList) ++ behind := by
      simp [heq]
    refine ⟨before.length, ⟨before.length, by simp, behind, hdrop.symm⟩, ?_⟩
    rw [← List.getElem?_drop, hdrop, List.getElem?_append_right (Nat.le_refl _), Nat.sub_self,
      ← List.head?_eq_getElem?]
    cases hhead : behind.head? with
    | none => rfl
    | some c => simpa using hend c hhead

theorem hasPipeTo_iff {lower shell : String} (hshell : '|' ∉ shell.toList) :
    hasPipeTo lower shell = true ↔ PipesTo lower [' '] shell ∨ PipesTo lower [] shell := by
  have hblank : "| ".toList = '|' :: [' '] := by decide
  have hbare : "|".toList = '|' :: [] := by decide
  simp only [hasPipeTo, any_cons, any_nil, Bool.or_false, Bool.or_eq_true,
    String.toList_append, hblank, hbare, cons_append]
  have hwide : '|' ∉ [' '] ++ shell.toList := by simp [hshell]
  exact or_congr (any_matchIndices_iff hwide) (any_matchIndices_iff hshell)

/-- Does some pipe lead to a shell, with only white space in between? -/
def PipesToShell : Prop :=
  ∃ shell ∈ shells, ∃ gap : List Char, (∀ c ∈ gap, isWhitespace c = true) ∧ PipesTo lower gap shell

/-- If some pipe leads to a shell, then one with a single blank or nothing in between. -/
def NarrowPipe : Prop :=
  PipesToShell lower → ∃ shell ∈ shells, PipesTo lower [' '] shell ∨ PipesTo lower [] shell

theorem containsShellPipe_eq : containsShellPipe lower = shells.any (hasPipeTo lower) := by
  simp [containsShellPipe, shells, Bool.or_assoc]

end TitanClaw.Tools
