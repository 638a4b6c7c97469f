import TitanClaw.Pairing.AllowFrom

/-! # Who is allowed?

Every entry of an allowFrom list is the trimmed id of a sender whose code was
accepted for that channel. An id is compared with the entries as it is, a username
up to letter case and an `@` in front, so a username can stand for an approved id. -/

namespace TitanClaw.Pairing

open Text Files List Run Prog History

/-! ## What the lists hold -/

/-- Every entry of every list is one that `P` tells of, by channel key. -/
def Listed (D : Deps) (P : String → String → Prop) (files : Files) : Prop :=
  ∀ key, ∀ e ∈ allowList D files key, P key e

def LeavesNoList (D : Deps) (c : Call) : Prop :=
  ∀ reason text, c.out.fault .addAllowFrom .write = .failsLeaving reason text →
    (allowFromOrNew D text).allowFrom = []

variable {D : Deps} {P Q : String → String → Prop} {out : Outside} {files files' : Files}
variable {key : String}

theorem Listed.congr (h : Listed D P files) (hsame : allowFiles files' = allowFiles files) :
    Listed D P files' := by
  intro k e he
  rw [allowList_congr (congrFun hsame k)] at he
  exact h k e he

theorem Listed.set (h : Listed D P files) {text : String}
    (htext : ∀ e ∈ (allowFromOrNew D text).allowFrom, P key e) :
    Listed D P (files.set (allowFromPath key) text) := by
  intro k e he
  by_cases hk : k = key
  · subst hk
    simp only [allowList, allowFiles, set_same] at he
    exact htext e he
  · have hpath : allowFromPath k ≠ allowFromPath key := fun h => hk (allowFromPath_inj.mp h)
    simp only [allowList, allowFiles, set_other _ _ hpath] at he
    exact h k e he

theorem allowFromOrNew_empty : (allowFromOrNew D "").allowFrom = [] := by
  rw [allowFromOrNew, D.codec.allowFrom_empty]
  rfl

/-- Adding a sender: whichever of its file operations fail, the lists hold what they
held and the sender. -/
theorem maintains_addAllowFrom {op : Op} (hleft : LeavesNoList D ⟨op, out⟩)
    {entry : String} (hentry : P key (trim entry)) :
    Maintains (Listed D P) (addAllowFrom D out key entry) := by
  have hside : ∀ fault, Maintains (Listed D P) (io (sideStep fault)) :=
    fun fault => Keeps.maintains (keeps_io_sideStep fault)
  have hopened : ∀ {files}, Listed D P files → Listed D P (files.set (allowFromPath key) "") := by
    intro files h
    refine h.set fun e he => ?_
    rw [allowFromOrNew_empty] at he
    cases he
  unfold addAllowFrom
  dsimp only
  split
  · exact Keeps.maintains (Keeps.pure _)
  refine (hside _).bind fun _ => Maintains.bind ?_ fun _ => (hside _).bind fun _ => ?_
  · intro files h
    simp only [io, mapError, openFile]
    cases out.fault .addAllowFrom .openFile with
    | fails | failsLeaving => exact h
    | none =>
      cases files (allowFromPath key) with
      | none | some => exact hopened h
  · intro files h
    obtain ⟨content, hread, hcontent⟩ :=
      exec_readOrEmpty (out.fault .addAllowFrom .read) (allowFromPath key) files
    have hstore : ∀ e ∈ (allowFromOrNew D content).allowFrom, P key e := by
      intro e he
      rcases hcontent with rfl | rfl
      · refine h key e ?_
        unfold allowList allowFiles
        cases hfile : files (allowFromPath key) with
        | none => simp [hfile, allowFromOrNew_empty] at he
        | some => simpa [hfile] using he
      · rw [allowFromOrNew_empty] at he
        cases he
    rw [exec_bind_ok hread]
    split
    · exact hside _ files h
    refine Maintains.bind ?_ (fun _ => hside _) files h
    intro files h
    simp only [io, mapError, write]
    cases hfault : out.fault .addAllowFrom .write with
    | fails => exact h
    | failsLeaving e text =>
      refine h.set fun e' he => ?_
      rw [hleft e text hfault] at he
      cases he
    | none =>
      refine h.set fun e he => ?_
      rw [allowFromOrNew, D.codec.allowFrom_text, Option.getD_some, mem_append, mem_singleton] at he
      rcases he with he | rfl
      · exact hstore e he
      · exact hentry

/-! ## Histories -/

def acceptedBy (D : Deps) (files : Files) (c : Call) : Option (String × String) :=
  match c.op with
  | .approve channel code =>
      match safeChannelKey D channel with
      | .ok key => (acceptedRequest D c.out files key code).map fun entry => (key, entry.id)
      | .error _ => none
  | _ => none

def approvals (D : Deps) (files₀ : Files) (calls : List Call) : List (String × String) :=
  outputs (step D) (fun h c => (acceptedBy D h.files c).toList) ⟨files₀, []⟩ calls

theorem listed_step {h : History} {c : Call} (hleft : LeavesNoList D c)
    (hlisted : Listed D P h.files)
    (haccepted : ∀ key id, acceptedBy D h.files c = some (key, id) → P key (trim id)) :
    Listed D P (h.step D c).files := by
  obtain ⟨op, out⟩ := c
  unfold step
  cases op with
  | listPending channel =>
    dsimp only
    exact hlisted.congr (keeps_listPending D out channel h.files)
  | upsertRequest channel id metadata =>
    dsimp only
    exact hlisted.congr (keeps_upsertRequest D out channel id metadata h.files)
  | approve channel code =>
    dsimp only
    rcases approve_cases D out channel code h.files with
      ⟨hsame, -⟩ | ⟨key, entry, files₁, hkey, haccept, -, hsame, heq⟩
    · exact hlisted.congr hsame
    · rw [heq]
      have hentry : P key (trim entry.id) := by
        refine haccepted key entry.id ?_
        simp only [acceptedBy, hkey, haccept, Option.map_some]
      have hadd : Maintains (Listed D P)
          (addAllowFrom D out key entry.id >>= fun _ => pure (some entry) : StoreProg _) :=
        (maintains_addAllowFrom hleft hentry).bind fun _ => Keeps.maintains (Keeps.pure _)
      exact hadd files₁ (hlisted.congr hsame)

theorem listed_run {files₀ : Files} {calls : List Call}
    (hstart : ∀ key, allowList D files₀ key = []) (hleft : ∀ c ∈ calls, LeavesNoList D c) :
    Listed D (fun key e => ∃ id, (key, id) ∈ approvals D files₀ calls ∧ trim id = e)
      (run (step D) ⟨files₀, []⟩ calls).files := by
  unfold approvals
  induction calls using reverseRecOn with
  | nil =>
    intro key e he
    rw [run_nil, hstart] at he
    cases he
  | append_singleton _ c ih =>
    rw [run_append, outputs_append, outputs_singleton]
    refine listed_step (hleft c (by simp)) ?_ ?_
    · intro key e he
      obtain ⟨id, hid, htrim⟩ := ih (fun c hc => hleft c (by simp [hc])) key e he
      exact ⟨id, mem_append_left _ hid, htrim⟩
    · intro key id haccepted
      exact ⟨id, mem_append_right _ (by simp [haccepted]), rfl⟩

/-- A username that stands for an approved id: the same up to letter case, or with an
`@` in front of it. -/
def NamesId (D : Deps) (username id : String) : Prop :=
  let u := D.unicode.toLowercase (trim username)
  let uNorm := match u.toList with
    | '@' :: cs => String.ofList cs
    | _ => u
  D.unicode.toLowercase (trim id) = u ∨ D.unicode.toLowercase (trim id) = "@" ++ uNorm

theorem senderAllowed_iff {allow : List String} {id : String} {username : Option String} :
    senderAllowed D allow id username = true
      ↔ ∃ e ∈ allow, trim e = trim id ∨ ∃ u ∈ username, NamesId D u e := by
  cases username with
  | none => simp [senderAllowed]
  | some =>
    simp only [senderAllowed, NamesId, Bool.or_eq_true, any_eq_true, decide_eq_true_eq,
      and_or_left, exists_or, Option.mem_some, exists_eq_left']
    all_goals rfl

theorem isSenderAllowed_true {channel id : String} {username : Option String}
    (h : ((isSenderAllowed D out channel id username).exec files).1 = .ok true) :
    ∃ key, safeChannelKey D channel = .ok key
      ∧ senderAllowed D (allowList D files key) id username = true := by
  cases hkey : safeChannelKey D channel with
  | error => simp [isSenderAllowed, readAllowFrom, channelKey, hkey, exec_bind] at h
  | ok key =>
    have hread : out.fault .readAllowFrom .read = .none := by
      cases hfault : out.fault .readAllowFrom .read with
      | none => rfl
      | fails | failsLeaving =>
        simp [isSenderAllowed, readAllowFrom, channelKey, hkey, readToString, hfault,
          exec_bind] at h
    rw [isSenderAllowed, exec_bind_ok (readAllowFrom_eq hkey hread)] at h
    exact ⟨key, rfl, Except.ok.inj h⟩

/-- **Only approved ids are allowed**, and usernames that stand for one: in every history
that starts with empty lists, a sender who is allowed on a channel has the id of a sender
approved there, or a username that stands for such an id. -/
theorem allowed_senders_approved (D : Deps) (files₀ : Files) (calls : List Call)
    (hstart : ∀ key, allowList D files₀ key = []) (hleft : ∀ c ∈ calls, LeavesNoList D c)
    (out : Outside) (channel id : String) (username : Option String)
    (hallowed : ((isSenderAllowed D out channel id username).exec
      (run (step D) ⟨files₀, []⟩ calls).files).1 = .ok true) :
    ∃ key approved, safeChannelKey D channel = .ok key
      ∧ (key, approved) ∈ approvals D files₀ calls
      ∧ (trim approved = trim id ∨ ∃ u ∈ username, NamesId D u approved) := by
  obtain ⟨key, hkey, hallow⟩ := isSenderAllowed_true hallowed
  obtain ⟨e, he, hname⟩ := senderAllowed_iff.1 hallow
  obtain ⟨approved, happroved, rfl⟩ := listed_run hstart hleft key e he
  refine ⟨key, approved, hkey, happroved, ?_⟩
  simpa only [NamesId, trim_trim] using hname

theorem alice_allowed_approved :
    ((isSenderAllowed sampleDeps sampleOutside "telegram" " alice" none).exec
        (run (step sampleDeps) ⟨sampleFiles, []⟩ [approveAlice]).files).1 = .ok true
      ∧ ∃ key approved, safeChannelKey sampleDeps "telegram" = .ok key
        ∧ (key, approved) ∈ approvals sampleDeps sampleFiles [approveAlice]
        ∧ (trim approved = trim " alice" ∨ ∃ u ∈ none, NamesId sampleDeps u approved) := by
  have hallowed : ((isSenderAllowed sampleDeps sampleOutside "telegram" " alice" none).exec
      (run (step sampleDeps) ⟨sampleFiles, []⟩ [approveAlice]).files).1 = .ok true := by
    decide +kernel
  have hstart : ∀ key, allowList sampleDeps sampleFiles key = [] := by
    intro key
    have hpath : allowFromPath key ≠ "telegram-pairing.json" :=
      allowFromPath_ne_pairingPath key "telegram"
    simp [allowList, allowFiles, sampleFiles, hpath]
  refine ⟨hallowed, allowed_senders_approved _ _ _ hstart ?_ _ _ _ _ hallowed⟩
  intro c hc reason text hfault
  rw [mem_singleton.1 hc] at hfault
  cases hfault

/-- Mallory, never approved, goes by the name of Alice. -/
theorem username_stands_for_id :
    approvals sampleDeps sampleFiles [approveAlice] = [("telegram", "alice")]
      ∧ ((isSenderAllowed sampleDeps sampleOutside "telegram" "mallory" none).exec
        (run (step sampleDeps) ⟨sampleFiles, []⟩ [approveAlice]).files).1 = .ok false
      ∧ ((isSenderAllowed sampleDeps sampleOutside "telegram" "mallory" (some "Alice")).exec
        (run (step sampleDeps) ⟨sampleFiles, []⟩ [approveAlice]).files).1 = .ok true := by
  decide +kernel

end TitanClaw.Pairing
