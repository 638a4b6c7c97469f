import TitanClaw.Lib.JsonText
import TitanClaw.Lib.Run
import TitanClaw.Pairing.Store

/-! # Do approved senders stay approved?

The allowFrom list over whole histories of store operations. Only `approve`
ever writes an allowFrom file, and it does so by a file opened with the
TRUNCATE option before it is read: what it writes is the new sender alone. The
list therefore survives an approval exactly when it was empty or already
consisted of that sender. -/

namespace TitanClaw.Pairing

open Text Files List Run Prog JsonText

theorem allowFromPath_ne_pairingPath (k k' : String) : allowFromPath k ≠ pairingPath k' := by
  intro h
  have hrev := congrArg (fun s => s.toList.reverse) h
  simp [allowFromPath, pairingPath] at hrev

theorem allowFromPath_ne_attemptsPath (k k' : String) :
    allowFromPath k ≠ approveAttemptsPath k' := by
  intro h
  have hrev := congrArg (fun s => s.toList.reverse) h
  simp [allowFromPath, approveAttemptsPath] at hrev

theorem allowFromPath_inj {k k' : String} : allowFromPath k = allowFromPath k' ↔ k = k' := by
  constructor
  · intro h
    have hlist := congrArg String.toList h
    simp only [allowFromPath, String.toList_append] at hlist
    exact String.toList_inj.mp (append_cancel_right hlist)
  · rintro rfl
    rfl

variable (files : Files)

def allowFiles : String → Option String := fun key => files (allowFromPath key)

variable (D : Deps)

/-- The allowFrom list in the files, as `readAllowFrom` reads it. -/
def allowList (files : Files) (key : String) : List String :=
  match allowFiles files key with
  | some text => (allowFromOrNew D text).allowFrom
  | none => []

def plusIfNew (allow : List String) (id : String) : List String :=
  if hasEntry D allow (trim id) then allow else allow ++ [trim id]

theorem readAllowFrom_eq {D : Deps} {out : Outside} {channel key : String}
    {files : Files} (hkey : safeChannelKey D channel = .ok key)
    (hread : out.fault .readAllowFrom .read = .none) :
    (readAllowFrom D out channel).exec files = (.ok (allowList D files key), files) := by
  simp only [readAllowFrom, channelKey, hkey, exec_bind, exec_pure,
    exec_attempt, readToString, hread, allowList, allowFiles]
  cases files (allowFromPath key) with
  | none | some => rfl

theorem senderAllowed_of_mem {D : Deps} {allow : List String} {id : String}
    (h : trim id ∈ allow) (username : Option String) :
    senderAllowed D allow id username = true := by
  have hany : allow.any (fun e => trim e = trim id) = true :=
    any_eq_true.mpr ⟨trim id, h, by simp [trim_trim]⟩
  simp [senderAllowed, hany]

/-! ## What leaves the allowFrom files alone -/

variable (fault : Fault)

theorem keeps_pairing_write (key text : String) :
    Keeps allowFiles (io (write fault (pairingPath key) text)) := by
  intro files
  funext k
  exact (Keeps.mapError (keeps_write fault (allowFromPath_ne_pairingPath k key))) files

variable (key : String)

theorem keeps_pairing_open (create truncate : Bool) :
    Keeps allowFiles (io (openFile fault (pairingPath key) create truncate)) := by
  intro files
  funext k
  exact (Keeps.mapError (keeps_openFile fault (allowFromPath_ne_pairingPath k key))) files

variable {γ : Type} {view : Files → γ}

theorem keeps_io_sideStep : Keeps view (io (sideStep fault)) :=
  Keeps.mapError (keeps_sideStep fault)

theorem keeps_readOrEmpty (path : String) : Keeps view (readOrEmpty fault path) := by
  refine (Keeps.attempt (keeps_readToString fault path)).bind ?_
  intro r
  cases r with
  | ok | error => exact Keeps.pure _

variable (channel : String)

theorem keeps_channelKey {view : Files → γ} : Keeps view (channelKey D channel) := by
  unfold channelKey
  split
  · exact Keeps.pure _
  · exact Keeps.fail _

variable (out : Outside)

theorem keeps_writePairingFileLocked (fn : Fn) (key : String) (requests : List PairingRequest) :
    Keeps allowFiles (writePairingFileLocked D out fn key requests) := by
  refine (keeps_pairing_write _ _ _).bind fun _ => ?_
  refine (keeps_io_sideStep _).bind fun _ => ?_
  refine (keeps_pairing_write _ _ _).bind fun _ => ?_
  exact keeps_io_sideStep _

theorem keeps_writePairingFile (key : String) (requests : List PairingRequest) :
    Keeps allowFiles (writePairingFile D out key requests) := by
  refine (keeps_pairing_open _ _ _ _).bind fun _ => ?_
  refine (keeps_io_sideStep _).bind fun _ => ?_
  refine (keeps_writePairingFileLocked _ _ _ _ _).bind fun _ => ?_
  exact keeps_io_sideStep _

theorem keeps_listPending (channel : String) : Keeps allowFiles (listPending D out channel) := by
  refine (keeps_channelKey D channel).bind fun key => ?_
  refine (Keeps.attempt (keeps_readToString _ _)).bind fun r => ?_
  cases r with
  | error e =>
    cases e with
    | notFound => exact Keeps.pure _
    | other => exact Keeps.fail _
  | ok =>
    dsimp only
    refine Keeps.ite ?_ (Keeps.pure _)
    exact (keeps_writePairingFile _ _ _ _).bind fun _ => Keeps.pure _

theorem keeps_upsertRequest (channel id : String) (metadata : Option JsonValue) :
    Keeps allowFiles (upsertRequest D out channel id metadata) := by
  refine (keeps_channelKey D channel).bind fun key => ?_
  refine (keeps_io_sideStep _).bind fun _ => ?_
  refine (keeps_pairing_open _ _ _ _).bind fun _ => ?_
  refine (keeps_io_sideStep _).bind fun _ => ?_
  refine (keeps_readOrEmpty _ _).bind fun content => ?_
  refine Keeps.ite ?_ ?_
  · exact (keeps_io_sideStep _).bind fun _ => Keeps.fail _
  · dsimp only
    split
    · refine (keeps_writePairingFileLocked _ _ _ _ _).bind fun _ => ?_
      exact (keeps_io_sideStep _).bind fun _ => Keeps.pure _
    · refine Keeps.ite ?_ ?_
      · exact (keeps_io_sideStep _).bind fun _ => Keeps.pure _
      · refine (keeps_writePairingFileLocked _ _ _ _ _).bind fun _ => ?_
        exact (keeps_io_sideStep _).bind fun _ => Keeps.pure _

theorem keeps_isApproveRateLimited {view : Files → γ} (key : String) :
    Keeps view (isApproveRateLimited D out key) := by
  refine (Keeps.attempt (keeps_readToString _ _)).bind fun r => ?_
  cases r with
  | error e =>
    cases e with
    | notFound => exact Keeps.pure _
    | other => exact Keeps.fail _
  | ok => exact Keeps.pure _

theorem keeps_recordFailedApprove (key : String) :
    Keeps allowFiles (recordFailedApprove D out key) := by
  refine (keeps_io_sideStep _).bind fun _ => ?_
  refine Keeps.bind ?_ fun _ => ?_
  · intro files
    funext k
    exact (Keeps.mapError (keeps_openFile _ (allowFromPath_ne_attemptsPath k key))) files
  refine (keeps_io_sideStep _).bind fun _ => ?_
  refine (keeps_readOrEmpty _ _).bind fun content => ?_
  refine Keeps.bind ?_ fun _ => keeps_io_sideStep _
  intro files
  funext k
  exact (Keeps.mapError (keeps_write _ (allowFromPath_ne_attemptsPath k key))) files

theorem keeps_openForApprove {view : Files → γ}
    (key : String) : Keeps view (openForApprove out key) :=
  Keeps.mapError (keeps_openFile_plain _ _)

theorem keeps_takeRequest (key code : String) : Keeps allowFiles (takeRequest D out key code) := by
  refine (keeps_openForApprove out key).bind fun _ => ?_
  refine (keeps_io_sideStep _).bind fun _ => ?_
  refine (keeps_readOrEmpty _ _).bind fun content => ?_
  dsimp only
  split
  · refine (keeps_writePairingFileLocked _ _ _ _ _).bind fun _ => ?_
    exact (keeps_io_sideStep _).bind fun _ => Keeps.pure _
  · exact (keeps_io_sideStep _).bind fun _ => Keeps.pure _

/-! ## What an approval does -/

variable (files : Files) (key code : String)

/-- The unexpired pending request that `code` names in the files. -/
def matchingRequest : Option PairingRequest :=
  let content := (files (pairingPath key)).getD ""
  let requests := (pairingOrNew D content).requests.filter (! isExpired D · out.nowSecs)
  (findByCode D requests (D.unicode.toUppercase (trim code))).map (·.2)

/-- The request whose code an approval accepts: it is not rate limited, and takes the
request out. -/
def acceptedRequest : Option PairingRequest :=
  let code := D.unicode.toUppercase (trim code)
  match ((isApproveRateLimited D out key).exec files).1,
    ((takeRequest D out key code).exec files).1 with
  | .ok false, .ok (some entry) => if code.isEmpty then none else some entry
  | _, _ => none

theorem exec_readOrEmpty (path : String) (files : Files) :
    ∃ content, (readOrEmpty fault path).exec files = (.ok content, files)
      ∧ (content = (files path).getD "" ∨ content = "") := by
  simp only [readOrEmpty, exec_bind, exec_attempt, readToString]
  cases fault with
  | fails | failsLeaving => exact ⟨"", rfl, .inr rfl⟩
  | none =>
    cases hp : files path with
    | none => exact ⟨"", rfl, .inr rfl⟩
    | some text => exact ⟨text, rfl, .inl rfl⟩

theorem takeRequest_some {D : Deps} {out : Outside} {key code : String}
    {files files₁ : Files} {entry : PairingRequest}
    (h : (takeRequest D out key (D.unicode.toUppercase (trim code))).exec files
      = (.ok (some entry), files₁)) : matchingRequest D out files key code = some entry := by
  obtain ⟨_, s₁, hopen, h⟩ := bind_ok h
  obtain ⟨_, s₂, hlock, h⟩ := bind_ok h
  obtain ⟨content, s₃, hread, h⟩ := bind_ok h
  -- the file has not changed when it is read
  have hs₁ : id ((openForApprove out key).exec files).2 = files :=
    keeps_openForApprove out key files
  rw [hopen] at hs₁
  have hs₂ : id ((io (sideStep (out.fault .approve .lock))).exec s₁).2 = s₁ :=
    keeps_io_sideStep _ s₁
  rw [hlock] at hs₂
  obtain rfl : s₂ = files := hs₂.trans hs₁
  obtain ⟨content', hread', hcontent⟩ :=
    exec_readOrEmpty (out.fault .approve .read) (pairingPath key) s₂
  rw [hread] at hread'
  cases hread'
  dsimp only at h
  split at h
  · rename_i idx e hfind
    obtain ⟨_, _, _, h⟩ := bind_ok h
    obtain ⟨_, _, _, h⟩ := bind_ok h
    cases h
    rcases hcontent with rfl | rfl
    · simp [matchingRequest, hfind]
    -- an empty text holds no request
    rw [pairingOrNew, D.codec.pairing_empty] at hfind
    cases hfind
  · obtain ⟨_, _, _, h⟩ := bind_ok h
    cases h

/-- The same once the key is known and the rate limit is passed. -/
theorem approveTaken_cases (files : Files) :
    (allowFiles ((approveTaken D out key code).exec files).2 = allowFiles files
        ∧ ∀ entry, ((approveTaken D out key code).exec files).1 ≠ .ok (some entry))
      ∨ ∃ entry files₁,
        ((takeRequest D out key (D.unicode.toUppercase (trim code))).exec files).1
            = .ok (some entry)
        ∧ matchingRequest D out files key code = some entry
        ∧ allowFiles files₁ = allowFiles files
        ∧ (approveTaken D out key code).exec files
          = (addAllowFrom D out key entry.id >>= fun _ => pure (some entry)).exec
              files₁ := by
  unfold approveTaken
  rcases ht : (takeRequest D out key (D.unicode.toUppercase (trim code))).exec files
    with ⟨r, files₁⟩
  have htake := (keeps_takeRequest D out key _).apply ht
  cases r with
  | error =>
    rw [exec_bind_error ht]
    exact .inl ⟨htake, by simp⟩
  | ok found =>
    rw [exec_bind_ok ht]
    cases found with
    | some entry => exact .inr ⟨entry, files₁, rfl, takeRequest_some ht, htake, rfl⟩
    | none =>
      -- no request: only the failed attempt is recorded
      refine .inl ?_
      dsimp only
      rcases hr : (recordFailedApprove D out key).exec files₁ with ⟨r, files₂⟩
      have hrec := (keeps_recordFailedApprove D out key).apply hr
      cases r with
      | error =>
        rw [exec_bind_error hr]
        exact ⟨hrec.trans htake, by simp⟩
      | ok =>
        rw [exec_bind_ok hr]
        exact ⟨hrec.trans htake, by simp⟩

/-- An approval leaves the allowFrom files alone and approves no one, or it adds
the sender its code names. -/
theorem approve_cases (channel code : String) (files : Files) :
    (allowFiles ((approve D out channel code).exec files).2 = allowFiles files
        ∧ ∀ entry, ((approve D out channel code).exec files).1 ≠ .ok (some entry))
      ∨ ∃ key entry files₁, safeChannelKey D channel = .ok key
        ∧ acceptedRequest D out files key code = some entry
        ∧ matchingRequest D out files key code = some entry
        ∧ allowFiles files₁ = allowFiles files
        ∧ (approve D out channel code).exec files
          = (addAllowFrom D out key entry.id >>= fun _ => pure (some entry)).exec
              files₁ := by
  unfold approve
  split
  · exact .inl ⟨rfl, by simp⟩
  rename_i hcode
  cases hkey : safeChannelKey D channel with
  | error e =>
    have hexec : (channelKey D channel).exec files = (.error e, files) := by
      rw [channelKey, hkey]
      rfl
    rw [exec_bind_error hexec]
    exact .inl ⟨rfl, by simp⟩
  | ok key =>
    have hexec : (channelKey D channel).exec files = (.ok key, files) := by
      rw [channelKey, hkey]
      rfl
    rw [exec_bind_ok hexec]
    rcases hl : (isApproveRateLimited D out key).exec files with ⟨r, s₁⟩
    have hsame : id s₁ = id files := (keeps_isApproveRateLimited D out key).apply hl
    obtain rfl : s₁ = files := hsame
    cases r with
    | error =>
      rw [exec_bind_error hl]
      exact .inl ⟨rfl, by simp⟩
    | ok limited =>
      rw [exec_bind_ok hl]
      cases limited with
      | true => exact .inl ⟨rfl, by simp⟩
      | false =>
        rcases approveTaken_cases D out key code s₁ with
          h | ⟨entry, files₁, htake, hmatch, hsame, heq⟩
        · exact .inl h
        · refine .inr ⟨key, entry, files₁, rfl, ?_, hmatch, hsame, heq⟩
          simp only [acceptedRequest, hl, htake, if_neg hcode]

/-- **What adding a sender does**: the file is empty when it is read, so the
list becomes the sender alone. -/
theorem addAllowFrom_spec {D : Deps} {out : Outside} {entry : String}
    (hne : trim entry ≠ "") (hfault : ∀ op, out.fault .addAllowFrom op = .none) (files : Files) :
    ∃ files', (addAllowFrom D out key entry).exec files = (.ok (), files')
      ∧ allowList D files' key = [trim entry]
      ∧ ∀ k, k ≠ key → allowFiles files' k = allowFiles files k := by
  have hempty : (trim entry).isEmpty = false := by simpa [String.isEmpty_iff] using hne
  have hopen : (io (openFile .none (allowFromPath key) true true)).exec files
      = (.ok (), files.set (allowFromPath key) "") := by
    simp only [io, mapError, openFile]
    cases files (allowFromPath key) <;> rfl
  have hside : ∀ s : Files, (io (sideStep .none)).exec s = (.ok (), s) := fun _ => rfl
  have hread : (readOrEmpty .none (allowFromPath key)).exec
      (files.set (allowFromPath key) "") = (.ok "", files.set (allowFromPath key) "") := by
    simp [readOrEmpty, exec_bind, readToString]
  have hnew : allowFromOrNew D "" = ⟨1, []⟩ := by
    rw [allowFromOrNew, D.codec.allowFrom_empty]
    rfl
  have hwrite : ∀ (s : Files) text, (io (write .none (allowFromPath key) text)).exec s
      = (.ok (), s.set (allowFromPath key) text) := fun _ _ => rfl
  simp only [addAllowFrom, hempty, Bool.false_eq_true, if_false, hfault]
  rw [exec_bind_ok (hside _), exec_bind_ok hopen, exec_bind_ok (hside _), exec_bind_ok hread]
  simp only [hnew, hasEntry, any_nil, Bool.false_eq_true, if_false]
  rw [exec_bind_ok (hwrite _ _), hside]
  refine ⟨_, rfl, ?_, ?_⟩
  · simp [allowList, allowFiles, allowFromOrNew, D.codec.allowFrom_text]
  · intro k hk
    have hpath : allowFromPath k ≠ allowFromPath key := fun h => hk (allowFromPath_inj.mp h)
    simp [allowFiles, hpath]

/-! ## Histories -/

/-- An operation of the store. -/
inductive Op where
  | listPending (channel : String)
  | upsertRequest (channel id : String) (metadata : Option JsonValue)
  | approve (channel code : String)

/-- An operation with what it gets from outside. -/
structure Call where
  op : Op
  out : Outside

/-- The files, and the senders whose code has been approved so far: channel key
and id. -/
structure History where
  files : Files
  approved : List (String × String)

def approvedBy (c : Call) : Option (String × String) :=
  match c.op with
  | .approve channel code =>
      match safeChannelKey D channel, ((approve D c.out channel code).exec files).1 with
      | .ok key, .ok (some entry) => some (key, entry.id)
      | _, _ => none
  | _ => none

def History.step (h : History) (c : Call) : History :=
  { files :=
      match c.op with
      | .listPending channel => ((listPending D c.out channel).exec h.files).2
      | .upsertRequest channel id metadata =>
          ((upsertRequest D c.out channel id metadata).exec h.files).2
      | .approve channel code => ((approve D c.out channel code).exec h.files).2
    approved := (approvedBy D h.files c).toList ++ h.approved }

/-- The condition on a step: an approval that gets through to the list finds it
empty or holding just the sender it approves, and is not interrupted by a file
fault once it is there. -/
def SparesList (h : History) (c : Call) : Prop :=
  match c.op with
  | .approve channel code =>
      ∀ key entry, safeChannelKey D channel = .ok key →
        matchingRequest D c.out h.files key code = some entry →
        trim entry.id ≠ ""
          ∧ (allowList D h.files key = [] ∨ allowList D h.files key = [trim entry.id])
          ∧ ∀ op, c.out.fault .addAllowFrom op = .none
  | _ => True

variable {D}

theorem allowList_congr {files files' : Files} {key : String}
    (h : allowFiles files' key = allowFiles files key) :
    allowList D files' key = allowList D files key := by
  rw [allowList, allowList, h]

theorem plusIfNew_of_spared {allow : List String} {id : String}
    (h : allow = [] ∨ allow = [trim id]) : plusIfNew D allow id = [trim id] := by
  rcases h with rfl | rfl
  · simp [plusIfNew, hasEntry]
  · simp [plusIfNew, hasEntry]

/-- **One step.** Either no one is approved and every list is as it was, or one
sender is approved: its channel's list, which was empty or just this sender, is
just this sender, and the other lists are as they were. -/
theorem step_lists {h : History} {c : Call} (hg : SparesList D h c) :
    (approvedBy D h.files c = none ∧ ∀ k, allowList D (h.step D c).files k = allowList D h.files k)
      ∨ ∃ key id, approvedBy D h.files c = some (key, id)
        ∧ (allowList D h.files key = [] ∨ allowList D h.files key = [trim id])
        ∧ allowList D (h.step D c).files key = [trim id]
        ∧ ∀ k, k ≠ key → allowList D (h.step D c).files k = allowList D h.files k := by
  obtain ⟨op, out⟩ := c
  cases op with
  | listPending channel =>
    have hkeep := keeps_listPending D out channel h.files
    refine .inl ⟨rfl, fun k => allowList_congr ?_⟩
    simp only [History.step]
    rw [hkeep]
  | upsertRequest channel id metadata =>
    have hkeep := keeps_upsertRequest D out channel id metadata h.files
    refine .inl ⟨rfl, fun k => allowList_congr ?_⟩
    simp only [History.step]
    rw [hkeep]
  | approve channel code =>
    rcases approve_cases D out channel code h.files with
      ⟨hsame, hnone⟩ | ⟨key, entry, files₁, hkey, -, hmatch, hsame, heq⟩
    · refine .inl ⟨?_, fun k => allowList_congr ?_⟩
      · simp only [approvedBy]
        split
        · rename_i e _ he
          exact absurd he (hnone e)
        · rfl
      · simp only [History.step]
        rw [hsame]
    · obtain ⟨hne, hlist, hfault⟩ := hg key entry hkey hmatch
      replace hfault : ∀ op, out.fault .addAllowFrom op = .none := hfault
      obtain ⟨files', hadd, hkeyList, hother⟩ := addAllowFrom_spec (D := D) key hne hfault files₁
      have hexec : (approve D out channel code).exec h.files = (.ok (some entry), files') :=
        heq.trans (exec_bind_ok hadd _)
      have hfiles : (h.step D ⟨.approve channel code, out⟩).files = files' := by
        simp only [History.step, hexec]
      refine .inr ⟨key, entry.id, ?_, hlist, ?_, ?_⟩
      · simp only [approvedBy, hkey, hexec]
      · rw [hfiles]
        exact hkeyList
      · intro k hk
        rw [hfiles]
        exact allowList_congr ((hother k hk).trans (congrFun hsame k))

def ApprovedListed (D : Deps) (h : History) : Prop :=
  ∀ key id, (key, id) ∈ h.approved → trim id ∈ allowList D h.files key

theorem step_approvedListed (h : History) (c : Call)
    (hi : ApprovedListed D h) (hg : SparesList D h c) : ApprovedListed D (h.step D c) := by
  intro key id hmem
  simp only [History.step, mem_append, Option.mem_toList] at hmem
  rcases step_lists hg with ⟨hnone, hlists⟩ | ⟨key', id', hby, hbefore, hafter, hother⟩
  · rw [hlists]
    rcases hmem with hnew | hold
    · rw [hnone] at hnew
      cases hnew
    · exact hi key id hold
  · rcases hmem with hnew | hold
    · rw [hby] at hnew
      cases hnew
      simp [hafter]
    · by_cases hk : key = key'
      · -- an earlier approval on this channel: it was the same sender
        subst hk
        have hin := hi key id hold
        rcases hbefore with hnil | hsame
        · rw [hnil] at hin
          cases hin
        · rwa [hafter, ← hsame]
      · rw [hother key hk]
        exact hi key id hold

/-- **Approved senders stay approved** along every history whose approvals find
the list empty or holding just their sender: each approval leaves the old list
with the sender added, and every sender approved so far keeps being allowed. -/
theorem approved_senders_stay (D : Deps) (files₀ : Files) (calls : List Call)
    (hg : Guarded (History.step D) (SparesList D) ⟨files₀, []⟩ calls) :
    (∀ pre c post, calls = pre ++ c :: post →
        ∀ key id, approvedBy D (run (History.step D) ⟨files₀, []⟩ pre).files c = some (key, id) →
          allowList D (run (History.step D) ⟨files₀, []⟩ (pre ++ [c])).files key
            = plusIfNew D (allowList D (run (History.step D) ⟨files₀, []⟩ pre).files key) id)
      ∧ ∀ pre, pre <+: calls →
        ∀ key id, (key, id) ∈ (run (History.step D) ⟨files₀, []⟩ pre).approved →
          ∀ channel out username, safeChannelKey D channel = .ok key →
            out.fault .readAllowFrom .read = .none →
            ((isSenderAllowed D out channel id username).exec
              (run (History.step D) ⟨files₀, []⟩ pre).files).1 = .ok true := by
  constructor
  · rintro pre c post rfl key id hby
    have hstep := step_lists (guarded_append.mp hg).2.1
    rw [run_append, run_cons, run_nil]
    rcases hstep with ⟨hnone, _⟩ | ⟨key', id', hby', hbefore, hafter, _⟩
    · rw [hnone] at hby
      cases hby
    · rw [hby'] at hby
      cases hby
      rw [hafter, plusIfNew_of_spared hbefore]
  · intro pre hpre key id hmem channel out username hkey hread
    have hlisted : ApprovedListed D (run (History.step D) ⟨files₀, []⟩ pre) :=
      invariant_reached step_approvedListed (fun _ _ hnil => by cases hnil) hg hpre
    have hallow := senderAllowed_of_mem (D := D) (hlisted key id hmem) username
    rw [isSenderAllowed, exec_bind_ok (readAllowFrom_eq hkey hread), exec_pure, hallow]

/-! ## A store on disk

The allowFrom file as it is written, and a pairing file with two requests. -/

def versionField : List Char := "\x7b\n  \"version\": ".toList

def allowFromField : List Char := "\n  \"allowFrom\": ".toList

def closing : List Char := "\n\x7d".toList

def allowFromText (f : AllowFromStoreFile) : String :=
  String.ofList (versionField ++ ((Nat.repr f.version.toNat).toList
    ++ ',' :: (allowFromField ++ (array f.allowFrom ++ closing))))

/-- A number below 256, up to the comma behind it. -/
def readVersion (text : List Char) : Option (Nat × List Char) :=
  match (List.range 256).find? fun n => (Nat.repr n).toList = text.takeWhile (· ≠ ',') with
  | some n => some (n, text.dropWhile (· ≠ ','))
  | none => none

def allowFromOf (text : String) : Option AllowFromStoreFile :=
  (strip versionField text.toList).bind fun rest =>
    (readVersion rest).bind fun (version, rest) =>
      (strip (',' :: allowFromField) rest).bind fun rest =>
        (readArray rest).bind fun (allowFrom, rest) =>
          if rest = closing then some ⟨UInt8.ofNat version, allowFrom⟩ else none

theorem readVersion_repr (v : UInt8) (u : List Char) :
    readVersion ((Nat.repr v.toNat).toList ++ ',' :: u) = some (v.toNat, ',' :: u) := by
  have hdigits : ∀ c ∈ (Nat.repr v.toNat).toList, decide (c ≠ ',') = true := by
    intro c hc
    rw [Nat.toList_repr] at hc
    have hd := Nat.isDigit_of_mem_toDigits (by omega) (by omega) hc
    rw [decide_eq_true_iff]
    rintro rfl
    exact absurd hd (by decide)
  have hfind : (range 256).find? (fun n =>
      (Nat.repr n).toList = (Nat.repr v.toNat).toList) = some v.toNat := by
    rw [find?_range_eq_some]
    refine ⟨by simp, by simpa using v.toNat_lt, ?_⟩
    intro j hj
    have hne : (Nat.repr j).toList ≠ (Nat.repr v.toNat).toList := by
      intro heq
      have := Nat.repr_injective (String.toList_inj.mp heq)
      omega
    rw [decide_eq_false hne]
    rfl
  rw [readVersion, takeWhile_append_of_pos hdigits,
    dropWhile_append_of_pos hdigits, takeWhile_cons_of_neg (by simp),
    dropWhile_cons_of_neg (by simp), append_nil, hfind]

theorem allowFromOf_text (f : AllowFromStoreFile) : allowFromOf (allowFromText f) = some f := by
  rw [allowFromOf, allowFromText, String.toList_ofList, strip_append,
    Option.bind_some, readVersion_repr, Option.bind_some]
  dsimp only
  rw [← cons_append, strip_append, Option.bind_some, readArray_array, Option.bind_some]
  dsimp only
  rw [if_pos rfl, UInt8.ofNat_toNat]

def alice : PairingRequest :=
  ⟨"alice", "AAAAAAAA", "2026-01-01T00:00:00+00:00", "2026-01-01T00:00:00+00:00", none⟩

def bob : PairingRequest :=
  ⟨"bob", "BBBBBBBB", "2026-01-01T00:00:00+00:00", "2026-01-01T00:00:00+00:00", none⟩

def requestText (r : PairingRequest) : String :=
  "\n    \x7b\n      \"id\": \"" ++ r.id ++ "\",\n      \"code\": \"" ++ r.code
    ++ "\",\n      \"created_at\": \"" ++ r.createdAt
    ++ "\",\n      \"last_seen_at\": \"" ++ r.lastSeenAt ++ "\"\n    \x7d"

def pairingText (f : PairingStoreFile) : String :=
  if f.requests.isEmpty then "\x7b\n  \"version\": 1,\n  \"requests\": []\n\x7d"
  else
    "\x7b\n  \"version\": 1,\n  \"requests\": ["
      ++ ",".intercalate (f.requests.map requestText) ++ "\n  ]\n\x7d"

/-- JSON for stores of at most these two requests. -/
def sampleCodec : StoreCodec where
  pairingText := pairingText
  pairingOf text :=
    [⟨1, []⟩, ⟨1, [alice]⟩, ⟨1, [bob]⟩, ⟨1, [alice, bob]⟩].find? (pairingText · = text)
  allowFromText := allowFromText
  allowFromOf := allowFromOf
  attemptsText := fun _ => "\x7b\n  \"failed_at\": []\n\x7d"
  attemptsOf := fun _ => none
  pairing_empty := by decide +kernel
  allowFrom_text := allowFromOf_text
  allowFrom_empty := by decide

def sampleDeps : Deps where
  codec := sampleCodec
  calendar :=
    { toRfc3339 := fun _ => "2026-01-01T00:00:00+00:00"
      parseRfc3339 := fun s =>
        if s = "2026-01-01T00:00:00+00:00" then some 1767225600 else none }
  unicode := asciiCase

/-- A minute after the requests were made, with a disk that works. -/
def sampleOutside : Outside where
  nowSecs := 1767225660
  nowIsoSecs := 1767225660
  draws := fun _ _ => ⟨0, by decide⟩
  suffix := 0
  fault := fun _ _ => .none

def sampleFiles : Files := fun path =>
  if path = "telegram-pairing.json" then some (pairingText ⟨1, [alice, bob]⟩) else none

def approveAlice : Call := ⟨.approve "telegram" "AAAAAAAA", sampleOutside⟩

def approveBob : Call := ⟨.approve "telegram" "bbbbbbbb", sampleOutside⟩

theorem approved_senders_stay_alice :
    Guarded (History.step sampleDeps) (SparesList sampleDeps) ⟨sampleFiles, []⟩ [approveAlice]
      ∧ approvedBy sampleDeps sampleFiles approveAlice = some ("telegram", "alice")
      ∧ allowList sampleDeps
          (run (History.step sampleDeps) ⟨sampleFiles, []⟩ [approveAlice]).files
          "telegram" = plusIfNew sampleDeps [] "alice"
      ∧ ((isSenderAllowed sampleDeps sampleOutside "telegram" "alice" none).exec
          (run (History.step sampleDeps) ⟨sampleFiles, []⟩ [approveAlice]).files).1
        = .ok true := by
  have hby : approvedBy sampleDeps sampleFiles approveAlice = some ("telegram", "alice") := by
    decide +kernel
  have hg : Guarded (History.step sampleDeps) (SparesList sampleDeps)
      ⟨sampleFiles, []⟩ [approveAlice] := by
    have hkey : safeChannelKey sampleDeps "telegram" = .ok "telegram" := by decide
    have hid : (matchingRequest sampleDeps sampleOutside sampleFiles "telegram"
        "AAAAAAAA").map (·.id) = some "alice" := by
      decide +kernel
    have hempty : allowList sampleDeps sampleFiles "telegram" = [] := by decide
    refine ⟨?_, trivial⟩
    show ∀ key entry, safeChannelKey sampleDeps "telegram" = .ok key →
      matchingRequest sampleDeps sampleOutside sampleFiles key "AAAAAAAA" = some entry → _
    intro key entry hkey' hmatch
    rw [hkey] at hkey'
    cases hkey'
    rw [hmatch] at hid
    have hname : entry.id = "alice" := Option.some.inj hid
    rw [hname]
    exact ⟨by decide, .inl hempty, fun _ => rfl⟩
  have hstay := approved_senders_stay sampleDeps sampleFiles [approveAlice] hg
  refine ⟨hg, hby, ?_, ?_⟩
  · exact hstay.1 [] approveAlice [] rfl "telegram" "alice" hby
  · refine hstay.2 [approveAlice] (prefix_refl _) "telegram" "alice" ?_ "telegram"
      sampleOutside none (by decide) rfl
    simp [run, History.step, hby]

theorem approving_bob_drops_alice :
    let h := run (History.step sampleDeps) ⟨sampleFiles, []⟩ [approveAlice, approveBob]
    ("telegram", "alice") ∈ h.approved ∧ ("telegram", "bob") ∈ h.approved
      ∧ allowList sampleDeps h.files "telegram" = ["bob"]
      ∧ ((isSenderAllowed sampleDeps sampleOutside "telegram" "alice" none).exec
          h.files).1 = .ok false := by
  decide +kernel

end TitanClaw.Pairing
