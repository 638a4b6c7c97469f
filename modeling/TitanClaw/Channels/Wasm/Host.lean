import TitanClaw.Lib.Run
import TitanClaw.Lib.Table
import TitanClaw.Lib.Text

/-! # The workspace of a WASM channel

A channel's callbacks run one after the other, each in a fresh instance with host state of its
own. What the guest writes to the workspace is queued in the host state, which the driver of the
callback takes out when the callback has completed. What it reads is what the reader of the
workspace has, and the workspace is written by the rest of the system. -/

namespace TitanClaw.Channels.Wasm

open Text List Option Run

/-! ## Capabilities -/

structure WorkspaceCapability where
  allowedPrefixes : List String := []
  hasReader : Bool := true

structure ChannelCapabilities where
  workspaceRead : Option WorkspaceCapability := none
  allowedPaths : List String := []
  workspacePrefix : String := ""

namespace ChannelCapabilities

def forChannel (name : String) : ChannelCapabilities :=
  { workspacePrefix := "channels/" ++ name ++ "/" }

variable (caps : ChannelCapabilities) (path : String)

def isPathAllowed : Bool := caps.allowedPaths.any (· == path)

def prefixWorkspacePath : String :=
  if caps.workspacePrefix.isEmpty then path else caps.workspacePrefix ++ path

def validateWorkspacePath : Except String String :=
  if startsWith path "/" then .error "Absolute paths not allowed"
  else if contains path ".." then .error "Parent directory references not allowed"
  else if contains path "\x00" then .error "Null bytes not allowed"
  else .ok (caps.prefixWorkspacePath path)

end ChannelCapabilities

/-- `WasmError::PathTraversalBlocked`. -/
structure PathTraversalBlocked where
  reason : String

def validateReadPath (path : String) : Except PathTraversalBlocked Unit :=
  if startsWith path "/" then .error ⟨"absolute paths not allowed"⟩
  else if contains path ".." then .error ⟨"parent directory references not allowed"⟩
  else if contains path "\x00" then .error ⟨"null bytes not allowed"⟩
  else if 2 ≤ len path && path.toList[1]? == some ':' then
    .error ⟨"Windows-style paths not allowed"⟩
  else .ok ()

namespace WorkspaceCapability

def allows (cap : WorkspaceCapability) (path : String) : Bool :=
  cap.allowedPrefixes.isEmpty || cap.allowedPrefixes.any (startsWith path ·)

variable (cap : Option WorkspaceCapability) (workspace : Table String String) (path : String)

/-- `HostState::workspace_read`. -/
def workspaceRead : Except PathTraversalBlocked (Option String) :=
  match cap with
  | none => .ok none
  | some cap =>
      match validateReadPath path with
      | .error e => .error e
      | .ok () =>
          if cap.allows path then
            if cap.hasReader then .ok (workspace.lookup path) else .ok none
          else .ok none

/-- Does a read of the path go to the reader? -/
def covers : Bool :=
  cap.any fun cap => (validateReadPath path).isOk && cap.allows path && cap.hasReader

theorem workspaceRead_answer : (workspaceRead cap workspace path).toOption.join =
      if covers cap path then workspace.lookup path else none := by
  cases cap with
  | none => rfl
  | some cap =>
    cases hvalid : validateReadPath path with
    | error => simp [workspaceRead, covers, hvalid, Except.toOption, Except.isOk, Except.toBool]
    | ok =>
      cases hallowed : cap.allows path <;> cases hreader : cap.hasReader <;>
        simp [workspaceRead, covers, hvalid, hallowed, hreader, Except.toOption, Except.isOk,
          Except.toBool]

end WorkspaceCapability

/-! ## Host state -/

structure EmittedMessage where
  userId : String
  userName : Option String := none
  content : String
  threadId : Option String := none
  metadataJson : String := "\x7b\x7d"
  emittedAtMillis : Nat

structure PendingWorkspaceWrite where
  path : String
  content : String

def maxEmitsPerExecution : Nat := 100

def maxMessageContentSize : Nat := 64 * 1024

/-- `WasmChannelError::WorkspaceEscape`. -/
structure WorkspaceEscape where
  name : String
  path : String

structure ChannelHostState where
  channelName : String
  capabilities : ChannelCapabilities
  emittedMessages : List EmittedMessage := []
  pendingWrites : List PendingWorkspaceWrite := []
  emitCount : Nat := 0
  emitEnabled : Bool := true
  emitsDropped : Nat := 0

namespace ChannelHostState

variable (host : ChannelHostState)

/-- `none` is a panic: the text is cut within a character. -/
def emitMessage (msg : EmittedMessage) : Option ChannelHostState :=
  let push (msg : EmittedMessage) : ChannelHostState :=
    { host with
      emittedMessages := host.emittedMessages ++ [msg]
      emitCount := host.emitCount + 1 }
  if !host.emitEnabled then some { host with emitsDropped := host.emitsDropped + 1 }
  else if maxEmitsPerExecution ≤ host.emittedMessages.length then
    some { host with emitEnabled := false, emitsDropped := host.emitsDropped + 1 }
  else if maxMessageContentSize < len msg.content then
    if floorCharBoundary msg.content maxMessageContentSize = maxMessageContentSize then
      some (push { msg with
        content := slice msg.content 0 maxMessageContentSize ++ "... (truncated)" })
    else none
  else some (push msg)

def takeEmittedMessages : List EmittedMessage × ChannelHostState :=
  (host.emittedMessages, { host with emittedMessages := [] })

def workspaceWrite (path content : String) : Except WorkspaceEscape ChannelHostState :=
  match host.capabilities.validateWorkspacePath path with
  | .error reason => .error ⟨host.channelName, reason⟩
  | .ok fullPath => .ok { host with pendingWrites := host.pendingWrites ++ [⟨fullPath, content⟩] }

def workspaceRead (workspace : Table String String) (path : String) :
    Except PathTraversalBlocked (Option String) :=
  WorkspaceCapability.workspaceRead host.capabilities.workspaceRead workspace
    (host.capabilities.prefixWorkspacePath path)

end ChannelHostState

/-! ## Callbacks -/

inductive Callback where
  | onStart
  | onHttpRequest
  | onPoll
  | onRespond

inductive HostCall where
  | emitMessage (msg : EmittedMessage)
  | workspaceRead (path : String)
  | workspaceWrite (path content : String)

/-- How a callback ends: a trap, an error that the guest returns, and a timeout are failures. -/
inductive Outcome where
  | completed
  | failed

inductive Label where
  | start (callback : Callback)
  | call (c : HostCall)
  | finish (outcome : Outcome)
  /-- The rest of the system writes a document of the workspace, or deletes it. -/
  | outside (path : String) (content : Option String)

/-- A read of a document, with what the last completed callback that wrote it has written. -/
structure Read where
  lastWritten : Option String
  answer : Option String
  deriving DecidableEq

/-- A channel in the system. What completed callbacks have written, and the reads, are records
that nothing reads. -/
structure Channel where
  workspace : Table String String := ∅
  running : Option (Callback × ChannelHostState) := none
  messages : List EmittedMessage := []
  written : Table String String := ∅
  reads : List Read := []

namespace Channel

variable (c : Channel) (host : ChannelHostState)

/-- What the drivers do with the host state of a completed callback. -/
def handOver : Callback → Channel
  -- of the two queues of the host state only that of the messages is ever taken
  | .onStart => c
  | .onHttpRequest => { c with messages := c.messages ++ host.takeEmittedMessages.1 }
  | .onPoll => { c with messages := c.messages ++ host.takeEmittedMessages.1 }
  | .onRespond => c

def record (written : Table String String) (writes : List PendingWorkspaceWrite) :
    Table String String :=
  writes.foldl (fun written w => written.insert w.path w.content) written

def recordWrites : Channel :=
  { c with written := record c.written host.pendingWrites }

def perform (callback : Callback) (host : ChannelHostState) : HostCall → Channel
  | .emitMessage msg =>
      { c with running := (host.emitMessage msg).map fun host => (callback, host) }
  | .workspaceRead path =>
      { c with reads := c.reads ++
        [⟨c.written.lookup (host.capabilities.prefixWorkspacePath path),
          (host.workspaceRead c.workspace path).toOption.join⟩] }
  -- the guest is told of success as soon as the write is queued
  | .workspaceWrite path content =>
      match host.workspaceWrite path content with
      | .error _ => c
      | .ok host => { c with running := some (callback, host) }

def step (name : String) (caps : ChannelCapabilities) (c : Channel) : Label → Channel
  | .start callback =>
      match c.running with
      | none => { c with running := some (callback, { channelName := name, capabilities := caps }) }
      | some _ => c
  | .call call =>
      match c.running with
      | none => c
      | some (callback, host) => c.perform callback host call
  | .finish outcome =>
      match c.running, outcome with
      | none, _ => c
      | some (callback, host), .completed =>
          -- the host state ends here, with the writes that are still pending in it
          { (c.recordWrites host).handOver host callback with running := none }
      | some _, .failed => { c with running := none }
  | .outside path (some content) => { c with workspace := c.workspace.insert path content }
  | .outside path none => { c with workspace := c.workspace.erase path }

variable {name : String} {caps : ChannelCapabilities} (c : Channel) (callback : Callback)

@[simp] theorem handOver_workspace : (c.handOver host callback).workspace = c.workspace := by
  cases callback <;> rfl

@[simp] theorem handOver_reads : (c.handOver host callback).reads = c.reads := by
  cases callback <;> rfl

theorem perform_workspace (host : ChannelHostState)
    (call : HostCall) : (c.perform callback host call).workspace = c.workspace := by
  cases call with
  | emitMessage | workspaceRead => rfl
  | workspaceWrite =>
    simp only [perform]
    split <;> rfl

variable {c}

/-- Is it the rest of the system that takes the step? -/
def Label.isOutside : Label → Bool
  | .outside .. => true
  | _ => false

theorem step_workspace (label : Label) (hlabel : Label.isOutside label = false) :
    (step name caps c label).workspace = c.workspace := by
  cases label with
  | start =>
    simp only [step]
    split <;> rfl
  | call call =>
    simp only [step]
    split
    · rfl
    · exact perform_workspace c _ _ call
  | finish =>
    simp only [step]
    split
    · rfl
    · exact handOver_workspace _ _ _
    · rfl
  | outside => simp [Label.isOutside] at hlabel

/-- Whatever callbacks there are and whatever they write, the workspace is the one that the rest
of the system has made. -/
theorem workspace_run (c : Channel) (labels : List Label) :
    (run (step name caps) c labels).workspace =
      (run (step name caps) c (labels.filter Label.isOutside)).workspace := by
  have hfree (c : Channel) (labels : List Label) :
      Guarded (step name caps) (fun _ _ => True) c labels :=
    guarded_iff.mpr fun _ _ _ => trivial
  refine view_run (fun c label hlabel _ => step_workspace label hlabel) ?_
    (hfree c labels) (hfree c _) (by simp) rfl
  intro c c' label hlabel _ _ hsame
  cases label with
  | start | call | finish => simp [Label.isOutside] at hlabel
  | outside _ content => cases content <;> simp [step, hsame]

/-! ## Reads -/

/-- Every read gives what the last completed callback that wrote the document has written. -/
def ReadsLastWritten (c : Channel) : Prop :=
  ∀ r ∈ c.reads, r.lastWritten ≠ none → r.answer = r.lastWritten

instance (c : Channel) : Decidable c.ReadsLastWritten :=
  inferInstanceAs (Decidable (∀ r ∈ c.reads, r.lastWritten ≠ none → r.answer = r.lastWritten))

variable (caps)

/-- What is read again, the workspace has already, at a path that the channel may read. -/
def AlreadyStored (c : Channel) : Label → Prop
  | .call (.workspaceRead path) =>
      let fullPath := caps.prefixWorkspacePath path
      c.running.isSome = true → c.written.lookup fullPath ≠ none →
        WorkspaceCapability.covers caps.workspaceRead fullPath = true
          ∧ c.workspace.lookup fullPath = c.written.lookup fullPath
  | _ => True

/-- A callback runs with the channel's capabilities. -/
def Prepared (c : Channel) : Prop := ∀ run ∈ c.running, run.2.capabilities = caps

variable {caps}

theorem emitMessage_capabilities {host host' : ChannelHostState} {msg : EmittedMessage}
    (h : host.emitMessage msg = some host') : host'.capabilities = host.capabilities := by
  unfold ChannelHostState.emitMessage at h
  split_ifs at h <;> cases h <;> rfl

theorem workspaceWrite_capabilities {host host' : ChannelHostState} {path content : String}
    (h : host.workspaceWrite path content = .ok host') :
    host'.capabilities = host.capabilities := by
  unfold ChannelHostState.workspaceWrite at h
  split at h
  · cases h
  cases h
  rfl

variable {callback : Callback}

theorem perform_prepared {host : ChannelHostState} {call : HostCall}
    (hrun : c.running = some (callback, host)) (h : Prepared caps c) :
    Prepared caps (c.perform callback host call) := by
  have hhost : host.capabilities = caps := h (callback, host) hrun
  cases call with
  | emitMessage =>
    intro run hrun'
    obtain ⟨host', hemit, rfl⟩ := map_eq_some_iff.mp hrun'
    exact (emitMessage_capabilities hemit).trans hhost
  | workspaceRead => exact h
  | workspaceWrite =>
    simp only [perform]
    split
    · exact h
    next host' hwrite =>
    intro run hrun'
    cases hrun'
    exact (workspaceWrite_capabilities hwrite).trans hhost

theorem step_prepared (c : Channel) (label : Label) (h : Prepared caps c) :
    Prepared caps (step name caps c label) := by
  cases label with
  | start =>
    simp only [step]
    split
    · intro run hrun
      cases hrun
      rfl
    · exact h
  | call =>
    simp only [step]
    split
    · exact h
    · next callback host hrun => exact perform_prepared hrun h
  | finish =>
    simp only [step]
    split
    · exact h
    · intro run hrun
      cases hrun
    · intro run hrun
      cases hrun
  | outside _ content => cases content <;> exact h

theorem perform_reads {host : ChannelHostState} {call : HostCall}
    (hcall : ∀ path, call ≠ .workspaceRead path) :
    (c.perform callback host call).reads = c.reads := by
  cases call with
  | emitMessage => rfl
  | workspaceRead path => exact absurd rfl (hcall path)
  | workspaceWrite =>
    simp only [perform]
    split <;> rfl

theorem step_reads (c : Channel) (label : Label)
    (hlabel : ∀ path, label = .call (.workspaceRead path) → c.running = none) :
    (step name caps c label).reads = c.reads := by
  cases label with
  | start =>
    simp only [step]
    split <;> rfl
  | call =>
    simp only [step]
    split
    · rfl
    next callback host hrun =>
    refine perform_reads fun path hcall => ?_
    rw [hcall] at hlabel
    cases hrun.symm.trans (hlabel path rfl)
  | finish =>
    simp only [step]
    split
    · rfl
    · exact handOver_reads _ _ _
    · rfl
  | outside _ content => cases content <;> rfl

theorem readsLastWritten_of_reads {c' : Channel} (h : c'.reads = c.reads) :
    c'.ReadsLastWritten ↔ c.ReadsLastWritten := by
  unfold ReadsLastWritten
  rw [h]

/-- One more read is right when the workspace has already what was written. -/
theorem perform_read_iff {host : ChannelHostState} {path : String}
    (hrun : c.running = some (callback, host)) (hprep : Prepared caps c) (h : c.ReadsLastWritten) :
    (c.perform callback host (.workspaceRead path)).ReadsLastWritten ↔
      AlreadyStored caps c (.call (.workspaceRead path)) := by
  obtain rfl : host.capabilities = caps := hprep (callback, host) hrun
  have hanswer : (host.workspaceRead c.workspace path).toOption.join = _ :=
    WorkspaceCapability.workspaceRead_answer _ _ _
  simp only [AlreadyStored, hrun, isSome_some, true_implies]
  constructor
  · intro hread hwritten
    have hlast := hread _ (mem_append_right _ (mem_singleton.mpr rfl)) hwritten
    rw [hanswer] at hlast
    split at hlast
    · next hcovers => exact ⟨hcovers, hlast⟩
    · exact absurd hlast.symm hwritten
  · intro hstored r hr hwritten
    rcases mem_append.mp hr with hr | hr
    · exact h r hr hwritten
    cases mem_singleton.mp hr
    obtain ⟨hcovers, hworkspace⟩ := hstored hwritten
    rw [hanswer, if_pos hcovers, hworkspace]

theorem step_readsLastWritten_iff (c : Channel) (label : Label) (hprep : Prepared caps c)
    (h : c.ReadsLastWritten) :
    (step name caps c label).ReadsLastWritten ↔ AlreadyStored caps c label := by
  by_cases hlabel : ∃ path, label = .call (.workspaceRead path) ∧ c.running ≠ none
  · obtain ⟨path, rfl, hrun⟩ := hlabel
    obtain ⟨⟨callback, host⟩, hrun⟩ := ne_none_iff_exists'.mp hrun
    simp only [step, hrun]
    exact perform_read_iff hrun hprep h
  · have hidle : ∀ path, label = .call (.workspaceRead path) → c.running = none := by
      intro path hpath
      by_contra hrun
      exact hlabel ⟨path, hpath, hrun⟩
    have hstored : AlreadyStored caps c label := by
      unfold AlreadyStored
      split
      · next path =>
        intro fullPath hrun
        rw [hidle path rfl] at hrun
        cases hrun
      · trivial
    exact ⟨fun _ => hstored, fun _ => (readsLastWritten_of_reads (step_reads c label hidle)).mpr h⟩

/-- In a sequence of callbacks each read gives what was last written, if and only if somebody
else has put it into the workspace by then. -/
theorem readsLastWritten_iff (name : String) (caps : ChannelCapabilities)
    (workspace : Table String String) (labels : List Label) :
    (∀ pre, pre <+: labels →
        (run (step name caps) { workspace := workspace } pre).ReadsLastWritten) ↔
      Guarded (step name caps) (AlreadyStored caps) { workspace := workspace } labels := by
  refine reached_iff_guarded_of_aux step_prepared step_readsLastWritten_iff ?_ ?_
  · intro run hrun
    cases hrun
  · intro r hr
    cases hr

/-- A webhook stores the state of the channel, and the next poll finds none. -/
theorem state_lost :
    let caps := { ChannelCapabilities.forChannel "telegram" with workspaceRead := some {} }
    let c := run (step "telegram" caps) {}
      [.start .onHttpRequest, .call (.workspaceWrite "state.json" "1"), .finish .completed,
        .start .onPoll, .call (.workspaceRead "state.json")]
    c.reads = [⟨some "1", none⟩] ∧ ¬ c.ReadsLastWritten := by
  decide

end Channel

end TitanClaw.Channels.Wasm
