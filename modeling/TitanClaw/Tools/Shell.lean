import TitanClaw.Lib.Text
import TitanClaw.Tools.Registry

/-! # The shell tool

Commands pass a list of blocked commands, a list of dangerous patterns and an
injection detector before they reach a sandbox or the host. The tool has two
entry points: `execute`, and `executeStreaming` for callers that want the
output in chunks while the command runs.

Everything outside the process — the environment, the programs it spawns, the
sandbox — is the `ShellWorld` a call runs in. A call's effect is recorded in
`ShellRun`: the commands it STARTED, the chunks it handed to the callback and
its result. -/

namespace TitanClaw.Tools

open Text JsonValue

/-! ## Command checks -/

def blockedCommands : List String :=
  ["rm -rf /", "rm -rf /*", ":()\x7b :|:& \x7d;:", "dd if=/dev/zero", "mkfs",
    "chmod -R 777 /", "> /dev/sda", "curl | sh", "wget | sh", "curl | bash",
    "wget | bash"]

def dangerousPatterns : List String :=
  ["sudo ", "doas ", " | sh", " | bash", " | zsh", "eval ", "$(curl", "$(wget",
    "/etc/passwd", "/etc/shadow", "~/.ssh", ".bash_history", "id_rsa"]

def neverAutoApprovePatterns : List String :=
  ["rm -rf", "rm -fr", "chmod -r 777", "chmod 777", "chown -r", "shutdown",
    "reboot", "poweroff", "init 0", "init 6", "iptables", "nft ", "useradd",
    "userdel", "passwd", "visudo", "crontab", "systemctl disable",
    "launchctl unload", "kill -9", "killall", "pkill", "docker rm", "docker rmi",
    "docker system prune", "git push --force", "git push -f", "git reset --hard",
    "git clean -f", "DROP TABLE", "DROP DATABASE", "TRUNCATE", "DELETE FROM"]

def safeEnvVars : List String :=
  ["PATH", "HOME", "USER", "LOGNAME", "SHELL", "TERM", "COLORTERM", "LANG",
    "LC_ALL", "LC_CTYPE", "LC_MESSAGES", "PWD", "TMPDIR", "TMP", "TEMP",
    "XDG_RUNTIME_DIR", "XDG_DATA_HOME", "XDG_CONFIG_HOME", "XDG_CACHE_HOME",
    "CARGO_HOME", "RUSTUP_HOME", "NODE_PATH", "NPM_CONFIG_PREFIX", "EDITOR",
    "VISUAL", "SystemRoot", "SYSTEMROOT", "ComSpec", "PATHEXT", "APPDATA",
    "LOCALAPPDATA", "USERPROFILE", "ProgramFiles", "ProgramFiles(x86)", "WINDIR"]

variable (U : CaseMap)

def requiresExplicitApproval (command : String) : Bool :=
  let lower := U.toLowercase command
  neverAutoApprovePatterns.any fun p => contains lower (U.toLowercase p)

/-- Does the command pipe to the interpreter `shell`, at a word boundary? The
byte behind a match decides, and only ASCII bytes count. -/
def hasPipeTo (lower shell : String) : Bool :=
  ["| ", "|"].any fun pre =>
    let pattern := (pre ++ shell).toList
    (matchIndices pattern 0 0 lower.toList).any fun i =>
      match lower.toList[i + pattern.length]? with
      | none => true
      | some c => [' ', '\t', '\n', ';', '|', '&', ')'].contains c

def containsShellPipe (lower : String) : Bool :=
  hasPipeTo lower "sh" || hasPipeTo lower "bash" || hasPipeTo lower "zsh"
    || hasPipeTo lower "dash" || hasPipeTo lower "/bin/sh"
    || hasPipeTo lower "/bin/bash"

def hasCommandSubstitution (s : String) : Bool := contains s "$(" || s.toList.contains '\x60'

/-- Does `token` stand at the start or behind white space or a separator? -/
def hasCommandToken (lower token : String) : Bool :=
  (matchIndices token.toList 0 0 lower.toList).any fun i =>
    match i with
    | 0 => true
    | i + 1 =>
        match lower.toList[i]? with
        | some c => [' ', '\t', '|', ';', '&', '\n', '('].contains c
        | none => false

variable (cmd : String)

def detectCommandInjection : Option String :=
  let lower := U.toLowercase cmd
  if cmd.toList.contains '\x00' then some "null byte in command"
  else if (contains lower "base64 -d" || contains lower "base64 --decode")
      && containsShellPipe lower then
    some "base64 decode piped to shell"
  else if (contains lower "printf" || contains lower "echo -e"
        || contains lower "echo $'")
      && (contains lower "\\x" || contains lower "\\0")
      && containsShellPipe lower then
    some "encoded escape sequences piped to shell"
  else if (contains lower "xxd -r" || hasCommandToken lower "od ") && containsShellPipe lower then
    some "binary decode piped to shell"
  else if (hasCommandToken lower "dig " || hasCommandToken lower "nslookup "
        || hasCommandToken lower "host ")
      && hasCommandSubstitution lower then
    some "potential DNS exfiltration via command substitution"
  else if (hasCommandToken lower "nc " || hasCommandToken lower "ncat "
        || hasCommandToken lower "netcat ")
      && (lower.toList.contains '|' || lower.toList.contains '<') then
    some "netcat with data piping"
  else if contains lower "curl"
      && (contains lower "-d @" || contains lower "-d@" || contains lower "--data @"
        || contains lower "--data-binary @" || contains lower "--upload-file") then
    some "curl posting file contents"
  else if contains lower "wget" && contains lower "--post-file" then
    some "wget posting file contents"
  else if (contains lower "| rev" || contains lower "|rev") && containsShellPipe lower then
    some "string reversal piped to shell"
  else none

/-! ## The tool and its world -/

inductive SandboxPolicy where
  | readOnly
  | workspaceWrite
  | fullAccess

structure SandboxManager where
  isInitialized : Bool
  enabled : Bool

structure ShellTool where
  workingDir : Option String := none
  timeout : Nat := 120
  allowDangerous : Bool := false
  sandbox : Option SandboxManager := none
  sandboxPolicy : SandboxPolicy := .readOnly

inductive Pipe where
  | stdout
  | stderr
  deriving DecidableEq

inductive ProcessFate where
  | spawnFailed (e : String)
  | readFailed (pipe : Pipe) (e : String)
  | waitFailed (e : String)
  | timedOut
  | exited (code : Option Int)

/-- A process as its parent sees it: what is read from its pipes, in the order
it is read, and how it ends. -/
structure ProcessRun where
  reads : List (Pipe × List UInt8)
  fate : ProcessFate

inductive SandboxRun where
  | failed (e : String)
  | timedOut
  | finished (output : String) (exitCode : Int)

structure ShellWorld where
  envVar : String → Option String
  currentDir : Option String
  fromUtf8Lossy : List UInt8 → String
  spawn : (cmd cwd : String) → (env : List (String × String)) → (timeout : Nat) → ProcessRun
  executeWithPolicy : (cmd cwd : String) → SandboxPolicy → (timeout : Nat) → SandboxRun
  elapsed : Nat

/-- What a call does. -/
structure ShellRun (α : Type) where
  started : List String
  chunks : List String
  result : Except ToolError α

/-! ## Output -/

def maxOutputSize : Nat := 64 * 1024

def truncateOutput (s : String) : String :=
  if len s ≤ maxOutputSize then s
  else
    let half := maxOutputSize / 2
    slice s 0 (floorCharBoundary s half)
      ++ "\n\n... [truncated " ++ toString (len s - maxOutputSize)
      ++ " bytes] ...\n\n"
      ++ slice s (floorCharBoundary s (len s - half)) (len s)

def truncateForError (s : String) : String :=
  if s.toList.length ≤ 100 then s
  else String.ofList (s.toList.take 100) ++ "..."

/-- Read a pipe to its end, keeping the first `limit` bytes. -/
def readStreamWithLimit (limit : Nat) (reads : List (List UInt8)) : List UInt8 × Bool :=
  reads.foldl (fun (captured, truncated) buf =>
    if captured.length < limit then
      let take := min (limit - captured.length) buf.length
      (captured ++ buf.take take, truncated || decide (take < buf.length))
    else (captured, true)) ([], false)

variable (w : ShellWorld)

def decodeLimitedStream (bytes : List UInt8) (truncated : Bool) : String :=
  if truncated then w.fromUtf8Lossy bytes ++ "\n\n... [stream output truncated] ..."
  else w.fromUtf8Lossy bytes

def ProcessRun.readsOf (r : ProcessRun) (pipe : Pipe) : List (List UInt8) :=
  (r.reads.filter (·.1 = pipe)).map (·.2)

def combineOutput (stdout stderr : String) : String :=
  if stderr.isEmpty then stdout
  else if stdout.isEmpty then stderr
  else stdout ++ "\n\n--- stderr ---\n" ++ stderr

/-! ## Execution -/

variable (extraEnv : List (String × String))

def childEnv : List (String × String) :=
  safeEnvVars.filterMap (fun v => (w.envVar v).map (v, ·)) ++ extraEnv

variable (tool : ShellTool) (w : ShellWorld) (cmd workdir : String) (timeout : Nat)

def ShellTool.executeSandboxed : ShellRun (String × Int) :=
  { started := [cmd], chunks := []
    result :=
      match w.executeWithPolicy cmd workdir tool.sandboxPolicy timeout with
      | .finished output exitCode => .ok (truncateOutput output, exitCode)
      | .failed e => .error (.executionFailed ("Sandbox error: " ++ e))
      | .timedOut => .error (.timeout timeout) }

variable (extraEnv : List (String × String))

def executeDirect : ShellRun (String × Int) :=
  let run := w.spawn cmd workdir (childEnv w extraEnv) timeout
  let text := fun pipe =>
    let (bytes, truncated) := readStreamWithLimit maxOutputSize (run.readsOf pipe)
    decodeLimitedStream w bytes truncated
  match run.fate with
  | .spawnFailed e => ⟨[], [], .error (.executionFailed ("Failed to spawn command: " ++ e))⟩
  | .readFailed _ e | .waitFailed e =>
      ⟨[cmd], [], .error (.executionFailed ("Command execution failed: " ++ e))⟩
  | .timedOut => ⟨[cmd], [], .error (.timeout timeout)⟩
  | .exited code =>
      ⟨[cmd], [],
        .ok (truncateOutput (combineOutput (text .stdout) (text .stderr)), code.getD (-1))⟩

def chunkText : Pipe × List UInt8 → String
  | (.stdout, buf) => w.fromUtf8Lossy buf
  | (.stderr, buf) => "[stderr] " ++ w.fromUtf8Lossy buf

def executeDirectWithStreaming : ShellRun (String × Int) :=
  let run := w.spawn cmd workdir (childEnv w extraEnv) timeout
  let text := fun pipe => String.join ((run.readsOf pipe).map w.fromUtf8Lossy)
  let chunks := run.reads.map (chunkText w)
  match run.fate with
  | .spawnFailed e => ⟨[], [], .error (.executionFailed ("Failed to spawn command: " ++ e))⟩
  | .readFailed .stdout e =>
      ⟨[cmd], chunks, .error (.executionFailed ("stdout read failed: " ++ e))⟩
  | .readFailed .stderr e =>
      ⟨[cmd], chunks, .error (.executionFailed ("stderr read failed: " ++ e))⟩
  | .waitFailed e => ⟨[cmd], chunks, .error (.executionFailed ("Command execution failed: " ++ e))⟩
  | .timedOut => ⟨[cmd], chunks, .error (.timeout timeout)⟩
  | .exited code =>
      ⟨[cmd], chunks,
        .ok (truncateOutput (combineOutput (text .stdout) (text .stderr)), code.getD (-1))⟩

def ShellTool.isBlocked (cmd : String) : Option String :=
  let normalized := U.toLowercase cmd
  if blockedCommands.any (contains normalized ·) then some "Command contains blocked pattern"
  else if !tool.allowDangerous && dangerousPatterns.any (contains normalized ·) then
    some "Command contains potentially dangerous pattern"
  else none

def ShellTool.resolveDir (workdir : Option String) : String :=
  (workdir.or tool.workingDir).getD (w.currentDir.getD ".")

def ShellTool.executeCommand (cmd : String) (workdir : Option String) (timeout : Option Nat)
    (extraEnv : List (String × String)) : ShellRun (String × Int) :=
  match tool.isBlocked U cmd with
  | some reason => ⟨[], [], .error (.notAuthorized (reason ++ ": " ++ truncateForError cmd))⟩
  | none =>
      match detectCommandInjection U cmd with
      | some reason =>
          ⟨[], [], .error (.notAuthorized ("Command injection detected (" ++ reason
            ++ "): " ++ truncateForError cmd))⟩
      | none =>
          let cwd := tool.resolveDir w workdir
          let timeout := timeout.getD tool.timeout
          match tool.sandbox with
          | some sandbox =>
              if sandbox.isInitialized || sandbox.enabled then
                tool.executeSandboxed w cmd cwd timeout
              else executeDirect w cmd cwd timeout extraEnv
          | none => executeDirect w cmd cwd timeout extraEnv

def ShellTool.toOutput (output : String) (exitCode : Int) : ToolOutput :=
  { result := .obj [("output", .str output), ("exit_code", .int exitCode),
      ("success", .bool (exitCode == 0)), ("sandboxed", .bool tool.sandbox.isSome)]
    duration := w.elapsed }

def ShellTool.finish (run : ShellRun (String × Int)) : ShellRun ToolOutput :=
  { run with result := run.result.map fun (output, code) => tool.toOutput w output code }

/-- The non-streaming entry point. -/
def ShellTool.execute
    (params : JsonValue) (extraEnv : List (String × String)) : ShellRun ToolOutput :=
  match requireStr params "command" with
  | .error e => ⟨[], [], .error e⟩
  | .ok command =>
      let workdir := (params.get? "workdir").bind asStr?
      let timeout := (params.get? "timeout").bind asU64?
      tool.finish w (tool.executeCommand U w command workdir timeout extraEnv)

/-- The streaming entry point; `onChunk` says whether a callback was given. -/
def ShellTool.executeStreaming
    (params : JsonValue) (extraEnv : List (String × String)) (onChunk : Bool) :
    ShellRun ToolOutput :=
  match requireStr params "command" with
  | .error e => ⟨[], [], .error e⟩
  | .ok command =>
      let workdir := (params.get? "workdir").bind asStr?
      let timeout := (params.get? "timeout").bind asU64?
      -- only host execution is streamed
      if onChunk && tool.sandbox.isNone then
        tool.finish w (executeDirectWithStreaming w command
          (tool.resolveDir w workdir) (timeout.getD tool.timeout) extraEnv)
      else tool.finish w (tool.executeCommand U w command workdir timeout extraEnv)

variable (fromStr : String → Option JsonValue)

/-- Does this invocation override auto-approval? Parameters that are themselves
a string are tried as JSON text. -/
def ShellTool.requiresApprovalFor (params : JsonValue) : Bool :=
  let inner := fun (v : JsonValue) => (v.get? "command").bind asStr?
  match (inner params).or ((params.asStr?.bind fromStr).bind inner) with
  | some cmd => requiresExplicitApproval U cmd
  | none => false

def shellTool : Tool where
  name := "shell"
  description := "Execute shell commands. Use for running builds, tests, git operations, and "
    ++ "other CLI tasks. Commands run in a subprocess with captured output. Long-running "
    ++ "commands have a timeout. When Docker sandbox is enabled, commands run in isolated "
    ++ "containers for security."
  parametersSchema :=
    let prop (type description : String) : JsonValue :=
      .obj [("type", .str type), ("description", .str description)]
    .obj [("type", .str "object"),
      ("properties", .obj
        [("command", prop "string" "The shell command to execute"),
          ("workdir", prop "string" "Working directory for the command (optional)"),
          ("timeout", prop "integer" "Timeout in seconds (optional, default 120)")]),
      ("required", .arr [.str "command"])]
  requiresApproval := true
  requiresApprovalFor := ShellTool.requiresApprovalFor U fromStr
  domain := .container

/-! ## Refusals

A command is refused when the call ends in `NotAuthorized`. The runners never
give that error, so only the checks of `executeCommand` can. -/

def ShellRun.Refused {α : Type} (r : ShellRun α) : Prop :=
  ∃ reason, r.result = .error (.notAuthorized reason)

/-- The command passes both checks. -/
def ShellTool.Permits (cmd : String) : Prop :=
  tool.isBlocked U cmd = none ∧ detectCommandInjection U cmd = none

variable (cmd cwd : String) (timeout : Nat)

theorem executeSandboxed_not_refused : ¬ (tool.executeSandboxed w cmd cwd timeout).Refused := by
  rintro ⟨reason, h⟩
  simp only [ShellTool.executeSandboxed] at h
  split at h <;> cases h

variable (extraEnv : List (String × String))

theorem executeDirect_not_refused : ¬ (executeDirect w cmd cwd timeout extraEnv).Refused := by
  rintro ⟨reason, h⟩
  simp only [executeDirect] at h
  split at h <;> cases h

theorem executeDirectWithStreaming_not_refused :
    ¬ (executeDirectWithStreaming w cmd cwd timeout extraEnv).Refused := by
  rintro ⟨reason, h⟩
  simp only [executeDirectWithStreaming] at h
  split at h <;> cases h

@[simp] theorem finish_refused (run : ShellRun (String × Int)) :
    (tool.finish w run).Refused ↔ run.Refused := by
  obtain ⟨started, chunks, result⟩ := run
  cases result with
  | error | ok => simp [ShellRun.Refused, ShellTool.finish, Except.map]

variable {U tool w extraEnv}

/-- `executeCommand` refuses what the checks object to, in every sandbox
configuration, and nothing else. -/
theorem executeCommand_refused_iff {cmd : String} {workdir : Option String} {timeout : Option Nat} :
    (tool.executeCommand U w cmd workdir timeout extraEnv).Refused ↔ ¬ tool.Permits U cmd := by
  unfold ShellTool.executeCommand ShellTool.Permits
  cases hb : tool.isBlocked U cmd with
  | some => simp [ShellRun.Refused]
  | none =>
    cases hd : detectCommandInjection U cmd with
    | some => simp [ShellRun.Refused]
    | none =>
      simp only [and_self, not_true_eq_false, iff_false]
      split
      · split
        · exact executeSandboxed_not_refused tool w cmd _ _
        · exact executeDirect_not_refused w cmd _ _ extraEnv
      · exact executeDirect_not_refused w cmd _ _ extraEnv

theorem execute_refused_iff {params : JsonValue} :
    (tool.execute U w params extraEnv).Refused
      ↔ ∃ cmd, requireStr params "command" = .ok cmd ∧ ¬ tool.Permits U cmd := by
  unfold ShellTool.execute
  cases hc : requireStr params "command" with
  | error e =>
    have hne : ∀ reason, e ≠ .notAuthorized reason := by
      intro reason heq
      simp only [requireStr] at hc
      split at hc
      · cases hc
      cases hc
      cases heq
    simp [ShellRun.Refused, hne]
  | ok => simp [executeCommand_refused_iff]

theorem executeStreaming_refused_iff {params : JsonValue} :
    (tool.executeStreaming U w params extraEnv true).Refused
      ↔ tool.sandbox.isSome
        ∧ ∃ cmd, requireStr params "command" = .ok cmd ∧ ¬ tool.Permits U cmd := by
  cases hs : tool.sandbox with
  | some sandbox =>
    -- with a sandbox, streaming is the non-streaming route
    have hroute : tool.executeStreaming U w params extraEnv true
        = tool.execute U w params extraEnv := by
      simp [ShellTool.executeStreaming, ShellTool.execute, hs]
    rw [hroute, execute_refused_iff]
    simp
  | none =>
    simp only [Option.isSome_none, Bool.false_eq_true, false_and, iff_false]
    unfold ShellTool.executeStreaming
    cases hc : requireStr params "command" with
    | error =>
      rintro ⟨reason, h⟩
      simp only [requireStr] at hc
      split at hc
      · cases hc
      cases hc
      cases h
    | ok cmd =>
      simp only [hs, Option.isNone_none, Bool.and_self, if_true, finish_refused]
      exact executeDirectWithStreaming_not_refused w cmd _ _ extraEnv

/-- **The two entry points refuse the same commands exactly if** a sandbox is
configured or the command passes the checks anyway: without a sandbox, the
streaming route runs them unchecked. The two calls may run in different worlds. -/
theorem streaming_refuses_iff_execute_refuses (U : CaseMap) (tool : ShellTool)
    (w₁ w₂ : ShellWorld) (params : JsonValue) (env₁ env₂ : List (String × String)) :
    ((tool.executeStreaming U w₁ params env₁ true).Refused
        ↔ (tool.execute U w₂ params env₂).Refused)
      ↔ tool.sandbox.isSome
        ∨ ∀ cmd, requireStr params "command" = .ok cmd → tool.Permits U cmd := by
  rw [executeStreaming_refused_iff, execute_refused_iff]
  by_cases hs : tool.sandbox.isSome
  · simp [hs]
  · simp only [hs, Bool.false_eq_true, false_and, false_iff, not_exists, not_and, not_not, false_or]

def quietWorld : ShellWorld where
  envVar := fun _ => none
  currentDir := some "/"
  fromUtf8Lossy := fun bytes => String.ofList (bytes.map fun b => Char.ofNat b.toNat)
  spawn := fun _ _ _ _ => ⟨[], .exited (some 0)⟩
  executeWithPolicy := fun _ _ _ _ => .finished "" 0
  elapsed := 0

/-- Without a sandbox, `sudo reboot` is refused by `execute` and STARTED by
`executeStreaming`. -/
theorem streaming_starts_sudo :
    let params := obj [("command", .str "sudo reboot")]
    (({} : ShellTool).execute asciiCase quietWorld params []).Refused
      ∧ ¬ (({} : ShellTool).executeStreaming asciiCase quietWorld params [] true).Refused
      ∧ (({} : ShellTool).executeStreaming asciiCase quietWorld params [] true).started
        = ["sudo reboot"] := by
  refine ⟨⟨_, rfl⟩, ?_, rfl⟩
  rintro ⟨reason, h⟩
  cases h

end TitanClaw.Tools
