import TitanClaw.Tools.Registration

/-! # Extensions

MCP servers and WASM tools are activated by name, which registers their tools, and removed by
name. Which tools are a server's is told from their names, which begin with the name of the
server. What is configured and what lies in the directories is asked anew by each call. -/

namespace TitanClaw.Extensions

open Text Tools List RegistryState Run Table

inductive ExtensionError where
  | notInstalled (reason : String)
  | activationFailed (reason : String)
  | config (reason : String)
  | channelNeedsRestart
  | other (reason : String)

/-- What a call finds outside: the servers that are configured, and which names there is a
`.wasm` file for. -/
structure Outside where
  servers : Except String (List String)
  toolFile : String → Bool := fun _ => false
  channelFile : String → Bool := fun _ => false

variable (w : Outside) (name : String)

def getMcpServer : Except String String :=
  match w.servers with
  | .error e => .error e
  | .ok servers =>
      if servers.contains name then .ok name else .error ("Server not found: " ++ name)

def determineInstalledKind : Except ExtensionError ExtensionKind :=
  match getMcpServer w name with
  | .ok _ => .ok .mcpServer
  | .error _ =>
      if w.toolFile name then .ok .wasmTool
      else if w.channelFile name then .ok .wasmChannel
      else .error (.notInstalled
        ("'" ++ name ++ "' is not installed as an MCP server, WASM tool, or WASM channel"))

structure McpTool where
  name : String
  description : String := ""
  inputSchema : JsonValue := .null
  destructiveHint : Option Bool := none

/-- `McpToolWrapper`. -/
def McpTool.wrapper (server : String) (t : McpTool) : Tool where
  name := server ++ "_" ++ t.name
  description := t.description
  parametersSchema := t.inputSchema
  requiresApproval := t.destructiveHint.getD false

variable (r : RegistryState)

def registerTools (server : String) (tools : List McpTool) : RegistryState :=
  tools.foldl (fun r t => r.register (t.wrapper server) (some ⟨.mcpServer, server⟩)) r

/-- What the files of a WASM tool give: the overrides of its capabilities file and the compiled
module. -/
structure LoadedTool where
  description : Option String := none
  schema : Option JsonValue := none
  prepared : PreparedModule

def loadFromFiles (name : String) (files : Except String LoadedTool) :
    RegistryState × Except String Unit :=
  if name = "" ∨ '/' ∈ name.toList ∨ '\\' ∈ name.toList then
    (r, .error ("Invalid tool name: " ++ name))
  else
    match files with
    | .error e => (r, .error e)
    | .ok files =>
        let reg : WasmToolRegistration := ⟨name, files.description, files.schema⟩
        (r.register (reg.wrapper files.prepared) (some ⟨.wasmTool, name⟩), .ok ())

/-! ## The manager -/

structure Manager where
  registry : RegistryState := {}
  /-- The servers that a client is kept for. -/
  mcpClients : List String := []

structure ActivateResult where
  name : String
  kind : ExtensionKind
  toolsLoaded : List String
  message : String

structure ActivateInput where
  order : Iteration String Binding := .stored String Binding
  listTools : Except String (List McpTool) := .error ""
  hasRuntime : Bool := true
  /-- The path of the file, if it is no longer there. -/
  gone : Option String := none
  files : Except String LoadedTool := .error ""

variable (order : Iteration String Binding)

def toolNames (r : RegistryState) (name : String) : List String :=
  ((order.order r.tools.entries).map (·.1)).filter fun t => startsWith t (name ++ "_")

variable (s : Manager) (w : Outside) (name : String) (input : ActivateInput)

def activateMcp : Manager × Except ExtensionError ActivateResult :=
  if s.mcpClients.contains name then
    (s, .ok ⟨name, .mcpServer, toolNames input.order s.registry name,
      "MCP server '" ++ name ++ "' already active"⟩)
  else
    match getMcpServer w name, input.listTools with
    | .error e, _ => (s, .error (.notInstalled e))
    | .ok _, .error e => (s, .error (.activationFailed e))
    | .ok server, .ok tools =>
        ({ registry := registerTools s.registry server tools
           mcpClients := name :: s.mcpClients },
          .ok ⟨name, .mcpServer, tools.map fun t => name ++ "_" ++ t.name,
            "Connected to '" ++ name ++ "' and loaded tools"⟩)

def activateWasmTool : Manager × Except ExtensionError ActivateResult :=
  if s.registry.has name then
    (s, .ok ⟨name, .wasmTool, [name], "WASM tool '" ++ name ++ "' already active"⟩)
  else if !input.hasRuntime then (s, .error (.activationFailed "WASM runtime not available"))
  else
    match input.gone with
    | some path => (s, .error (.notInstalled ("WASM tool '" ++ name ++ "' not found at " ++ path)))
    | none =>
        let loaded := loadFromFiles s.registry name input.files
        ({ s with registry := loaded.1 },
          match loaded.2 with
          | .error e => .error (.activationFailed e)
          | .ok () => .ok ⟨name, .wasmTool, [name], "WASM tool '" ++ name ++ "' loaded and ready"⟩)

def activate : Manager × Except ExtensionError ActivateResult :=
  match determineInstalledKind w name with
  | .error e => (s, .error e)
  | .ok .mcpServer => activateMcp s w name input
  | .ok .wasmTool => activateWasmTool s name input
  | .ok .wasmChannel => (s, .error .channelNeedsRestart)

structure RemoveInput where
  order : Iteration String Binding := .stored String Binding
  removeServer : Except String Unit := .ok ()
  removeFile : Except String Unit := .ok ()

def remove (input : RemoveInput) : Manager × Except ExtensionError String :=
  match determineInstalledKind w name with
  | .error e => (s, .error e)
  | .ok .mcpServer =>
      -- every tool with the prefix, whoever has registered it
      let names := toolNames input.order s.registry name
      let s : Manager :=
        { registry := names.foldl unregister s.registry
          mcpClients := s.mcpClients.filter (· ≠ name) }
      match input.removeServer with
      | .error e => (s, .error (.config e))
      | .ok () =>
          (s, .ok ("Removed MCP server '" ++ name ++ "' and " ++ toString names.length
            ++ " tool(s)"))
  | .ok .wasmTool =>
      -- a built-in of this name is unregistered just as well
      let s := { s with registry := s.registry.unregister name }
      match input.removeFile with
      | .error e => (s, .error (.other e))
      | .ok () => (s, .ok ("Removed WASM tool '" ++ name ++ "'"))
  | .ok .wasmChannel =>
      (s, .error (.other ("Channel removal requires restart. Delete the .wasm file from "
        ++ "~/.ironclaw/channels/ and restart.")))

/-- What is done with extensions, and with other tools. At startup the tools of servers and
the WASM tools are loaded past the manager. -/
inductive ManagerCall where
  | registerSync (tool : Tool) (toolsFree builtinsFree : Bool)
  | register (tool : Tool)
  | loadServer (server : String) (tools : List McpTool)
  | loadTool (name : String) (files : Except String LoadedTool)
  | activate (w : Outside) (name : String) (input : ActivateInput)
  | remove (w : Outside) (name : String) (input : RemoveInput)

def step : ManagerCall → Manager
  | .registerSync tool toolsFree builtinsFree =>
      { s with registry := s.registry.registerSync tool toolsFree builtinsFree }
  | .register tool => { s with registry := s.registry.register tool none }
  | .loadServer server tools => { s with registry := registerTools s.registry server tools }
  | .loadTool name files => { s with registry := (loadFromFiles s.registry name files).1 }
  | .activate w name input => (activate s w name input).1
  | .remove w name input => (remove s w name input).1

/-! ## Whose a tool is -/

variable (e : Extension)

def Names (name : String) : Prop :=
  match e.kind with
  | .mcpServer => startsWith name (e.name ++ "_") = true
  | .wasmTool => name = e.name
  | .wasmChannel => False

/-- A tool that is from an extension has a name that says so. -/
def Owned : Prop := ∀ name b e, r.tools.lookup name = some b → b.owner = some e → Names e name

section

variable {r : RegistryState}

section

variable (h : Owned r)

include h

theorem Owned.bind {b : Binding}
    (hb : ∀ e, b.owner = some e → Names e b.tool.name) : Owned (r.bind b) := by
  intro name other e hother howner
  rw [lookup_bind] at hother
  split at hother
  · next hname =>
    cases hother
    rw [hname]
    exact hb e howner
  · exact h name other e hother howner

theorem Owned.register {tool : Tool} {owner : Option Extension}
    (howner : ∀ e, owner = some e → Names e tool.name) : Owned (r.register tool owner) := by
  unfold RegistryState.register
  split
  · exact h
  · exact h.bind howner

theorem Owned.registerSync (tool : Tool) (toolsFree builtinsFree : Bool) :
    Owned (r.registerSync tool toolsFree builtinsFree) := by
  cases toolsFree with
  | false => exact h
  | true =>
    have hbind : Owned (r.bind ⟨tool, false, none⟩) := h.bind fun e howner => nomatch howner
    exact hbind

theorem Owned.unregister (erased : String) : Owned (r.unregister erased) := by
  intro name b e hb howner
  rw [lookup_unregister] at hb
  split at hb
  · cases hb
  · exact h name b e hb howner

end

theorem names_wrapper (server : String) (t : McpTool) :
    Names ⟨.mcpServer, server⟩ (t.wrapper server).name := by
  show startsWith (server ++ "_" ++ t.name) (server ++ "_") = true
  have htext : (server ++ "_" ++ t.name).toList = (server ++ "_").toList ++ t.name.toList :=
    String.toList_append
  rw [startsWith, isPrefixOf_iff_prefix, htext]
  exact prefix_append _ _

theorem Owned.registerTools (h : Owned r) (server : String) (tools : List McpTool) :
    Owned (registerTools r server tools) := by
  unfold Extensions.registerTools
  induction tools generalizing r with
  | nil => exact h
  | cons t _ ih =>
    refine ih (h.register fun e howner => ?_)
    cases howner
    exact names_wrapper server t

theorem Owned.loadFromFiles (h : Owned r) (name : String) (files : Except String LoadedTool) :
    Owned (loadFromFiles r name files).1 := by
  unfold Extensions.loadFromFiles
  split
  · exact h
  split
  · exact h
  refine h.register fun e howner => ?_
  cases howner
  exact rfl

theorem Owned.foldl_unregister (h : Owned r) (names : List String) :
    Owned (names.foldl RegistryState.unregister r) := by
  induction names generalizing r with
  | nil => exact h
  | cons name _ ih => exact ih (h.unregister name)

end

theorem owned_activate {s : Manager} (h : Owned s.registry) (w : Outside) (name : String)
    (input : ActivateInput) : Owned (activate s w name input).1.registry := by
  unfold activate
  split
  · exact h
  · unfold activateMcp
    split
    · exact h
    split
    · exact h
    · exact h
    · exact h.registerTools _ _
  · unfold activateWasmTool
    split
    · exact h
    split
    · exact h
    split
    · exact h
    · exact h.loadFromFiles _ _
  · exact h

def removeTools (r : RegistryState) (e : Extension) : RegistryState :=
  match e.kind with
  | .mcpServer => (toolNames order r e.name).foldl unregister r
  | .wasmTool => r.unregister e.name
  | .wasmChannel => r

variable {w name}

theorem remove_registry {kind : ExtensionKind}
    (hkind : determineInstalledKind w name = .ok kind) (s : Manager) (input : RemoveInput) :
    (remove s w name input).1.registry = removeTools input.order s.registry ⟨kind, name⟩ := by
  unfold remove
  rw [hkind]
  cases kind with
  | mcpServer | wasmTool =>
    dsimp only
    split <;> rfl
  | wasmChannel => rfl

theorem remove_missing {e : ExtensionError}
    (he : determineInstalledKind w name = .error e) (s : Manager) (input : RemoveInput) :
    (remove s w name input).1 = s := by
  unfold remove
  rw [he]

theorem Owned.removeTools {r : RegistryState} (h : Owned r)
    (order : Iteration String Binding) (e : Extension) : Owned (removeTools order r e) := by
  unfold Extensions.removeTools
  split
  · exact h.foldl_unregister _
  · exact h.unregister _
  · exact h

theorem owned_step (call : ManagerCall) (h : Owned s.registry) : Owned (step s call).registry := by
  cases call with
  | registerSync tool toolsFree builtinsFree => exact h.registerSync tool toolsFree builtinsFree
  | register => exact h.register fun e howner => nomatch howner
  | loadServer server tools => exact h.registerTools server tools
  | loadTool name files => exact h.loadFromFiles name files
  | activate w name input => exact owned_activate h w name input
  | remove w name input =>
    show Owned (remove s w name input).1.registry
    cases hkind : determineInstalledKind w name with
    | error =>
      rw [remove_missing hkind]
      exact h
    | ok =>
      rw [remove_registry hkind]
      exact h.removeTools _ _

theorem owned_run (calls : List ManagerCall) : Owned (run step {} calls).registry := by
  have hempty : Owned ({} : Manager).registry := by
    intro name b e hb
    cases hb
  have hrun := invariant_always owned_step hempty calls
  exact hrun

/-! ## Removal -/

theorem lookup_foldl_unregister (names : List String) (r : RegistryState) (name : String) :
    (names.foldl unregister r).tools.lookup name
      = if name ∈ names then none else r.tools.lookup name := by
  induction names generalizing r with
  | nil => simp
  | cons erased _ ih =>
    rw [foldl_cons, ih, lookup_unregister]
    by_cases herased : name = erased
    · simp [herased]
    · simp [herased]

variable {order r}

theorem mem_toolNames {server name : String} :
    name ∈ toolNames order r server
      ↔ (∃ b, r.tools.lookup name = some b) ∧ startsWith name (server ++ "_") = true := by
  simp [toolNames, mem_filter, mem_map, (order.perm _).mem_iff, Sigma.exists, exists_and_right,
    exists_eq_right, ← Option.mem_def, AList.mem_lookup_iff]

variable (order)

/-- The tools that are gone are those whose names are the extension's. -/
theorem lookup_removeTools {b : Binding} (hb : r.tools.lookup name = some b) :
    ((removeTools order r e).tools.lookup name = none ∧ Names e name)
      ∨ ((removeTools order r e).tools.lookup name = some b ∧ ¬ Names e name) := by
  obtain ⟨kind, server⟩ := e
  cases kind with
  | mcpServer =>
    dsimp only [Names, removeTools]
    have hmem : name ∈ toolNames order r server ↔ startsWith name (server ++ "_") = true := by
      rw [mem_toolNames, hb]
      simp
    rw [lookup_foldl_unregister, hb]
    simp only [hmem]
    cases startsWith name (server ++ "_") <;> simp
  | wasmTool =>
    dsimp only [Names, removeTools]
    rw [lookup_unregister, hb]
    by_cases htool : name = server <;> simp [htool]
  | wasmChannel => exact .inr ⟨hb, id⟩

theorem lookup_removeTools_none (hnone : r.tools.lookup name = none) :
    (removeTools order r e).tools.lookup name = none := by
  unfold removeTools
  split
  · rw [lookup_foldl_unregister, hnone, ite_self]
  · rw [lookup_unregister, hnone, ite_self]
  · exact hnone

/-- The tools of the extension that is removed are unregistered, and every other name stays
bound as it was; if there is no such extension, nothing happens. -/
structure RemovesExactly (s : Manager) (w : Outside) (name : String) (input : RemoveInput) :
    Prop where
  installed : ∀ kind, determineInstalledKind w name = .ok kind → ∀ tool,
    (remove s w name input).1.registry.tools.lookup tool
      = (s.registry.tools.lookup tool).filter fun b => b.owner ≠ some ⟨kind, name⟩
  missing : ∀ e, determineInstalledKind w name = .error e →
    (remove s w name input).1.registry = s.registry

variable (r)

def NamesApart : Prop := ∀ name b, r.tools.lookup name = some b → Names e name → b.owner = some e

/-- **Removal is exact**, whatever was registered, activated and removed before, if and only if
every registered tool that has a name like those of the extension is from it. -/
theorem removesExactly_iff (calls : List ManagerCall) (w : Outside) (name : String)
    (input : RemoveInput) :
    RemovesExactly (run step {} calls) w name input
      ↔ ∀ kind, determineInstalledKind w name = .ok kind →
        NamesApart (run step {} calls).registry ⟨kind, name⟩ := by
  generalize hs : run step {} calls = s
  have howned : Owned s.registry := hs ▸ owned_run calls
  constructor
  · intro h kind hkind tool b hb hnames
    have hexact := h.installed kind hkind tool
    rw [remove_registry hkind, hb, Option.filter_some] at hexact
    obtain ⟨hgone, -⟩ | ⟨-, hother⟩ := lookup_removeTools input.order ⟨kind, name⟩ hb
    · rw [hgone] at hexact
      simpa using hexact
    -- the name is one of the extension, so the tool is gone
    · exact absurd hnames hother
  · intro h
    refine ⟨fun kind hkind tool => ?_, fun e he => by rw [remove_missing he]⟩
    rw [remove_registry hkind]
    cases hb : s.registry.tools.lookup tool with
    | none => exact lookup_removeTools_none _ _ hb
    | some b =>
      rw [Option.filter_some]
      obtain ⟨hgone, hnames⟩ | ⟨hkept, hother⟩ := lookup_removeTools input.order ⟨kind, name⟩ hb
      · rw [hgone]
        simp [h kind hkind tool b hb hnames]
      -- a tool of the extension would have one of its names
      · have hnot : b.owner ≠ some ⟨kind, name⟩ := fun hmine => hother (howned tool b _ hb hmine)
        rw [hkept]
        simp [hnot]

/-- A server that was never activated takes built-ins with it, one server takes the tools of
another, and a file that has the name of a built-in is enough to unregister it. -/
theorem remove_takes_others :
    let builtin (name : String) : ManagerCall := .registerSync (sampleTool name) true true
    let boundAfter (calls : List ManagerCall) (w : Outside) (removed name : String) : Bool × Bool :=
      let s := run step {} calls
      (s.registry.has name, (remove s w removed {}).1.registry.has name)
    let servers : Outside := { servers := .ok ["memory", "a", "a_b"] }
    boundAfter [builtin "memory_search"] servers "memory" "memory_search" = (true, false)
      ∧ boundAfter [.activate servers "a_b" { listTools := .ok [{ name := "x" }] }] servers "a"
          "a_b_x" = (true, false)
      ∧ boundAfter [builtin "echo"] { servers := .ok [], toolFile := fun name => name == "echo" }
          "echo" "echo" = (true, false) := by
  decide

end TitanClaw.Extensions
