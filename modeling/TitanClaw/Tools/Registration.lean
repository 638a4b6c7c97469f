import TitanClaw.Lib.Interleave
import TitanClaw.Lib.Table
import TitanClaw.Skills.Attenuation
import TitanClaw.Tools.Registry

/-! # Registrations

Built-in tools are registered at startup, the others later, by extensions and by the agent
itself. A registration that comes later looks first whether its name is one of a built-in, in
a set of its own under a lock of its own, and then binds the tool; in between other
registrations go on. -/

namespace TitanClaw.Tools

open AList

def protectedToolNames : List String :=
  ["echo", "time", "json", "http", "shell", "read_file", "write_file", "list_dir", "apply_patch",
    "memory_search", "memory_write", "memory_read", "memory_graph", "memory_tree", "create_job",
    "list_jobs", "job_status", "cancel_job", "build_software", "tool_search", "tool_install",
    "tool_auth", "tool_activate", "tool_list", "tool_remove", "routine_create", "routine_list",
    "routine_update", "routine_delete", "routine_history", "skill_list", "skill_search",
    "skill_install", "skill_remove", "kernel_patch"]

inductive ExtensionKind where
  | mcpServer
  | wasmTool
  | wasmChannel
  deriving DecidableEq

structure Extension where
  kind : ExtensionKind
  name : String
  deriving DecidableEq

/-- A registered tool. Whether it was registered later than at startup, and which extension it
is from, is a record that nothing reads. -/
structure Binding where
  tool : Tool
  dynamic : Bool
  owner : Option Extension := none

/-- The tools by name, and the names of built-ins. Which names have been bound at startup is a
record that nothing reads. -/
structure RegistryState where
  tools : Table String Binding := ∅
  builtinNames : List String := []
  syncBound : List String := []

namespace RegistryState

variable (r : RegistryState)

def bind (b : Binding) : RegistryState :=
  { r with tools := r.tools.insert b.tool.name b }

variable (tool : Tool)

def shadows : Bool := r.builtinNames.contains tool.name

def register (owner : Option Extension) : RegistryState :=
  if r.shadows tool then r else r.bind ⟨tool, true, owner⟩

/-- Neither lock is waited for: without the first one nothing is registered, and without the
second one the name is not marked. -/
def registerSync (toolsFree builtinsFree : Bool) : RegistryState :=
  if toolsFree then
    { tools := r.tools.insert tool.name ⟨tool, false, none⟩
      builtinNames :=
        -- a built-in that is not on the list is never marked, and any tool may take its name
        if protectedToolNames.contains tool.name && builtinsFree then tool.name :: r.builtinNames
        else r.builtinNames
      syncBound := tool.name :: r.syncBound }
  else r

def unregister (name : String) : RegistryState :=
  { r with tools := r.tools.erase name }

def has (name : String) : Bool := (r.tools.lookup name).isSome

end RegistryState

structure PreparedModule where
  description : String
  schema : JsonValue

structure WasmToolRegistration where
  name : String
  description : Option String := none
  schema : Option JsonValue := none

/-- `WasmToolWrapper`; the name is the one it is registered under. -/
def WasmToolRegistration.wrapper (reg : WasmToolRegistration) (prepared : PreparedModule) :
    Tool where
  name := reg.name
  description := reg.description.getD prepared.description
  parametersSchema := reg.schema.getD prepared.schema

/-! ## The calls -/

inductive RegistryCall where
  | registerSync (tool : Tool)
  | register (tool : Tool) (owner : Option Extension)
  | registerWasm (reg : WasmToolRegistration) (owner : Option Extension)
  | unregister (name : String)

/-- What is left of a call. -/
inductive RegistryTask where
  | bindSync (tool : Tool)
  | prepare (reg : WasmToolRegistration) (owner : Option Extension)
  | look (tool : Tool) (owner : Option Extension)
  | bind (tool : Tool) (owner : Option Extension)
  | unbind (name : String)

/-- Which locks are free, and what comes of compiling a module. -/
structure RegistryInput where
  toolsFree : Bool := true
  builtinsFree : Bool := true
  prepared : Except String PreparedModule := .error ""

namespace RegistryState

def whole : RegistryCall → RegistryTask
  | .registerSync tool => .bindSync tool
  | .register tool owner => .look tool owner
  | .registerWasm reg owner => .prepare reg owner
  | .unregister name => .unbind name

variable (r : RegistryState)

def sect (task : RegistryTask) (input : RegistryInput) : RegistryState × Option RegistryTask :=
  match task with
  | .bindSync tool => (r.registerSync tool input.toolsFree input.builtinsFree, none)
  | .prepare reg owner =>
      match input.prepared with
      | .error _ => (r, none)
      | .ok prepared => (r, some (.look (reg.wrapper prepared) owner))
  -- the set of names is unlocked before the tools are locked, and a built-in may be bound between
  | .look tool owner => if r.shadows tool then (r, none) else (r, some (.bind tool owner))
  | .bind tool owner => (r.bind ⟨tool, true, owner⟩, none)
  | .unbind name => (r.unregister name, none)

abbrev Config := Interleave.Config RegistryState RegistryTask

abbrev Label := Interleave.Label RegistryCall RegistryInput

def step : Config → Label → Config := Interleave.step whole sect

section

variable (r : RegistryState) {name : String} {b : Binding}

theorem lookup_bind (b : Binding) (name : String) :
    (r.bind b).tools.lookup name = if name = b.tool.name then some b else r.tools.lookup name := by
  by_cases hname : name = b.tool.name
  · rw [if_pos hname, hname]
    exact lookup_insert _
  · rw [if_neg hname]
    exact lookup_insert_ne hname

theorem lookup_unregister (erased name : String) : (r.unregister erased).tools.lookup name
      = if name = erased then none else r.tools.lookup name := by
  by_cases hname : name = erased
  · rw [if_pos hname, hname]
    exact lookup_erase _ _
  · rw [if_neg hname]
    exact lookup_erase_ne hname

end

/-! ## Built-in names -/

/-- No tool that was registered later has the name of a built-in, one that is on the list or
one that has been bound at startup. -/
def BuiltinsKept : Prop :=
  ∀ name b, r.tools.lookup name = some b → b.dynamic = true →
    name ∉ protectedToolNames ∧ name ∉ r.syncBound

theorem builtinsKept_empty : BuiltinsKept {} := by
  intro name b hb
  cases hb

/-- Binding a tool needs no more of its name, and no less. -/
theorem builtinsKept_bind_iff {r : RegistryState} (h : r.BuiltinsKept) (tool : Tool)
    (owner : Option Extension) :
    (r.bind ⟨tool, true, owner⟩).BuiltinsKept
      ↔ tool.name ∉ protectedToolNames ∧ tool.name ∉ r.syncBound := by
  constructor
  · intro hafter
    refine hafter tool.name ⟨tool, true, owner⟩ ?_ rfl
    rw [lookup_bind, if_pos rfl]
  · intro hfree name b hb hdynamic
    rw [lookup_bind] at hb
    split at hb
    · next hname =>
      subst hname
      exact hfree
    · exact h name b hb hdynamic

theorem BuiltinsKept.unregister {r : RegistryState} (h : r.BuiltinsKept) (erased : String) :
    (r.unregister erased).BuiltinsKept := by
  intro name b hb
  rw [lookup_unregister] at hb
  split at hb
  · cases hb
  · exact h name b hb

/-- A built-in takes the place of whatever had its name. -/
theorem BuiltinsKept.registerSync {r : RegistryState} (h : r.BuiltinsKept) (tool : Tool)
    (toolsFree builtinsFree : Bool) :
    (r.registerSync tool toolsFree builtinsFree).BuiltinsKept := by
  cases toolsFree with
  | false => exact h
  | true =>
    intro name b hb hdynamic
    change (r.bind ⟨tool, false, none⟩).tools.lookup name = some b at hb
    rw [lookup_bind] at hb
    split at hb
    · cases hb
      cases hdynamic
    · next hname =>
      obtain ⟨hlist, hbound⟩ := h name b hb hdynamic
      exact ⟨hlist, fun hmem => (List.mem_cons.mp hmem).elim hname hbound⟩

def BindsFreeName : RegistryTask → RegistryInput → Prop
  | .bind tool _, _ => tool.name ∉ protectedToolNames ∧ tool.name ∉ r.syncBound
  | _, _ => True

theorem builtinsKept_sect_iff (task : RegistryTask) (input : RegistryInput)
    (h : r.BuiltinsKept) : (sect r task input).1.BuiltinsKept ↔ BindsFreeName r task input := by
  cases task with
  | bindSync tool => exact iff_of_true (h.registerSync tool _ _) trivial
  | prepare | look =>
    refine iff_of_true ?_ trivial
    simp only [sect]
    split <;> exact h
  -- the only section that binds a tool of another kind than a built-in
  | bind tool owner => exact builtinsKept_bind_iff h tool owner
  | unbind name => exact iff_of_true (h.unregister name) trivial

def sampleTool (name : String) : Tool := ⟨name, "", .null, false, fun _ => false, 60, .orchestrator⟩

def registers (name : String) : List Label :=
  [.start 0 (.register (sampleTool name) none), .advance 0 {}, .advance 0 {}]

end RegistryState

end TitanClaw.Tools
