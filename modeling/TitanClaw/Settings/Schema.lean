import Mathlib.Data.List.FinRange
import Mathlib.Data.List.Nodup
import TitanClaw.Lib.Json
import TitanClaw.Lib.Text

/-! # The settings of a user

The fields of the settings in one table, each with its type and its default. A field is at the
top or in one of ten sections. An optional field has nothing for its default, a list is empty,
and the key source is `none`. -/

namespace TitanClaw

open List

inductive SettingsSection where
  | embeddings
  | tunnel
  | channels
  | heartbeat
  | agent
  | wasm
  | sandbox
  | safety
  | builder
  | swarm
  deriving DecidableEq

namespace SettingsSection

def name : SettingsSection → String
  | embeddings => "embeddings"
  | tunnel => "tunnel"
  | channels => "channels"
  | heartbeat => "heartbeat"
  | agent => "agent"
  | wasm => "wasm"
  | sandbox => "sandbox"
  | safety => "safety"
  | builder => "builder"
  | swarm => "swarm"

def all : List SettingsSection :=
  [embeddings, tunnel, channels, heartbeat, agent, wasm, sandbox, safety, builder, swarm]

end SettingsSection

inductive FloatWidth where
  | f32
  | f64

inductive UintWidth where
  | u16
  | u32
  /-- And `usize`. -/
  | u64

def UintWidth.bits : UintWidth → Nat
  | u16 => 16
  | u32 => 32
  | u64 => 64

inductive FieldType where
  /-- `missing` is the value when the section is there and the field is not. -/
  | bool (default : Bool) (missing : Bool)
  | uint (width : UintWidth) (default : Nat) (h : default < 2 ^ width.bits)
  | text (default : String)
  | optText
  | optUint (width : UintWidth)
  /-- An `i64`. -/
  | optInt
  | optPath
  | texts
  | keySource
  /-- The default is a short decimal literal. -/
  | float (width : FloatWidth) (mantissa exponent : Int)
      (h : mantissa.natAbs < 10 ^ 6 ∧ exponent.natAbs ≤ 6)

namespace FieldType

def flag (default : Bool) : FieldType := .bool default default

variable (default : Nat)

def u16 (h : default < 2 ^ 16 := by decide) : FieldType := .uint .u16 default h

def u32 (h : default < 2 ^ 32 := by decide) : FieldType := .uint .u32 default h

def u64 (h : default < 2 ^ 64 := by decide) : FieldType := .uint .u64 default h

def isFloat : FieldType → Bool
  | .float .. => true
  | _ => false

end FieldType

namespace Settings

def fieldsOf : Option SettingsSection → List (String × FieldType)
  | none =>
      [ ("onboard_completed", .flag false),
        ("database_backend", .optText),
        ("database_url", .optText),
        ("database_pool_size", .optUint .u64),
        ("libsql_path", .optText),
        ("libsql_url", .optText),
        ("secrets_master_key_source", .keySource),
        ("llm_backend", .optText),
        ("ollama_base_url", .optText),
        ("openai_compatible_base_url", .optText),
        ("selected_model", .optText),
        ("coding_runtime_default", .optText),
        ("opencode_model_default", .optText) ]
  | some .embeddings =>
      [ ("enabled", .flag false),
        ("provider", .text "nearai"),
        ("model", .text "text-embedding-3-small") ]
  | some .tunnel =>
      [ ("public_url", .optText),
        ("provider", .optText),
        ("cf_token", .optText),
        ("ngrok_token", .optText),
        ("ngrok_domain", .optText),
        ("ts_funnel", .flag false),
        ("ts_hostname", .optText),
        ("custom_command", .optText),
        ("custom_health_url", .optText),
        ("custom_url_pattern", .optText) ]
  | some .channels =>
      [ ("http_enabled", .flag false),
        ("http_port", .optUint .u16),
        ("http_host", .optText),
        ("telegram_owner_id", .optInt),
        ("wasm_channels", .texts),
        -- the derived default is not the one for a field that is missing
        ("wasm_channels_enabled", .bool false true),
        ("wasm_channels_dir", .optPath) ]
  | some .heartbeat =>
      [ ("enabled", .flag false),
        ("interval_secs", .u64 1800),
        ("notify_channel", .optText),
        ("notify_user", .optText) ]
  | some .agent =>
      [ ("name", .text "ironclaw"),
        ("max_parallel_jobs", .u32 5),
        ("job_timeout_secs", .u64 3600),
        ("stuck_threshold_secs", .u64 300),
        ("use_planning", .flag true),
        ("autonomy_policy_engine_v1", .flag true),
        ("autonomy_verifier_v1", .flag true),
        ("autonomy_replanner_v1", .flag true),
        ("autonomy_tool_routing_v2", .flag false),
        ("autonomy_smart_rules_enabled", .flag true),
        ("autonomy_smart_rules_proactive_min_samples", .u32 5),
        ("autonomy_smart_rules_primary_max_score", .float .f32 35 (-2) (by decide)),
        ("autonomy_smart_rules_proactive_margin", .float .f32 15 (-2) (by decide)),
        ("autonomy_smart_rules_max_fallback_attempts", .u32 2),
        ("autonomy_smart_rules_empty_plan_recovery", .flag true),
        ("autonomy_memory_plane_v2", .flag false),
        ("autonomy_memory_retrieval_v2", .flag false),
        ("autonomy_memory_consolidation_v2", .flag false),
        ("autonomy_memory_consolidation_interval_secs", .u64 60),
        ("autonomy_memory_consolidation_batch_size", .u32 50),
        ("autonomy_memory_working_ttl_secs", .u64 86400),
        ("autonomy_memory_episodic_ttl_days", .u32 30),
        ("autonomy_memory_playbook_min_repetitions", .u32 3),
        ("repair_check_interval_secs", .u64 60),
        ("max_repair_attempts", .u32 3),
        ("session_idle_timeout_secs", .u64 604800),
        ("swarm_remote_wait_timeout_ms", .u64 2500),
        ("enable_piped_tool_execution", .flag true),
        ("shadow_workers_enabled", .flag true),
        ("shadow_max_predictions", .u32 3),
        ("shadow_cache_ttl_secs", .u64 900),
        ("shadow_max_parallel", .u32 2),
        ("shadow_min_input_chars", .u32 20),
        ("kernel_monitor_enabled", .flag true),
        ("kernel_monitor_interval_secs", .u64 180),
        ("kernel_slow_threshold_ms", .float .f64 5000 0 (by decide)),
        ("kernel_auto_approve_patches", .flag false),
        ("kernel_auto_deploy_patches", .flag false),
        ("profile_synthesis_enabled", .flag true),
        ("profile_synthesis_debounce_secs", .u64 45),
        ("profile_synthesis_max_batch_turns", .u32 6),
        ("profile_synthesis_min_chars", .u32 20),
        ("profile_synthesis_llm_enabled", .flag true) ]
  | some .wasm =>
      [ ("enabled", .flag true),
        ("tools_dir", .optPath),
        ("default_memory_limit", .u64 10485760),
        ("default_timeout_secs", .u64 60),
        ("default_fuel_limit", .u64 10000000),
        ("cache_compiled", .flag true),
        ("cache_dir", .optPath) ]
  | some .sandbox =>
      [ ("enabled", .flag true),
        ("policy", .text "readonly"),
        ("timeout_secs", .u64 120),
        ("memory_limit_mb", .u64 2048),
        ("cpu_shares", .u32 1024),
        ("image", .text "ghcr.io/nearai/sandbox:latest"),
        ("auto_pull_image", .flag true),
        ("extra_allowed_domains", .texts) ]
  | some .safety => [ ("max_output_length", .u64 100000), ("injection_check_enabled", .flag true) ]
  | some .builder =>
      [ ("enabled", .flag true),
        ("build_dir", .optPath),
        ("max_iterations", .u32 20),
        ("timeout_secs", .u64 600),
        ("auto_register", .flag true) ]
  | some .swarm =>
      [ ("enabled", .flag false),
        ("listen_port", .u16 0),
        ("heartbeat_interval_secs", .u64 15),
        ("max_slots", .u32 4) ]

end Settings

structure SettingsField where
  sect : Option SettingsSection
  pos : Fin (Settings.fieldsOf sect).length
  deriving DecidableEq

namespace SettingsField

variable (f : SettingsField)

def name : String := ((Settings.fieldsOf f.sect).get f.pos).1

def type : FieldType := ((Settings.fieldsOf f.sect).get f.pos).2

/-- Another name that is read. -/
def alias? : Option String :=
  if f.sect = none ∧ f.name = "onboard_completed" then some "setup_completed" else none

def parts : List String :=
  match f.sect with
  | none => [f.name]
  | some sect => [sect.name, f.name]

def path : String := ".".intercalate f.parts

variable (sect : Option SettingsSection)

def inSection : List SettingsField :=
  (List.finRange (Settings.fieldsOf sect).length).map (⟨sect, ·⟩)

/-- All fields. -/
def all : List SettingsField :=
  inSection none ++ SettingsSection.all.flatMap fun sect => inSection (some sect)

/-! ## The names -/

theorem names_nodup : ((Settings.fieldsOf sect).map (·.1)).Nodup := by
  cases sect with
  | none => decide
  | some sect => cases sect <;> decide

theorem mem_inSection {sect : Option SettingsSection} {f : SettingsField} :
    f ∈ inSection sect ↔ f.sect = sect := by
  constructor
  · intro h
    obtain ⟨pos, -, rfl⟩ := mem_map.mp h
    rfl
  · rintro rfl
    exact mem_map.mpr ⟨f.pos, mem_finRange _, rfl⟩

theorem eq_of_name {f g : SettingsField} (hsect : f.sect = g.sect) (hname : f.name = g.name) :
    f = g := by
  obtain ⟨sect, pos⟩ := f
  obtain ⟨sect', pos'⟩ := g
  obtain rfl : sect = sect' := hsect
  have hlength : ((Settings.fieldsOf sect).map Prod.fst).length
    = (Settings.fieldsOf sect).length := length_map _
  have hpos : pos.cast hlength.symm = pos'.cast hlength.symm :=
    nodup_iff_injective_get.mp (names_nodup sect) (by simpa [name] using hname)
  rw [Fin.cast_injective hlength.symm hpos]

theorem sectionName_inj : Function.Injective SettingsSection.name := by
  intro sect sect' h
  cases sect <;> cases sect' <;> first | rfl | (revert h; decide)

theorem mem_all : f ∈ all := by
  rw [all, mem_append, mem_flatMap]
  cases hsect : f.sect with
  | none => exact .inl (mem_inSection.mpr hsect)
  | some sect => exact .inr ⟨sect, by cases sect <;> decide, mem_inSection.mpr hsect⟩

theorem nodup_inSection : (inSection sect).Nodup :=
  Nodup.map (fun _ _ h => eq_of_heq (SettingsField.mk.inj h).2) (nodup_finRange _)

theorem nodup_all : all.Nodup := by
  refine nodup_append.mpr ⟨nodup_inSection none, nodup_flatMap.mpr ⟨?_, ?_⟩, ?_⟩
  · exact fun sect _ => nodup_inSection (some sect)
  · refine Nodup.pairwise_of_forall_ne (by decide) fun sect _ sect' _ hne f hf hf' => hne ?_
    rw [mem_inSection] at hf hf'
    exact Option.some.inj (hf.symm.trans hf')
  · intro f hf g hg hfg
    obtain ⟨sect, -, hmem⟩ := mem_flatMap.mp hg
    rw [mem_inSection] at hf hmem
    rw [hfg, hmem] at hf
    cases hf

end SettingsField

end TitanClaw
