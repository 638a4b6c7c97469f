import TitanClaw.Skills.Trust
import TitanClaw.Tools.File
import TitanClaw.Tools.Wasm.ErrorText
import TitanClaw.Agent.ApprovalResume
import TitanClaw.Agent.Ceiling
import TitanClaw.Agent.HookOrder
import TitanClaw.Agent.ToolPairing
import TitanClaw.Agent.Outcomes
import TitanClaw.Agent.EarlyShell
import TitanClaw.Agent.CheckpointOwner
import TitanClaw.Agent.UndoWalk
import TitanClaw.Llm.Failover
import TitanClaw.Agent.SessionPruning
import TitanClaw.Agent.ThreadResolution
import TitanClaw.Agent.PersistTurn
import TitanClaw.Context.ActiveJobs
import TitanClaw.Context.JobMemories
import TitanClaw.Agent.BreakerMoves
import TitanClaw.Agent.ConsolidateOnce
import TitanClaw.Agent.IncidentDetector
import TitanClaw.Agent.RoutineLimits
import TitanClaw.Agent.RoutineDue
import TitanClaw.Workspace.OneDocument
import TitanClaw.Agent.ShadowIsolation
import TitanClaw.Extensions.Manager
import TitanClaw.Agent.WorkerCompletion
import TitanClaw.Agent.WorkerMessages
import TitanClaw.Channels.Wasm.EmitRateLimiter
import TitanClaw.Channels.Wasm.Router
import TitanClaw.Channels.Web.OpenAiCompat
import TitanClaw.Orchestrator.JobManager
import TitanClaw.Workspace.Chunks
import TitanClaw.Workspace.GraphIndexer
import TitanClaw.Settings.Lens
import TitanClaw.Swarm.SeenTasks
import TitanClaw.Llm.InternalTags
import TitanClaw.Safety.Redactions
import TitanClaw.Safety.Escaping
import TitanClaw.Agent.RoutineCounts
import TitanClaw.Agent.Subtasks
import TitanClaw.Agent.Scheduler
import TitanClaw.Tools.Wasm.Base64
import TitanClaw.Pairing.AllowedSenders
import TitanClaw.Safety.WrapForLlm
import TitanClaw.Sandbox.HostPatterns
import TitanClaw.Tools.Wasm.NormalizedPaths
import TitanClaw.Tools.Wasm.RateLimiter
import TitanClaw.Agent.HourlyLimit
import TitanClaw.Llm.CacheBounds
import TitanClaw.Tools.ReadFile
import TitanClaw.Tools.ShellChecks
import TitanClaw.Agent.StreamedText
import TitanClaw.Skills.Selector
