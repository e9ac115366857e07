import FusionMultiNodes.Agent.RateLimiterRuns
import FusionMultiNodes.Agent.RatePacer
import FusionMultiNodes.Agent.ScheduleRuns
import FusionMultiNodes.Agent.ScheduleTimes
import FusionMultiNodes.Agent.ScratchDir
import FusionMultiNodes.Cli.Backup
import FusionMultiNodes.Config.Atomicity
import FusionMultiNodes.Config.LoadForm
import FusionMultiNodes.Election.Standstill
import FusionMultiNodes.Fmp.CircuitBreaker
import FusionMultiNodes.Fmp.Crypto
import FusionMultiNodes.Fmp.Delivery
import FusionMultiNodes.Fmp.FrameLimits
import FusionMultiNodes.Fmp.Router
import FusionMultiNodes.Kv.Lookup
import FusionMultiNodes.Kv.Snapshot
import FusionMultiNodes.Kv.Stream
import FusionMultiNodes.Master.BatchReport
import FusionMultiNodes.Master.BatchSubmit
import FusionMultiNodes.Master.ChatSlots
import FusionMultiNodes.Master.Cleanup
import FusionMultiNodes.Master.Completeness
import FusionMultiNodes.Master.ConfirmCodec
import FusionMultiNodes.Master.ConfirmRelay
import FusionMultiNodes.Master.Degradation
import FusionMultiNodes.Master.FaultAttribution
import FusionMultiNodes.Master.Fencing
import FusionMultiNodes.Master.IdempotencyRuns
import FusionMultiNodes.Master.LeaderToken
import FusionMultiNodes.Master.ParameterRoutes
import FusionMultiNodes.Master.PeerSync
import FusionMultiNodes.Master.PendingOrder
import FusionMultiNodes.Master.PipelineResume
import FusionMultiNodes.Master.RejoinRuns
import FusionMultiNodes.Master.Scrapes
import FusionMultiNodes.Master.ShardMerge
import FusionMultiNodes.Master.SlotBounds
import FusionMultiNodes.Master.StatePush
import FusionMultiNodes.Master.StrategyOverride
import FusionMultiNodes.Master.TaskCodec
import FusionMultiNodes.Master.TaskEvents
import FusionMultiNodes.Master.TaskHistory
import FusionMultiNodes.Master.UserRoutes
import FusionMultiNodes.Observability.LogStore
import FusionMultiNodes.Observability.MetricIndex
import FusionMultiNodes.Security.ApprovalRuns
import FusionMultiNodes.Security.AuditChain
import FusionMultiNodes.Security.AutoApprove
import FusionMultiNodes.Security.PathDecision
import FusionMultiNodes.Security.Sandbox
import FusionMultiNodes.Security.TokenRotation
import FusionMultiNodes.Security.UserStoreWrites
import FusionMultiNodes.Storage.KvHistory
import FusionMultiNodes.Storage.QuorumRuns
import FusionMultiNodes.Storage.SessionRuns
import FusionMultiNodes.Storage.VolumeRuns
import FusionMultiNodes.Sync.Containment
import FusionMultiNodes.Sync.PartitionDetector
import FusionMultiNodes.Tensor.Caveman
import FusionMultiNodes.Tensor.DataParallel
import FusionMultiNodes.Tensor.PipelineRuns
import FusionMultiNodes.Tensor.Sharding
