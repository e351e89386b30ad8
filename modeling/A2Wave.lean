import A2Wave.Run.StaleExecutor
import A2Wave.Queue.Recovery
import A2Wave.Db.Transaction
import A2Wave.Instance.Reaper
import A2Wave.Scm.SharedCheckout
import A2Wave.Queue.Dispatch
import A2Wave.Queue.Ownership
import A2Wave.Scm.Fencing
import A2Wave.Scm.AgentWorktree
import A2Wave.Scm.Branches
import A2Wave.Auth.AgentAccess
import A2Wave.Run.LogFile
import A2Wave.Scm.LeaseMachine
import A2Wave.Kb.Sync
import A2Wave.Engine.CliProcess
import A2Wave.Run.JobRetry
import A2Wave.Chat.QQConnections
import A2Wave.Run.Retention
import A2Wave.Chat.QQShard
import A2Wave.Chat.SlackEnvelopes
import A2Wave.Auth.SamlRequests
import A2Wave.Scm.SourceEdits
import A2Wave.Run.LogCollector
import A2Wave.Run.Usage
import A2Wave.Run.ExecuteWithRetry
import A2Wave.Scm.SyncSettles
import A2Wave.Skill.Serial
import A2Wave.Engine.McpLifetime
import A2Wave.Engine.LeaseRegistry
import A2Wave.Run.MetadataText
import A2Wave.Scm.SecretEndpoints
import A2Wave.Scm.StaleWorkspaces
import A2Wave.Scm.WorkspaceCreation
import A2Wave.Scm.StorageReclaim
import A2Wave.Agent.WorkDir
import A2Wave.Git.StateKey
import A2Wave.Git.RetentionCeiling
import A2Wave.A2a.TaskPaging
import A2Wave.A2a.Envelope
import A2Wave.Memory.SplitCoverage
import A2Wave.Memory.TopicBodyInsert
import A2Wave.Memory.CatalogFit
import A2Wave.Memory.VectorIndex
import A2Wave.Net.SafeFetch
import A2Wave.Engine.LineDecoder
import A2Wave.Engine.StreamParsers
import A2Wave.Engine.PiRun
import A2Wave.Chat.StreamingCardDelivery
import A2Wave.Db.JsonPath
import A2Wave.Run.BucketSql
import A2Wave.Run.RetryInPlace
import A2Wave.Scm.CleanupHandOff
import A2Wave.Agent.BackendNames
import A2Wave.Agent.ExportSecrets
import A2Wave.Engine.McpRoundTrip
import A2Wave.Run.LogWriter
import A2Wave.Agent.ImportRollback
import A2Wave.Lock.KeyedMutex
import A2Wave.Skill.RemoteDigest
import A2Wave.Chat.Generations
import A2Wave.Skill.Swap
import A2Wave.Chat.Chunks
import A2Wave.Engine.GroupProxy
import A2Wave.Auth.UserLookup
