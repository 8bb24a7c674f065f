import CodexHost.Guarantees.ApprovalAnswers
import CodexHost.Guarantees.BackgroundTasks
import CodexHost.Guarantees.BrokerFrames
import CodexHost.Guarantees.BrokerNumbering
import CodexHost.Guarantees.ClientHelloCuts
import CodexHost.Guarantees.CommandLineQuoting
import CodexHost.Guarantees.CommandReceipts
import CodexHost.Guarantees.ControlJsonSize
import CodexHost.Guarantees.CorruptionIsolation
import CodexHost.Guarantees.DelegationStatus
import CodexHost.Guarantees.DelegationThreadList
import CodexHost.Guarantees.DelegationWatches
import CodexHost.Guarantees.DesktopRequests
import CodexHost.Guarantees.FileSummaries
import CodexHost.Guarantees.FollowedSessions
import CodexHost.Guarantees.ForwardingTrust
import CodexHost.Guarantees.HistoryPages
import CodexHost.Guarantees.IdleReleaseRuns
import CodexHost.Guarantees.InternalRequests
import CodexHost.Guarantees.Invalidations
import CodexHost.Guarantees.JournalOpening
import CodexHost.Guarantees.JsonlFrames
import CodexHost.Guarantees.MessagePages
import CodexHost.Guarantees.ModelPriceSearches
import CodexHost.Guarantees.Narration
import CodexHost.Guarantees.OfficialWorkRuns
import CodexHost.Guarantees.OriginCredentials
import CodexHost.Guarantees.ProjectionRuns
import CodexHost.Guarantees.QueueReservationRuns
import CodexHost.Guarantees.RelayIdentity
import CodexHost.Guarantees.RelayQuota
import CodexHost.Guarantees.RelayRegistry
import CodexHost.Guarantees.RemoteDelivery
import CodexHost.Guarantees.RollbackOutcome
import CodexHost.Guarantees.SectionRuns
import CodexHost.Guarantees.SharedSubmissions
import CodexHost.Guarantees.SnapshotCompaction
import CodexHost.Guarantees.SocketLock
import CodexHost.Guarantees.StandardErrorTail
import CodexHost.Guarantees.StoreLock
import CodexHost.Guarantees.StoredMeasurements
import CodexHost.Guarantees.TextStreams
import CodexHost.Guarantees.ThreadListBackward
import CodexHost.Guarantees.ToolIdentity
import CodexHost.Guarantees.TurnSettlement
import CodexHost.Guarantees.UpdateLock
import CodexHost.Guarantees.UsageCacheEntries
import CodexHost.Guarantees.UsageConservation
import CodexHost.Guarantees.UsageMeasurementsSaved
import CodexHost.Guarantees.WorkspaceFollow
