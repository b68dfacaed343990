import TitanChat.Internal.Transition
import TitanChat.AgentRouter
import TitanChat.AgentLoad
import TitanChat.AgentCapacity
import TitanChat.AgentRoutable
import TitanChat.RoutingChoice
import TitanChat.ReleaseAtomicity
import TitanChat.Internal.Json
import TitanChat.KafkaConsumer
import TitanChat.WorkerShutdown
import TitanChat.ConsumerProgress
import TitanChat.QueueRoom
import TitanChat.ConsumerDeadlock
import TitanChat.WorkerOrder
import TitanChat.MalformedRecords
import TitanChat.Internal.Effect
import TitanChat.Internal.WideColumn
import TitanChat.Schema
import TitanChat.ConsumerEffects
import TitanChat.Handlers
import TitanChat.HandlerReports
import TitanChat.RouterTracker
import TitanChat.PersistenceWorker
import TitanChat.RecordFit
import TitanChat.GatewayEndpoint
import TitanChat.AcceptedEvents
import TitanChat.Isolation
import TitanChat.ConnectionCleanup
import TitanChat.PersistenceRetry
import TitanChat.TrackerCalls
import TitanChat.TrackerIndex
import TitanChat.RegistryCluster
import TitanChat.Ownership
import TitanChat.LifecycleStatus
import TitanChat.HistoryOrder
import TitanChat.Redelivery
import TitanChat.UnreadCounters
import TitanChat.BotView
import TitanChat.FrameReplies
import TitanChat.PersistenceStop
import TitanChat.StopConsumer
import TitanChat.GracefulStop
import TitanChat.RateWindows
import TitanChat.Deactivation
import TitanChat.SkillEncoding
import TitanChat.TransferAtomicity
import TitanChat.ConcurrentConnects
import TitanChat.SweepFailures
import TitanChat.FailedConnect
import TitanChat.ConversationPages
import TitanChat.GatewayMaps
import TitanChat.OnlinePages
import TitanChat.ScopedDashboard
import TitanChat.WorkerRetirement
import TitanChat.TraceContext
import TitanChat.AssignmentHistory
import TitanChat.Internal.CivilDate
import TitanChat.Internal.Blocks
import TitanChat.DayBuckets
import TitanChat.WrittenMessages
import TitanChat.HistoryPages
import TitanChat.BucketAgreement
import TitanChat.PushDelivery
import TitanChat.RegistryLease
import TitanChat.ActiveChats
import TitanChat.Internal.Interleaving
import TitanChat.PersistenceGroup
import TitanChat.Internal.Redis
import TitanChat.SharedRedis
import TitanChat.Internal.Tables
import TitanChat.AccountEdits
import TitanChat.TenantIsolation
import TitanChat.AccountCredentials
import TitanChat.Internal.PubSub
import TitanChat.DashboardFeed
import TitanChat.Internal.Mutex
import TitanChat.PushLocks
import TitanChat.SerialHandlers
import TitanChat.FrameOrder
import TitanChat.Pipeline
import TitanChat.Attribution
import TitanChat.GatewayAuth
import TitanChat.Provenance
import TitanChat.AdminViews
