import ArionGateway.FilterChainReference
import ArionGateway.HostReference
import ArionGateway.ClusterPermits
import ArionGateway.TcpChannel
import ArionGateway.UnifiedConnector
import ArionGateway.HealthCheckers
import ArionGateway.HealthCounters
import ArionGateway.StringInterner
import ArionGateway.QuotaInterleavings
import ArionGateway.JwtClaimHeaders
import ArionGateway.JwtCache
import ArionGateway.OAuth2Authorization
import ArionGateway.OAuth2Signatures
import ArionGateway.OAuth2Sessions
import ArionGateway.CallbackQueries
import ArionGateway.CorsSoundness
import ArionGateway.ConnectionLimit
import ArionGateway.RequestAdmissions
import ArionGateway.InternalListeners
import ArionGateway.RouteDelivery
import ArionGateway.XdsTracking
import ArionGateway.RestPaths
import ArionGateway.PathRewrites
import ArionGateway.ToolDiscovery
import ArionGateway.ClusterTlsUpdates
import ArionGateway.UserLimitSharing
import ArionGateway.FilterPhases
import ArionGateway.ProxyHeaders
import ArionGateway.Http2Pools
import ArionGateway.FusedMutations
import ArionGateway.ExtProcModes
import ArionGateway.ExtProcTimeouts
import ArionGateway.ExtProcDelivery
import ArionGateway.RetryPolicies
import ArionGateway.Transactions
import ArionGateway.RetriedBodies
import ArionGateway.PriorityCounters
import ArionGateway.PayloadMatching
import ArionGateway.ConsistentHashing
import ArionGateway.FormattedMessages
import ArionGateway.OverrideHosts
import ArionGateway.EmbeddingRefresh
import ArionGateway.GlobPatterns
import ArionGateway.AccessLoggers
import ArionGateway.TableSizes
import ArionGateway.WebsocketUpgrades
import ArionGateway.CoreAffinity
