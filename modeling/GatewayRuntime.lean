import GatewayRuntime.Lib.Run
import GatewayRuntime.Lib.GoText
import GatewayRuntime.Lib.GoBytes
import GatewayRuntime.Lib.GoTime
import GatewayRuntime.Lib.Traced
import GatewayRuntime.Lib.GoPath
import GatewayRuntime.Lib.GoNet
import GatewayRuntime.Lib.GoUrl
import GatewayRuntime.Lib.GoUrlParse
import GatewayRuntime.Lib.GoQuery
import GatewayRuntime.Lib.GoJson
import GatewayRuntime.Lib.JsonText
import GatewayRuntime.Lib.JsonWire
import GatewayRuntime.Lib.MapRange
import GatewayRuntime.Lib.Accumulate
import GatewayRuntime.Lib.Distinct
import GatewayRuntime.Lib.TokenBucket
import GatewayRuntime.Lib.Census
import GatewayRuntime.Lib.Ticket
import GatewayRuntime.Lib.Expiring
import GatewayRuntime.Lib.ServeMux
import GatewayRuntime.Lib.CleanPath
import GatewayRuntime.Lib.PrefixPattern
import GatewayRuntime.Lib.LiteralPattern
import GatewayRuntime.Lib.MuxPattern
import GatewayRuntime.Lib.Mount
import GatewayRuntime.Lib.Redirect
import GatewayRuntime.Lib.ResponseWriter
import GatewayRuntime.Errors
import GatewayRuntime.StorageTypes
import GatewayRuntime.StorageRequest
import GatewayRuntime.CompletedParts
import GatewayRuntime.StorageAccess
import GatewayRuntime.StorageRoutes
import GatewayRuntime.StorageAuthorization
import GatewayRuntime.StorageSanitation
import GatewayRuntime.StorageReadiness
import GatewayRuntime.StorageContract
import GatewayRuntime.StorageEntryPoints
import GatewayRuntime.UploadVerification
import GatewayRuntime.SessionStore
import GatewayRuntime.SessionLifecycle
import GatewayRuntime.SessionLifetime
import GatewayRuntime.SessionDeletion
import GatewayRuntime.SessionActivity
import GatewayRuntime.TokenStore
import GatewayRuntime.FlowStore
import GatewayRuntime.StoreEquivalence
import GatewayRuntime.AccessToken
import GatewayRuntime.TokenLogout
import GatewayRuntime.LogoutFaults
import GatewayRuntime.RefreshExclusion
import GatewayRuntime.RefreshOwnership
import GatewayRuntime.SingleFlight
import GatewayRuntime.RefreshReplay
import GatewayRuntime.RefreshPolling
import GatewayRuntime.RefreshProgress
import GatewayRuntime.LoginFlow
import GatewayRuntime.LoginOnce
import GatewayRuntime.LoginIdentity
import GatewayRuntime.ReturnTo
import GatewayRuntime.StoreExpiry
import GatewayRuntime.StoreEntries
import GatewayRuntime.LoginAtomicity
import GatewayRuntime.AccessTokenOutcome
import GatewayRuntime.TokenOrphans
import GatewayRuntime.ProtectedClient
import GatewayRuntime.HalfOpen
import GatewayRuntime.BreakerInvariants
import GatewayRuntime.OutboundClient
import GatewayRuntime.BreakerFailures
import GatewayRuntime.OutboundRetries
import GatewayRuntime.ManagedItemPath
import GatewayRuntime.AppApi
import GatewayRuntime.PresignTtl
import GatewayRuntime.UploadKeys
import GatewayRuntime.ClientIdentity
import GatewayRuntime.RateLimit
import GatewayRuntime.RateLimitMemory
import GatewayRuntime.RateLimitIsolation
import GatewayRuntime.Csrf
import GatewayRuntime.Router
import GatewayRuntime.HttpMetrics
import GatewayRuntime.MetricCounts
import GatewayRuntime.AppConfig
import GatewayRuntime.StorageRegistries
import GatewayRuntime.RuntimeSelection
import GatewayRuntime.RuntimeMounting
import GatewayRuntime.RemoteSigner
import GatewayRuntime.Startup
import GatewayRuntime.AccessPolicy
import GatewayRuntime.StorageSystem
import GatewayRuntime.BasePath
import GatewayRuntime.MetricSeries
import GatewayRuntime.Policy
import GatewayRuntime.SessionCookie
import GatewayRuntime.UserContext
import GatewayRuntime.ShownPermissions
import GatewayRuntime.UserContextCache
import GatewayRuntime.RedisKeyspace
import GatewayRuntime.ResponseRecorder
import GatewayRuntime.RedactedUrl
import GatewayRuntime.Admission
import GatewayRuntime.LoginMetering
