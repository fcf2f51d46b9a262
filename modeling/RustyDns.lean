import RustyDns.Lib.Text
import RustyDns.Lib.Net
import RustyDns.Lib.Prefix
import RustyDns.Lib.Unicode
import RustyDns.Lib.Checks
import RustyDns.Lib.Fold
import RustyDns.Lib.Closure
import RustyDns.Lib.Path
import RustyDns.Lib.Quoted
import RustyDns.Lib.Lts
import RustyDns.Lib.StampedLog
import RustyDns.Lib.LastWrite
import RustyDns.Lib.Labels
import RustyDns.Lib.Written
import RustyDns.Lib.Split
import RustyDns.Lib.UriPath
import RustyDns.Lib.AddressText
import RustyDns.Lib.Table
import RustyDns.Lib.LongestFirst
import RustyDns.Lib.TokenBucket
import RustyDns.Lib.FileStore
import RustyDns.Lib.RollingLog
import RustyDns.Lib.CappedRead
import RustyDns.Lib.Base64Url
import RustyDns.Lib.Utf8Lossy
import RustyDns.Lib.TaskPool
import RustyDns.Lib.Traced
import RustyDns.L1Core.Record
import RustyDns.L1Core.Config
import RustyDns.L1Core.Client
import RustyDns.L1Core.Redact
import RustyDns.L1Core.Matchers
import RustyDns.L1Core.Denylist
import RustyDns.L1Core.Schedule
import RustyDns.L1Core.CivilTime
import RustyDns.L1Core.Validate
import RustyDns.L2Authority.Mesh
import RustyDns.L2Authority.BundleWire
import RustyDns.L2Authority.Zone
import RustyDns.L2Authority.Authority
import RustyDns.L2Authority.Scope
import RustyDns.L2Authority.BundleScope
import RustyDns.L2Authority.Lookup
import RustyDns.L2Authority.Chase
import RustyDns.L2Authority.Served
import RustyDns.L2Blocklist.Parser
import RustyDns.L2Blocklist.Allowlist
import RustyDns.L2Blocklist.Engine
import RustyDns.L2Blocklist.Entries
import RustyDns.L2Blocklist.Projection
import RustyDns.L2Blocklist.Verdict
import RustyDns.L3Resolver.RecordKey
import RustyDns.L3Resolver.Answer
import RustyDns.L3Resolver.Rebinding
import RustyDns.L3Resolver.Resolver
import RustyDns.L3Resolver.Upstream
import RustyDns.L3Resolver.Ports
import RustyDns.L3Resolver.Bailiwick
import RustyDns.L3Resolver.Sanity
import RustyDns.L3Resolver.Odoh
import RustyDns.L3Resolver.OdohRotation
import RustyDns.L3Resolver.Construction
import RustyDns.L4Daemon.RateLimiter
import RustyDns.L4Daemon.RateIdeal
import RustyDns.L4Daemon.Handler
import RustyDns.L4Daemon.Loader
import RustyDns.L4Daemon.LastGood
import RustyDns.L4Daemon.Addresses
import RustyDns.L4Daemon.MetricsPath
import RustyDns.L4Daemon.Listeners
import RustyDns.L4Daemon.Startup
import RustyDns.L4Daemon.Rewrite
import RustyDns.L4Daemon.RewriteRules
import RustyDns.L4Daemon.WildcardGuard
import RustyDns.L4Daemon.Policy
import RustyDns.L4Daemon.Respond
import RustyDns.L4Daemon.Pipeline
import RustyDns.L4Daemon.ResponseContract
import RustyDns.L4Daemon.RateCover
import RustyDns.L4Daemon.QueryLog
import RustyDns.L4Daemon.DiskLog
import RustyDns.L4Daemon.FailedRotation
import RustyDns.L4Daemon.ClientAddress
import RustyDns.L4Daemon.ZoneTests
import RustyDns.L4Daemon.RouteChoice
import RustyDns.L4Daemon.WireNames
import RustyDns.L4Daemon.ZoneConfinement
import RustyDns.L4Daemon.Punycode
import RustyDns.L4Daemon.RestartReport
import RustyDns.L4Daemon.Daemon
import RustyDns.L4Daemon.SighupRuns
import RustyDns.L4Daemon.LogRuns
import RustyDns.L4Daemon.Doh
import RustyDns.L4Daemon.SocketActivation
import RustyDns.L4Daemon.Metrics
import RustyDns.L4Daemon.SourceReads
import RustyDns.L5Concurrency.RateRace
import RustyDns.L5Concurrency.MeshReload
import RustyDns.L5Concurrency.LoaderSteps
import RustyDns.L5Concurrency.LoaderRace
import RustyDns.L5Concurrency.LoaderSerial
import RustyDns.L5Concurrency.OdohExchanges
import RustyDns.L5Concurrency.DiskChannel
import RustyDns.L5Concurrency.HotSwap
import RustyDns.L5Concurrency.FetchWindow
