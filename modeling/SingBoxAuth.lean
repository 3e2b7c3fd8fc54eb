import SingBoxAuth.QuotaPeriods
import SingBoxAuth.UserIdentity
import SingBoxAuth.QuotaPanic
import SingBoxAuth.QuotaRecords
import SingBoxAuth.SpeedUpdates
import SingBoxAuth.LimitersInUse
import SingBoxAuth.DynamicRows
import SingBoxAuth.LimiterOwners
import SingBoxAuth.RuleWrapping
import SingBoxAuth.DNSMode
import SingBoxAuth.DNSRouting
import SingBoxAuth.StubResolvers
import SingBoxAuth.StreamHeaders
import SingBoxAuth.StartOrder
import SingBoxAuth.LimiterSpeeds
import SingBoxAuth.QuotaPackets
import SingBoxAuth.QuotaWindows
import SingBoxAuth.FakeIPRanges
import SingBoxAuth.FakeIPReset
import SingBoxAuth.PooledTransport
import SingBoxAuth.QuotaResolution
import SingBoxAuth.QuotaSessions
import SingBoxAuth.UserPush
import SingBoxAuth.ConditionalFetch
import SingBoxAuth.DynamicPolling
import SingBoxAuth.RuleInversion
import SingBoxAuth.DNSRuleOrder
import SingBoxAuth.DNSFallback
import SingBoxAuth.DNSEvaluation
import SingBoxAuth.DNSCaching
import SingBoxAuth.DNSTimes
import SingBoxAuth.DNSRejections
import SingBoxAuth.DNSLoopback
import SingBoxAuth.DNSRouterLock
import SingBoxAuth.DNSFraming
import SingBoxAuth.DNSUDP
import SingBoxAuth.DHCPDiscovery
import SingBoxAuth.ResolvedSplitDNS
import SingBoxAuth.FakeIPPositions
import SingBoxAuth.StreamSniffing
import SingBoxAuth.TLSFragmentWrite
import SingBoxAuth.AdGuardConversion
import SingBoxAuth.GunStreams
import SingBoxAuth.TrojanPackets
import SingBoxAuth.WireGuardBind
import SingBoxAuth.WebSocketEarlyData
import SingBoxAuth.EarlyWebSocket
import SingBoxAuth.TLSObfuscation
import SingBoxAuth.RuleSetFiles
import SingBoxAuth.URLTestSelection
import SingBoxAuth.SelectorInterrupts
import SingBoxAuth.OOMTimer
import SingBoxAuth.SSMUsers
import SingBoxAuth.VersionComparison
import SingBoxAuth.CCMUsage
import SingBoxAuth.ElementManagers
import SingBoxAuth.DependencyIndex
import SingBoxAuth.SliceViews
import SingBoxAuth.ListedElements
import SingBoxAuth.ParallelDials
import SingBoxAuth.RuleBases
