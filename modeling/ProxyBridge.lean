import ProxyBridge.Windows.CleanupCursor
import ProxyBridge.Handshake.HttpConnect
import ProxyBridge.Handshake.Socks5Mac
import ProxyBridge.Windows.ConntrackRuns
import ProxyBridge.Windows.FlowRefinement
import ProxyBridge.Windows.WorkerLifecycle
import ProxyBridge.Windows.RelayPaths
import ProxyBridge.Windows.UdpReply
import ProxyBridge.Windows.PolicyFreshness
import ProxyBridge.Windows.LoggingNeutrality
import ProxyBridge.Windows.UdpAssociations
import ProxyBridge.Windows.IocpRelay
import ProxyBridge.MacOS.SharedPolicy
import ProxyBridge.Windows.UdpDnsRules
import ProxyBridge.Windows.RuleVerdicts
import ProxyBridge.Windows.ReverseLookup
import ProxyBridge.MacOS.RoutingLog
import ProxyBridge.Handshake.ConnectRequest
import ProxyBridge.Windows.OwnerClosing
import ProxyBridge.Windows.RelayPoolInvariant
import ProxyBridge.MacOS.FlowRuns
import ProxyBridge.Windows.WildcardMatch
import ProxyBridge.MacOS.GlobMatch
import ProxyBridge.Windows.MalformedPatterns
import ProxyBridge.Windows.DnsResponses
import ProxyBridge.MacOS.DirectTargets
import ProxyBridge.Windows.OwnerTables
import ProxyBridge.Windows.OwnerLookups
import ProxyBridge.Windows.DnsTimedMap
import ProxyBridge.Windows.UdpDirectRuns
import ProxyBridge.Windows.RelayReplies
import ProxyBridge.Handshake.Socks5Auth
import ProxyBridge.Handshake.Socks5Udp
import ProxyBridge.MacOS.RuleLists
import ProxyBridge.Windows.ListBlanks
import ProxyBridge.Windows.CacheRuns
import ProxyBridge.Windows.PortStates
import ProxyBridge.Windows.TableScratch
import ProxyBridge.Library.NumberTexts
import ProxyBridge.Windows.AddressLiterals
import ProxyBridge.Windows.ProxyStore
import ProxyBridge.Library.QueueMaps
import ProxyBridge.MacOS.PendingDns
import ProxyBridge.Library.FirstMatch
import ProxyBridge.MacOS.KokoroBoxDecision
import ProxyBridge.Library.Rfc1928
import ProxyBridge.Handshake.Socks5Requests
import ProxyBridge.Windows.SocksLayouts
import ProxyBridge.Windows.PacketBatch
import ProxyBridge.Windows.PacketProcessor
import ProxyBridge.Windows.PacketOrder
import ProxyBridge.Windows.RelayCopies
import ProxyBridge.Windows.RelayStop
import ProxyBridge.Windows.ConnectionTunnel
import ProxyBridge.MacOS.FlowVerdicts
import ProxyBridge.MacOS.UdpDatagrams
import ProxyBridge.Windows.StartStop
import ProxyBridge.MacOS.TcpTunnels
import ProxyBridge.MacOS.UdpHandshakes
import ProxyBridge.Handshake.Socks5Associate
