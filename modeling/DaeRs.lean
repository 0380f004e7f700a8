import DaeRs.Routing.DomainIndex
import DaeRs.Routing.Actions
import DaeRs.Control.Decides
import DaeRs.Control.Relay
import DaeRs.Control.Overlap
import DaeRs.Control.Generation
import DaeRs.Control.Janitor
import DaeRs.Datapath.Replies
import DaeRs.Dns.Inflight
import DaeRs.RuleSet.Current
import DaeRs.RuleSet.Concurrent
import DaeRs.Control.TcpRelay
import DaeRs.Protocols.Tuic.Udp
import DaeRs.RuleSet.Scheduler
import DaeRs.RuleSet.ListLines
import DaeRs.Routing.RulePrint
import DaeRs.Control.UdpFlows
import DaeRs.Protocols.Pinning
import DaeRs.Control.MinPolicy
import DaeRs.Dns.CacheHistory
import DaeRs.Dns.ResponseTtl
import DaeRs.Dns.ErrorResponse
import DaeRs.Datapath.UdpRace
import DaeRs.Config.NodeBlock
import DaeRs.Config.SsLinks
import DaeRs.Protocols.JuicityUdp
import DaeRs.Protocols.Ss2022
import DaeRs.Control.RespSockets
import DaeRs.Protocols.Vmess.Sizes
import DaeRs.Protocols.Vmess.Shutdown
import DaeRs.Config.MapValues
import DaeRs.Control.Sysctl
import DaeRs.Control.GlobMatch
import DaeRs.Datapath.Liveness
import DaeRs.Datapath.ResultBits
import DaeRs.Control.GroupNames
