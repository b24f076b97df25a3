import GrpcGo.Lib.GoStrings
import GrpcGo.Lib.GoRegexp
import GrpcGo.Lib.GoNet
import GrpcGo.Lib.GoNetPrefix
import GrpcGo.Xds.Matcher
import GrpcGo.Xds.FilterChain
import GrpcGo.Xds.FilterChainLookup
import GrpcGo.Xds.VirtualHost
import GrpcGo.Xds.WeightedClusters
import GrpcGo.Xds.RouteMatch
import GrpcGo.Xds.TransportHelper
import GrpcGo.Xds.TransportHelperSpec
import GrpcGo.Status
import GrpcGo.Lib.ExceptBind
import GrpcGo.Rbac.Engine
import GrpcGo.Rbac.Semantics
import GrpcGo.Lib.GoMap
import GrpcGo.Authz.Translator
import GrpcGo.Authz.Semantics
import GrpcGo.AdvancedTls.Crl
import GrpcGo.AdvancedTls.CrlCache
import GrpcGo.Lib.GoBinary
import GrpcGo.Lib.GoSlice
import GrpcGo.Lib.GoSort
import GrpcGo.Lib.GoFloat
import GrpcGo.Lib.GoIo
import GrpcGo.Lib.Channel
import GrpcGo.Lib.Machine
import GrpcGo.Lib.ListCount
import GrpcGo.Lib.WeightedPick
import GrpcGo.Lib.Drain
import GrpcGo.Lib.KeepBest
import GrpcGo.Alts.Record
import GrpcGo.Alts.RecordWrite
import GrpcGo.Alts.RecordWriteError
import GrpcGo.Alts.RecordRead
import GrpcGo.Alts.RecordShortFrame
import GrpcGo.Alts.Counter
import GrpcGo.Alts.CounterSpec
import GrpcGo.Transport.Stream
import GrpcGo.Transport.FlowControl
import GrpcGo.Transport.FlowWindow
import GrpcGo.Transport.FlowRefinement
import GrpcGo.Transport.WriteQuota
import GrpcGo.Transport.Loopy
import GrpcGo.Transport.LoopyInv
import GrpcGo.Transport.LoopyOrder
import GrpcGo.Transport.LoopyDrain
import GrpcGo.Transport.LoopyFlow
import GrpcGo.Transport.ConnWindow
import GrpcGo.Transport.BufWriter
import GrpcGo.Transport.RecvBuffer
import GrpcGo.Transport.Admission
import GrpcGo.Transport.AdmissionInv
import GrpcGo.RpcUtil.Parser
import GrpcGo.RpcUtil.Framing
import GrpcGo.Resolver.ClusterRefs
import GrpcGo.Resolver.ClusterRefsInv
import GrpcGo.Balancer.ConfigBuilder
import GrpcGo.Balancer.ConfigBuilderSpec
import GrpcGo.Balancer.ClusterImplDrop
import GrpcGo.Balancer.RingHash
import GrpcGo.Balancer.Priority
import GrpcGo.Balancer.PrioritySpec
import GrpcGo.Balancer.BalancerGroup
import GrpcGo.Balancer.BalancerGroupSpec
import GrpcGo.Rls.Cache
import GrpcGo.Rls.CacheSpec
import GrpcGo.Lib.GoInt64
import GrpcGo.Transport.Timeout
import GrpcGo.Transport.ServerHeaders
import GrpcGo.Lib.GoUtf8
import GrpcGo.Lib.StateTally
import GrpcGo.Lib.SwapCounter
import GrpcGo.Transport.GrpcMessage
import GrpcGo.Lib.GoNetHostPort
import GrpcGo.Resolver.Dns
import GrpcGo.Retry.Backoff
import GrpcGo.Retry.Stream
import GrpcGo.Retry.StreamSpec
import GrpcGo.Metadata.Outgoing
import GrpcGo.Rls.Keys
import GrpcGo.Balancer.WeightedAggregator
import GrpcGo.Balancer.RingHashStates
import GrpcGo.Balancer.RingHashRing
import GrpcGo.Balancer.Base
import GrpcGo.Balancer.Grpclb
import GrpcGo.Xds.LoadStore
import GrpcGo.Lib.RingWindow
import GrpcGo.Rls.Lookback
import GrpcGo.Internal.TimeoutCache
import GrpcGo.Internal.Unbounded
import GrpcGo.Profiling.Buffer
import GrpcGo.Transport.PingStrikes
import GrpcGo.Lib.GoChan
import GrpcGo.Transport.ControlBuffer
import GrpcGo.Channelz.Registry
import GrpcGo.RpcUtil.Decompress
import GrpcGo.Xds.RdsHandler
import GrpcGo.Transport.ClientKeepalive
import GrpcGo.ClientConn.AddrConn
import GrpcGo.ClientConn.PickerWrapper
