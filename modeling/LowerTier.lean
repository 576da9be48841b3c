import LowerTier.Common.Acl.FirstMatch
import LowerTier.Common.MulticastMembership
import LowerTier.Common.TokenBucket
import LowerTier.Common.TransitRate
import LowerTier.Gateway.OverlayStream.AcceptOpen
import LowerTier.Gateway.OverlayStream.WindowDeadlock
import LowerTier.Gateway.ReassemblySoundness
import LowerTier.Gateway.TcpProxy.Translation
import LowerTier.Gateway.UdpProxy.ReplyDelivery
import LowerTier.Instance.EcnMarking
import LowerTier.Instance.IngressRuns
import LowerTier.Peers.Credential.IssuerPolicy
import LowerTier.Peers.Credential.RevocationPermanence
import LowerTier.Peers.ForeignNetworkManager.OrphanedPeers
import LowerTier.Peers.OspfRoute.BitmapCounts
import LowerTier.Peers.OspfRoute.GroupMembership
import LowerTier.Peers.OspfRoute.LocalRecords
import LowerTier.Peers.OspfRoute.RestrictedSender
import LowerTier.Peers.OspfRoute.SnapshotCoherence
import LowerTier.Peers.PathPolicy
import LowerTier.Peers.PeerSession.IdentityPinning
import LowerTier.Peers.PeerSession.NonceUniqueness
import LowerTier.Peers.PublicIpv6.LeaseSafety
import LowerTier.Peers.SecureDatagram.ReplaySafety
import LowerTier.Peers.ServiceRoute.GatewaySelection
import LowerTier.Proto.Rpc.Fragmentation
import LowerTier.Tracker.Announcements
import LowerTier.Tunnel.MetadataCoherence
import LowerTier.Tunnel.Quic.DatagramRoundTrip
import LowerTier.Tunnel.Quic.ReliableLane
import LowerTier.Tunnel.TcpLanes.FlowOrder
