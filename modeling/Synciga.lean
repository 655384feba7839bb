import Synciga.PseudoTcp.Link
import Synciga.Main.SyncClient
import Synciga.Main.SyncLoop
import Synciga.PseudoTcp.RetransmitTimer
import Synciga.PseudoTcp.AckDuty
import Synciga.Base.FifoQueue
import Synciga.Tunnel.Lifetime
import Synciga.Stun.RequestOutcomes
import Synciga.Xmpp.JidNormalForm
import Synciga.Xmpp.LoginQueue
import Synciga.Xmpp.Closing
import Synciga.Xmpp.Dispatch
import Synciga.Xmpp.StreamRestart
import Synciga.Base.AsyncTcpSocket
import Synciga.P2p.RoleConflict
import Synciga.P2p.CandidateDelivery
import Synciga.P2p.MessageRoundTrip
import Synciga.Main.PumpTransfers
import Synciga.Xmpp.TlsUpgrade
import Synciga.Base.TaskPolling
import Synciga.P2p.AllocationRuns
import Synciga.Main.LogChunks
import Synciga.Tunnel.ClockAgreement
import Synciga.PseudoTcp.WindowScale
import Synciga.Base.FifoStaging
import Synciga.Tunnel.Connection
import Synciga.Base.MessageWraparound
import Synciga.PseudoTcp.Congestion
import Synciga.Stun.Bounds
import Synciga.Xml.PrefixResolution
import Synciga.P2p.ConnectionOrder
import Synciga.P2p.Hysteresis
import Synciga.Base.ByteBufferStorage
import Synciga.Base.StreamFlow
import Synciga.Xmpp.IqBookkeeping
import Synciga.Xml.ElementLists
import Synciga.P2p.ConnectionTimeout
import Synciga.P2p.TerminateAll
import Synciga.P2p.RelayTransparency
import Synciga.P2p.RemoteCandidates
import Synciga.P2p.Muxing
import Synciga.P2p.PingOrder
import Synciga.P2p.CandidatePorts
import Synciga.Base.ProxyChunks
import Synciga.P2p.RelayLifetime
import Synciga.P2p.DeletedConnections
import Synciga.Base.SocketAddressText
import Synciga.P2p.TurnChannels
import Synciga.P2p.TurnAllocation
import Synciga.Base.Network
import Synciga.Base.AsyncWriteStream
import Synciga.Base.HttpFlush
import Synciga.Base.HttpAttributes
import Synciga.P2p.Gathering
