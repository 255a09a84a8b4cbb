import Blockyard.Ublk.Growth
import Blockyard.Ublk.LeaseManager
import Blockyard.Gossip.Probes
import Blockyard.Storage.Drain
import Blockyard.Client.ReadPipeline
import Blockyard.Node.Join
import Blockyard.Node.Formation
import Blockyard.Raft.Index
import Blockyard.Raft.Ranges
import Blockyard.Raft.WellFormed
import Blockyard.Raft.Cas
import Blockyard.Raft.Opening
import Blockyard.Raft.Rpc
import Blockyard.Ublk.Remembered
import Blockyard.Ublk.Splitting
import Blockyard.Ublk.Outcome
import Blockyard.Ublk.BatchOrder
import Blockyard.Ublk.Coalescing
import Blockyard.Ublk.PartialStripe
import Blockyard.Ublk.Refresh
import Blockyard.Ublk.StaleEpoch
import Blockyard.Ublk.AckErrors
import Blockyard.Storage.Failure
import Blockyard.Storage.Windows
import Blockyard.Storage.LeaseCache
import Blockyard.Ublk.NoFabrication
import Blockyard.Storage.VolumePlacement
import Blockyard.Storage.Uncommitted
import Blockyard.Storage.OpLog
import Blockyard.Protocol.Access
import Blockyard.Storage.RateLimit
import Blockyard.Node.Peers
import Blockyard.Ublk.Watermark
