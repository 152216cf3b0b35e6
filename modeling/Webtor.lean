import Webtor.Timestamp
import Webtor.Consensus.Batches
import Webtor.Consensus.Resolve
import Webtor.Consensus.Concurrent
import Webtor.Consensus.Request
import Webtor.Consensus.Pipeline
import Webtor.Consensus.Lifetime
import Webtor.Directory
import Webtor.WebTunnel
