import Weftos.Governance.Tighten
import Weftos.Chain.Preimage
import Weftos.Chain.RvfDamage
import Weftos.Chain.Restored
import Weftos.Governance.Generation
import Weftos.Chain.Subscribe
import Weftos.Placement.Order
import Weftos.Placement.Reserve
import Weftos.Stream.Lossless
import Weftos.Stream.Hostile
import Weftos.Bus.Framing
import Weftos.Bus.Refusals
import Weftos.Bus.Isolation
import Weftos.Bus.Writers
import Weftos.Bus.Following
import Weftos.Bus.Answered
import Weftos.Bus.Withdraw
import Weftos.Bus.Credit
import Weftos.Blob.Quota
import Weftos.Blob.Handle
import Weftos.Blob.Client
import Weftos.Blob.Access
import Weftos.Blob.Gated
import Weftos.Resource.Escalation
import Weftos.Resource.Diff
import Weftos.Resource.Signed
import Weftos.Licence.Expiry
import Weftos.Licence.Saved
import Weftos.Licence.RunGate
import Weftos.Licence.Authenticate
import Weftos.Licence.Renewal
import Weftos.Licence.Release
import Weftos.Mesh.Kademlia
import Weftos.Dag.Mountain
import Weftos.Workload.Restart
import Weftos.Memory.Versions
import Weftos.Chain.Retry
