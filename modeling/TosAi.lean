import TosAi.CommerceGate.Recovery
import TosAi.CommerceGate.Snapshot
import TosAi.SoftwareUpdate.Guarantees
import TosAi.PrivateIngress.Guarantees
import TosAi.SoftwareWork.Retry
import TosAi.Transport.Acceptance
import TosAi.Workload.Gpu
import TosAi.CommerceGate.Canonical
import TosAi.CommerceGate.Deadlines
import TosAi.Probe.Effective
import TosAi.CommerceGate.Bindings
import TosAi.Probe.Escapes
import TosAi.Probe.CpuSets
import TosAi.ResourceGuard.Guard
import TosAi.Transport.Order
