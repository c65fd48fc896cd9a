import Squib.Virtio.Completion
import Squib.Virtio.Address
import Squib.Virtio.Features
import Squib.Virtio.Reset
import Squib.Vmm.MmioExit
import Squib.Vmm.Secondary
import Squib.Vmm.StaleExit
import Squib.Snapshot.StepDown
import Squib.Snapshot.Incremental
import Squib.Vsock.Ports
import Squib.Vsock.Stream
import Squib.Vsock.Codec
import Squib.Mmds.Containment
import Squib.Mmds.Sequence
import Squib.Mmds.Acknowledge
import Squib.Mmds.Segmentation
import Squib.Mmds.Closing
import Squib.Mmds.Corruption
import Squib.Mmds.DataStore
import Squib.Mmds.Retention
import Squib.Mmds.Tokens
import Squib.Api.Machine
import Squib.Vmm.Shutdown
import Squib.Net.Framing
import Squib.Net.Vmnet
import Squib.Bus.Builder
import Squib.Net.Transmit
import Squib.Block.ReadOnly
import Squib.Virtio.UsedLength
import Squib.Virtio.Allocation
import Squib.Jail.Sequence
import Squib.Jail.Stage
import Squib.Legacy.RxInterrupt
import Squib.Snapshot.Integrity
import Squib.Api.Replay
import Squib.Api.Mirror
import Squib.Api.BootArgs
import Squib.Virtio.Chain
import Squib.Virtio.Rings
import Squib.Block.RoundTrip
import Squib.Virtio.QueueNum
import Squib.Block.Engines
import Squib.Virtio.Inflation
import Squib.Virtio.Plugging
import Squib.Hv.Uffd
import Squib.Snapshot.VcpuSave
import Squib.Snapshot.Race
import Squib.Hv.Irq
import Squib.Block.RateLimit
import Squib.Loader.BoundedRead
import Squib.Fdt.CommandLine
