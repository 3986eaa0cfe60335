import Multikernel.State.Durable
import Multikernel.Lifecycle.Runs
import Multikernel.Lifecycle.Exclusive
import Multikernel.Lifecycle.Acknowledged
import Multikernel.Lifecycle.Recoverable
import Multikernel.Lifecycle.Pool
import Multikernel.Lifecycle.Instances
import Multikernel.Lifecycle.Stopped
import Multikernel.Lifecycle.Absent
import Multikernel.Lifecycle.Replay
import Multikernel.Lifecycle.Cancelled
import Multikernel.Lifecycle.Keys
import Multikernel.Lifecycle.Admission
import Multikernel.Lifecycle.Paging
import Multikernel.Network.Carriers
import Multikernel.Network.Release
import Multikernel.Network.Isolation
import Multikernel.Network.Addresses
import Multikernel.Network.Intake
import Multikernel.Network.Firewall
import Multikernel.Safefile.Owner
import Multikernel.Shim.Events
import Multikernel.Shim.Stdin
import Multikernel.Agent.Chunks
import Multikernel.Boot.Unpack
import Multikernel.Protocol.Strict
import Multikernel.Tools.Proxy
import Multikernel.Tools.Pump
import Multikernel.Poolinspect.Memory
import Multikernel.Agent.Output
import Multikernel.Agent.Network
import Multikernel.Agent.Signals
import Multikernel.Shim.Killed
import Multikernel.Shim.Pause
import Multikernel.Shim.Transport
import Multikernel.Initramfs.Links
import Multikernel.Initramfs.Newc
import Multikernel.Deploy.Atomic
import Multikernel.Agent.Session
import Multikernel.Agent.Frames
