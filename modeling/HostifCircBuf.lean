import HostifCircBuf.Layout
import HostifCircBuf.Instance
import HostifCircBuf.Contracts
import HostifCircBuf.Layer
import HostifCircBuf.Heap
import HostifCircBuf.Spinlock
import HostifCircBuf.System
