/-
Signal sources: termination signals as reads on a descriptor that the notifier can watch. Opening one holds its signals
back on the server's thread, so that none of them acts before it is read.
-/
import EventServer.Host.Basic
import EventServer.Signal

namespace EventServer

structure SignalSource where
  descriptor : Descriptor
  deriving Repr

namespace SignalSource

/-- opens a source of the signals -/
def create (h : Host) (signals : List Int) : Host × SignalSource :=
  let (h, d) := h.openSource signals
  (h, ⟨d⟩)

def read (source : SignalSource) (h : Host) : Host × Option SignalEffect :=
  let after := h.elapse.readSignal source.descriptor
  (after.1, after.2.map .ofNumber)

end SignalSource

end EventServer
