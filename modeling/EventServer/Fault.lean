/-
Faults of input and output. A fault is an error number of the host, a bare kind, or a kind with words of its own; its
kind decides how it is handled and its text is what a message shows.
-/
import EventServer.Errno

namespace EventServer

/-- what sort of fault it is, whatever the host's number for it -/
inductive FaultKind where
  | notFound | permissionDenied | connectionRefused | connectionReset | connectionAborted | notConnected
  | addressInUse | addressNotAvailable | networkUnreachable | brokenPipe | alreadyExists | wouldBlock
  | invalidInput | invalidData | timedOut | writeZero | interrupted | unsupported | unexpectedEnd | outOfMemory
  | tooManyOpen | other | uncategorized
  deriving DecidableEq, Repr

def FaultKind.text : FaultKind → String
  | notFound => "entity not found"
  | permissionDenied => "permission denied"
  | connectionRefused => "connection refused"
  | connectionReset => "connection reset"
  | connectionAborted => "connection aborted"
  | notConnected => "not connected"
  | addressInUse => "address in use"
  | addressNotAvailable => "address not available"
  | networkUnreachable => "network unreachable"
  | brokenPipe => "broken pipe"
  | alreadyExists => "entity already exists"
  | wouldBlock => "operation would block"
  | invalidInput => "invalid input parameter"
  | invalidData => "invalid data"
  | timedOut => "timed out"
  | writeZero => "write zero"
  | interrupted => "operation interrupted"
  | unsupported => "unsupported"
  | unexpectedEnd => "unexpected end of file"
  | outOfMemory => "out of memory"
  | tooManyOpen => "too many open files"
  | other => "other error"
  | uncategorized => "uncategorized error"

/-- the kind of an error number; numbers without a kind of their own are uncategorized -/
def Errno.kind (code : Errno) : FaultKind :=
  match code.number with
  | 1 | 13 => .permissionDenied
  | 2 => .notFound
  | 4 => .interrupted
  | 11 => .wouldBlock
  | 12 => .outOfMemory
  | 17 => .alreadyExists
  | 22 => .invalidInput
  | 24 => .tooManyOpen
  | 32 => .brokenPipe
  | 38 | 95 => .unsupported
  | 98 => .addressInUse
  | 99 => .addressNotAvailable
  | 101 => .networkUnreachable
  | 103 => .connectionAborted
  | 104 => .connectionReset
  | 107 => .notConnected
  | 110 => .timedOut
  | 111 => .connectionRefused
  | _ => .uncategorized

/-- a fault of input or output -/
inductive Fault where
  | system (code : Errno)
  | plain (kind : FaultKind)
  | custom (kind : FaultKind) (text : String)
  deriving DecidableEq, Repr

namespace Fault

def kind : Fault → FaultKind
  | system code => code.kind
  | plain kind => kind
  | custom kind _ => kind

def text : Fault → String
  | system code => code.described
  | plain kind => kind.text
  | custom _ text => text

end Fault

end EventServer
