/-
The two kinds of failure. `SetupFailure` keeps the server from starting and ends the program; `TaskFailure` ends the
task of one connection, and its `code` is the number that the journal shows.
-/
import EventServer.Fault
import EventServer.Http.Failure
import EventServer.Text.Quoted

namespace EventServer

/-- why the server could not be set up -/
inductive SetupFailure where
  | unresolved (target : String)
  | badPort (given : String)
  | refused (code : Errno)
  | io (fault : Fault)
  deriving DecidableEq, Repr

namespace SetupFailure

def text : SetupFailure → String
  | unresolved target => "could not resolve a usable address for " ++ target
  | badPort given => "invalid port " ++ Text.quoted given
  | refused code => "system call failed: " ++ code.named
  | io fault => "IO Error: " ++ fault.text

def cause : SetupFailure → Option String
  | unresolved _ | badPort _ => none
  | refused code => some code.named
  | io fault => some fault.text

end SetupFailure

/-- the numbers under which the journal reports a failed task -/
inductive FailureCode where
  | general | badArgument | unexpectedEnd | aborted | badPeerMessage | timedOut
  deriving DecidableEq, Repr

def FailureCode.number : FailureCode → Nat
  | general => 1
  | badArgument => 2
  | unexpectedEnd => 3
  | aborted => 4
  | badPeerMessage => 6
  | timedOut => 8

/-- why the task of a connection failed -/
inductive TaskFailure where
  | exchange (failure : Http.Failure)
  | io (fault : Fault)
  deriving DecidableEq, Repr

namespace TaskFailure

def text : TaskFailure → String
  | exchange failure => failure.text
  | io fault => fault.text

def code : TaskFailure → FailureCode
  | exchange (.defective _) => .badPeerMessage
  | exchange .incomplete => .unexpectedEnd
  | exchange .canceled => .aborted
  | exchange .headTimeout => .timedOut
  | exchange .service | exchange .body => .badArgument
  | exchange .reading | exchange .writing | exchange .shuttingDown => .general
  | io fault => if fault.kind = .unexpectedEnd then .unexpectedEnd else .general

end TaskFailure

end EventServer
