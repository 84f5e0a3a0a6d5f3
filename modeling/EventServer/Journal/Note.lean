/-
Notes: everything that the server has to report, each as the fact that it reports. The level, the component and the
words of a note follow from the fact alone (`Note.level`, `Note.component`, `Note.text`).
-/
import EventServer.Address
import EventServer.Failure
import EventServer.Interest
import EventServer.Signal
import EventServer.Token

namespace EventServer

inductive Level where
  | error | warn | info | debug | trace
  deriving DecidableEq, Repr

namespace Level

def rank : Level → Nat
  | error => 1
  | warn => 2
  | info => 3
  | debug => 4
  | trace => 5

def text : Level → String
  | error => "ERROR"
  | warn => "WARN"
  | info => "INFO"
  | debug => "DEBUG"
  | trace => "TRACE"

/-- whether a journal that is kept down to `limit` holds notes of this level -/
def within (level limit : Level) : Bool := level.rank ≤ limit.rank

end Level

inductive Component where
  | program | server | engine | tasks | connections | notifier | service
  deriving DecidableEq, Repr

def Component.path : Component → String
  | program => "hyper_epoll"
  | server => "hyper_epoll::server"
  | engine => "hyper_epoll::runtime"
  | tasks => "hyper_epoll::executor"
  | connections => "hyper_epoll::connection"
  | notifier => "hyper_epoll::reactor"
  | service => "hyper_epoll::service"

/-- which of a connection's two directions -/
inductive Direction where
  | read | write
  deriving DecidableEq, Repr

def Direction.text : Direction → String
  | read => "read"
  | write => "write"

/-- one fact to report -/
inductive Note where
  | registered (token : Token) (interest : Interest)
  | reregistered (token : Token) (interest : Interest)
  | waitInterrupted
  | watchKept (peer : Address) (code : Errno)
  | staleReadiness (slot : Nat)
  | disarmFailed (peer : Address) (code : Errno)
  | armFailed (peer : Address) (code : Errno)
  | unheededTrouble (peer : Address)
  | replacedParked (direction : Direction) (slot : Nat)
  | pushed (slot : Nat)
  | staleWake (slot : Nat)
  | completed (slot : Nat)
  | taskFailed
  | failureCode (code : FailureCode)
  | failureDetails (failure : TaskFailure)
  | connectionComplete
  | internalComplete
  | engineReleased (inFlight : Nat)
  | request (method target : String)
  | listening (address : Address)
  | bindFailed (address : Address) (fault : Fault)
  | tasksProcessed
  | pollReported (count : Nat)
  | incoming (peer : Address)
  | insertFailed (peer : Address) (code : Errno)
  | acceptFailed (fault : Fault)
  | caught (signal : ShutdownSignal)
  | unexpectedSignal (number : Int)
  | badArguments (failure : SetupFailure)
  | setupFailed (failure : SetupFailure)
  | shutDownBy (signal : ShutdownSignal)
  | loopFailed (failure : SetupFailure)
  deriving DecidableEq, Repr

namespace Note

def level : Note → Level
  | registered .. | reregistered .. | staleReadiness _ | replacedParked .. | pushed _ | staleWake _ | completed _ =>
    .trace
  | waitInterrupted | unheededTrouble _ | engineReleased _ | request .. | tasksProcessed | pollReported _
  | shutDownBy _ => .debug
  | connectionComplete | internalComplete | listening _ | incoming _ | caught _ => .info
  | watchKept .. | disarmFailed .. | armFailed .. | bindFailed .. | unexpectedSignal _ => .warn
  | taskFailed | failureCode _ | failureDetails _ | insertFailed .. | acceptFailed _ | badArguments _ | setupFailed _
  | loopFailed _ => .error

def component : Note → Component
  | registered .. | reregistered .. | waitInterrupted => .notifier
  | watchKept .. | staleReadiness _ | disarmFailed .. | armFailed .. | unheededTrouble _ | replacedParked .. =>
    .connections
  | pushed _ | staleWake _ | completed _ => .tasks
  | taskFailed | failureCode _ | failureDetails _ | connectionComplete | internalComplete | engineReleased _ => .engine
  | request .. => .service
  | listening _ | bindFailed .. | tasksProcessed | pollReported _ | incoming _ | insertFailed .. | acceptFailed _
  | caught _ | unexpectedSignal _ => .server
  | badArguments _ | setupFailed _ | shutDownBy _ | loopFailed _ => .program

def text : Note → String
  | registered token interest => "registered " ++ token.text ++ " for " ++ interest.text
  | reregistered token interest => "re-registered " ++ token.text ++ " for " ++ interest.text
  | waitInterrupted => "notifier wait interrupted"
  | watchKept peer code => "failed to deregister connection from " ++ peer.text ++ ": " ++ code.named
  | staleReadiness slot => "readiness for released slot " ++ toString slot
  | disarmFailed peer code => "failed to disarm write interest on " ++ peer.text ++ ": " ++ code.named
  | armFailed peer code => "failed to arm write interest on " ++ peer.text ++ ": " ++ code.named
  | unheededTrouble peer => "error or hangup on " ++ peer.text ++ " with no parked I/O"
  | replacedParked direction slot => "replaced parked " ++ direction.text ++ " on slot " ++ toString slot
  | pushed slot => "pushed task " ++ toString slot
  | staleWake slot => "wake for finished task " ++ toString slot
  | completed slot => "task " ++ toString slot ++ " completed"
  | taskFailed => "connection task error!"
  | failureCode code => "error code: " ++ toString code.number
  | failureDetails failure => "details: " ++ failure.text
  | connectionComplete => "server connection complete"
  | internalComplete => "internal task complete"
  | engineReleased inFlight =>
    "releasing server options and executor (" ++ toString inFlight ++ " tasks in flight)"
  | request method target => method ++ " " ++ target
  | listening address => "listening on: " ++ address.text
  | bindFailed address fault => "bind " ++ address.text ++ ": " ++ fault.text
  | tasksProcessed => "Processed all tasks - polling for events"
  | pollReported count => "Poll reported " ++ toString count ++ " events"
  | incoming peer => "New incoming connection from (" ++ peer.text ++ ")"
  | insertFailed peer code => "failed to register connection from " ++ peer.text ++ ": " ++ code.named
  | acceptFailed fault => "accept: " ++ fault.text
  | caught signal => "Caught " ++ signal.name ++ "... exiting"
  | unexpectedSignal number => "Caught unexpected signal " ++ toString number ++ "... ignoring"
  | badArguments failure => failure.text
  | setupFailed failure => "setup failed: " ++ failure.text
  | shutDownBy signal => "shut down by " ++ signal.name
  | loopFailed failure => "event loop failed: " ++ failure.text

end Note

end EventServer
