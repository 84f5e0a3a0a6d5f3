/-
Readiness reports: the conditions of one descriptor, as the host reports them and as the server uses them.
-/
import EventServer.Token

namespace EventServer

/-- the conditions of a descriptor that the host can report -/
structure Conditions where
  input : Bool := false
  output : Bool := false
  error : Bool := false
  hangup : Bool := false
  deriving DecidableEq, Repr

/-- no condition holds -/
def Conditions.none (c : Conditions) : Bool := !(c.input || c.output || c.error || c.hangup)

structure Readiness where
  token : Token
  readable : Bool
  writable : Bool
  /-- an error or a hangup was reported on the descriptor -/
  closed : Bool
  deriving DecidableEq, Repr

namespace Readiness

/-- what the host's report of a watched word says -/
def ofReport (word : UInt64) (c : Conditions) : Readiness where
  token := Token.ofWord word
  readable := c.input
  writable := c.output
  closed := c.error || c.hangup

end Readiness

end EventServer
