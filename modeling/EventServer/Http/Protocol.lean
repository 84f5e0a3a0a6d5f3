/-
Protocols: what can be run on every connection of a server. A protocol says where a new exchange stands and what an
exchange says in one poll; the server knows nothing else of it.
-/
import EventServer.Http.Failure
import EventServer.Http.Transport

namespace EventServer.Http

/-- how a poll ended -/
inductive Ended where
  | waiting
  | complete
  | failed (failure : Failure)
  deriving DecidableEq, Repr

/-- what came of polling an exchange once -/
structure Polled (X : Type) where
  exchange : X
  /-- the exchange is to be resumed without waiting for its peer -/
  roused : Bool
  ended : Ended

/-- the exchanges of connections, whatever is known of one between two polls -/
structure Protocol (X : Type) where
  start : X
  /-- takes an exchange as far as it goes without waiting; the number is how many bytes can come until then, at most -/
  poll : Nat → X → Talk (Polled X)
  /-- how many bytes an exchange has read and not used yet -/
  held : X → Nat

end EventServer.Http
