/-
Failures of exchanges: situations in which the exchange of a connection is made to fail, over memory instead of a
socket.
-/
import EventServer.Http.Exchange
import EventServer.Scenario.Basic

namespace EventServer.Scenario.Failures

/-- what follows the bytes that a peer in memory sends -/
inductive Sequel where
  | eof
  | fault
  deriving Repr, DecidableEq

structure Peer where
  incoming : Bytes
  sequel : Sequel
  writable : Bool := true
  deriving Repr

/-- the transport to a peer in memory, which never makes its user wait -/
def transport : Http.Transport Peer where
  recv peer count :=
    if peer.incoming.isEmpty then
      (peer, .ready (match peer.sequel with
        | .eof => .ok []
        | .fault => .error (.system .connectionReset)))
    else ({ peer with incoming := peer.incoming.drop count }, .ready (.ok (peer.incoming.take count)))
  send peer bytes := (peer, .ready (if peer.writable then .ok bytes.length else .error (.system .brokenPipe)))
  shutdown peer := (peer, .ok ())
  note peer _ := peer

/-- polls an exchange for as long as it resumes itself -/
def drive (options : Http.Options) : Nat → Http.Exchange → Peer → Http.Ended
  | 0, _, _ => .waiting
  | limit + 1, exchange, peer =>
    let (peer, polled) := ((Http.protocol options).poll peer.incoming.length exchange).run transport peer
    match polled.ended with
    | .waiting => if polled.roused then drive options limit polled.exchange peer else .waiting
    | ended => ended

inductive Situation where
  | served (bytes : Bytes)
  | readFailed (bytes : Bytes)
  | writeFailed
  | headTimeout
  | serviceFailed
  | bodyFailed
  | canceled
  deriving Repr

def outcome (options : Http.Options) (peer : Peer) : Option TaskFailure :=
  match drive options (peer.incoming.length + 2) (Http.protocol options).start peer with
  | .failed failure => some (.exchange failure)
  | .complete | .waiting => none

/-- the failure that a situation leads to, if it leads to one -/
def failureOf (options : Http.Options) : Situation → Option TaskFailure
  | .served bytes => outcome options { incoming := bytes, sequel := .eof }
  | .readFailed bytes => outcome options { incoming := bytes, sequel := .fault }
  | .writeFailed =>
    outcome options { incoming := Bytes.ofText "GET / HTTP/1.1\r\n\r\n\r\n", sequel := .eof, writable := false }
  | .headTimeout => some (.exchange .headTimeout)
  | .serviceFailed => some (.exchange .service)
  | .bodyFailed => some (.exchange .body)
  | .canceled => some (.exchange .canceled)

end EventServer.Scenario.Failures
