/-
Calls that never wait. A raw call of the host may be cut short by a signal before it has done anything; `retry` makes it
again until it was not. What is left is one of three outcomes: a value, that the call would have to wait, or a fault.
-/
import EventServer.Fault
import EventServer.Host.Basic

namespace EventServer

inductive Outcome (α : Type) where
  | done (value : α)
  | wouldBlock
  | failed (fault : Fault)
  deriving Repr

namespace Outcome

def ofResult {α : Type} : Except Errno α → Outcome α
  | .ok value => done value
  | .error code => if code.kind = .wouldBlock then wouldBlock else failed (.system code)

end Outcome

namespace Nonblocking

/-- whether a raw result is that a signal cut the call short -/
def cutShort {α : Type} : Except Errno α → Bool
  | .error code => code.kind = .interrupted
  | .ok _ => false

/-- makes a call, and up to `limit` times more for as long as a signal cuts it short -/
def retry {σ α : Type} (call : σ → σ × Except Errno α) : Nat → σ → σ × Except Errno α
  | 0, s => call s
  | limit + 1, s =>
    let (after, result) := call s
    if cutShort result then retry call limit after else (after, result)

/-- reads up to `count` bytes; no bytes at all mean that the peer closed in good order -/
def recv (h : Host) (d : Descriptor) (count : Nat) : Host × Outcome Bytes :=
  let after := retry (fun h => h.elapse.recv d count) h.cuts h
  (after.1, .ofResult after.2)

/-- writes as many of the bytes as are accepted and says how many those are -/
def send (h : Host) (d : Descriptor) (bytes : Bytes) : Host × Outcome Nat :=
  let after := retry (fun h => h.elapse.send d bytes) h.cuts h
  (after.1, .ofResult after.2)

/-- takes the oldest connection that waits at a listener, and lets no call on it wait; if that is refused the connection
is closed, and nobody is given it -/
def accept (h : Host) (listener : Descriptor) : Host × Outcome (Descriptor × Address) :=
  let accepted := h.elapse.accept listener
  match accepted.2 with
  | .error code => (accepted.1, .ofResult (.error code))
  | .ok (d, peer) =>
    let unblocked := accepted.1.elapse.unblock d
    match unblocked.2 with
    | .ok () => (unblocked.1, .done (d, peer))
    | .error code => (unblocked.1.elapse.close d false, .failed (.system code))

end Nonblocking

end EventServer
