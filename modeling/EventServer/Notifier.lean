/-
The notifier: the host's readiness watch under tokens, with a ledger of how often it was entered and left.

`register` and `deregister` count only what the host accepted, so the ledger's difference is the number of watches that
were neither deregistered nor lost by closing. `wait` reports under the token that a descriptor was last registered
with.
-/
import EventServer.Events
import EventServer.Host.Basic
import EventServer.Journal.Noted

namespace EventServer

/-- why a descriptor could not be watched -/
inductive WatchFault where
  /-- the token's slot is too large for a word -/
  | slotTooLarge
  | refused (code : Errno)
  deriving DecidableEq, Repr

/-- the error number that stands for the fault in a message -/
def WatchFault.code : WatchFault → Errno
  | refused code => code
  | slotTooLarge => .invalidArgument

/-- the watch with its ledger -/
structure Notifier where
  host : Host
  registrations : Nat := 0
  deregistrations : Nat := 0

namespace Notifier

def onHost (n : Notifier) (change : Host → Host) : Notifier := { n with host := change n.host }

def register (n : Notifier) (d : Descriptor) (token : Token) (interest : Interest) :
    Noted Notifier (Except WatchFault Unit) :=
  match token.word? with
  | none => { state := n, value := .error .slotTooLarge }
  | some word =>
    let watched := n.host.elapse.watch d word interest
    match watched.2 with
    | .ok () =>
      { state := { n with host := watched.1, registrations := n.registrations + 1 }
        value := .ok ()
        notes := [.registered token interest] }
    | .error code => { state := { n with host := watched.1 }, value := .error (.refused code) }

/-- watches a watched descriptor under another token or for other conditions -/
def reregister (n : Notifier) (d : Descriptor) (token : Token) (interest : Interest) :
    Noted Notifier (Except WatchFault Unit) :=
  match token.word? with
  | none => { state := n, value := .error .slotTooLarge }
  | some word =>
    let watched := n.host.elapse.rewatch d word interest
    match watched.2 with
    | .ok () =>
      { state := { n with host := watched.1 }, value := .ok (), notes := [.reregistered token interest] }
    | .error code => { state := { n with host := watched.1 }, value := .error (.refused code) }

def deregister (n : Notifier) (d : Descriptor) : Notifier × Except Errno Unit :=
  let left := n.host.elapse.unwatch d
  match left.2 with
  | .ok () => ({ n with host := left.1, deregistrations := n.deregistrations + 1 }, .ok ())
  | .error code => ({ n with host := left.1 }, .error code)

/-- waits until something is ready and fills the buffer with it; without a buffer the wait does not end -/
def wait (n : Notifier) (events : Events) : Noted Notifier (Option Events) :=
  let waited := n.host.elapse.wait events.capacity
  match waited.2 with
  | .blocks => { state := { n with host := waited.1 }, value := none }
  | .interrupted =>
    { state := { n with host := waited.1 }, value := some (events.fill []), notes := [.waitInterrupted] }
  | .reports reports =>
    { state := { n with host := waited.1 }, value := some (events.fill reports) }

end Notifier

end EventServer
