/-
Sessions with the notifier and with calls that never wait, over descriptors that are known by names.
-/
import EventServer.Nonblocking
import EventServer.Notifier
import EventServer.Scenario.Basic

namespace EventServer.Scenario.Descriptors

inductive Oddity where
  | file | counter | idleSocket
  deriving Repr, DecidableEq

def Oddity.device : Oddity → Device
  | file => .file
  | counter => .counter
  | idleSocket => .idleSocket

inductive Step where
  | pair (near far : String)
  | odd (name : String) (oddity : Oddity)
  | close (name : String)
  | shut (name : String)
  | register (name : String) (token : Token) (interest : Interest)
  | reregister (name : String) (token : Token) (interest : Interest)
  | deregister (name : String)
  | wait
  | waitInterrupted
  | recv (name : String) (count : Nat)
  | send (name : String) (bytes : Bytes)
  /-- reads while nothing is there, through several signals, until the other name sends -/
  | recvInterrupted (name sender : String) (bytes : Bytes)
  | fill (name : String)
  | drain (name : String)
  | listen (name : String)
  | connect (listener client : String)
  /-- accepts under a name; with `starved` no descriptor may be opened -/
  | accept (listener name client : String) (starved : Bool)
  deriving Repr

/-- what was found of an accepted connection -/
structure Accepted where
  /-- no call on it waits -/
  unblocked : Bool
  /-- it is the named client's -/
  isClient : Bool
  deriving Repr

inductive Result where
  | nothing
  | flag (value : Bool)
  | changed (result : Except Errno Unit)
  /-- a wait; none if it would not have ended -/
  | waited (events : Option Events)
  | woken (events : Option Events)
  | received (outcome : Outcome Bytes)
  | sent (outcome : Outcome Nat)
  /-- whether anything was sent, and how the last attempt ended -/
  | filled (any : Bool) (last : Outcome Nat)
  /-- whether anything was read, and how the last attempt ended -/
  | drained (any : Bool) (last : Outcome Bytes)
  | accepted (outcome : Outcome Accepted)

structure State where
  notifier : Notifier
  names : List (String × Descriptor) := []
  events : Events

structure View where
  result : Result
  watches : List Watch
  registrations : Nat
  deregistrations : Nat
  notes : List Note := []

namespace State

def host (s : State) : Host := s.notifier.host

def descriptor (s : State) (name : String) : Descriptor := (s.names.lookup name).getD s.host.devices.length

def withHost (s : State) (host : Host) : State := { s with notifier := { s.notifier with host } }

def release (s : State) (name : String) : State :=
  match s.names.lookup name with
  | none => s
  | some d => { s.withHost (s.host.close d false) with names := s.names.filter (·.1 != name) }

/-- lets a name stand for a descriptor; what it stood for before is closed -/
def bind (s : State) (name : String) (d : Descriptor) : State :=
  let s := s.release name
  { s with names := (name, d) :: s.names }

end State

def bulk : Nat := 65536

def fillUp : Nat → Host → Descriptor → Bool → Host × Bool × Outcome Nat
  | 0, h, _, any => (h, any, .wouldBlock)
  | limit + 1, h, d, any =>
    match Nonblocking.send h d (List.replicate bulk (Bytes.ascii 'x')) with
    | (h, .done _) => fillUp limit h d true
    | (h, outcome) => (h, any, outcome)

def drainAll : Nat → Host → Descriptor → Bool → Host × Bool × Outcome Bytes
  | 0, h, _, any => (h, any, .wouldBlock)
  | limit + 1, h, d, any =>
    match Nonblocking.recv h d bulk with
    | (h, .done []) => (h, any, .done [])
    | (h, .done _) => drainAll limit h d true
    | (h, outcome) => (h, any, outcome)

/-- the error number of a refused change of the watch; a slot without a word ends the session -/
def settled {σ : Type} (changed : Noted σ (Except WatchFault Unit)) : Except Abort (σ × Result × List Note) :=
  match changed.value with
  | .ok () => .ok (changed.state, .changed (.ok ()), changed.notes)
  | .error (.refused code) => .ok (changed.state, .changed (.error code), changed.notes)
  | .error .slotTooLarge => .error .slotTooLarge

/-- reads from a descriptor through interruptions, after bytes came if none were there -/
def recvThrough (h : Host) (d other : Descriptor) (bytes : Bytes) : Host × Outcome Bytes :=
  let (tried, first) := Nonblocking.recv h d 64
  match first with
  | .wouldBlock => Nonblocking.recv { (Nonblocking.send tried other bytes).1 with interruptions := 3 } d 64
  | outcome => ((Nonblocking.send tried other bytes).1, outcome)

/-- what a step does: the state after it, its result, and the notes it makes -/
def perform (s : State) : Step → Except Abort (State × Result × List Note)
  | .pair near far =>
    let (host, a, b) := s.host.openPair
    .ok (((s.withHost host).bind near a).bind far b, .nothing, [])
  | .odd name oddity =>
    let (host, d) := s.host.opened oddity.device
    .ok ((s.withHost host).bind name d, .nothing, [])
  | .close name => .ok (s.release name, .flag (s.names.lookup name).isSome, [])
  | .shut name =>
    let (host, result) := s.host.finish (s.descriptor name)
    .ok (s.withHost host, .flag result.isOk, [])
  | .register name token interest => do
    let (notifier, result, notes) ← settled (s.notifier.register (s.descriptor name) token interest)
    return ({ s with notifier }, result, notes)
  | .reregister name token interest => do
    let (notifier, result, notes) ← settled (s.notifier.reregister (s.descriptor name) token interest)
    return ({ s with notifier }, result, notes)
  | .deregister name =>
    let (notifier, result) := s.notifier.deregister (s.descriptor name)
    .ok ({ s with notifier }, .changed result, [])
  | .wait =>
    let waited := s.notifier.wait s.events
    .ok ({ s with notifier := waited.state, events := waited.value.getD s.events }, .waited waited.value, waited.notes)
  | .waitInterrupted =>
    let waited := (s.notifier.onHost fun h => { h with interruptions := 1 }).wait s.events
    .ok ({ s with notifier := waited.state.onHost fun h => { h with interruptions := 0 },
                  events := waited.value.getD s.events }, .woken waited.value, waited.notes)
  | .recv name count =>
    let (host, outcome) := Nonblocking.recv s.host (s.descriptor name) count
    .ok (s.withHost host, .received outcome, [])
  | .send name bytes =>
    let (host, outcome) := Nonblocking.send s.host (s.descriptor name) bytes
    .ok (s.withHost host, .sent outcome, [])
  | .recvInterrupted name other bytes =>
    let (host, outcome) := recvThrough s.host (s.descriptor name) (s.descriptor other) bytes
    .ok (s.withHost host, .received outcome, [])
  | .fill name =>
    let (host, any, last) := fillUp (streamCapacity + 1) s.host (s.descriptor name) false
    .ok (s.withHost host, .filled any last, [])
  | .drain name =>
    let (host, any, last) := drainAll (streamCapacity + 1) s.host (s.descriptor name) false
    .ok (s.withHost host, .drained any last, [])
  | .listen name =>
    let (host, d) := s.host.opened (.listener [])
    .ok ((s.withHost host).bind name d, .nothing, [])
  | .connect listener client =>
    match s.host.connect (s.descriptor listener) ⟨client⟩ with
    | (_, .error code) => .error (.noConnection code)
    | (host, .ok d) => .ok ((s.withHost host).bind client d, .nothing, [])
  | .accept listener name client starved =>
    let refusals := { s.host.refusals with accept := if starved then [some .tooManyOpen] else [] }
    match Nonblocking.accept { s.host with refusals } (s.descriptor listener) with
    | (host, .done (d, peer)) =>
      .ok ((s.withHost host).bind name d,
        .accepted (.done ⟨host.unblocked.contains d, peer.text == client⟩), [])
    | (host, .wouldBlock) => .ok (s.withHost host, .accepted .wouldBlock, [])
    | (host, .failed fault) => .ok (s.withHost host, .accepted (.failed fault), [])

def step (s : State) (st : Step) : Except Abort (State × View) := do
  let (after, result, notes) ← perform s st
  return (after,
    { result
      watches := after.host.watches
      registrations := after.notifier.registrations
      deregistrations := after.notifier.deregistrations
      notes })

def run (host : Host) (capacity : Nat) (steps : List Step) : Except Abort (List View) :=
  attempts step { notifier := { host }, events := .ofCapacity capacity } steps

end EventServer.Scenario.Descriptors
