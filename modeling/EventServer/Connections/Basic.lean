/-
The table of live connections. A connection is known by its slot; the notifier only ever sees slots, so a report for a
slot that was freed finds nothing and is dropped.

Connections are watched edge-triggered. A handle is parked only after a call would have had to wait, so the next arrival
is an edge; room to write is watched only while a write is parked, and only if the table is set to (`armWrites`).
-/
import EventServer.Nonblocking
import EventServer.Notifier
import EventServer.ParkingSlot
import EventServer.Poll
import EventServer.Slots

namespace EventServer

/-- one accepted connection and the handles parked on it -/
structure Connection (H : Type) where
  descriptor : Descriptor
  peer : Address
  read : ParkingSlot H := .empty
  write : ParkingSlot H := .empty
  /-- whether room to write is being watched -/
  armed : Bool := false

namespace Connection

variable {H : Type}

/-- the connection without what was parked on it; nobody is woken -/
def cleared (conn : Connection H) : Connection H := { conn with read := conn.read.clear.1, write := conn.write.clear.1 }

@[simp] theorem descriptor_cleared (conn : Connection H) : conn.cleared.descriptor = conn.descriptor := rfl

end Connection

/-- the live connections, the notifier that watches them, and whether parked writes are watched -/
structure Connections (H : Type) where
  slots : Slots (Connection H)
  notifier : Notifier
  armWrites : Bool

namespace Connections

variable {H : Type}

/-- what an idle connection is watched for -/
def idleInterest : Interest := Interest.reading.edgeTriggered

/-- what a connection with a parked write is watched for -/
def writingInterest : Interest := Interest.readingAndWriting.edgeTriggered

def empty (notifier : Notifier) (armWrites : Bool) : Connections H := ⟨.empty, notifier, armWrites⟩

def onHost (c : Connections H) (change : Host → Host) : Connections H :=
  { c with notifier := c.notifier.onHost change }

def get? (c : Connections H) (key : Nat) : Option (Connection H) := c.slots.get? key

def put (c : Connections H) (key : Nat) (conn : Connection H) : Connections H :=
  { c with slots := c.slots.set key conn }

def isEmpty (c : Connections H) : Bool := c.slots.isEmpty

/-- takes a connection in and watches it for reading; if that is refused the descriptor is closed -/
def insert (c : Connections H) (d : Descriptor) (peer : Address) : Noted (Connections H) (Except WatchFault Nat) :=
  let key := c.slots.nextKey
  let watched := c.notifier.register d (.connection key) idleInterest
  match watched.value with
  | .ok () =>
    { state := { c with slots := c.slots.insert { descriptor := d, peer }, notifier := watched.state }
      value := .ok key
      notes := watched.notes }
  | .error fault =>
    { state := { c with notifier := watched.state.onHost (·.elapse.close d false) }
      value := .error fault
      notes := watched.notes }

/-- takes a connection out: off the watch first, then its handles are released and it is closed -/
def remove (c : Connections H) (key : Nat) : Noted (Connections H) Bool :=
  match c.get? key with
  | none => { state := c, value := false }
  | some conn =>
    let left := c.notifier.deregister conn.descriptor
    { state :=
        { c with
          slots := c.slots.erase key
          notifier := left.1.onHost (·.elapse.close conn.cleared.descriptor false) }
      value := true
      notes := match left.2 with
        | .ok () => []
        | .error code => [.watchKept conn.peer code] }

/-- watches a connection for other conditions and notes whether room to write is now watched -/
def rearm (c : Connections H) (key : Nat) (conn : Connection H) (armed : Bool) : Noted (Connections H) Unit :=
  let interest := if armed then writingInterest else idleInterest
  let changed := c.notifier.reregister conn.descriptor (.connection key) interest
  match changed.value with
  | .ok () =>
    { state := ({ c with notifier := changed.state } : Connections H).put key { conn with armed }
      value := ()
      notes := changed.notes }
  | .error fault =>
    let code := fault.code
    { state := ({ c with notifier := changed.state } : Connections H).put key conn
      value := ()
      notes := changed.notes ++ [if armed then .armFailed conn.peer code else .disarmFailed conn.peer code] }

/-- resumes what is parked in a slot for the reported directions; trouble concerns both. The value is the handles to
wake -/
def fire (c : Connections H) (key : Nat) (r : Readiness) : Noted (Connections H) (List H) :=
  match c.get? key with
  | none => { state := c, value := [], notes := [.staleReadiness key] }
  | some conn =>
    let reader := if r.readable || r.closed then conn.read.wake else (conn.read, none)
    let writer := if r.writable || r.closed then conn.write.wake else (conn.write, none)
    let resumed := { conn with read := reader.1, write := writer.1 }
    let woken := reader.2.toList ++ writer.2.toList
    let disarmed :=
      if (r.writable || r.closed) && conn.armed then c.rearm key resumed false
      else { state := c.put key resumed, value := () }
    { state := disarmed.state
      value := woken
      notes := disarmed.notes ++ if r.closed && woken.isEmpty then [.unheededTrouble conn.peer] else [] }

/-- the fault of using a slot that was freed -/
def released (key : Nat) : Fault :=
  .custom .notConnected ("connection slot " ++ toString key ++ " already released")

/-- the note of parking a handle where another was -/
def replacement (direction : Direction) (key : Nat) (replaced : Option H) : List Note :=
  if replaced.isSome then [.replacedParked direction key] else []

/-- reads up to `count` bytes; if that would have to wait the handle is parked -/
def recv (c : Connections H) (key : Nat) (handle : H) (count : Nat) :
    Noted (Connections H) (Poll (Except Fault Bytes)) :=
  match c.get? key with
  | none => { state := c, value := .ready (.error (released key)) }
  | some conn =>
    let received := Nonblocking.recv c.notifier.host conn.descriptor count
    let c := c.onHost fun _ => received.1
    match received.2 with
    | .done bytes => { state := c, value := .ready (.ok bytes) }
    | .failed fault => { state := c, value := .ready (.error fault) }
    | .wouldBlock =>
      let stored := conn.read.store handle
      { state := c.put key { conn with read := stored.1 }
        value := .pending
        notes := replacement .read key stored.2 }

/-- writes bytes; if that would have to wait the handle is parked and, if so set, room to write is watched -/
def send (c : Connections H) (key : Nat) (handle : H) (bytes : Bytes) :
    Noted (Connections H) (Poll (Except Fault Nat)) :=
  match c.get? key with
  | none => { state := c, value := .ready (.error (released key)) }
  | some conn =>
    let sent := Nonblocking.send c.notifier.host conn.descriptor bytes
    let c := c.onHost fun _ => sent.1
    match sent.2 with
    | .done count => { state := c, value := .ready (.ok count) }
    | .failed fault => { state := c, value := .ready (.error fault) }
    | .wouldBlock =>
      let stored := conn.write.store handle
      let parked := { conn with write := stored.1 }
      let armed :=
        if c.armWrites && !conn.armed then c.rearm key parked true
        else { state := c.put key parked, value := () }
      { state := armed.state
        value := .pending
        notes := replacement .write key stored.2 ++ armed.notes }

/-- shuts a connection down for writing; one that has lost its peer counts as shut down -/
def shutdown (c : Connections H) (key : Nat) : Connections H × Except Fault Unit :=
  match c.get? key with
  | none => (c, .error (released key))
  | some conn =>
    let finished := c.notifier.host.elapse.finish conn.descriptor
    (c.onHost fun _ => finished.1,
      match finished.2 with
      | .ok () => .ok ()
      | .error code => if code.kind = .notConnected then .ok () else .error (.system code))

end Connections

end EventServer
