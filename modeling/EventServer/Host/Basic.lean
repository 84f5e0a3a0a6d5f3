/-
The host: descriptors and what is behind them, the readiness watch with its queue, and the signals of the server's
thread.

A descriptor is a number that is never used twice. The watch keeps one word and one interest for a descriptor and queues
the descriptor when something that it is watched for may have arisen; a wait looks at the queue in order and reports the
conditions that hold then.

The host has others in it: clients at the near ends of its streams, and whoever sends signals. What they do (`Deed`)
before each of the server's calls to come is part of the host, and every such call starts with letting them do it
(`elapse`); so a statement about all hosts is one about all interleavings.
-/
import EventServer.Endpoint
import EventServer.Host.Stream
import EventServer.Interest

namespace EventServer

/-- the number of an open file, socket or other source -/
abbrev Descriptor := Nat

/-- a connection that waits to be accepted -/
structure Arrival where
  /-- which stream; its far end is the server's -/
  stream : Nat
  peer : Address
  deriving Repr, DecidableEq

/-- what is behind a descriptor -/
inductive Device where
  | stream (id : Nat) (side : Side)
  /-- a regular file, which cannot be watched -/
  | file
  /-- an event counter, which can always be added to -/
  | counter
  /-- a network socket that was never connected -/
  | idleSocket
  | listener (backlog : List Arrival)
  | signalSource (mask : List Int)
  deriving Repr, DecidableEq

namespace Device

def isEnd (id : Nat) (side : Side) : Device → Bool
  | stream id' side' => id == id' && side == side'
  | _ => false

def takes (number : Int) : Device → Bool
  | signalSource mask => mask.contains number
  | _ => false

end Device

/-- whether a stir concerns an interest; trouble concerns every one -/
def Stir.concerns : Stir → Interest → Bool
  | input, i => i.read
  | output, i => i.write
  | any, _ => true

/-- what the watch keeps for one descriptor -/
structure Watch where
  descriptor : Descriptor
  word : UInt64
  interest : Interest
  deriving Repr, DecidableEq

/-- the refusals that calls will meet, one entry for each call to come. What a descriptor is watched for is changed by
calls about that descriptor, and each of these entries is for one descriptor -/
structure Refusals where
  accept : List (Option Errno) := []
  /-- of letting no call on a new connection wait -/
  unblock : List (Option Errno) := []
  watch : List (Option Errno) := []
  rewatch : List (Descriptor × Option Errno) := []
  deriving Repr

namespace Refusals

/-- the refusal that the next change of what a descriptor is watched for will meet -/
def change? (r : Refusals) (d : Descriptor) : Option Errno := (r.rewatch.lookup d).join

/-- what is left once that change was asked for -/
def changed (r : Refusals) (d : Descriptor) : Refusals := { r with rewatch := r.rewatch.eraseP (d == ·.1) }

end Refusals

/-- what others do: clients, each at the near end of its stream, and whoever sends signals -/
inductive Deed where
  | connect (listener : Descriptor) (self : Address)
  | send (client : Descriptor) (bytes : Bytes)
  | recv (client : Descriptor) (count : Nat)
  | finish (client : Descriptor)
  | close (client : Descriptor) (abrupt : Bool)
  | signal (number : Int)
  /-- a signal that nobody reads cuts the next call short that it can -/
  | interrupt
  deriving Repr

namespace Deed

def volume : Deed → Nat
  | send _ bytes => bytes.length
  | _ => 0

def cuts : Deed → Nat
  | interrupt => 1
  | _ => 0

/-- how many connections the deed brings, at most -/
def calls : Deed → Nat
  | connect .. => 1
  | _ => 0

end Deed

/-- the world that the server runs in -/
structure Host where
  streams : List Stream := []
  devices : List (Option Device) := []
  /-- descriptors on which no call waits -/
  unblocked : List Descriptor := []
  watches : List Watch := []
  /-- descriptors to look at in the next wait, in order -/
  queue : List Descriptor := []
  /-- signals that are held back until they are read -/
  blocked : List Int := []
  /-- signals that wait to be read, in increasing order -/
  pending : List Int := []
  /-- how many of the calls to come a signal cuts short -/
  interruptions : Nat := 0
  refusals : Refusals := {}
  /-- what others do before each of the server's calls to come -/
  others : List (List Deed) := []
  routed : Bool := true
  directory : Directory := {}
  taken : List Endpoint := []
  /-- ports below this one need a privilege that the server does not have -/
  unprivileged : Nat := 1024
  spare : UInt16 := 40000
  deriving Repr

namespace Host

def device? (h : Host) (d : Descriptor) : Option Device := (h.devices[d]?).join

def opened (h : Host) (device : Device) : Host × Descriptor :=
  ({ h with devices := h.devices ++ [some device] }, h.devices.length)

def setDevice (h : Host) (d : Descriptor) (device : Option Device) : Host :=
  { h with devices := h.devices.set d device }

/-- the descriptor of the end of a stream, if one is open -/
def descriptorOf? (h : Host) (id : Nat) (side : Side) : Option Descriptor :=
  h.devices.findIdx? fun device => device.any (Device.isEnd id side)

def watch? (h : Host) (d : Descriptor) : Option Watch := h.watches.find? (·.descriptor == d)

/-- puts a descriptor last in the queue, unless it is in it -/
def enqueue (h : Host) (d : Descriptor) : Host :=
  if h.queue.contains d then h else { h with queue := h.queue ++ [d] }

/-- tells the watch that something may have arisen on a descriptor -/
def stir (h : Host) (d : Descriptor) (stir : Stir) : Host :=
  match h.watch? d with
  | some w => if stir.concerns w.interest then h.enqueue d else h
  | none => h

/-- tells the watch what an operation on a stream stirred -/
def stirEnds (h : Host) (id : Nat) (stirs : List (Side × Stir)) : Host :=
  stirs.foldl (fun h stirred =>
    match h.descriptorOf? id stirred.1 with
    | some d => h.stir d stirred.2
    | none => h) h

/-- applies an operation to a stream -/
def onStream {α : Type} (h : Host) (id : Nat) (operation : Stream → Stirred α) (otherwise : α) : Host × α :=
  match h.streams[id]? with
  | some s =>
    let after := operation s
    (({ h with streams := h.streams.set id after.stream } : Host).stirEnds id after.stirs, after.value)
  | none => (h, otherwise)

/-- the sum of a measure over all deeds to come -/
def ahead (h : Host) (measure : Deed → Nat) : Nat := h.others.flatten.foldr (fun deed sum => measure deed + sum) 0

/-- how many bytes are on their way through the host, or will be -/
def unread (h : Host) : Nat := h.streams.foldr (fun s count => s.unread + count) 0 + h.ahead Deed.volume

def cuts (h : Host) : Nat := h.interruptions + h.ahead Deed.cuts

/-- how many connections wait at a listener, or will -/
def callers (h : Host) (listener : Descriptor) : Nat :=
  (match h.device? listener with
    | some (.listener backlog) => backlog.length
    | _ => 0) + h.ahead Deed.calls

def conditions (h : Host) (d : Descriptor) : Conditions :=
  match h.device? d with
  | some (.stream id side) => (h.streams[id]?.map (·.conditions side)).getD {}
  | some .counter => { output := true }
  | some .idleSocket => { output := true, hangup := true }
  | some (.listener backlog) => { input := !backlog.isEmpty }
  | some (.signalSource mask) => { input := h.pending.any mask.contains }
  | some .file | none => {}

/-! ## Streams -/

/-- a connected pair within the host: the descriptors of its near and its far end -/
def openPair (h : Host) : Host × Descriptor × Descriptor :=
  let id := h.streams.length
  let (h, near) := ({ h with streams := h.streams ++ [{ family := .unix }] } : Host).opened (.stream id .near)
  let (h, far) := h.opened (.stream id .far)
  (h, near, far)

/-- what keeps a listener from an endpoint. The host takes every address of four bytes for one of its own; of the others
only those that stand for such an address or for all are its own -/
def obstacle? (h : Host) (endpoint : Endpoint) : Option Errno :=
  let own := match endpoint.ip.unmapped with
    | .v4 _ => true
    | .v6 _ => endpoint.ip.isAny
  if endpoint.ip.isManyfold then some .invalidArgument
  else if endpoint.port.toNat < h.unprivileged then some .accessDenied
  else if endpoint.ip.isLinkLocal && endpoint.scope = 0 then some .invalidArgument
  else if endpoint.ip.isLinkLocal && !h.directory.interfaces.any (·.2 == endpoint.scope) then some .noDevice
  else if !own then some .addressNotAvailable
  else if h.taken.any endpoint.overlaps then some .addressInUse
  else none

/-- listens at an endpoint; port zero stands for any port, and the endpoint that it came to be is given back -/
def listen (h : Host) (endpoint : Endpoint) : Host × Except Errno (Descriptor × Endpoint) :=
  let chosen := if endpoint.port = 0 then { endpoint with port := h.spare } else endpoint
  match h.obstacle? chosen with
  | some code => (h, .error code)
  | none =>
    let (h, d) := h.opened (.listener [])
    (h, .ok (d, { chosen with scope := 0 }))

/-- connects to a listener over the network; the descriptor is the near end's -/
def connect (h : Host) (listener : Descriptor) (self : Address) : Host × Except Errno Descriptor :=
  if !h.routed then (h, .error .networkUnreachable)
  else match h.device? listener with
  | some (.listener backlog) =>
    let id := h.streams.length
    let (h, near) := ({ h with streams := h.streams ++ [{ family := .inet }] } : Host).opened (.stream id .near)
    ((h.setDevice listener (some (.listener (backlog ++ [⟨id, self⟩])))).stir listener .input, .ok near)
  | _ => (h, .error ⟨111⟩)

/-- spends one of the interruptions to come, if there is one -/
def interrupted? (h : Host) : Option Host :=
  if h.interruptions > 0 then some { h with interruptions := h.interruptions - 1 } else none

def receive (h : Host) (d : Descriptor) (count : Nat) : Host × Except Errno Bytes :=
  match h.device? d with
  | none => (h, .error .badDescriptor)
  | some (.stream id side) => h.onStream id (·.recv side count) (.error .badDescriptor)
  | some .idleSocket | some (.listener _) => (h, .error .notConnected)
  | some .file | some .counter | some (.signalSource _) => (h, .error .notSocket)

def transmit (h : Host) (d : Descriptor) (bytes : Bytes) : Host × Except Errno Nat :=
  match h.device? d with
  | none => (h, .error .badDescriptor)
  | some (.stream id side) => h.onStream id (·.send side bytes) (.error .badDescriptor)
  | some .idleSocket | some (.listener _) => (h, .error .brokenPipe)
  | some .file | some .counter | some (.signalSource _) => (h, .error .notSocket)

/-- reads up to `count` bytes from a descriptor, unless a signal cuts the call short -/
def recv (h : Host) (d : Descriptor) (count : Nat) : Host × Except Errno Bytes :=
  match h.interrupted? with
  | some h => (h, .error .interrupted)
  | none => h.receive d count

/-- writes bytes to a descriptor, unless a signal cuts the call short -/
def send (h : Host) (d : Descriptor) (bytes : Bytes) : Host × Except Errno Nat :=
  match h.interrupted? with
  | some h => (h, .error .interrupted)
  | none => h.transmit d bytes

def finish (h : Host) (d : Descriptor) : Host × Except Errno Unit :=
  match h.device? d with
  | none => (h, .error .badDescriptor)
  | some (.stream id side) => h.onStream id (·.finish side) (.error .badDescriptor)
  | some .idleSocket => (h.stir d .any, .error .notConnected)
  | some (.listener _) => (h.stir d .any, .ok ())
  | some .file | some .counter | some (.signalSource _) => (h, .error .notSocket)

/-- takes a descriptor off the watch and out of the queue -/
def forget (h : Host) (d : Descriptor) : Host :=
  { h with watches := h.watches.filter (·.descriptor != d), queue := h.queue.filter (· != d) }

/-- closes a descriptor, which also ends its watch; with `abrupt` its peer is reset -/
def close (h : Host) (d : Descriptor) (abrupt : Bool) : Host :=
  let gone := (h.forget d).setDevice d none
  match h.device? d with
  | some (.stream id side) => (gone.onStream id (·.close side abrupt) ()).1
  | some (.listener backlog) =>
    backlog.foldl (fun h arrival => (h.onStream arrival.stream (·.close .far true) ()).1) gone
  | _ => gone

/-! ## Accepting -/

/-- opens the oldest waiting connection of a listener; a refusal comes before all else that an open descriptor
decides -/
def accept (h : Host) (listener : Descriptor) : Host × Except Errno (Descriptor × Address) :=
  let refusal := h.refusals.accept.head?.join
  let h : Host := { h with refusals := { h.refusals with accept := h.refusals.accept.tail } }
  match h.device? listener, refusal with
  | none, _ => (h, .error .badDescriptor)
  | some _, some code => (h, .error code)
  | some (.listener []), none => (h, .error .again)
  | some (.listener (arrival :: rest)), none =>
    let (h, d) := (h.setDevice listener (some (.listener rest))).opened (.stream arrival.stream .far)
    (h, .ok (d, arrival.peer))
  | some (.stream ..), none | some .idleSocket, none => (h, .error .invalidArgument)
  | some .file, none | some .counter, none | some (.signalSource _), none => (h, .error .notSocket)

/-- lets no call on a descriptor wait from now on -/
def unblock (h : Host) (d : Descriptor) : Host × Except Errno Unit :=
  let refusal := h.refusals.unblock.head?.join
  let h : Host := { h with refusals := { h.refusals with unblock := h.refusals.unblock.tail } }
  match h.device? d, refusal with
  | none, _ => (h, .error .badDescriptor)
  | some _, some code => (h, .error code)
  | some _, none => ({ h with unblocked := d :: h.unblocked }, .ok ())

/-! ## The watch -/

/-- whether anything of the interest, or trouble, holds on a descriptor -/
def holds (h : Host) (d : Descriptor) (interest : Interest) : Bool :=
  let c := h.conditions d
  (interest.read && c.input) || (interest.write && c.output) || c.error || c.hangup

/-- the descriptor is open and can be watched -/
def watchable (h : Host) (d : Descriptor) : Except Errno Unit :=
  match h.device? d with
  | none => .error .badDescriptor
  | some .file => .error .notPermitted
  | some _ => .ok ()

def watch (h : Host) (d : Descriptor) (word : UInt64) (interest : Interest) : Host × Except Errno Unit :=
  let refusal := h.refusals.watch.head?.join
  let h : Host := { h with refusals := { h.refusals with watch := h.refusals.watch.tail } }
  match refusal, h.watchable d with
  | some code, _ => (h, .error code)
  | none, .error code => (h, .error code)
  | none, .ok () =>
    match h.watch? d with
    | some _ => (h, .error .alreadyExists)
    | none =>
      let h : Host := { h with watches := h.watches ++ [⟨d, word, interest⟩] }
      (if h.holds d interest then h.enqueue d else h, .ok ())

/-- watches a watched descriptor under another word or for other conditions -/
def rewatch (h : Host) (d : Descriptor) (word : UInt64) (interest : Interest) : Host × Except Errno Unit :=
  let refusal := h.refusals.change? d
  let h : Host := { h with refusals := h.refusals.changed d }
  match refusal, h.watchable d with
  | some code, _ => (h, .error code)
  | none, .error code => (h, .error code)
  | none, .ok () =>
    match h.watch? d with
    | none => (h, .error .noEntry)
    | some _ =>
      let h : Host := { h with watches := h.watches.map fun w => if w.descriptor == d then ⟨d, word, interest⟩ else w }
      (if h.holds d interest then h.enqueue d else h, .ok ())

def unwatch (h : Host) (d : Descriptor) : Host × Except Errno Unit :=
  match h.watchable d with
  | .error code => (h, .error code)
  | .ok () =>
    match h.watch? d with
    | none => (h, .error .noEntry)
    | some _ => (h.forget d, .ok ())

/-- what of a descriptor's conditions is reported under an interest -/
def visible (interest : Interest) (c : Conditions) : Conditions :=
  { c with input := interest.read && c.input, output := interest.write && c.output }

/-- what a wait found: reports, descriptors that it did not come to, and those to look at again -/
structure Harvest where
  reports : List (Watch × Conditions) := []
  left : List Descriptor := []
  again : List Descriptor := []

/-- looks at queued descriptors in order until `capacity` of them have something to report -/
def harvest (h : Host) : Nat → List Descriptor → Harvest
  | _, [] => {}
  | 0, d :: rest => { left := d :: rest }
  | capacity + 1, d :: rest =>
    match h.watch? d with
    | none => h.harvest (capacity + 1) rest
    | some w =>
      let c := visible w.interest (h.conditions d)
      if c.none then h.harvest (capacity + 1) rest
      else
        let found := h.harvest capacity rest
        { found with
          reports := (w, c) :: found.reports
          again := if w.interest.edge then found.again else d :: found.again }

inductive Waited where
  | blocks
  | interrupted
  /-- what is ready, under the watched words -/
  | reports (reports : List (UInt64 × Conditions))
  deriving Repr

/-- takes at most `capacity` reports -/
def wait (h : Host) (capacity : Nat) : Host × Waited :=
  let found := h.harvest capacity h.queue
  let after : Host := { h with queue := found.left ++ found.again }
  if found.reports.isEmpty then
    match after.interrupted? with
    | some h => (h, .interrupted)
    | none => (after, .blocks)
  else (after, .reports (found.reports.map fun report => (report.1.word, report.2)))

/-! ## Signals -/

/-- the signals that are never held back -/
def unstoppable : List Int := [9, 19]

/-- puts a signal among those that wait, in order and once -/
def insertSignal (number : Int) : List Int → List Int
  | [] => [number]
  | n :: rest =>
    if number < n then number :: n :: rest
    else if number = n then n :: rest
    else n :: insertSignal number rest

/-- holds the signals of the mask back and opens a source of them -/
def openSource (h : Host) (mask : List Int) : Host × Descriptor :=
  let held := mask.filter fun n => !unstoppable.contains n && !h.blocked.contains n
  ({ h with blocked := h.blocked ++ held.eraseDups } : Host).opened (.signalSource mask)

/-- the signals that stop a process for a while -/
def stopping : List Int := [19, 20, 21, 22]

/-- the signal that lets a stopped process go on -/
def continuing : Int := 18

/-- the signals that no longer wait once this one comes: stopping and going on call each other off -/
def calledOff (number : Int) : List Int :=
  if number = continuing then stopping else if stopping.contains number then [continuing] else []

def urgent : List Int := [4, 5, 7, 8, 11, 31]

/-- a signal comes to the server's thread; false if nothing holds it back, so that it is not sent -/
def raise (h : Host) (number : Int) : Host × Bool :=
  if h.blocked.contains number then
    let waiting := h.pending.filter fun n => !(calledOff number).contains n
    let h : Host := { h with pending := insertSignal number waiting }
    let sources := h.devices.zipIdx.filter fun entry => entry.1.any (Device.takes number)
    (sources.foldl (fun h entry => h.stir entry.2 .input) h, true)
  else (h, false)

/-- reads the lowest waiting signal that a source takes, an urgent one if there is one -/
def readSignal (h : Host) (d : Descriptor) : Host × Option Int :=
  match h.device? d with
  | some (.signalSource mask) =>
    let waiting := h.pending.filter mask.contains
    match (waiting.find? urgent.contains).or waiting.head? with
    | some number => ({ h with pending := h.pending.erase number }, some number)
    | none => (h, none)
  | _ => (h, none)

/-! ## Others -/

def client? (h : Host) (d : Descriptor) : Option Nat :=
  match h.device? d with
  | some (.stream id .near) => some id
  | _ => none

/-- others do something; a client that is gone does nothing -/
def act (h : Host) : Deed → Host
  | .connect listener self => (h.connect listener self).1
  | .send d bytes => if (h.client? d).isSome then (h.transmit d bytes).1 else h
  | .recv d count => if (h.client? d).isSome then (h.receive d count).1 else h
  | .finish d => if (h.client? d).isSome then (h.finish d).1 else h
  | .close d abrupt => if (h.client? d).isSome then h.close d abrupt else h
  | .signal number => (h.raise number).1
  | .interrupt => { h with interruptions := h.interruptions + 1 }

/-- others do what they do before the next call -/
def elapse (h : Host) : Host := (h.others.headD []).foldl act { h with others := h.others.tail }

end Host

end EventServer
