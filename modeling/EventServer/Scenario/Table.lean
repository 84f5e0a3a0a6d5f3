/-
Sessions with the table of connections, with the transports over it and, if asked for, with the engine. Clients are the
near ends of streams whose far ends are in the table; they write, read and close whenever a step says so.

A parked handle is either a task's or a probe's, and a probe only counts how often it is woken.
-/
import EventServer.Engine
import EventServer.Http.Exchange
import EventServer.Scenario.Basic

namespace EventServer.Scenario.Table

/-- what a parked handle resumes -/
inductive Resume where
  | task (handle : Handle)
  | probe (number : Nat)
  deriving Repr, DecidableEq

inductive Farewell where
  | shut | close | reset
  deriving Repr, DecidableEq

inductive Step where
  | connect (family : Family)
  | accept (family : Family)
  | serve (key : Nat)
  /-- puts something into the table that is no socket -/
  | insertOdd (device : Device)
  | remove (key : Nat)
  | fire (key : Nat) (readable writable closed : Bool)
  /-- takes the server's end of a client off the watch, past the table -/
  | unwatch (client : Nat)
  /-- takes what is ready, resumes what waits for it, and pumps -/
  | turn
  | pump
  | dropEngine
  | recv (key probe count : Nat)
  | send (key probe : Nat) (bytes : Bytes)
  /-- reads through a transport, which gives the slot along with the bytes -/
  | transportRecv (key probe count : Nat)
  /-- flushes and shuts down for the first probe, as transports do at once -/
  | transportFlush (key : Nat)
  | transportShutdown (key : Nat)
  /-- sends until that would have to wait, or fails -/
  | fill (key probe : Nat)
  | clientWrite (client : Nat) (bytes : Bytes)
  | clientRead (client : Nat)
  /-- reads like `clientRead`, but shows only whether bytes came -/
  | clientDrain (client : Nat)
  | clientEnd (client : Nat) (farewell : Farewell)
  /-- pipelines requests, never reading, until the server's write is parked -/
  | flood (client : Nat)
  | relieve (client : Nat)
  deriving Repr

inductive ReadEnd where
  | open
  | eof
  | failed (fault : Fault)
  deriving Repr, DecidableEq

/-- a slot that was fired, with what was ready and how many handles were woken -/
structure Fired where
  key : Nat
  readiness : Readiness
  woken : Nat

inductive Result where
  | nothing
  | flag (value : Bool)
  | count (value : Nat)
  /-- a client's connection, its slot, and whether the table knows the client's address -/
  | connected (client key : Nat) (peerKept : Bool)
  | inserted (result : Except Errno Nat)
  | changed (result : Except Errno Unit)
  | turned (fired : List Fired) (pump : Option PumpTally)
  /-- a pump; nothing without an engine -/
  | pumped (report : Option PumpTally)
  | received (key : Option Nat) (result : Poll (Except Fault Bytes))
  | sent (result : Poll (Except Fault Nat))
  | ended (result : Except Fault Unit)
  | filled (any : Bool) (last : Poll (Except Fault Nat))
  /-- a client's write; nothing if the client is closed -/
  | clientWrote (result : Option (Except Fault Unit))
  /-- a client's read; nothing if the client is closed -/
  | clientRead (result : Option (Bytes × ReadEnd))
  | clientDrained (result : Option (Bytes × ReadEnd))
  | flooded (parked quiet : Bool)
  | relieved (any stillOpen parked : Bool)

/-- a client: its end of the stream, the server's end, and the slot of that -/
structure Client where
  descriptor : Descriptor
  server : Descriptor
  key : Nat
  isOpen : Bool := true

structure State where
  connections : Connections Resume
  engine : Option (Engine Http.Exchange)
  clients : List Client := []
  woken : List Nat := []

/-- what a step shows of a slot -/
structure SlotView where
  live : Bool := false
  readParked : Bool := false
  writeParked : Bool := false
  armed : Bool := false

structure View where
  result : Result
  slots : List SlotView
  isEmpty : Bool
  watches : List Watch
  registrations : Nat
  deregistrations : Nat
  /-- tasks in flight while there is an engine, the tally of probes otherwise -/
  activity : Nat ⊕ List (Nat × Nat)
  journal : Journal

namespace State

def host (s : State) : Host := s.connections.notifier.host

def withHost (s : State) (host : Host) : State := { s with connections := s.connections.onHost fun _ => host }

/-- the state with a place for a probe -/
def knowing (s : State) (probe : Nat) : State := { s with woken := covering 0 probe s.woken }

def wake (s : State) : Resume → State
  | .task handle => { s with engine := s.engine.map (·.wake handle) }
  | .probe number => { s with woken := s.woken.modify number (· + 1) }

def pump (s : State) : State × Option PumpTally × Journal :=
  match s.engine with
  | none => (s, none, [])
  | some engine =>
    let site : Site Resume := { connections := s.connections }
    match engine.pump .task (engine.patience site) site with
    | none => (s, none, [])
    | some pumped =>
      ({ s with engine := some pumped.engine, connections := pumped.site.connections }, some pumped.report,
        pumped.site.journal)

def fire (s : State) (key : Nat) (readiness : Readiness) : State × Nat × Journal :=
  let fired := s.connections.fire key readiness
  (fired.value.foldl wake { s with connections := fired.state }, fired.value.length, fired.notes.map Entry.plain)

def fireAll (s : State) : List Readiness → State × List Fired × Journal
  | [] => (s, [], [])
  | readiness :: rest =>
    match readiness.token with
    | .connection key =>
      let (s, woken, journal) := s.fire key readiness
      let (s, fired, more) := s.fireAll rest
      (s, ⟨key, readiness, woken⟩ :: fired, journal ++ more)
    | .listener | .signals => s.fireAll rest

def turnCapacity : Nat := 1024

/-- takes what is ready, resumes what waits for it, and pumps -/
def turn (s : State) : State × List Fired × Option PumpTally × Journal :=
  let waited := s.connections.notifier.wait (.ofCapacity turnCapacity)
  let s := { s with connections := { s.connections with notifier := waited.state } }
  let (s, fired, journal) := s.fireAll (waited.value.elim [] (·.toList))
  let (s, report, more) := s.pump
  (s, fired, report, journal ++ more)

def isQuiet (s : State) : Bool := (s.connections.notifier.wait (.ofCapacity turnCapacity)).value.isNone

def writeParked (s : State) (key : Nat) : Bool := (s.connections.get? key).any (·.write.isParked)

def client? (s : State) (number : Nat) : Option Client := s.clients[number]?.filter (·.isOpen)

/-- what is shown of every slot that was ever used -/
def slotViews (s : State) : List SlotView :=
  s.connections.slots.entries.map fun entry =>
    match entry with
    | none => {}
    | some conn =>
      { live := true, readParked := conn.read.isParked, writeParked := conn.write.isParked, armed := conn.armed }

def parkedProbes (s : State) : List Nat :=
  s.connections.slots.toList.flatMap fun entry =>
    [entry.2.read.handle, entry.2.write.handle].filterMap fun handle =>
      match handle with
      | some (.probe number) => some number
      | _ => none

end State

/-! ## Clients -/

def addressOf (client : Nat) : Address := ⟨"<c" ++ toString client ++ ">"⟩

/-- connects a client: its own end, and the server's end with the address that the server sees -/
def dial (host : Host) (client : Nat) : Family → Except Abort (Host × Descriptor × Descriptor × Address)
  | .unix =>
    let (host, near, far) := host.openPair
    .ok (host, near, far, addressOf client)
  | .inet =>
    let (host, listener) := host.opened (.listener [])
    match host.connect listener (addressOf client) with
    | (_, .error code) => .error (.noConnection code)
    | (host, .ok near) =>
      match host.accept listener with
      | (_, .error code) => .error (.noConnection code)
      | (host, .ok (far, peer)) => .ok (host.close listener false, near, far, peer)

def connect (s : State) (family : Family) : Except Abort (State × Client × Nat × Bool × Journal) := do
  let number := s.clients.length
  let (host, near, far, peer) ← dial s.host number family
  let inserted := (s.withHost host).connections.insert far peer
  match inserted.value with
  | .error fault => .error (.noConnection fault.code)
  | .ok key =>
    let client : Client := { descriptor := near, server := far, key }
    .ok ({ s with connections := inserted.state, clients := s.clients ++ [client] }, client, number,
      decide ((inserted.state.get? key).map (·.peer) = some peer), inserted.notes.map Entry.plain)

/-- enrolls the exchange of a slot, if there is an engine -/
def serve (s : State) (key : Nat) : State × Journal :=
  match s.engine with
  | none => (s, [])
  | some engine =>
    let peer := ((s.connections.get? key).map (·.peer)).getD ⟨"0.0.0.0:0"⟩
    let served := engine.serve key peer
    ({ s with engine := some served.state }, served.notes.map Entry.plain)

def bulk : Nat := 65536

def writeAll : Nat → Host → Descriptor → Bytes → Host × Except Fault Unit
  | 0, h, _, _ => (h, .ok ())
  | limit + 1, h, d, bytes =>
    if bytes.isEmpty then (h, .ok ())
    else match Nonblocking.send h d bytes with
    | (h, .done count) => writeAll limit h d (bytes.drop count)
    | (h, .wouldBlock) => (h, .error (.plain .wouldBlock))
    | (h, .failed fault) => (h, .error fault)

def readAll : Nat → Host → Descriptor → Bytes → Host × Bytes × ReadEnd
  | 0, h, _, got => (h, got, .open)
  | limit + 1, h, d, got =>
    match Nonblocking.recv h d bulk with
    | (h, .done []) => (h, got, .eof)
    | (h, .done bytes) => readAll limit h d (got ++ bytes)
    | (h, .wouldBlock) => (h, got, .open)
    | (h, .failed fault) => (h, got, .failed fault)

def readClient (s : State) (client : Client) : State × Bytes × ReadEnd :=
  let (host, bytes, readEnd) := readAll (streamCapacity + 2) s.host client.descriptor []
  (s.withHost host, bytes, readEnd)

/-! ## Floods -/

/-- the requests that a flood sends at a time -/
def batch : Bytes := (List.replicate 64 (Bytes.ofText "GET / HTTP/1.1\r\nHost: x\r\n\r\n")).flatten

/-- sends what a client has left of its requests, as far as it is accepted -/
def offer (s : State) (client : Client) (pending : Bytes) : State × Bytes :=
  match Nonblocking.send s.host client.descriptor pending with
  | (host, .done count) => (s.withHost host, pending.drop count)
  | (host, _) => (s.withHost host, pending)

/-- sends requests and turns until the server's write is parked, at most so many times -/
def floodUntilParked : Nat → State → Client → Bytes → State × Bytes
  | 0, s, _, pending => (s, pending)
  | limit + 1, s, client, pending =>
    if s.writeParked client.key then (s, pending)
    else
      let (s, pending) := offer s client (if pending.isEmpty then batch else pending)
      floodUntilParked limit s.turn.1 client pending

/-- reads and turns until nothing more comes, at most so many times -/
def relieveUntilDry : Nat → State → Client → Bool → State × Bool × ReadEnd
  | 0, s, _, any => (s, any, .open)
  | limit + 1, s, client, any =>
    let (s, bytes, readEnd) := readClient s client
    if bytes.isEmpty then (s.turn.1, any, readEnd) else relieveUntilDry limit s.turn.1 client true

def patience : Nat := 20000

/-! ## Steps -/

/-- sends through the table until that is parked or fails -/
def fillUp : Nat → Connections Resume → Nat → Resume → Bool → List Note →
    Connections Resume × Bool × Poll (Except Fault Nat) × List Note
  | 0, c, _, _, any, notes => (c, any, .pending, notes)
  | limit + 1, c, key, handle, any, notes =>
    let sent := c.send key handle (List.replicate bulk (Bytes.ascii 'x'))
    match sent.value with
    | .ready (.ok _) => fillUp limit sent.state key handle true (notes ++ sent.notes)
    | last => (sent.state, any, last, notes ++ sent.notes)

abbrev Done := State × Result × Journal

def done {α : Type} (s : State) (result : Noted (Connections Resume) α) (present : α → Result) : Done :=
  ({ s with connections := result.state }, present result.value, result.notes.map Entry.plain)

/-- what a client's step does -/
def withClient (s : State) (number : Nat) (otherwise : Result) (act : Client → Done) : Done :=
  match s.client? number with
  | some client => act client
  | none => (s, otherwise, [])

def bid (s : State) (number : Nat) (client : Client) : Farewell → State
  | .shut => s.withHost (s.host.finish client.descriptor).1
  | farewell =>
    { s.withHost (s.host.close client.descriptor (farewell = .reset)) with
      clients := s.clients.set number { client with isOpen := false } }

def perform (s : State) : Step → Except Abort Done
  | .connect family => do
    let (s, client, number, kept, journal) ← connect s family
    return (s, .connected number client.key kept, journal)
  | .accept family => do
    let (s, client, number, kept, journal) ← connect s family
    let (s, more) := serve s client.key
    return (s, .connected number client.key kept, journal ++ more)
  | .serve key =>
    let (s, journal) := serve s key
    .ok (s, .nothing, journal)
  | .insertOdd device =>
    let (host, d) := s.host.opened device
    .ok (done s ((s.withHost host).connections.insert d ⟨"127.0.0.1:1"⟩) fun result =>
      .inserted (result.mapError WatchFault.code))
  | .remove key => .ok (done s (s.connections.remove key) .flag)
  | .fire key readable writable closed =>
    let (s, woken, journal) := s.fire key ⟨.connection key, readable, writable, closed⟩
    .ok (s, .count woken, journal)
  | .unwatch number =>
    match s.clients[number]? with
    | none => .ok (s, .nothing, [])
    | some client =>
      let (notifier, result) := s.connections.notifier.deregister client.server
      .ok ({ s with connections := { s.connections with notifier } }, .changed result, [])
  | .turn =>
    let (s, fired, report, journal) := s.turn
    .ok (s, .turned fired report, journal)
  | .pump =>
    let (s, report, journal) := s.pump
    .ok (s, .pumped report, journal)
  | .dropEngine =>
    .ok ({ s with engine := none }, .nothing,
      (s.engine.map fun engine => Entry.plain (.engineReleased engine.inFlight)).toList)
  | .recv key probe count =>
    let s := s.knowing probe
    .ok (done s (s.connections.recv key (.probe probe) count) (.received none))
  | .send key probe bytes =>
    let s := s.knowing probe
    .ok (done s (s.connections.send key (.probe probe) bytes) .sent)
  | .transportRecv key probe count =>
    let s := s.knowing probe
    .ok (done s (s.connections.recv key (.probe probe) count) (.received (some key)))
  | .transportFlush _ => .ok (s.knowing 0, .ended (.ok ()), [])
  | .transportShutdown key =>
    let s := s.knowing 0
    let (connections, result) := s.connections.shutdown key
    .ok ({ s with connections }, .ended result, [])
  | .fill key probe =>
    let s := s.knowing probe
    let (connections, any, last, notes) := fillUp (streamCapacity + 1) s.connections key (.probe probe) false []
    .ok ({ s with connections }, .filled any last, notes.map Entry.plain)
  | .clientWrite number bytes =>
    .ok (withClient s number (.clientWrote none) fun client =>
      let (host, result) := writeAll (bytes.length + 1) s.host client.descriptor bytes
      (s.withHost host, .clientWrote (some result), []))
  | .clientRead number =>
    .ok (withClient s number (.clientRead none) fun client =>
      let (s, result) := readClient s client
      (s, .clientRead (some result), []))
  | .clientDrain number =>
    .ok (withClient s number (.clientDrained none) fun client =>
      let (s, result) := readClient s client
      (s, .clientDrained (some result), []))
  | .clientEnd number farewell =>
    .ok (withClient s number .nothing fun client => (bid s number client farewell, .nothing, []))
  | .flood number =>
    .ok (withClient s number (.flooded false false) fun client =>
      let (s, pending) := floodUntilParked patience s client []
      let s := (offer s client pending).1.turn.1
      (s, .flooded (s.writeParked client.key) s.isQuiet, []))
  | .relieve number =>
    .ok (withClient s number (.relieved false false false) fun client =>
      let (s, any, readEnd) := relieveUntilDry patience s client false
      (s, .relieved any (readEnd = .open) (s.writeParked client.key), []))

def step (s : State) (st : Step) : Except Abort (State × View) := do
  let (after, result, journal) ← perform s st
  return (after,
    { result
      slots := after.slotViews
      isEmpty := after.connections.isEmpty
      watches := after.host.watches
      registrations := after.connections.notifier.registrations
      deregistrations := after.connections.notifier.deregistrations
      activity := match after.engine with
        | some engine => .inl engine.inFlight
        | none => .inr (tally after.woken after.parkedProbes)
      journal })

/-- what a session on the host shows; with `options` there is an engine -/
def run (host : Host) (armWrites : Bool) (options : Option Http.Options) (steps : List Step) :
    Except Abort (List View) :=
  attempts step { connections := .empty { host } armWrites, engine := options.map fun o => .empty (Http.protocol o) }
    steps

end EventServer.Scenario.Table
