/-
The server: one listener, one source of signals, the table of connections and the engine that serves them, all in one
loop.

A turn of the loop takes what is ready in one wait and deals with it in order (`dispatch`): the listener's connections
are taken until none waits, signals are read, and reports on connections resume what is parked there. Before every wait
the engine is pumped until no task can go on (`prepare`). A run is a number of turns (`run`); it stops early only when a
wait would not end, when a signal stops the server, or when the tasks do not let a pump end.
-/
import EventServer.Engine
import EventServer.Settings
import EventServer.SignalSource

namespace EventServer

/-- the loop and everything it acts on -/
structure Server (X : Type) where
  engine : Engine X
  connections : Connections Handle
  listener : Descriptor
  signals : SignalSource
  events : Events

/-- what came of binding a server -/
structure Bound (X : Type) where
  host : Host
  server : Except SetupFailure (Server X)
  notes : List Note := []

/-- the server after some work, what it reported, and what happened to tasks, both oldest first -/
structure Worked (X : Type) where
  server : Server X
  journal : Journal := []
  course : List Happening := []

/-- why the loop is not running -/
inductive Halt where
  | blocked
  | stopped (signal : ShutdownSignal)
  /-- tasks resume themselves over and over, so the pump does not end -/
  | busy
  deriving DecidableEq, Repr

/-- the server after some turns, what they reported and did to tasks, and why they ended before their number was
reached -/
structure Ran (X : Type) where
  server : Server X
  journal : Journal := []
  course : List Happening := []
  halt : Option Halt := none

namespace Server

variable {X : Type}

def host (s : Server X) : Host := s.connections.notifier.host

def onHost (s : Server X) (change : Host → Host) : Server X := { s with connections := s.connections.onHost change }

/-! ## Setting up -/

/-- listens at the first of the endpoints that can be bound; the notes are about those that could not -/
def listenAt : Host → List Endpoint → Host × Option (Descriptor × Endpoint) × List Note
  | h, [] => (h, none, [])
  | h, endpoint :: rest =>
    match h.listen endpoint with
    | (h, .ok bound) => (h, some bound, [])
    | (h, .error code) =>
      let (h, bound, notes) := listenAt h rest
      (h, bound, .bindFailed endpoint.address (.system code) :: notes)

def targetText (settings : Settings) : String := settings.host ++ ":" ++ toString settings.port.toNat

/-- watches the listener and the signals, and puts the server together -/
def assemble (h : Host) (settings : Settings) (protocol : Http.Protocol X) (listener : Descriptor) : Bound X :=
  let (h, signals) := SignalSource.create h (ShutdownSignal.all.map (·.number))
  let first := ({ host := h } : Notifier).register listener .listener .reading
  match first.value with
  | .error fault => { host := first.state.host, server := .error (.refused fault.code), notes := first.notes }
  | .ok () =>
    let second := first.state.register signals.descriptor .signals .reading
    { host := second.state.host
      server := match second.value with
        | .error fault => .error (.refused fault.code)
        | .ok () =>
          .ok
            { engine := .empty protocol
              connections := .empty second.state settings.armWrites
              listener
              signals
              events := .ofCapacity settings.maxEvents }
      notes := first.notes ++ second.notes }

/-- binds the listener, holds the shutdown signals back, sets up the notifier, and only then brings up the engine -/
def bind (h : Host) (settings : Settings) (protocol : Http.Protocol X) : Bound X :=
  match Endpoint.resolve h.directory settings.host settings.port with
  | .error cause => { host := h, server := .error (.unresolved (targetText settings ++ " (" ++ cause ++ ")")) }
  | .ok endpoints =>
    match listenAt h endpoints with
    | (h, none, notes) => { host := h, server := .error (.unresolved (targetText settings)), notes }
    | (h, some (listener, endpoint), notes) =>
      let bound := assemble h settings protocol listener
      { bound with notes := notes ++ .listening endpoint.address :: bound.notes }

/-! ## Turning -/

/-- takes a connection that was accepted in and has the engine serve it -/
def welcome (s : Server X) (d : Descriptor) (peer : Address) : Worked X :=
  let inserted := s.connections.insert d peer
  let s := { s with connections := inserted.state }
  match inserted.value with
  | .ok key =>
    let served := s.engine.serve key peer
    { server := { s with engine := served.state }
      journal := (inserted.notes ++ served.notes).map Entry.plain
      course := [.pushed served.value] }
  | .error fault =>
    { server := s, journal := (inserted.notes ++ [Note.insertFailed peer fault.code]).map Entry.plain }

/-- takes the connections that wait at the listener, `limit` of them at most -/
def acceptUpTo : Nat → Server X → Worked X
  | 0, s => { server := s }
  | limit + 1, s =>
    let accepted := Nonblocking.accept s.host s.listener
    let s := s.onHost fun _ => accepted.1
    match accepted.2 with
    | .wouldBlock => { server := s }
    | .failed fault => { server := s, journal := [.plain (.acceptFailed fault)] }
    | .done (d, peer) =>
      let welcomed := s.welcome d peer
      let rest := acceptUpTo limit welcomed.server
      { rest with
        journal := .plain (.incoming peer) :: welcomed.journal ++ rest.journal
        course := welcomed.course ++ rest.course }

def acceptAll (s : Server X) : Worked X := acceptUpTo (s.host.callers s.listener + 1) s

/-- reads a signal, and says whether it stops the server -/
def readSignal (s : Server X) : Worked X × Option ShutdownSignal :=
  let read := s.signals.read s.host
  let s := s.onHost fun _ => read.1
  match read.2 with
  | some (.shutdown signal) => ({ server := s, journal := [.plain (.caught signal)] }, some signal)
  | some (.ignore number) => ({ server := s, journal := [.plain (.unexpectedSignal number)] }, none)
  | none => ({ server := s }, none)

def resume (s : Server X) (key : Nat) (readiness : Readiness) : Worked X :=
  let fired := s.connections.fire key readiness
  { server := { s with connections := fired.state, engine := fired.value.foldl Engine.wake s.engine }
    journal := fired.notes.map Entry.plain
    course := fired.value.map .woken }

/-- deals with one readiness report, and says whether it brought a signal that stops the server -/
def handle (s : Server X) (readiness : Readiness) : Worked X × Option ShutdownSignal :=
  match readiness.token with
  | .listener => (s.acceptAll, none)
  | .signals => s.readSignal
  | .connection key => (s.resume key readiness, none)

/-- deals with readiness reports in order, until one of them brings a signal that stops the server -/
def dispatch (s : Server X) : List Readiness → Worked X × Option ShutdownSignal
  | [] => ({ server := s }, none)
  | readiness :: rest =>
    let (worked, stop) := s.handle readiness
    match stop with
    | some signal => (worked, some signal)
    | none =>
      let (after, stop) := worked.server.dispatch rest
      ({ after with journal := worked.journal ++ after.journal, course := worked.course ++ after.course }, stop)

/-- runs tasks until none can go on; the server is about to wait then. Nothing if that takes longer than `limit` -/
def prepare (limit : Nat) (s : Server X) : Option (Worked X) :=
  (s.engine.pump id limit { connections := s.connections }).map fun pumped =>
    { server := { s with engine := pumped.engine, connections := pumped.site.connections }
      journal := pumped.site.journal ++ [.plain .tasksProcessed]
      course := pumped.course }

def patience (s : Server X) : Nat := s.engine.patience { connections := s.connections }

/-- waits; without a value the wait does not end -/
def await (s : Server X) : Noted (Server X) (Option Events) :=
  let waited := s.connections.notifier.wait s.events
  { state :=
      { s with
        connections := { s.connections with notifier := waited.state }
        events := waited.value.getD s.events }
    value := waited.value
    notes := waited.notes }

/-- waits and deals with what is ready; a wait that does not end halts the loop, and so does a shutdown signal -/
def take (s : Server X) : Ran X :=
  let awaited := s.await
  match awaited.value with
  | none => { server := awaited.state, halt := some .blocked }
  | some events =>
    let (worked, stop) := awaited.state.dispatch events.toList
    { server := worked.server
      journal := (awaited.notes ++ [Note.pollReported events.size]).map Entry.plain ++ worked.journal
      course := worked.course
      halt := stop.map .stopped }

/-- turns `limit` times at most, from one wait to another -/
def run : Nat → Server X → Ran X
  | 0, s => { server := s }
  | limit + 1, s =>
    let taken := s.take
    match taken.halt with
    | some _ => taken
    | none =>
      match taken.server.prepare taken.server.patience with
      | none => { taken with halt := some .busy }
      | some ready =>
        let rest := run limit ready.server
        { rest with
          journal := taken.journal ++ ready.journal ++ rest.journal
          course := taken.course ++ ready.course ++ rest.course }

/-! ## Tearing down -/

/-- lets go of everything: the engine first, then the connections, the listener and the signals -/
def release (s : Server X) : Worked X :=
  let descriptors :=
    (s.connections.slots.toList.map fun entry => entry.2.descriptor) ++ [s.listener, s.signals.descriptor]
  let closing (h : Host) (d : Descriptor) : Host := h.elapse.close d false
  { server :=
      { s with
        engine := .empty s.engine.protocol
        connections :=
          { (s.connections.onHost fun h => descriptors.foldl closing h) with slots := .empty } }
    journal := [.plain (.engineReleased s.engine.inFlight)] }

end Server

end EventServer
