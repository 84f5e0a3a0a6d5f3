/-
The engine: the exchanges of all connections as cooperative tasks, whatever protocol they follow. `serve` enrolls the
exchange of a connection, under the connection's slot; `pump` runs tasks until none can go on and takes out the
connection of every task that finished. A pump that does not come to an end gives nothing.

An exchange reaches its connection through a transport (`transport`), which parks the task's own handle whenever a call
would have to wait. Handles of tasks may be part of a larger type of handles; `wrap` says how.
-/
import EventServer.Connections.Basic
import EventServer.Http.Protocol
import EventServer.Journal.Entry
import EventServer.Tasks

namespace EventServer

/-- where the tasks of the engine run: the connections, and the journal of what happens -/
structure Site (H : Type) where
  connections : Connections H
  journal : Journal := []

namespace Site

variable {H : Type}

def record (s : Site H) (place : Option Place) (notes : List Note) : Site H :=
  { s with journal := s.journal ++ notes.map fun note => ⟨place, note⟩ }

/-- the site after an operation on the connections, with what it reported -/
def after {α : Type} (s : Site H) (place : Option Place) (result : Noted (Connections H) α) : Site H :=
  { s with connections := result.state }.record place result.notes

end Site

/-- the exchange of one connection -/
structure ConnectionTask (X : Type) where
  place : Place
  exchange : X

/-- the tasks of all connections, and the protocol that their exchanges follow -/
structure Engine (X : Type) where
  protocol : Http.Protocol X
  tasks : Tasks Nat (ConnectionTask X)

/-- what a pump took out -/
structure PumpTally where
  completed : Nat := 0
  errors : Nat := 0
  deriving DecidableEq, Repr

/-- the engine and the site after a pump, and what happened to tasks, oldest first -/
structure Pumped (X H : Type) where
  engine : Engine X
  site : Site H
  report : PumpTally := {}
  course : List Happening := []

namespace Engine

variable {X H : Type}

def empty (protocol : Http.Protocol X) : Engine X := ⟨protocol, .empty⟩

def inFlight (e : Engine X) : Nat := e.tasks.size

def serve (e : Engine X) (slot : Nat) (peer : Address) : Noted (Engine X) Handle :=
  let pushed := e.tasks.push { place := ⟨slot, peer⟩, exchange := e.protocol.start } (some slot)
  { state := { e with tasks := pushed.state }, value := pushed.value, notes := pushed.notes }

def wake (e : Engine X) (h : Handle) : Engine X := { e with tasks := e.tasks.wake h }

/-- the way of a task to the connection in a slot -/
def transport (wrap : Handle → H) (self : Handle) (place : Place) : Http.Transport (Site H) where
  recv s count :=
    let result := s.connections.recv place.slot (wrap self) count
    (s.after place result, result.value)
  send s bytes :=
    let result := s.connections.send place.slot (wrap self) bytes
    (s.after place result, result.value)
  shutdown s :=
    let (connections, result) := s.connections.shutdown place.slot
    ({ s with connections }, result)
  note s note := s.record place [note]

/-- how the tasks of an engine are run -/
def runner (protocol : Http.Protocol X) (wrap : Handle → H) : Runner (Site H) (ConnectionTask X) TaskFailure where
  run self site task :=
    let talk := protocol.poll site.connections.notifier.host.unread task.exchange
    let (site, polled) := talk.run (transport wrap self task.place) site
    { env := site
      work := { task with exchange := polled.exchange }
      woken := if polled.roused then [self] else []
      outcome := match polled.ended with
        | .waiting => none
        | .complete => some (.ok ())
        | .failed failure => some (.error (.exchange failure)) }
  note site note := site.record none [note]

def reportOf (c : Completed Nat TaskFailure) : List Note :=
  match c.outcome with
  | .error failure => [.taskFailed, .failureCode failure.code, .failureDetails failure]
  | .ok () => [if c.userdata.isSome then .connectionComplete else .internalComplete]

/-- reports a finished task and takes its connection out -/
def reclaim (site : Site H) (c : Completed Nat TaskFailure) : Site H :=
  let site := site.record none (reportOf c)
  match c.userdata with
  | none => site
  | some slot => site.after none (site.connections.remove slot)

def count (report : PumpTally) (c : Completed Nat TaskFailure) : PumpTally :=
  { completed := report.completed + 1, errors := report.errors + if c.outcome.isOk then 0 else 1 }

/-- runs tasks and takes out those that finish; nothing if that takes more than `limit` polls, or one of them does -/
def pumpUpTo (wrap : Handle → H) : Nat → Engine X → Site H → PumpTally → Option (Pumped X H)
  | 0, _, _, _ => none
  | limit + 1, e, site, report =>
    match e.tasks.poll (runner e.protocol wrap) limit site with
    | none => none
    | some polled =>
      let e := { e with tasks := polled.tasks }
      match polled.completed with
      | none => some { engine := e, site := polled.env, report, course := polled.course }
      | some c =>
        (pumpUpTo wrap limit e (reclaim polled.env c) (count report c)).map fun p =>
          { p with course := polled.course ++ p.course }

/-- runs tasks until none can go on, and takes out the connections of those that finish -/
def pump (wrap : Handle → H) (limit : Nat) (e : Engine X) (site : Site H) : Option (Pumped X H) :=
  pumpUpTo wrap limit e site {}

/-- how long a pump may take: an exchange that resumes itself has used up bytes that were there or could come -/
def patience (e : Engine X) (site : Site H) : Nat :=
  e.tasks.queue.length + e.tasks.slots.total (fun tenant => e.protocol.held tenant.work.exchange) +
    site.connections.notifier.host.unread + e.inFlight + 2

end Engine

end EventServer
