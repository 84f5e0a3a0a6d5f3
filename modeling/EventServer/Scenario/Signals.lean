/-
Sessions with signal sources on a thread of their own.
-/
import EventServer.Host.Basic
import EventServer.Scenario.Basic
import EventServer.SignalSource

namespace EventServer.Scenario.Signals

inductive Step where
  | create (signals : List Int)
  | read (source : Nat)
  | raise (number : Int)
  | ask (number : Int)
  deriving Repr

inductive View where
  | opened
  | action (action : Option SignalEffect)
  | raised (sent : Bool)
  | blocked (held : Bool)
  deriving Repr

structure State where
  host : Host := {}
  sources : List SignalSource := []

def step (s : State) : Step → State × View
  | .create signals =>
    let (host, source) := SignalSource.create s.host signals
    ({ host, sources := s.sources ++ [source] }, .opened)
  | .read index =>
    match s.sources[index]? with
    | none => (s, .action none)
    | some source =>
      let (host, action) := source.read s.host
      ({ s with host }, .action action)
  | .raise number =>
    let (host, sent) := s.host.raise number
    ({ s with host }, .raised sent)
  | .ask number => (s, .blocked (s.host.blocked.contains number))

def run (steps : List Step) : List View := views step {} steps

end EventServer.Scenario.Signals
