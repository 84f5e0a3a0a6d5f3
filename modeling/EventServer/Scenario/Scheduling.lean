/-
Sessions with the task scheduler: tasks that follow scripts, and handles kept under names.
-/
import EventServer.Journal.Entry
import EventServer.Scenario.Basic
import EventServer.Tasks

namespace EventServer.Scenario.Scheduling

inductive Act where
  | save (name : String)
  | wake (name : String)
  | wakeSelf
  | suspend
  | fail (failure : TaskFailure)
  | finish
  deriving Repr

/-- what a task still has to do; one that has nothing left ends well -/
abbrev Script := List Act

inductive Step where
  | push (userdata : Option Int) (script : Script)
  | poll
  | wake (name : String)
  | wakeRef (name : String)
  | forget (name : String)
  | drop
  deriving Repr

structure Env where
  names : List (String × Handle) := []
  notes : List Note := []

/-- keeps a handle under a name, in place of the one before -/
def Env.save (env : Env) (name : String) (h : Handle) : Env :=
  { env with names := (name, h) :: env.names.filter (·.1 != name) }

/-- follows a script until it suspends or ends -/
def follow (self : Handle) (env : Env) (woken : List Handle) : Script → Progress Env Script TaskFailure
  | [] => { env, work := [], woken, outcome := some (.ok ()) }
  | .save name :: rest => follow self (env.save name self) woken rest
  | .wake name :: rest => follow self env (woken ++ (env.names.lookup name).toList) rest
  | .wakeSelf :: rest => follow self env (woken ++ [self]) rest
  | .suspend :: rest => { env, work := rest, woken }
  | .fail failure :: rest => { env, work := rest, woken, outcome := some (.error failure) }
  | .finish :: rest => { env, work := rest, woken, outcome := some (.ok ()) }

/-- how scripted tasks are run -/
def runner : Runner Env Script TaskFailure where
  run self env script := follow self env [] script
  note env note := { env with notes := env.notes ++ [note] }

structure State where
  tasks : Option (Tasks Int Script) := some .empty
  names : List (String × Handle) := []

inductive Result where
  | pushed (serial : Nat)
  | known (known : Bool)
  | polled (completed : Option (Completed Int TaskFailure))
  | dropped
  | gone

structure View where
  result : Result
  polled : List Nat := []
  released : List Nat := []
  inFlight : Option Nat
  notes : List Note := []

/-- how many slots can be taken from the queue before it is empty -/
def budget (t : Tasks Int Script) : Nat :=
  t.queue.length + t.slots.total (fun tenant => tenant.work.length) + 1

def ranIn (course : List Happening) : List Nat :=
  course.filterMap fun
    | .ran h => some h.serial
    | _ => none

def step (s : State) (st : Step) : State × View :=
  let inFlight := s.tasks.map (·.size)
  match st with
  | .push userdata script =>
    match s.tasks with
    | none => (s, { result := .gone, inFlight })
    | some t =>
      let pushed := t.push script userdata
      ({ s with tasks := some pushed.state },
        { result := .pushed pushed.value.serial, inFlight := some pushed.state.size, notes := pushed.notes })
  | .poll =>
    match s.tasks with
    | none => (s, { result := .gone, inFlight })
    | some t =>
      match t.poll runner (budget t) { names := s.names } with
      | none => (s, { result := .polled none, inFlight })
      | some after =>
        ({ tasks := some after.tasks, names := after.env.names },
          { result := .polled after.completed
            polled := ranIn after.course
            released := after.completed.toList.map (·.serial)
            inFlight := some after.tasks.size
            notes := after.env.notes })
  | .wake name =>
    let handle := s.names.lookup name
    ({ tasks := s.tasks.map fun t => handle.elim t t.wake, names := s.names.filter (·.1 != name) },
      { result := .known handle.isSome, inFlight })
  | .wakeRef name =>
    let handle := s.names.lookup name
    ({ s with tasks := s.tasks.map fun t => handle.elim t t.wake }, { result := .known handle.isSome, inFlight })
  | .forget name =>
    ({ s with names := s.names.filter (·.1 != name) },
      { result := .known (s.names.lookup name).isSome, inFlight })
  | .drop =>
    ({ s with tasks := none },
      { result := .dropped
        released := (s.tasks.map fun t => t.slots.toList.map fun entry => entry.2.serial).getD []
        inFlight := none })

def run (steps : List Step) : List View := views step {} steps

end EventServer.Scenario.Scheduling
