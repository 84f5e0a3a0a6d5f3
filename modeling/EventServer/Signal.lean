/-
Signals and what the server does about them: the three termination signals stop it and every other is ignored.
-/

namespace EventServer

inductive ShutdownSignal where
  | interrupt | terminate | quit
  deriving DecidableEq, Repr

namespace ShutdownSignal

def number : ShutdownSignal → Int
  | interrupt => 2
  | quit => 3
  | terminate => 15

def name : ShutdownSignal → String
  | interrupt => "SIGINT"
  | quit => "SIGQUIT"
  | terminate => "SIGTERM"

def all : List ShutdownSignal := [interrupt, terminate, quit]

def ofNumber? (number : Int) : Option ShutdownSignal := all.find? (·.number == number)

theorem mem_all (s : ShutdownSignal) : s ∈ all := by cases s <;> simp [all]

theorem ofNumber?_number (s : ShutdownSignal) : ofNumber? s.number = some s := by cases s <;> rfl

end ShutdownSignal

/-- what to do about a signal -/
inductive SignalEffect where
  | shutdown (signal : ShutdownSignal)
  | ignore (number : Int)
  deriving DecidableEq, Repr

/-- termination signals stop the server and all else is ignored -/
def SignalEffect.ofNumber (number : Int) : SignalEffect :=
  match ShutdownSignal.ofNumber? number with
  | some signal => .shutdown signal
  | none => .ignore number

end EventServer
