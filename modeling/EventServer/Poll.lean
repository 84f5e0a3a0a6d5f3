/-
Polled operations: they give a value at once, or nothing yet and park the handle that will resume whoever asked.
-/

namespace EventServer

/-- what a polled operation gives -/
inductive Poll (α : Type) where
  | pending
  | ready (value : α)
  deriving Repr, DecidableEq

namespace Poll

def toOption {α : Type} : Poll α → Option α
  | pending => none
  | ready value => some value

end Poll

end EventServer
