/-
Results of operations that have something to report: the new state, a value, and the notes that the operation makes.
-/
import EventServer.Journal.Note

namespace EventServer

/-- a new state, a value, and what there is to report, oldest first -/
structure Noted (σ α : Type) where
  state : σ
  value : α
  notes : List Note := []

end EventServer
