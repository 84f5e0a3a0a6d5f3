/-
Scenarios: scripted sessions with one part of the server, in which every step shows what it did. Each kind of session
has a module of its own with its steps, its state and what a step shows; here is what they share.
-/
import EventServer.Errno

namespace EventServer.Scenario

/-- what every step of a session shows, in order -/
def views {σ α β : Type} (step : σ → α → σ × β) : σ → List α → List β
  | _, [] => []
  | s, a :: rest =>
    let (after, view) := step s a
    view :: views step after rest

inductive Abort where
  | slotTooLarge
  | noConnection (code : Errno)
  deriving Repr

/-- what every step of a session shows, in order, unless one of them could not be done -/
def attempts {σ α β : Type} (step : σ → α → Except Abort (σ × β)) : σ → List α → Except Abort (List β)
  | _, [] => .ok []
  | s, a :: rest =>
    match step s a with
    | .error abort => .error abort
    | .ok (after, view) =>
      match attempts step after rest with
      | .error abort => .error abort
      | .ok views => .ok (view :: views)

/-- a list that has a place for every number up to `index`, new places holding `fresh` -/
def covering {α : Type} (fresh : α) (index : Nat) (items : List α) : List α :=
  items ++ List.replicate (index + 1 - items.length) fresh

/-- for every counting handle: how often it was woken, and how many copies of it are parked -/
def tally (woken : List Nat) (parked : List Nat) : List (Nat × Nat) :=
  woken.zipIdx.map fun entry => (entry.1, parked.count entry.2)

end EventServer.Scenario
