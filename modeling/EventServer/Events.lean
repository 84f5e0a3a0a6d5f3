/-
Event buffers: a fixed number of cells that waits write their reports into. A wait writes the first cells over and leaves
the others as they were, so the buffer knows how many of its cells are the last wait's; only those are read.
-/
import EventServer.Readiness

namespace EventServer

/-- a buffer of fixed size with the reports of the last wait in front -/
structure Events where
  capacity : Nat
  /-- watched words with the conditions that were reported under them, be it by the last wait or before -/
  cells : List (UInt64 × Conditions)
  /-- how many cells the last wait wrote -/
  size : Nat
  room : 0 < capacity
  length_cells : cells.length = capacity
  size_le : size ≤ capacity

namespace Events

/-- an empty buffer; it holds one report at least -/
def ofCapacity (capacity : Nat) : Events where
  capacity := max capacity 1
  cells := List.replicate (max capacity 1) (0, {})
  size := 0
  room := by omega
  length_cells := List.length_replicate
  size_le := Nat.zero_le _

/-- the buffer with as many reports as it holds written over its first cells -/
def fill (e : Events) (reports : List (UInt64 × Conditions)) : Events where
  capacity := e.capacity
  cells := reports.take e.capacity ++ e.cells.drop reports.length
  size := min reports.length e.capacity
  room := e.room
  length_cells := by
    have := e.length_cells
    simp
    omega
  size_le := Nat.min_le_right ..

def isEmpty (e : Events) : Bool := e.size == 0

/-- the cells that the last wait wrote -/
def written (e : Events) : List (UInt64 × Conditions) := e.cells.take e.size

def get? (e : Events) (index : Nat) : Option Readiness :=
  e.written[index]?.map fun report => .ofReport report.1 report.2

def toList (e : Events) : List Readiness := e.written.map fun report => .ofReport report.1 report.2

@[simp] theorem written_fill (e : Events) (reports : List (UInt64 × Conditions)) :
    (e.fill reports).written = reports.take e.capacity := by
  rw [written, fill]
  exact List.take_left' (by rw [List.length_take, Nat.min_comm])

@[simp] theorem length_written (e : Events) : e.written.length = e.size := by
  rw [written, List.length_take, e.length_cells, Nat.min_eq_left e.size_le]

@[simp] theorem length_toList (e : Events) : e.toList.length = e.size := by
  rw [toList, List.length_map, length_written]

theorem get?_eq (e : Events) (index : Nat) : e.get? index = e.toList[index]? := by
  rw [get?, toList, List.getElem?_map]

/-- what lies behind the last wait's reports is not read -/
theorem isSome_get?_iff {e : Events} {index : Nat} : (e.get? index).isSome ↔ index < e.size := by
  rw [get?_eq, ← length_toList, isSome_getElem?]

end Events

end EventServer
