/-
Inflow: the bytes that an exchange has read and not used yet, and how much it reads at a time.

There is always room for an amount that adapts (`Pace`): it doubles when a read fills it, and halves when two reads in a
row stay below half of it. A read takes whatever the memory behind the bytes has room for (`Memory`), which may be more
than the amount: memory grows to twice its size at least, and used bytes leave room when they are written over.
-/
import EventServer.Http.Transport

namespace EventServer.Http

/-- how much room there is before a read -/
structure Pace where
  amount : Nat := 8192
  /-- the last read stayed below half of the amount -/
  slack : Bool := false
  deriving DecidableEq, Repr

namespace Pace

def least : Nat := 8192

/-- the greatest amount, and the most bytes that a head may take -/
def greatest : Nat := 417792

def after (p : Pace) (count : Nat) : Pace :=
  if count ≥ p.amount then { amount := min (2 * p.amount) greatest }
  else
    let half := 1 <<< (Nat.log2 p.amount - 1)
    if count ≥ half then { p with slack := false }
    else if p.slack then { amount := max half least }
    else { p with slack := true }

end Pace

/-- the memory that bytes are read into -/
structure Memory where
  /-- how many used bytes lie before the others -/
  used : Nat := 0
  /-- how many bytes fit into it from the first one on that is not used yet -/
  room : Nat := 0
  /-- a request or a part of a body refers to bytes in it, so that it cannot be written over -/
  shared : Bool := false
  deriving DecidableEq, Repr

namespace Memory

/-- the memory once some more bytes are used -/
def use (m : Memory) (count : Nat) : Memory := { m with used := m.used + count, room := m.room - count }

/-- memory with room for `amount` bytes behind the `count` ones that are not used yet. Where there is not, shared memory
is left for as much memory as is needed; other memory is written over from its start, if it is large enough and the used
bytes make up half of what it holds, and grows if not -/
def withRoom (m : Memory) (count amount : Nat) : Memory :=
  let size := m.used + m.room
  if count + amount ≤ m.room then m
  else if m.shared then { room := count + amount }
  else if count + amount ≤ size && count ≤ m.used then { room := size }
  else { m with room := max (2 * size) (m.used + count + amount) - m.used }

end Memory

/-- what was read and not used yet -/
structure Inflow where
  buffer : Bytes := []
  memory : Memory := {}
  /-- how many bytes there were when a head was last found to be incomplete -/
  scanned : Option Nat := none
  pace : Pace := {}
  blocked : Bool := false
  deriving Repr

namespace Inflow

/-- uses bytes from the front, so that these are left -/
def keep (f : Inflow) (rest : Bytes) : Inflow :=
  { f with buffer := rest, memory := f.memory.use (f.buffer.length - rest.length) }

/-- says whether anything refers to bytes in the memory -/
def share (f : Inflow) (shared : Bool) : Inflow := { f with memory := { f.memory with shared } }

/-- reads once; the value is how many bytes came -/
def pull (f : Inflow) : Talk (Inflow × Poll (Except Fault Nat)) :=
  let count := f.buffer.length
  let f := { f with memory := f.memory.withRoom count f.pace.amount }
  .recv (f.memory.room - count) fun answer => .done (match answer with
    | .pending => ({ f with blocked := true }, .pending)
    | .ready (.error fault) => ({ f with blocked := false }, .ready (.error fault))
    | .ready (.ok bytes) =>
      ({ f with buffer := f.buffer ++ bytes, pace := f.pace.after bytes.length, blocked := false },
        .ready (.ok bytes.length)))

end Inflow

end EventServer.Http
