/-
Byte streams: a connection between two ends, as the host keeps it. Each end has the bytes that it has not read yet,
parcel by parcel, and a few marks; an operation on one end says what both ends can observe afterwards and which of them
it stirs.

Reading gives the oldest bytes first and never crosses what was not sent (`recv`). A write is cut into parcels, and a
parcel is accepted while those before it weigh less than the sender's allowance; a parcel weighs as much as the memory
that it takes, until all of it is read (`Parcel.weightOf`). Closing an end that has bytes left makes its peer find a
reset. The two families differ in what a closed peer means for a writer and in when an end counts as hung up.
-/
import EventServer.Errno
import EventServer.Readiness
import EventServer.Text.Bytes

namespace EventServer

inductive Family where
  | unix | inet
  deriving DecidableEq, Repr

inductive Side where
  | near | far
  deriving DecidableEq, Repr

def Side.other : Side → Side
  | near => far
  | far => near

/-- bytes that are on their way in one piece -/
structure Parcel where
  bytes : Bytes
  /-- how much of the sender's allowance they take up until all are read -/
  weight : Nat
  deriving Repr

namespace Parcel

def page : Nat := 4096

/-- how many bytes of a parcel are kept next to its description; what is beyond is kept in pages -/
def nearby : Nat := 3776

/-- how many bytes a parcel has at most -/
def limit : Nat := nearby + 8 * page

/-- the bytes of the description itself, in two parts -/
def overhead : Nat × Nat := (256, 320)

/-- the least multiple of the unit that is as large -/
def roundUp (unit count : Nat) : Nat := (count + unit - 1) / unit * unit

/-- the least of the sizes that memory is handed out in and that is as large -/
def block (count : Nat) : Nat := ([512, 1024, 2048].find? (count ≤ ·)).getD page

/-- how much a parcel of so many bytes weighs -/
def weightOf (count : Nat) : Nat :=
  let paged := min count (roundUp page (count - nearby))
  block (roundUp 64 (count - paged) + overhead.2) + overhead.1 + roundUp page paged

end Parcel

/-- a parcel is accepted while those of its sender that are not read yet weigh less than this -/
def sendAllowance : Nat := 212992

/-- more bytes than this are never unread at one end -/
def streamCapacity : Nat := sendAllowance + Parcel.limit

/-- what the host keeps of one end of a stream -/
structure StreamEnd where
  /-- the peer's parcels that are not read yet, oldest first; none of them is empty -/
  inbox : List Parcel := []
  finished : Bool := false
  closed : Bool := false
  /-- the connection was reset under it -/
  broken : Bool := false
  /-- an error that the next call reports, once -/
  trouble : Option Errno := none
  deriving Repr

/-- what may have changed for a descriptor: bytes came, room came, or anything -/
inductive Stir where
  | input | output | any
  deriving DecidableEq, Repr

structure Stream where
  family : Family
  near : StreamEnd := {}
  far : StreamEnd := {}
  deriving Repr

/-- the stream after an operation, what the operation gave, and the ends that it stirs, in order -/
structure Stirred (α : Type) where
  stream : Stream
  value : α
  stirs : List (Side × Stir) := []

namespace Stream

def get (s : Stream) : Side → StreamEnd
  | .near => s.near
  | .far => s.far

def update (s : Stream) (side : Side) (change : StreamEnd → StreamEnd) : Stream :=
  match side with
  | .near => { s with near := change s.near }
  | .far => { s with far := change s.far }

/-- whether no more bytes will come to this end -/
def atEnd (s : Stream) (side : Side) : Bool :=
  (s.get side.other).closed || (s.get side.other).finished || (s.get side).broken

/-- whether a read at this end would not have to wait -/
def readable (s : Stream) (side : Side) : Bool := !(s.get side).inbox.isEmpty || s.atEnd side

/-- whether both directions are over for this end -/
def hungUp (s : Stream) (side : Side) : Bool :=
  let self := s.get side
  let peer := s.get side.other
  match s.family with
  | .unix => peer.closed || (self.finished && peer.finished)
  | .inet => self.broken || (self.finished && (peer.finished || peer.closed))

def unread (s : Stream) : Nat :=
  (s.near.inbox ++ s.far.inbox).foldr (fun parcel count => parcel.bytes.length + count) 0

/-- how much of its allowance an end takes up -/
def load (s : Stream) (side : Side) : Nat :=
  (s.get side.other).inbox.foldr (fun parcel load => parcel.weight + load) 0

/-- whether an end is reported to have room: it takes up less than a quarter of its allowance -/
def writable (s : Stream) (side : Side) : Bool := 4 * (s.load side + 1) ≤ sendAllowance

def conditions (s : Stream) (side : Side) : Conditions where
  input := s.readable side
  output := s.writable side
  error := (s.get side).trouble.isSome
  hangup := s.hungUp side

/-- the first bytes of an inbox, what is left of it, and how many parcels were read to their end -/
def takeBytes : Nat → List Parcel → Bytes × List Parcel × Nat
  | _, [] => ([], [], 0)
  | count, parcel :: rest =>
    let size := parcel.bytes.length
    if count = 0 then ([], parcel :: rest, 0)
    else if count < size then (parcel.bytes.take count, { parcel with bytes := parcel.bytes.drop count } :: rest, 0)
    else
      let (bytes, left, consumed) := takeBytes (count - size) rest
      (parcel.bytes ++ bytes, left, consumed + 1)

/-- reads up to `count` bytes at one end; no bytes at all mean that no more will come -/
def recv (s : Stream) (side : Side) (count : Nat) : Stirred (Except Errno Bytes) :=
  let self := s.get side
  if self.inbox.isEmpty then
    match self.trouble with
    | some code => { stream := s.update side fun e => { e with trouble := none }, value := .error code }
    | none => { stream := s, value := if s.atEnd side then .ok [] else .error .again }
  else
    let (bytes, left, consumed) := takeBytes count self.inbox
    let relieved := s.update side fun e => { e with inbox := left }
    { stream := relieved
      value := .ok bytes
      stirs := if consumed > 0 && relieved.writable side.other then [(side.other, .output)] else [] }

/-- the parcels of a write that are accepted from an end that takes up so much of its allowance; there are `limit` of
them at most -/
def parcelsOf : Nat → Nat → Bytes → List Parcel
  | 0, _, _ => []
  | limit + 1, load, bytes =>
    if bytes.isEmpty || load ≥ sendAllowance then []
    else
      let parcel := bytes.take Parcel.limit
      let weight := Parcel.weightOf parcel.length
      ⟨parcel, weight⟩ :: parcelsOf limit (load + weight) (bytes.drop Parcel.limit)

/-- puts as much of the bytes into the peer's inbox as is accepted -/
def deliver (s : Stream) (side : Side) (bytes : Bytes) : Stirred (Except Errno Nat) :=
  let parcels := parcelsOf (bytes.length / Parcel.limit + 1) (s.load side) bytes
  if parcels.isEmpty then { stream := s, value := .error .again }
  else
    { stream := s.update side.other fun e => { e with inbox := e.inbox ++ parcels }
      value := .ok (parcels.foldr (fun parcel count => parcel.bytes.length + count) 0)
      stirs := [(side.other, .input)] }

/-- writes bytes at one end and says how many were accepted -/
def send (s : Stream) (side : Side) (bytes : Bytes) : Stirred (Except Errno Nat) :=
  let self := s.get side
  let peer := s.get side.other
  match s.family with
  | .unix =>
    if self.finished || peer.closed then { stream := s, value := .error .brokenPipe }
    else if bytes.isEmpty then { stream := s, value := .ok 0 }
    else s.deliver side bytes
  | .inet =>
    match self.trouble with
    | some code => { stream := s.update side fun e => { e with trouble := none }, value := .error code }
    | none =>
      if self.finished || self.broken then { stream := s, value := .error .brokenPipe }
      else if bytes.isEmpty then { stream := s, value := .ok 0 }
      else if peer.closed then
        { stream := s.update side fun e => { e with broken := true }
          value := .ok bytes.length
          stirs := [(side, .any)] }
      else s.deliver side bytes

/-- shuts one end down for writing -/
def finish (s : Stream) (side : Side) : Stirred (Except Errno Unit) :=
  if s.family == .inet && (s.get side).broken then { stream := s, value := .error .notConnected }
  else
    { stream := s.update side fun e => { e with finished := true }
      value := .ok ()
      stirs := [(side, .any), (side.other, .any)] }

/-- closes one end; with `abrupt`, or with bytes left unread, the peer finds the connection reset -/
def close (s : Stream) (side : Side) (abrupt : Bool) : Stirred Unit :=
  let resets := !(s.get side).inbox.isEmpty || (abrupt && s.family == .inet)
  let left := s.update side fun e => { e with closed := true, inbox := [] }
  { stream := left.update side.other fun e =>
      if resets && !e.closed then
        { e with trouble := some .connectionReset, broken := s.family == .inet || e.broken }
      else e
    value := ()
    stirs := [(side.other, .any)] }

end Stream

end EventServer
