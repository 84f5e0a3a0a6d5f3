/-
Message bodies: a counted number of bytes, or chunks that each give their own length. A body is taken apart byte by byte
and its bytes are let go of; what counts is where it ends, and whether it is well formed.
-/
import EventServer.Http.Head

namespace EventServer.Http

/-- where within a chunked body the next byte stands -/
inductive ChunkPlace where
  | start | size | sizeBlank | extension | sizeLineFeed | data | dataReturn | dataLineFeed | trailer | trailerLineFeed
  | endReturn | endLineFeed | finished
  deriving DecidableEq, Repr

/-- how far a chunked body was read -/
structure ChunkedBody where
  place : ChunkPlace := .start
  size : Nat := 0
  extensions : Nat := 0
  /-- the fields behind the last chunk as far as they were read, the newest byte first -/
  trailer : Bytes := []
  trailerLength : Nat := 0
  trailerLines : Nat := 0
  deriving DecidableEq, Repr

/-- how far a body was read -/
inductive Decoder where
  | counted (remaining : Nat)
  | chunked (body : ChunkedBody)
  deriving DecidableEq, Repr

namespace ChunkedBody

/-- how many bytes of chunk extensions there may be -/
def maxExtensions : Nat := 16384

/-- how many bytes the fields behind the last chunk may not reach -/
def maxTrailer : Nat := 16384

/-- takes one more byte of the fields behind the last chunk, unless they are too long -/
def withTrailer (c : ChunkedBody) (b : UInt8) (place : ChunkPlace) : Option ChunkedBody :=
  if c.trailerLength + 1 < maxTrailer then
    some { c with place, trailer := b :: c.trailer, trailerLength := c.trailerLength + 1 }
  else none

/-- whether the fields behind the last chunk are well formed, one a line; there may be none -/
def goodTrailer (c : ChunkedBody) : Bool :=
  c.trailer.isEmpty ||
    match scanFields c.trailerLines (c.trailerLength + 1) c.trailer.reverse with
    | .found _ _ => true
    | .more | .defect _ => false

/-- the chunk size with one more digit, if it fits sixty-four bits -/
def withDigit (c : ChunkedBody) (digit : Nat) : Option ChunkedBody :=
  let size := 16 * c.size + digit
  if size < UInt64.size then some { c with size, place := .size } else none

def step (c : ChunkedBody) (b : UInt8) : Option ChunkedBody :=
  let expect (byte : UInt8) (place : ChunkPlace) : Option ChunkedBody :=
    if b == byte then some { c with place } else none
  match c.place with
  | .start => (Bytes.hexValue? b).bind { c with size := 0 }.withDigit
  | .size =>
    match Bytes.hexValue? b with
    | some digit => c.withDigit digit
    | none =>
      if Bytes.isBlank b then some { c with place := .sizeBlank }
      else if b == Bytes.ascii ';' then some { c with place := .extension }
      else expect Bytes.cr .sizeLineFeed
  | .sizeBlank =>
    if Bytes.isBlank b then some c
    else if b == Bytes.ascii ';' then some { c with place := .extension }
    else expect Bytes.cr .sizeLineFeed
  | .extension =>
    if b == Bytes.cr then some { c with place := .sizeLineFeed }
    else if b == Bytes.lf || c.extensions + 1 ≥ maxExtensions then none
    else some { c with extensions := c.extensions + 1 }
  | .sizeLineFeed => expect Bytes.lf (if c.size = 0 then .endReturn else .data)
  | .data => none
  | .dataReturn => expect Bytes.cr .dataLineFeed
  | .dataLineFeed => expect Bytes.lf .start
  | .trailer => c.withTrailer b (if b == Bytes.cr then .trailerLineFeed else .trailer)
  | .trailerLineFeed =>
    if b == Bytes.lf && c.trailerLines < maxFields then
      { c with trailerLines := c.trailerLines + 1 }.withTrailer b .endReturn
    else none
  | .endReturn =>
    if b != Bytes.cr then c.withTrailer b .trailer
    else if c.trailer.isEmpty then some { c with place := .endLineFeed }
    else c.withTrailer b .endLineFeed
  | .endLineFeed =>
    if b != Bytes.lf then none
    else if c.trailer.isEmpty then some { c with place := .finished }
    else c.withTrailer b .finished
  | .finished => none

end ChunkedBody

/-- what taking a body apart came to -/
inductive BodyPart where
  /-- bytes of the body, and it goes on -/
  | data
  /-- bytes of the body up to its end, or the end alone -/
  | finished
  /-- the body is malformed, so that nothing more is read from the connection -/
  | broken
  deriving DecidableEq, Repr

namespace Decoder

/-- a decoder at the front of a body; a head without body has none -/
def ofLength : BodyLength → Option Decoder
  | .none => none
  | .length count => some (.counted count)
  | .chunked => some (.chunked {})

/-- whether the length is known beforehand, so that the end comes together with the last bytes -/
def isCounted : Decoder → Bool
  | .counted _ => true
  | .chunked _ => false

/-- takes the next part from chunked bytes, if they hold one: the body, the bytes left, and the part -/
def scanChunked (c : ChunkedBody) : Bytes → ChunkedBody × Bytes × Option BodyPart
  | [] => (c, [], none)
  | b :: rest =>
    if c.place = .data then
      let count := min c.size (rest.length + 1)
      ({ c with size := c.size - count, place := if count = c.size then .dataReturn else .data },
        (b :: rest).drop count, some .data)
    else match c.step b with
    | none => (c, rest, some .broken)
    | some c =>
      if c.place = .finished then (c, rest, some (if c.goodTrailer then .finished else .broken))
      else scanChunked c rest

/-- takes the next part from the bytes that are there, if they hold one -/
def scan (decoder : Decoder) (bytes : Bytes) : Decoder × Bytes × Option BodyPart :=
  match decoder with
  | .counted remaining =>
    if bytes.isEmpty then (.counted remaining, [], none)
    else
      let count := min remaining bytes.length
      (.counted (remaining - count), bytes.drop count, some (if count = remaining then .finished else .data))
  | .chunked body =>
    let (body, rest, part) := scanChunked body bytes
    (.chunked body, rest, part)

end Decoder

end EventServer.Http
