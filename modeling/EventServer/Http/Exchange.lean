/-
Exchanges: one connection's requests and answers, in order. An exchange is polled: it reads as far as bytes are there,
answers every request that it has read, writes as far as there is room, and then waits, goes on, or ends.

Reading comes first in every round (`readPhase`): the rest of a body that nobody wants, the next head, the body behind
it, and after a request without more to read one look at whether the peer is still there. The service answers in the
same round (`writePhase`), and answers are written before the next request is read (`flush`). A round is repeated while
there is something to read already, sixteen times at most; then the exchange yields and resumes itself (`poll`).
-/
import EventServer.Failure
import EventServer.Http.Answer
import EventServer.Http.Body
import EventServer.Http.Inflow
import EventServer.Http.Protocol

namespace EventServer.Http

/-- what all exchanges of a server have in common -/
structure Options where
  date : String
  deriving Repr

inductive Reading where
  | head
  | body (decoder : Decoder)
  | done
  | closed
  deriving DecidableEq, Repr

inductive Writing where
  | idle
  /-- the answer to the request in hand is complete -/
  | answered
  | closed
  deriving DecidableEq, Repr

/-- the way of a body's bytes to the service -/
inductive Inlet where
  /-- bytes can be handed on -/
  | ready
  /-- nobody has asked for bytes, or for more than there are -/
  | waiting
  | dropped
  deriving DecidableEq, Repr

/-- a request that the service has not been given yet -/
structure Call where
  request : Request
  bodied : Bool
  deriving Repr

/-- where an exchange stands -/
structure Exchange where
  inflow : Inflow := {}
  reading : Reading := .head
  writing : Writing := .idle
  /-- whether the connection goes on after the answer -/
  persist : Bool := true
  /-- whether a request offered to go on in another protocol; what is not written by the end of the exchange is left -/
  upgrades : Bool := false
  version : Version := .http11
  call : Option Call := none
  inlet : Option Inlet := none
  outbox : Bytes := []
  /-- the failure that is reported once the answer to it is written -/
  failure : Option Failure := none
  /-- there is something to read already -/
  again : Bool := false
  /-- the exchange is to be resumed without waiting for its peer -/
  roused : Bool := false
  deriving Repr

namespace Exchange

def closeReading (e : Exchange) : Exchange := { e with reading := .closed, persist := false }

def close (e : Exchange) : Exchange := { e with reading := .closed, writing := .closed, persist := false }

/-- once a request is read and its answer complete, the next request or the end -/
def advance (e : Exchange) : Exchange :=
  match e.reading, e.writing with
  | .done, .answered => if e.persist then { e with reading := .head, writing := .idle } else e.close
  | .closed, .answered | .done, .closed => e.close
  | _, _ => e

/-- the answer with this status, put behind what is still to be written -/
def answer (o : Options) (e : Exchange) (status : Nat) (method : Option Bytes) : Exchange :=
  { e with
    outbox := e.outbox ++ renderAnswer e.version status e.persist method o.date
    writing := if e.persist && !takesOver method status then .answered else .closed }

/-- the first bytes of a connection in the next major version of the protocol -/
def nextVersionPreface : Bytes := Bytes.ofText "PRI * HTTP/2.0\r\n\r\nSM\r\n\r\n"

/-- takes a head in: its body is read before the service runs, unless the peer waits to be asked for it -/
def begin (e : Exchange) (head : Head) : Exchange :=
  let framing := head.framing
  let decoder := Decoder.ofLength framing.body
  let asked := framing.expects && head.version = .http11
  { e with
    reading := decoder.elim .done .body
    persist := e.persist && framing.persist && !framing.closes
    upgrades := e.upgrades || framing.upgrades
    version := head.version
    call := some ⟨head.request, decoder.isSome⟩
    inlet := decoder.map fun _ => if asked then .waiting else .ready }

/-- reads once -/
def pull (e : Exchange) : Talk (Exchange × Poll (Except Fault Nat)) := do
  let (inflow, result) ← e.inflow.pull
  return ({ e with inflow }, result)

/-- between requests, finds out whether there is something to read already, or nothing any more -/
def lookAhead (e : Exchange) : Talk Exchange :=
  if e.reading ≠ .head || e.inflow.blocked then return e
  else if !e.inflow.buffer.isEmpty then return { e with again := true }
  else do
    let (e, result) ← e.pull
    return match result with
      | .pending => e
      | .ready (.ok 0) => e.close
      | .ready (.ok _) => { e with again := true }
      | .ready (.error _) => { e.close with failure := some .reading, again := true }

/-- goes on to the next request or the end, if the time has come -/
def goOn (e : Exchange) : Talk Exchange := e.advance.lookAhead

/-! ## Reading -/

/-- what reading the next head came to -/
inductive HeadRead where
  | waiting
  | head (head : Head)
  | failed (failure : Failure)
  deriving Repr

/-- whether the bytes may hold a whole head; ones that did not are looked at again only once an empty line ends -/
def mayHoldHead (f : Inflow) : Bool :=
  match f.scanned with
  | none => !f.buffer.isEmpty
  | some count => Head.hasEmptyLine (f.buffer.drop (count - 3))

/-- reads the next head, with `limit` reads at most -/
def readHead : Nat → Exchange → Talk (Exchange × HeadRead)
  | 0, e => return (e, .waiting)
  | limit + 1, e =>
    let inflow := e.inflow
    match if mayHoldHead inflow then Head.scan inflow.buffer else .more with
    | .head head rest =>
      return ({ e with inflow := { (inflow.keep rest).share head.refers with scanned := none } }, .head head)
    | .broken defect rest => return ({ e with inflow := inflow.keep rest }, .failed (.defective defect))
    | .more =>
      if inflow.buffer.length ≥ Pace.greatest then return (e, .failed (.defective .tooLarge))
      else do
        let scanned := if inflow.buffer.isEmpty then none else some inflow.buffer.length
        let (e, result) ← pull { e with inflow := { inflow with scanned } }
        match result with
        | .pending => return (e, .waiting)
        | .ready (.ok 0) => return (e, .failed .incomplete)
        | .ready (.ok _) => readHead limit e
        | .ready (.error _) => return (e, .failed .reading)

/-- the end of reading heads: bytes that are no request are answered if they can be, and the peer may stop between
requests -/
def refuseHead (o : Options) (e : Exchange) (failure : Failure) : Exchange × Except Failure Unit :=
  let buffer := e.inflow.buffer.dropWhile fun b => b == Bytes.cr || b == Bytes.lf
  let e := { e.closeReading with inflow := e.inflow.keep buffer }
  match failure with
  | .defective defect =>
    if nextVersionPreface.isPrefixOf buffer then (e, .error (.defective .nextVersion))
    else match defect.status? with
    | some status => ({ e.answer o status none with failure := some failure }, .ok ())
    | none => (e, .error failure)
  | failure =>
    if buffer.isEmpty then (e.close, .ok ())
    else if nextVersionPreface.isPrefixOf buffer then (e, .error (.defective .nextVersion))
    else (e, .error failure)

/-- takes the next part of the body, with `limit` reads at most; without one, more bytes are needed -/
def takePart : Nat → Exchange → Decoder → Talk (Exchange × Option BodyPart)
  | 0, e, _ => return (e, none)
  | limit + 1, e, decoder =>
    let (decoder, rest, part) := decoder.scan e.inflow.buffer
    let e := { e with inflow := e.inflow.keep rest, reading := .body decoder }
    match part with
    | some part => return (e, some part)
    | none => do
      let (e, result) ← e.pull
      match result with
      | .pending => return (e, none)
      | .ready (.ok 0) | .ready (.error _) => return (e, some .broken)
      | .ready (.ok _) => takePart limit e decoder

/-- reads a part of the body; behind its end, or after a fault, the exchange goes on. The last bytes of a body of known
length are still kept then -/
def readBody (patience : Nat) (e : Exchange) : Talk (Exchange × Option BodyPart) :=
  match e.reading with
  | .body decoder => do
    let (e, part) ← e.takePart (patience + 2) decoder
    match part with
    | some .finished =>
      let shared := e.inflow.memory.shared || decoder.isCounted
      let e ← goOn { e with reading := .done, inflow := e.inflow.share shared }
      return (e, some .finished)
    | some .broken =>
      let e ← goOn { e with reading := .closed }
      return (e, some .broken)
    | part => return (e, part)
  | _ => return (e, none)

/-- reads on over a body that nobody wants; if that does not reach its end, reading is over -/
def skipBody (patience : Nat) (e : Exchange) : Talk Exchange := do
  let (e, _) ← e.readBody patience
  let e := { e with inflow := e.inflow.share false }
  return match e.reading with
    | .head | .done => e
    | .body _ | .closed => e.closeReading

/-- deals with a body whose request was let go of -/
def settleInlet (patience : Nat) (e : Exchange) : Talk Exchange :=
  match e.inlet, e.reading with
  | some .dropped, .body _ => skipBody patience { e with inlet := none }
  | some .dropped, _ => return { e with inlet := none }
  | _, _ => return e

/-- hands the first part of a body on -/
def fillInlet (patience : Nat) (e : Exchange) : Talk Exchange :=
  match e.inlet, e.reading with
  | some .ready, .body _ => do
    let (e, part) ← e.readBody patience
    return match part with
      | none => e
      | some .data => { e with inlet := some .waiting }
      | some .finished | some .broken => { e with inlet := none }
  | _, _ => return e

/-- after a request without more to read, finds out whether the peer is still there -/
def lookForEnd (e : Exchange) : Talk (Exchange × Except Failure Unit) :=
  if e.inlet.isSome || e.reading ≠ .done || !e.inflow.buffer.isEmpty then return (e, .ok ())
  else do
    let (e, result) ← e.pull
    return match result with
      | .ready (.ok 0) => (e.closeReading, .error .incomplete)
      | .ready (.error _) => (e.close, .error .reading)
      | _ => (e, .ok ())

/-- reads the next head, if it is time for one -/
def nextHead (o : Options) (e : Exchange) : Talk (Exchange × Except Failure Unit) :=
  if e.reading ≠ .head then return (e, .ok ())
  else do
    let (e, result) ← e.readHead (Pace.greatest + 1)
    return match result with
      | .waiting => (e, .ok ())
      | .head head => (e.begin head, .ok ())
      | .failed failure => e.refuseHead o failure

/-- everything that is read in one round -/
def readPhase (o : Options) (patience : Nat) (e : Exchange) : Talk (Exchange × Except Failure Unit) := do
  let e ← e.settleInlet patience
  let (e, result) ← e.nextHead o
  match result with
  | .error failure => return (e, .error failure)
  | .ok () =>
    let e ← e.fillInlet patience
    e.lookForEnd

/-! ## Writing -/

/-- gives the request in hand to the service; letting go of a request with a body resumes the exchange -/
def writePhase (o : Options) (e : Exchange) : Talk Exchange :=
  match e.call with
  | none => return e
  | some call =>
    let served := (ServiceCall.holding call.request).run
    let status := (served.value.map (·.status)).getD 500
    Talk.reports served.notes (return { e.answer o status (some call.request.method) with
      call := none
      inflow := e.inflow.share false
      inlet := e.inlet.map fun _ => .dropped
      roused := e.roused || call.bodied })

/-- writes what is still to be written, with `limit` writes at most; true if nothing is left -/
def writeOut : Nat → Exchange → Talk (Exchange × Except Failure Bool)
  | 0, e => return (e, .ok false)
  | limit + 1, e =>
    if e.outbox.isEmpty then return (e, .ok true)
    else .send e.outbox fun
      | .pending => return (e, .ok false)
      | .ready (.error _) | .ready (.ok 0) => return (e, .error .writing)
      | .ready (.ok count) => writeOut limit { e with outbox := e.outbox.drop count }

/-- writes, and goes on once everything is written -/
def flush (e : Exchange) : Talk (Exchange × Except Failure Unit) := do
  let (e, result) ← e.writeOut (e.outbox.length + 1)
  match result with
  | .error failure => return (e, .error failure)
  | .ok true =>
    let e ← e.goOn
    return (e, .ok ())
  | .ok false => return (e, .ok ())

/-! ## Polling -/

/-- reads, answers and writes once -/
def round (o : Options) (patience : Nat) (e : Exchange) : Talk (Exchange × Except Failure Unit) := do
  let (e, result) ← e.readPhase o patience
  match result with
  | .error failure => return (e, .error failure)
  | .ok () =>
    let e ← e.writePhase o
    e.flush

/-- how many rounds a poll has at most -/
def maxRounds : Nat := 16

/-- rounds for as long as there is something to read already; true if the last of them found nothing -/
def rounds (o : Options) (patience : Nat) : Nat → Exchange → Talk (Exchange × Except Failure Bool)
  | 0, e => return (e, .ok false)
  | limit + 1, e => do
    let (e, result) ← e.round o patience
    match result with
    | .error failure => return (e, .error failure)
    | .ok () => if e.again then rounds o patience limit { e with again := false } else return (e, .ok true)

/-- how an exchange ended whose connection is done with -/
def outcome (e : Exchange) : Ended := e.failure.elim .complete .failed

/-- the end of an exchange that reads nothing more; the writing side is ended only once everything is written, and left
as it is for another protocol to go on -/
def finish (e : Exchange) : Talk (Exchange × Ended) :=
  if e.upgrades then return (e, e.outcome)
  else do
    let (e, result) ← e.writeOut (e.outbox.length + 1)
    match result with
    | .error _ => return (e, .failed .shuttingDown)
    | .ok false => return (e, .waiting)
    | .ok true => .shutdown fun
      | .error _ => return (e, .failed .shuttingDown)
      | .ok () => return (e, e.outcome)

/-- takes an exchange as far as it goes without waiting -/
def poll (o : Options) (patience : Nat) (e : Exchange) : Talk (Exchange × Ended) := do
  let (e, result) ← rounds o patience maxRounds { e with roused := false }
  match result with
  | .error failure => return (e, .failed failure)
  | .ok false => return ({ e with roused := true }, .waiting)
  | .ok true => if e.reading = .closed then e.finish else return (e, .waiting)

end Exchange

def protocol (o : Options) : Protocol Exchange where
  start := {}
  poll patience e := do
    let (exchange, ended) ← e.poll o patience
    return { exchange, roused := exchange.roused, ended }
  held e := e.inflow.buffer.length

end EventServer.Http
