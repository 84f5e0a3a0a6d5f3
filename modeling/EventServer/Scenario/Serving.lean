/-
Sessions with a whole server, and with the program around it. After every step the server turns until it would wait for
ever, so that a step shows everything that it led to.
-/
import EventServer.CommandLine
import EventServer.Scenario.Basic

namespace EventServer.Scenario.Serving

inductive Step where
  | connect
  | connectStarved
  | send (client : Nat) (bytes : Bytes)
  | heads (client count : Nat)
  | eof (client : Nat)
  | shut (client : Nat)
  | close (client : Nat)
  | reset (client : Nat)
  | finish
  | interrupt
  deriving Repr

/-- how a client's reading stopped -/
inductive ReadEnd where
  | open
  | eof
  | failed (fault : Fault)
  deriving Repr, DecidableEq

inductive Result where
  | nothing
  | flag (value : Bool)
  | starved (failed accepted : Bool)
  | heads (bytes : Bytes) (missing : Nat)
  | read (bytes : Bytes) (readEnd : ReadEnd)
  deriving Repr

structure State where
  server : Server Http.Exchange
  clients : List (Option Descriptor) := []
  journal : Journal := []
  stopped : Option ShutdownSignal := none

namespace State

def patience : Nat := 100000

def settle (s : State) : State :=
  match s.stopped with
  | some _ => s
  | none =>
    let ran := s.server.run patience
    { s with
      server := ran.server
      journal := s.journal ++ ran.journal
      stopped := match ran.halt with
        | some (.stopped signal) => some signal
        | _ => none }

/-- brings the server to its first wait, and goes on from there -/
def begin (s : State) : State :=
  match s.server.prepare s.server.patience with
  | none => s
  | some ready => { s with server := ready.server, journal := s.journal ++ ready.journal }.settle

def withHost (s : State) (h : Host) : State := { s with server := s.server.onHost fun _ => h }

def client? (s : State) (number : Nat) : Option Descriptor := (s.clients[number]?).join

def inFlight (s : State) : Nat := s.server.engine.inFlight

end State

/-- reads one byte after another until so many empty lines have come -/
def readHeads : Nat → Nat → Host → Descriptor → Bytes → Host × Bytes × Nat
  | 0, count, h, _, got => (h, got, count)
  | _, 0, h, _, got => (h, got, 0)
  | limit + 1, count + 1, h, d, got =>
    match Nonblocking.recv h d 1 with
    | (h, .done [b]) =>
      let got := got ++ [b]
      let ends := (got.drop (got.length - 4)) == Bytes.ofText "\r\n\r\n"
      readHeads limit (if ends then count else count + 1) h d got
    | (h, _) => (h, got, count + 1)

def readAll : Nat → Host → Descriptor → Bytes → Host × Bytes × ReadEnd
  | 0, h, _, got => (h, got, .open)
  | limit + 1, h, d, got =>
    match Nonblocking.recv h d 65536 with
    | (h, .done []) => (h, got, .eof)
    | (h, .done bytes) => readAll limit h d (got ++ bytes)
    | (h, .wouldBlock) => (h, got, .open)
    | (h, .failed fault) => (h, got, .failed fault)

/-- connects a client; its address says which one it is -/
def dial (s : State) : Host × Except Errno Descriptor :=
  s.server.host.connect s.server.listener ⟨"<c" ++ toString s.clients.length ++ ">"⟩

def leave (s : State) (number : Nat) (abrupt : Bool) : State × Result :=
  match s.client? number with
  | none => (s, .flag false)
  | some d =>
    ({ s.withHost (s.server.host.close d abrupt) with clients := s.clients.set number none }.settle, .flag true)

def step (s : State) : Step → Except Abort (State × Result)
  | .connect =>
    match dial s with
    | (_, .error code) => .error (.noConnection code)
    | (h, .ok d) => .ok ({ s.withHost h with clients := s.clients ++ [some d] }.settle, .flag true)
  | .connectStarved =>
    match dial s with
    | (h, .error _) => .ok ({ s.withHost h with clients := s.clients ++ [none] }, .starved false false)
    | (h, .ok d) =>
      let refusals := { h.refusals with accept := [some .tooManyOpen] }
      let after := { s.withHost { h with refusals } with clients := s.clients ++ [some d] }.settle
      .ok (after, .starved true (s.inFlight < after.inFlight))
  | .send number bytes =>
    match s.client? number with
    | none => .ok (s, .flag false)
    | some d =>
      let (h, outcome) := Nonblocking.send s.server.host d bytes
      .ok ((s.withHost h).settle, .flag (match outcome with
        | .done count => count == bytes.length
        | _ => false))
  | .heads number count =>
    match s.client? number with
    | none => .ok (s, .heads [] count)
    | some d =>
      let (h, bytes, missing) := readHeads (streamCapacity + 1) count s.server.host d []
      .ok ((s.withHost h).settle, .heads bytes missing)
  | .eof number =>
    match s.client? number with
    | none => .ok (s, .read [] .eof)
    | some d =>
      let (h, bytes, readEnd) := readAll (streamCapacity + 2) s.server.host d []
      .ok ((s.withHost h).settle, .read bytes readEnd)
  | .shut number =>
    match s.client? number with
    | none => .ok (s, .nothing)
    | some d => .ok ((s.withHost (s.server.host.finish d).1).settle, .nothing)
  | .close number => .ok (leave s number false)
  | .reset number => .ok (leave s number true)
  | .finish => .ok (s, .flag true)
  | .interrupt => .ok ((s.withHost { s.server.host with interruptions := 1 }).settle, .nothing)

def stepAll : State → List Step → Except Abort (State × List Result)
  | s, [] => .ok (s, [])
  | s, st :: rest => do
    let (s, result) ← step s st
    let (s, results) ← stepAll s rest
    return (s, result :: results)

def raise (s : State) (number : Int) : State := (s.withHost (s.server.host.raise number).1).settle

/-- what the clients that are still connected can read once the server is gone -/
def leftovers (s : State) : List (Nat × Bytes) :=
  let h := s.server.release.server.host
  s.clients.zipIdx.filterMap fun entry =>
    entry.1.map fun d => (entry.2, (readAll (streamCapacity + 2) h d []).2.1)

structure View where
  results : List Result
  ended : Option ShutdownSignal
  left : List (Nat × Bytes)
  journal : Journal

/-- what a session with a server shows: signals come before the loop runs, then the steps are done, then a last signal
comes -/
def run (h : Host) (settings : Settings) (options : Http.Options) (early : List Int) (steps : List Step)
    (signal : Option Int) : Except (Abort ⊕ SetupFailure) View := do
  let bound := Server.bind h settings (Http.protocol options)
  match bound.server with
  | .error failure => throw (.inr failure)
  | .ok server =>
    let raised := server.onHost fun h => early.foldl (fun h number => (h.raise number).1) h
    let start := State.begin { server := raised, journal := bound.notes.map Entry.plain }
    match stepAll start steps with
    | .error abort => throw (.inl abort)
    | .ok (s, results) =>
      let s := signal.elim s (raise s)
      return { results, ended := s.stopped, left := leftovers s, journal := s.journal }

inductive Exit where
  | status (status : UInt8)
  | broken
  | killed (signal : Int)
  | running
  deriving Repr, DecidableEq

/-- what a session with the program shows -/
structure ProgramView where
  started : Bool := false
  results : List Result := []
  exit : Exit
  journal : Journal := []
  complaints : List String := []

/-- what a session with the program shows: it starts, the steps are done, and a signal comes -/
def runProgram (h : Host) (options : Http.Options) (setting : Option String) (arguments : List (Option String))
    (steps : List Step) (signal : Int) : Except Abort ProgramView :=
  match CommandLine.launch h options setting arguments with
  | .unreadable => .ok { exit := .broken }
  | .misused journal =>
    .ok { exit := .status CommandLine.exitStatus, journal, complaints := [CommandLine.usage] }
  | .failed journal => .ok { exit := .status CommandLine.exitStatus, journal }
  | .running server journal => do
    let (s, results) ← stepAll (State.begin { server, journal }) steps
    let s := raise s signal
    return match s.stopped with
      | some signal =>
        { started := true, results, exit := .status CommandLine.exitStatus
          journal := s.journal ++ CommandLine.farewell s.server signal }
      | none =>
        { started := true, results, journal := s.journal
          exit := if CommandLine.isFatal signal then .killed signal else .running }

end EventServer.Scenario.Serving
