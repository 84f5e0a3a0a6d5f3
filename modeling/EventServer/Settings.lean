/-
Settings of the server, read from the positional arguments `host` and `port`. A port is an optional plus sign and one or
more ASCII digits whose value fits sixteen bits; whatever follows the port is ignored.
-/
import EventServer.Failure

namespace EventServer

/-- what the server is started with -/
structure Settings where
  host : String
  port : UInt16
  /-- how many readiness reports one wait takes at most -/
  maxEvents : Nat
  /-- whether writable edges are watched while a write is parked -/
  armWrites : Bool
  deriving DecidableEq, Repr

namespace Settings

def default : Settings where
  host := "127.0.0.1"
  port := 1234
  maxEvents := 128
  armWrites := true

/-- a number as a port, if it fits sixteen bits -/
def fits? (n : Nat) : Option UInt16 := if n < UInt16.size then some (UInt16.ofNat n) else none

/-- a port with one more digit behind it; neither ten times the port nor the sum may need more than sixteen bits -/
def appendDigit? (port : UInt16) (c : Char) : Option UInt16 :=
  (fits? (10 * port.toNat)).bind fun shifted =>
    if c.isDigit then fits? (shifted.toNat + (c.toNat - '0'.toNat)) else none

/-- the digits of a port without the sign that may stand before them -/
def unsigned : List Char → List Char
  | '+' :: digits => digits
  | digits => digits

def parsePort (text : String) : Option UInt16 :=
  let digits := unsigned text.toList
  if digits.isEmpty then none else digits.foldlM appendDigit? 0

/-- the settings that the arguments after the program's name ask for -/
def ofArguments : List String → Except SetupFailure Settings
  | [] => .ok default
  | [host] => .ok { default with host }
  | host :: port :: _ =>
    match parsePort port with
    | some port => .ok { default with host, port }
    | none => .error (.badPort port)

def text (s : Settings) : String :=
  "Config \x7b host: " ++ Text.quoted s.host ++ ", port: " ++ toString s.port.toNat ++ ", max_events: " ++
    toString s.maxEvents ++ ", arm_write_interest: " ++ toString s.armWrites ++ " \x7d"

end Settings

end EventServer
