/-
Endpoints: where a listener can be bound. A host that is an address stands for itself, other hosts are looked up in a
directory, and looking up can fail. An address of eight groups can name the interface that it counts on, behind a
percent sign (`Directory.scope?`).
-/
import EventServer.Address
import EventServer.IpAddress

namespace EventServer

structure Endpoint where
  ip : IpAddress
  port : UInt16
  /-- the interface that an address of eight groups is tied to; zero stands for none -/
  scope : UInt32 := 0
  deriving DecidableEq, Repr

/-- what names stand for -/
structure Directory where
  hosts : List (String × IpAddress) := [("localhost", .loopback)]
  interfaces : List (String × UInt32) := [("lo", 1)]
  deriving Repr

namespace Directory

/-- whether a text has the form of a host's name: labels of letters, digits, hyphens and underscores with points
between them, and one more point behind them if need be -/
def isHostName (text : String) : Bool :=
  let labels := match (text.splitOn ".").reverse with
    | "" :: before => before.reverse
    | labels => labels.reverse
  let isLabel (label : String) : Bool :=
    0 < label.length && label.length ≤ 63 &&
      label.toList.all fun c => c.isAlphanum || c == '-' || c == '_'
  text == "." ||
    (!labels.isEmpty && labels.all isLabel && !text.startsWith "-" &&
      labels.foldl (fun size label => size + label.length + 1) 1 ≤ 255)

/-- the address of a host; names are the same in any case -/
def host? (d : Directory) (name : String) : Option IpAddress := d.hosts.lookup name.toLower

/-- the interface that a text names, for an address that counts on one link alone, or the number that it is -/
def scope? (d : Directory) (ip : IpAddress) (text : String) : Option UInt32 :=
  let named := if ip.isLinkLocal || ip.isNearby then d.interfaces.lookup text else none
  named.or (((Text.parseNumber 10 text.toList).filter (· < UInt32.size)).map UInt32.ofNat)

end Directory

namespace Endpoint

def address (e : Endpoint) : Address :=
  let port := ":" ++ toString e.port.toNat
  match e.ip with
  | .v4 _ => ⟨e.ip.text ++ port⟩
  | .v6 _ =>
    let scope := if e.scope = 0 then "" else "%" ++ toString e.scope.toNat
    ⟨"[" ++ e.ip.text ++ scope ++ "]" ++ port⟩

/-- whether two listeners cannot be bound at both endpoints -/
def overlaps (a b : Endpoint) : Bool := a.port == b.port && a.ip.overlaps b.ip

def unknown (detail : String) : String := "failed to lookup address information: " ++ detail

/-- the eight groups and the scope of a host that names both -/
def parseScoped? (host : String) : Option (IpAddress × String) :=
  let front := host.toList.takeWhile (· != '%')
  match host.toList.drop front.length, IpAddress.parseSix (String.ofList front) with
  | _ :: scope, some value => some (.v6 value, String.ofList scope)
  | _, _ => none

/-- the endpoints that a host stands for, or why it could not be looked up -/
def resolve (d : Directory) (host : String) (port : UInt16) : Except String (List Endpoint) :=
  match IpAddress.parse? host with
  | some ip => .ok [{ ip, port }]
  | none =>
    if host.toList.contains '\x00' then .error "file name contained an unexpected NUL byte"
    else match IpAddress.parseLoose? host, parseScoped? host with
    | some ip, _ => .ok [{ ip, port }]
    | none, some (ip, scope) =>
      match d.scope? ip scope with
      | some scope => .ok [{ ip, port, scope }]
      | none => .error (unknown "Name or service not known")
    | none, none =>
      match d.host? host with
      | some ip => .ok [{ ip, port }]
      | none =>
        .error (unknown (if Directory.isHostName host then "Temporary failure in name resolution"
          else "Name or service not known"))

end Endpoint

end EventServer
