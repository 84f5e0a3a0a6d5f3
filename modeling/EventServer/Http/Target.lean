/-
Request targets: a path, an asterisk, an authority alone, or an absolute address. `Target.parse` accepts one of these
forms and says what is wrong with any other text; `Target.text` is the form in which a target is shown, without its
fragment.
-/
import EventServer.Text.Bytes

namespace EventServer.Http

inductive TargetFault where
  | empty | tooLong | badCharacter | badAuthority | badFormat | schemeTooLong
  deriving DecidableEq, Repr

def TargetFault.text : TargetFault → String
  | empty => "empty string"
  | tooLong => "uri too long"
  | badCharacter => "invalid uri character"
  | badAuthority => "invalid authority"
  | badFormat => "invalid format"
  | schemeTooLong => "scheme too long"

/-- the parts of a target; a target without scheme and authority is a path or an asterisk -/
structure Target where
  scheme : Option Bytes := none
  authority : Bytes := []
  path : Bytes := []
  query : Option Bytes := none
  deriving Repr, DecidableEq

namespace Target

def maxLength : Nat := 65534

def maxSchemeLength : Nat := 64

def isOneOf (characters : String) (b : UInt8) : Bool := (Bytes.ofText characters).contains b

def isSchemeByte (b : UInt8) : Bool := Bytes.isLetter b || Bytes.isDigit b || isOneOf "+-.~" b

def isAuthorityByte (b : UInt8) : Bool :=
  Bytes.isLetter b || Bytes.isDigit b || isOneOf "!$&'()*+,-.:;=@[]_~" b

def endsAuthority (b : UInt8) : Bool := isOneOf "/?#" b

def isPathByte (b : UInt8) : Bool :=
  b == 0x21 || b == 0x22 || (0x24 ≤ b && b ≤ 0x3B) || b == 0x3D || (0x40 ≤ b && b ≤ 0x5F) ||
    (0x61 ≤ b && b ≤ 0x7E) || 0x80 ≤ b

def isQueryByte (b : UInt8) : Bool :=
  b == 0x21 || (0x24 ≤ b && b ≤ 0x3B) || b == 0x3D || (0x3F ≤ b && b ≤ 0x7E) || 0x80 ≤ b

/-- what reading an authority has seen so far -/
structure AuthorityScan where
  colons : Nat := 0
  opened : Bool := false
  closed : Bool := false
  /-- a percent sign stands outside the user's part and the brackets -/
  percent : Bool := false
  /-- the last byte was the sign that ends the user's part -/
  endsWithAt : Bool := false

/-- reads on over an authority; the count is of its bytes -/
def scanAuthority (scan : AuthorityScan) (count : Nat) : Bytes → Except TargetFault Nat
  | [] => settle scan count
  | b :: rest =>
    let seen := { scan with endsWithAt := false }
    if endsAuthority b then settle scan count
    else if b == Bytes.ascii ':' then
      if scan.colons ≥ 8 then .error .badAuthority
      else scanAuthority { seen with colons := scan.colons + 1 } (count + 1) rest
    else if b == Bytes.ascii '[' then
      if scan.percent || scan.opened then .error .badAuthority
      else scanAuthority { seen with opened := true } (count + 1) rest
    else if b == Bytes.ascii ']' then
      if !scan.opened || scan.closed then .error .badAuthority
      else scanAuthority { seen with closed := true, colons := 0, percent := false } (count + 1) rest
    else if b == Bytes.ascii '@' then
      scanAuthority { seen with colons := 0, percent := false, endsWithAt := true } (count + 1) rest
    else if b == Bytes.ascii '%' then scanAuthority { seen with percent := true } (count + 1) rest
    else if isAuthorityByte b then scanAuthority seen (count + 1) rest
    else .error .badCharacter
where
  /-- accepts an authority that is complete -/
  settle (scan : AuthorityScan) (count : Nat) : Except TargetFault Nat :=
    if scan.opened != scan.closed || scan.colons > 1 || scan.endsWithAt || scan.percent then .error .badAuthority
    else .ok count

/-- how many bytes the authority at the front has -/
def authorityLength (bytes : Bytes) : Except TargetFault Nat := scanAuthority {} 0 bytes

/-- the path and the query at the front of the bytes, without a fragment -/
def parsePath (bytes : Bytes) : Except TargetFault (Bytes × Option Bytes) :=
  let stops (b : UInt8) : Bool := b == Bytes.ascii '?' || b == Bytes.ascii '#'
  let path := bytes.takeWhile (!stops ·)
  let rest := bytes.drop path.length
  let query := match rest with
    | b :: rest => if b == Bytes.ascii '?' then some (rest.takeWhile (· != Bytes.ascii '#')) else none
    | [] => none
  let shown := path ++ (query.map (Bytes.ascii '?' :: ·)).getD []
  if path.all isPathByte && (query.getD []).all isQueryByte && (Bytes.toText? shown).isSome then .ok (path, query)
  else .error .badCharacter

/-- what of a text is its scheme -/
inductive SchemeScan where
  | none
  | scheme (length : Nat)
  | tooLong

/-- the scheme at the front of the bytes, which a colon and two slashes follow -/
def scanScheme (bytes : Bytes) : SchemeScan :=
  let name := bytes.takeWhile isSchemeByte
  if bytes.length > 3 && (Bytes.ofText "://").isPrefixOf (bytes.drop name.length) then
    if name.length > maxSchemeLength then .tooLong else .scheme name.length
  else .none

/-- the two schemes of the web are shown in lower case, others as they are -/
def normalScheme (scheme : Bytes) : Bytes :=
  if Bytes.sameIgnoringCase scheme (Bytes.ofText "http") || Bytes.sameIgnoringCase scheme (Bytes.ofText "https") then
    scheme.map Bytes.lower
  else scheme

/-- the target behind a scheme -/
def parseAbsolute (scheme : Bytes) (rest : Bytes) : Except TargetFault Target :=
  match authorityLength rest with
  | .error fault => .error fault
  | .ok 0 => .error (if rest.isEmpty then .empty else .badFormat)
  | .ok length =>
    match parsePath (rest.drop length) with
    | .error fault => .error fault
    | .ok (path, query) => .ok { scheme := some (normalScheme scheme), authority := rest.take length, path, query }

/-- the target that is an authority alone -/
def parseAuthority (bytes : Bytes) (otherwise : TargetFault) : Except TargetFault Target :=
  match authorityLength bytes with
  | .error fault => .error fault
  | .ok length => if length = bytes.length then .ok { authority := bytes } else .error otherwise

/-- the target that the bytes are -/
def parse (bytes : Bytes) : Except TargetFault Target :=
  if bytes.length > maxLength then .error .tooLong
  else match bytes with
  | [] => .error .empty
  | [b] =>
    if b == Bytes.ascii '/' || b == Bytes.ascii '*' then .ok { path := [b] }
    else parseAuthority [b] .badCharacter
  | b :: _ =>
    if b == Bytes.ascii '/' then
      match parsePath bytes with
      | .error fault => .error fault
      | .ok (path, query) => .ok { path, query }
    else match scanScheme bytes with
      | .tooLong => .error .schemeTooLong
      | .scheme length => parseAbsolute (bytes.take length) (bytes.drop (length + 3))
      | .none => parseAuthority bytes .badFormat

/-- the bytes in which a target is shown; a target with a scheme has a slash for an empty path -/
def shown (t : Target) : Bytes :=
  let path := if t.path.isEmpty && (t.scheme.isSome || t.query.isSome) then [Bytes.ascii '/'] else t.path
  (t.scheme.map (· ++ Bytes.ofText "://")).getD [] ++ t.authority ++ path ++
    (t.query.map (Bytes.ascii '?' :: ·)).getD []

def text (t : Target) : String := (Bytes.toText? t.shown).getD ""

end Target

end EventServer.Http
