/-
Message heads: the request line and the fields behind it, up to the empty line. `Head.scan` reads a head from the front
of the bytes that are there and finds that it is complete, that more bytes are needed, or what is wrong with it; a fault
is found as soon as the bytes show it. What the fields say about the message follows from them alone
(`Framing.ofFields`).
-/
import EventServer.Http.Failure
import EventServer.Http.Service

namespace EventServer.Http

/-- what reading from the front of some bytes gives -/
inductive Scan (α : Type) where
  | more
  | found (value : α) (rest : Bytes)
  | defect (defect : Defect)
  deriving Repr

namespace Scan

def andThen {α β : Type} (scan : Scan α) (next : α → Bytes → Scan β) : Scan β :=
  match scan with
  | more => more
  | found value rest => next value rest
  | defect d => defect d

end Scan

/-- a line end: a line feed, with or without a carriage return before it -/
def scanLineEnd (otherwise : Defect) : Bytes → Scan Unit
  | [] => .more
  | b :: rest =>
    if b == Bytes.lf then .found () rest
    else if b == Bytes.cr then
      match rest with
      | [] => .more
      | c :: rest => if c == Bytes.lf then .found () rest else .defect otherwise
    else .defect otherwise

/-- the empty lines that may stand before a request -/
def skipEmptyLines : Bytes → Scan Unit
  | [] => .more
  | b :: rest =>
    if b == Bytes.lf then skipEmptyLines rest
    else if b == Bytes.cr then
      match rest with
      | [] => .more
      | c :: rest => if c == Bytes.lf then skipEmptyLines rest else .defect .header
    else .found () (b :: rest)

def scanMethod (bytes : Bytes) : Scan Bytes :=
  let method := bytes.takeWhile isTokenByte
  match bytes.drop method.length with
  | [] => .more
  | b :: rest => if b == Bytes.space && !method.isEmpty then .found method rest else .defect .method

def scanTarget (bytes : Bytes) : Scan Bytes :=
  let target := bytes.takeWhile isTargetByte
  match bytes.drop target.length with
  | [] => .more
  | b :: rest =>
    if b == Bytes.space && !target.isEmpty && (Bytes.toText? target).isSome then .found target rest
    else .defect .target

/-- the version: eight bytes, of which the first seven are always the same -/
def scanVersion (bytes : Bytes) : Scan Version :=
  if bytes.length < 8 then
    if bytes.isPrefixOf (Bytes.ofText "HTTP/1.") then .more else .defect .version
  else if bytes.take 8 == Bytes.ofText "HTTP/1.1" then .found .http11 (bytes.drop 8)
  else if bytes.take 8 == Bytes.ofText "HTTP/1.0" then .found .http10 (bytes.drop 8)
  else .defect .version

/-- the value of a field and the line end behind it, without the blanks around the value -/
def scanValue (bytes : Bytes) : Scan Bytes :=
  let text := bytes.dropWhile Bytes.isBlank
  let value := text.takeWhile isValueByte
  (scanLineEnd .header (text.drop value.length)).andThen fun _ rest =>
    .found (Bytes.trimRight Bytes.isBlank value) rest

def scanField (bytes : Bytes) : Scan Field :=
  let name := bytes.takeWhile isTokenByte
  match bytes.drop name.length with
  | [] => .more
  | b :: rest =>
    if b == Bytes.ascii ':' && !name.isEmpty then
      (scanValue rest).andThen fun value rest => .found ⟨name, value⟩ rest
    else .defect .header

/-- how many fields a head has at most -/
def maxFields : Nat := 100

/-- the fields up to the empty line; `room` is how many there may still be, `limit` bounds the lines looked at -/
def scanFields (room : Nat) : Nat → Bytes → Scan (List Field)
  | _, [] => .more
  | 0, _ => .more
  | limit + 1, b :: bytes =>
    if b == Bytes.cr || b == Bytes.lf then
      (scanLineEnd .header (b :: bytes)).andThen fun _ rest => .found [] rest
    else
      (scanField (b :: bytes)).andThen fun field rest =>
        match room with
        | 0 => .defect .tooLarge
        | room + 1 => (scanFields room limit rest).andThen fun fields rest => .found (field :: fields) rest

/-- how much body follows a head -/
inductive BodyLength where
  | none
  | length (count : Nat)
  | chunked
  deriving DecidableEq, Repr

/-- what the fields of a head say about its message -/
structure Framing where
  body : BodyLength := .none
  /-- whether the connection goes on after the answer, unless something ends it -/
  persist : Bool
  /-- whether the answer ends the connection, whatever else is asked for -/
  closes : Bool := false
  expects : Bool := false
  /-- whether the peer offers to go on in another protocol -/
  upgrades : Bool := false
  length : Option Nat := none
  /-- the last transfer encoding given, if one was, is chunked -/
  encoding : Option Bool := none
  deriving DecidableEq, Repr

namespace Framing

def maxLength : Nat := UInt64.size - 3

/-- the number that digits give, if it fits sixty-four bits -/
def parseLength (value : Bytes) : Option Nat :=
  let number := value.foldl (fun n b => 10 * n + (b.toNat - 48)) 0
  if !value.isEmpty && value.all Bytes.isDigit && number < UInt64.size then some number else none

/-- the words of a list, without the blanks around them; a value that cannot be shown has none -/
def words (value : Bytes) : List Bytes :=
  if value.all isVisible then (Bytes.splitOn (Bytes.ascii ',') value).map (Bytes.trim isListBlank) else []

def hasWord (value : Bytes) (word : String) : Bool :=
  (words value).any (Bytes.sameIgnoringCase (Bytes.ofText word))

def endsChunked (value : Bytes) : Bool :=
  match (words value).getLast? with
  | some word => Bytes.sameIgnoringCase (Bytes.ofText "chunked") word
  | none => false

/-- takes one more field into account; beside a transfer encoding a length counts for nothing and ends the connection -/
def addField (version : Version) (f : Framing) (field : Field) : Except Defect Framing :=
  let isNamed (name : String) : Bool := Bytes.sameIgnoringCase (Bytes.ofText name) field.name
  if isNamed "transfer-encoding" then
    if version = .http10 then .error .unexpectedTransferEncoding
    else
      let closes := f.closes || f.length.isSome
      if endsChunked field.value then .ok { f with encoding := some true, body := .chunked, closes }
      else .ok { f with encoding := some false, closes }
  else if isNamed "content-length" then
    if f.encoding.isSome then .ok { f with closes := true }
    else match parseLength field.value, f.length with
    | none, _ => .error .contentLength
    | some n, some m => if n = m then .ok f else .error .contentLength
    | some n, none =>
      if n > maxLength then .error .tooLarge
      else .ok { f with length := some n, body := if n = 0 then .none else .length n }
  else if isNamed "connection" then
    .ok
      { f with
        persist := f.persist || hasWord field.value "keep-alive"
        closes := f.closes || hasWord field.value "close" }
  else if isNamed "expect" then
    .ok { f with expects := Bytes.sameIgnoringCase (Bytes.ofText "100-continue") field.value }
  else if isNamed "upgrade" then .ok { f with upgrades := version = .http11 }
  else .ok f

def addFields (version : Version) (f : Framing) : List Field → Except Defect Framing
  | [] => if f.encoding = some false then .error .transferEncoding else .ok f
  | field :: rest =>
    match f.addField version field with
    | .ok f => addFields version f rest
    | .error defect => .error defect

/-- what the method and all fields say; a tunnel is another protocol in any version -/
def ofFields (method : Bytes) (version : Version) (fields : List Field) : Except Defect Framing :=
  addFields version { persist := version = .http11, upgrades := method == Bytes.ofText "CONNECT" } fields

end Framing

structure Head where
  request : Request
  version : Version
  framing : Framing
  /-- whether the request refers to the bytes that it was read from; a slash or an asterisk alone and empty values need
  none -/
  refers : Bool
  deriving Repr

namespace Head

/-- the parts of a head as they were read -/
structure Lines where
  method : Bytes
  target : Bytes
  version : Version
  fields : List Field
  deriving Repr

def scanLines (bytes : Bytes) : Scan Lines :=
  (skipEmptyLines bytes).andThen fun _ rest =>
  (scanMethod rest).andThen fun method rest =>
  (scanTarget rest).andThen fun target rest =>
  (scanVersion rest).andThen fun version rest =>
  (scanLineEnd .header rest).andThen fun _ rest =>
  (scanFields maxFields (rest.length + 1) rest).andThen fun fields rest =>
  .found { method, target, version, fields } rest

inductive Result where
  | more
  | head (head : Head) (rest : Bytes)
  | broken (defect : Defect) (rest : Bytes)
  deriving Repr

/-- whether the bytes are a slash or an asterisk alone -/
def isPlainTarget (target : Bytes) : Bool := target == [Bytes.ascii '/'] || target == [Bytes.ascii '*']

/-- the head that the lines make -/
def ofLines (lines : Lines) : Except Defect Head :=
  match Target.parse lines.target with
  | .error _ => .error .target
  | .ok target =>
    match Framing.ofFields lines.method lines.version lines.fields with
    | .error defect => .error defect
    | .ok framing =>
      .ok
        { request := { method := lines.method, target, fields := lines.fields }
          version := lines.version
          framing
          refers := !isPlainTarget lines.target || lines.fields.any fun field => !field.value.isEmpty }

/-- reads a head from the front of the bytes -/
def scan (bytes : Bytes) : Result :=
  match scanLines bytes with
  | .more => .more
  | .defect defect => .broken defect bytes
  | .found lines rest =>
    if lines.target.length > Target.maxLength then .broken .targetTooLong bytes
    else if lines.fields.any fun field => field.name.length > Field.maxNameLength then .broken .tooLarge bytes
    else match ofLines lines with
    | .ok head => .head head rest
    | .error defect => .broken defect rest

def hasEmptyLine : Bytes → Bool
  | [] => false
  | b :: rest =>
    (b == Bytes.lf && ([Bytes.lf].isPrefixOf rest || [Bytes.cr, Bytes.lf].isPrefixOf rest)) || hasEmptyLine rest

end Head

end EventServer.Http
