/-
Answers as bytes: the status line, what it says about the connection, the length of the empty body, and the date.
-/
import EventServer.Http.Head

namespace EventServer.Http

def statusText : Nat → String
  | 200 => "OK"
  | 400 => "Bad Request"
  | 414 => "URI Too Long"
  | 431 => "Request Header Fields Too Large"
  | _ => ""

/-- the status of an answer to bytes that are no request; some faults get no answer -/
def Defect.status? : Defect → Option Nat
  | .method | .header | .target | .version | .contentLength | .transferEncoding | .unexpectedTransferEncoding =>
    some 400
  | .tooLarge => some 431
  | .targetTooLong => some 414
  | .nextVersion => none

/-- whether a method gets an answer that says nothing of its length -/
def isLengthless (method : Option Bytes) (status : Nat) : Bool :=
  match method with
  | none => false
  | some name => name == Bytes.ofText "HEAD" || (name == Bytes.ofText "CONNECT" && 200 ≤ status && status < 300)

/-- whether a method takes the connection over once it succeeded -/
def takesOver (method : Option Bytes) (status : Nat) : Bool :=
  method == some (Bytes.ofText "CONNECT") && 200 ≤ status && status < 300

/-- what an answer says about the connection, if anything -/
def connectionWord (version : Version) (persist : Bool) : Option String :=
  match version, persist with
  | .http11, false => some "close"
  | .http10, true => some "keep-alive"
  | _, _ => none

def lineEnd : String := "\r\n"

/-- the bytes of an answer with an empty body -/
def renderAnswer (version : Version) (status : Nat) (persist : Bool) (method : Option Bytes) (date : String) : Bytes :=
  Bytes.ofText (version.text ++ " " ++ toString status ++ " " ++ statusText status ++ lineEnd ++
    ((connectionWord version persist).map fun word => "connection: " ++ word ++ lineEnd).getD "" ++
    (if isLengthless method status then "" else "content-length: 0" ++ lineEnd) ++
    "date: " ++ date ++ lineEnd ++ lineEnd)

end EventServer.Http
