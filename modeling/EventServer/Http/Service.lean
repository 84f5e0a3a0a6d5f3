/-
The service: what answers a request. Every request is answered with an empty success, and the request is let go of
before the answer is handed on.
-/
import EventServer.Http.Grammar
import EventServer.Http.Target
import EventServer.Journal.Noted

namespace EventServer.Http

inductive Version where
  | http10 | http11
  deriving DecidableEq, Repr

def Version.text : Version → String
  | http10 => "HTTP/1.0"
  | http11 => "HTTP/1.1"

/-- a field of a message head, its name in the case that it was given in -/
structure Field where
  name : Bytes
  value : Bytes
  deriving Repr, DecidableEq

/-- how many bytes the name of a field has at most -/
def Field.maxNameLength : Nat := 65535

structure Request where
  method : Bytes
  target : Target
  fields : List Field := []
  deriving Repr

/-- why parts do not make a request -/
inductive RequestFault where
  | method
  | target (fault : TargetFault)
  | fieldName
  | fieldValue
  deriving DecidableEq, Repr

def RequestFault.text : RequestFault → String
  | method => "invalid HTTP method"
  | target fault => fault.text
  | fieldName => "invalid HTTP header name"
  | fieldValue => "failed to parse header value"

namespace Request

def isToken (bytes : Bytes) : Bool := !bytes.isEmpty && bytes.all isTokenByte

/-- the first fault of the fields, if there is one -/
def fieldFault : List Field → Option RequestFault
  | [] => none
  | field :: rest =>
    if !isToken field.name || field.name.length > Field.maxNameLength then some .fieldName
    else if !field.value.all isValueByte then some .fieldValue
    else fieldFault rest

def build (method target : Bytes) (fields : List Field) : Except RequestFault Request :=
  if !isToken method then .error .method
  else match Target.parse target with
  | .error fault => .error (.target fault)
  | .ok target =>
    match fieldFault fields with
    | some fault => .error fault
    | none => .ok { method, target, fields }

def methodText (r : Request) : String := (Bytes.toText? r.method).getD ""

end Request

structure Answer where
  version : Version := .http11
  status : Nat
  fields : List Field := []
  deriving Repr, DecidableEq

/-- a call of the service: it holds its request until it is run -/
inductive ServiceCall where
  | holding (request : Request)
  | answered
  deriving Repr

namespace ServiceCall

def released : ServiceCall → Bool
  | holding _ => false
  | answered => true

/-- answers the request, and nothing when run again -/
def run : ServiceCall → Noted ServiceCall (Option Answer)
  | holding request =>
    { state := answered
      value := some { status := 200 }
      notes := [.request request.methodText request.target.text] }
  | answered => { state := answered, value := none }

end ServiceCall

end EventServer.Http
