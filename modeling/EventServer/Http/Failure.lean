/-
Why an HTTP exchange ends in failure: the peer's bytes are no request, the message stops short, or the work around it
fails. `Defect` names what is wrong with a request, `Failure` why the exchange as a whole gave up.
-/

namespace EventServer.Http

/-- what makes bytes no request -/
inductive Defect where
  | method | target | version
  | nextVersion
  | header | tooLarge | targetTooLong | contentLength | transferEncoding | unexpectedTransferEncoding
  deriving DecidableEq, Repr

def Defect.text : Defect → String
  | method => "invalid HTTP method parsed"
  | target => "invalid URI"
  | version => "invalid HTTP version parsed"
  | nextVersion => "invalid HTTP version parsed (found HTTP2 preface)"
  | header => "invalid HTTP header parsed"
  | tooLarge => "message head is too large"
  | targetTooLong => "URI too long"
  | contentLength => "invalid content-length parsed"
  | transferEncoding => "invalid transfer-encoding parsed"
  | unexpectedTransferEncoding => "unexpected transfer-encoding parsed"

/-- why an exchange gave up -/
inductive Failure where
  | defective (defect : Defect)
  | incomplete
  | canceled
  | headTimeout
  | reading
  | writing
  | shuttingDown
  | service
  | body
  deriving DecidableEq, Repr

def Failure.text : Failure → String
  | defective defect => defect.text
  | incomplete => "connection closed before message completed"
  | canceled => "operation was canceled"
  | headTimeout => "read header from client timeout"
  | reading => "connection error"
  | writing => "error writing a body to connection"
  | shuttingDown => "error shutting down connection"
  | service => "error from user's Service"
  | body => "error from user's Body stream"

end EventServer.Http
