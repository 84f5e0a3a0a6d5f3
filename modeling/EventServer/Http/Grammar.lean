/-
The bytes of message heads: which of them may stand in tokens, in targets and in field values.
-/
import EventServer.Text.Bytes

namespace EventServer.Http

def isTokenByte (b : UInt8) : Bool :=
  Bytes.isLetter b || Bytes.isDigit b || (Bytes.ofText "!#$%&'*+-.^_\x60|~").contains b

def isTargetByte (b : UInt8) : Bool := 0x21 ≤ b && b != 0x7F

def isValueByte (b : UInt8) : Bool := (0x20 ≤ b && b != 0x7F) || b == Bytes.tab

def isVisible (b : UInt8) : Bool := (0x20 ≤ b && b < 0x7F) || b == Bytes.tab

/-- a blank in a list of words; there are no others within a field value -/
def isListBlank (b : UInt8) : Bool := Bytes.isBlank b

end EventServer.Http
