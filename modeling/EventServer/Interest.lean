/-
Interest: which conditions of a descriptor are watched, and whether they are reported while they hold or as they arise.
-/

namespace EventServer

/-- the conditions watched on a descriptor; trouble with its peer is watched whatever they are -/
structure Interest where
  read : Bool
  write : Bool
  /-- report transitions only, not every wait while the condition holds -/
  edge : Bool
  deriving DecidableEq, Repr

namespace Interest

def reading : Interest := ⟨true, false, false⟩

def readingAndWriting : Interest := ⟨true, true, false⟩

/-- the same conditions, reported as they arise -/
def edgeTriggered (i : Interest) : Interest := { i with edge := true }

/-- the host's number for the watched conditions; errors and hangups are always among them -/
def mask (i : Interest) : Nat :=
  24 + (if i.read then 1 else 0) + (if i.write then 4 else 0) + (if i.edge then 0x80000000 else 0)

def text (i : Interest) : String :=
  "Interest \x7b read: " ++ toString i.read ++ ", write: " ++ toString i.write ++ ", edge: " ++ toString i.edge ++
    " \x7d"

end Interest

end EventServer
