/-
Journal entries: a note together with the connection whose task was running when it was made, and the line it is kept
as.
-/
import EventServer.Journal.Note
import EventServer.Text.Spelled

namespace EventServer

/-- the connection whose task is running -/
structure Place where
  slot : Nat
  peer : Address
  deriving DecidableEq, Repr

namespace Place

def name : String := "conn"

def slotField : String := "slot"

def peerField : String := "peer"

def fields : List String := [slotField, peerField]

def text (p : Place) : String :=
  name ++ "\x7b" ++ slotField ++ "=" ++ toString p.slot ++ " " ++ peerField ++ "=" ++ p.peer.text ++ "\x7d: "

end Place

/-- a note and where it was made -/
structure Entry where
  place : Option Place
  note : Note
  deriving DecidableEq, Repr

namespace Entry

/-- a note made outside every connection's task -/
def plain (note : Note) : Entry := ⟨none, note⟩

/-- the entry's line; the words of the note are spelled, as they may hold what a peer sent -/
def line (e : Entry) : String :=
  e.note.level.text ++ " " ++ (e.place.map Place.text).getD "" ++ e.note.component.path ++ ": " ++
    Text.spelled e.note.text

end Entry

/-- notes and where they were made, oldest first -/
abbrev Journal := List Entry

namespace Journal

def lines (journal : Journal) (limit : Level) : List String :=
  (journal.filter (·.note.level.within limit)).map Entry.line

end Journal

end EventServer
