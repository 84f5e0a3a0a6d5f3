/-
Byte strings: what sockets carry. A byte string is a list, oldest byte first; text enters it in UTF-8, and the ASCII
classes and comparisons here are the ones that message heads are written in.
-/

namespace EventServer

abbrev Bytes := List UInt8

namespace Bytes

def ofText (s : String) : Bytes := s.toUTF8.data.toList

/-- the text that the bytes are, if they are valid UTF-8 -/
def toText? (bytes : Bytes) : Option String := String.fromUTF8? (ByteArray.mk bytes.toArray)

def cr : UInt8 := 13

def lf : UInt8 := 10

def space : UInt8 := 32

def tab : UInt8 := 9

def ascii (c : Char) : UInt8 := c.toNat.toUInt8

/-- an upper-case ASCII letter becomes its lower-case form, all else is kept -/
def lower (b : UInt8) : UInt8 := if 65 ≤ b && b ≤ 90 then b + 32 else b

/-- whether two byte strings differ in the case of ASCII letters at most -/
def sameIgnoringCase (a b : Bytes) : Bool := a.map lower == b.map lower

def isDigit (b : UInt8) : Bool := 48 ≤ b && b ≤ 57

def isLetter (b : UInt8) : Bool := (65 ≤ b && b ≤ 90) || (97 ≤ b && b ≤ 122)

def isBlank (b : UInt8) : Bool := b == space || b == tab

/-- the value of a hexadecimal digit of either case -/
def hexValue? (b : UInt8) : Option Nat :=
  if isDigit b then some (b.toNat - 48)
  else if 97 ≤ b && b ≤ 102 then some (b.toNat - 87)
  else if 65 ≤ b && b ≤ 70 then some (b.toNat - 55)
  else none

def trimRight (p : UInt8 → Bool) (bytes : Bytes) : Bytes := (bytes.reverse.dropWhile p).reverse

def trim (p : UInt8 → Bool) (bytes : Bytes) : Bytes := trimRight p (bytes.dropWhile p)

/-- the parts between the separators, one more than there are separators -/
def splitOn (separator : UInt8) : Bytes → List Bytes
  | [] => [[]]
  | b :: rest =>
    if b == separator then [] :: splitOn separator rest
    else match splitOn separator rest with
      | [] => [[b]]
      | part :: parts => (b :: part) :: parts

end Bytes

end EventServer
