/-
Network addresses: four bytes, or eight groups of sixteen bits. An address is read from the form that it is usually
written in (`IpAddress.parse?`); the older form of four bytes, with fewer and larger numbers that may be octal or
hexadecimal, is read by `IpAddress.parseLoose?`. `IpAddress.text` is the form in which an address is shown.
-/
import EventServer.Text.Numeral
import EventServer.Text.Quoted

namespace EventServer

inductive IpAddress where
  | v4 (value : UInt32)
  | v6 (value : BitVec 128)
  deriving DecidableEq, Repr

namespace IpAddress

/-! ## Four bytes -/

def octets (value : UInt32) : List Nat := [24, 16, 8, 0].map fun shift => (value.toNat >>> shift) % 256

def ofOctets (bytes : List Nat) : UInt32 := UInt32.ofNat (Text.numberOf 256 bytes)

def textOfOctets (value : UInt32) : String := ".".intercalate ((octets value).map toString)

/-- one of four bytes: up to three digits, none of them a needless zero, at most 255 -/
def parseOctet (digits : List Char) : Option Nat :=
  if digits.length ≤ 3 && (digits.length ≤ 1 || digits.head? ≠ some '0') then
    (Text.parseNumber 10 digits).filter (· ≤ 255)
  else none

/-- the four bytes that four numbers between points give -/
def parseOctets (text : String) : Option UInt32 :=
  let parts := text.toList.splitOn '.'
  let bytes := parts.filterMap parseOctet
  if bytes.length = 4 && parts.length = 4 then some (ofOctets bytes) else none

/-- a number in decimal, in octal behind a zero, or in hexadecimal behind a zero and an x; at most thirty-two bits -/
def parseLooseNumber (digits : List Char) : Option Nat :=
  let value := match digits with
    | '0' :: 'x' :: digits | '0' :: 'X' :: digits => Text.parseNumber 16 digits
    | '0' :: digits => Text.parseNumber 8 ('0' :: digits)
    | digits => Text.parseNumber 10 digits
  value.filter (· < UInt32.size)

/-- the four bytes that one to four numbers between points give; the last number stands for all bytes that are left -/
def parseLoose? (text : String) : Option IpAddress :=
  let numbers := (text.toList.splitOn '.').map parseLooseNumber
  match numbers.all Option.isSome, (numbers.filterMap id).reverse with
  | true, last :: before =>
    if before.length ≤ 3 && before.all (· ≤ 255) && last < 1 <<< (8 * (4 - before.length)) then
      some (.v4 (UInt32.ofNat ((Text.numberOf 256 before.reverse) <<< (8 * (4 - before.length)) + last)))
    else none
  | _, _ => none

/-! ## Eight groups -/

def groups (value : BitVec 128) : List Nat :=
  [112, 96, 80, 64, 48, 32, 16, 0].map fun shift => (value.toNat >>> shift) % 65536

def ofGroups (groups : List Nat) : BitVec 128 := BitVec.ofNat 128 (Text.numberOf 65536 groups)

/-- one group: up to four hexadecimal digits -/
def parseGroup (text : String) : Option (List Nat) :=
  if text.toList.length ≤ 4 then (Text.parseNumber 16 text.toList).map ([·]) else none

/-- the last part of a list of groups: a group, or four bytes that make two groups -/
def parseLastGroup (text : String) : Option (List Nat) :=
  match parseOctets text with
  | some value => some [value.toNat / 65536, value.toNat % 65536]
  | none => parseGroup text

/-- the groups that parts stand for; `last` reads the last of them -/
def parseParts (last : String → Option (List Nat)) : List String → Option (List Nat)
  | [] => some []
  | [part] => last part
  | part :: parts =>
    match parseGroup part, parseParts last parts with
    | some group, some rest => some (group ++ rest)
    | _, _ => none

/-- the groups between colons; no text has none -/
def parseGroups (last : String → Option (List Nat)) (text : String) : Option (List Nat) :=
  if text.isEmpty then some [] else parseParts last (text.splitOn ":")

/-- the address that eight groups give, or fewer of which two colons stand for the missing zeros -/
def parseSix (text : String) : Option (BitVec 128) :=
  match text.splitOn "::" with
  | [whole] => ((parseGroups parseLastGroup whole).filter (·.length = 8)).map ofGroups
  | [front, back] =>
    match parseGroups parseGroup front, parseGroups parseLastGroup back with
    | some front, some back =>
      if front.length + back.length ≤ 7 then
        some (ofGroups (front ++ List.replicate (8 - front.length - back.length) 0 ++ back))
      else none
    | _, _ => none
  | _ => none

/-- whether the groups stand for an address of four bytes, which is in the last two of them -/
def isMapped (value : BitVec 128) : Bool := (groups value).take 6 == [0, 0, 0, 0, 0, 0xFFFF]

/-- where the longest run of zeros starts and how long it is; of runs as long the first -/
def longestZeros (groups : List Nat) : Nat × Nat :=
  (List.range groups.length).foldl (fun best start =>
    let length := ((groups.drop start).takeWhile (· == 0)).length
    if best.2 < length then (start, length) else best) (0, 0)

def textOfGroups (groups : List Nat) : String := ":".intercalate (groups.map fun n => String.ofList (Text.hexDigits n))

/-- eight groups with their longest run of zeros left out, if it is longer than one -/
def textOfSix (value : BitVec 128) : String :=
  let all := groups value
  let (start, length) := longestZeros all
  if isMapped value then "::ffff:" ++ textOfOctets (UInt32.ofNat (value.toNat % UInt32.size))
  else if length > 1 then textOfGroups (all.take start) ++ "::" ++ textOfGroups (all.drop (start + length))
  else textOfGroups all

/-! ## Both -/

/-- the address that a text gives in the usual form -/
def parse? (text : String) : Option IpAddress :=
  match parseOctets text with
  | some value => some (.v4 value)
  | none => (parseSix text).map .v6

def text : IpAddress → String
  | v4 value => textOfOctets value
  | v6 value => textOfSix value

/-- the address of four bytes that eight groups stand for, or the address itself -/
def unmapped : IpAddress → IpAddress
  | v4 value => .v4 value
  | v6 value => if isMapped value then .v4 (UInt32.ofNat (value.toNat % UInt32.size)) else .v6 value

/-- whether it stands for every address of its kind; eight groups of zeros stand for those of four bytes, too -/
def isAny : IpAddress → Bool
  | v4 value => value = 0
  | v6 value => value = 0

/-- whether eight groups name many machines at once -/
def isManyfold : IpAddress → Bool
  | v4 _ => false
  | v6 value => value.toNat >>> 120 = 0xFF

/-- whether eight groups are an address that counts on one link alone -/
def isLinkLocal : IpAddress → Bool
  | v4 _ => false
  | v6 value => value.toNat >>> 118 = 0x3FA

/-- whether eight groups name machines that are all at one link or one interface -/
def isNearby : IpAddress → Bool
  | v4 _ => false
  | v6 value => value.toNat >>> 120 = 0xFF && [1, 2].contains ((value.toNat >>> 112) % 16)

def loopback : IpAddress := .v4 (ofOctets [127, 0, 0, 1])

/-- whether a socket at one of the addresses would get what is sent to the other -/
def overlaps (a b : IpAddress) : Bool :=
  match a.unmapped, b.unmapped with
  | .v4 a, .v4 b => a = b || a = 0 || b = 0
  | .v6 a, .v6 b => a = b || a = 0 || b = 0
  | .v6 a, .v4 _ => a = 0
  | .v4 _, .v6 b => b = 0

end IpAddress

end EventServer
