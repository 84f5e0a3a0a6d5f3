/-
Numerals: numbers written in digits of some base, and decimal fractions.
-/

namespace EventServer.Text

/-- the value of a digit in any base up to sixteen -/
def digit? (c : Char) : Option Nat :=
  if c.isDigit then some (c.toNat - '0'.toNat)
  else if 'a' ≤ c && c ≤ 'f' then some (c.toNat - 'a'.toNat + 10)
  else if 'A' ≤ c && c ≤ 'F' then some (c.toNat - 'A'.toNat + 10)
  else none

/-- the number that digits of a base give, the highest first -/
def numberOf (base : Nat) (digits : List Nat) : Nat := digits.foldl (fun n digit => base * n + digit) 0

/-- the number that a text gives, if it is not empty and all of it is digits of the base -/
def parseNumber (base : Nat) (text : List Char) : Option Nat :=
  let digits := text.filterMap digit?
  if !text.isEmpty && digits.length = text.length && digits.all (· < base) then some (numberOf base digits) else none

def isDigits (text : List Char) : Bool := (parseNumber 10 text).isSome

/-- the power of ten behind a fraction: nothing, or an `e` and a number that may have a sign -/
def isExponent : List Char → Bool
  | [] => true
  | mark :: rest =>
    (mark == 'e' || mark == 'E') && isDigits (match rest with
      | '+' :: digits | '-' :: digits => digits
      | digits => digits)

/-- whether a text without sign is a decimal fraction, or one of the words for a number that has no digits -/
def isFraction (text : List Char) : Bool :=
  let whole := text.takeWhile Char.isDigit
  let (fraction, rest) := match text.drop whole.length with
    | '.' :: rest => (rest.takeWhile Char.isDigit, rest.dropWhile Char.isDigit)
    | rest => ([], rest)
  (!(whole ++ fraction).isEmpty && isExponent rest) ||
    ["inf", "infinity", "nan"].contains (String.ofList text).toLower

end EventServer.Text
