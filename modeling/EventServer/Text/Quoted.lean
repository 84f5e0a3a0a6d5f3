/-
Quoted text: the form in which a message shows a string it was given. Quotation marks and backslashes get a backslash,
four control characters have letters of their own, and every other character that is not to be shown is written by its
code point in lower-case hexadecimal. Which characters those are is a matter of a table (`unprintable`), and of nothing
else in the form.
-/
import EventServer.Text.Unprintable

namespace EventServer.Text

/-- the code point in lower-case hexadecimal, without leading zeros -/
def hexDigits (n : Nat) : List Char := Nat.toDigits 16 n

/-- how one character is written between quotation marks, by a table of those that are not shown -/
def escape (hidden : Char → Bool) (c : Char) : List Char :=
  if c = '"' then ['\\', '"']
  else if c = '\\' then ['\\', '\\']
  else if c = '\x00' then ['\\', '0']
  else if c = '\t' then ['\\', 't']
  else if c = '\n' then ['\\', 'n']
  else if c = '\r' then ['\\', 'r']
  else if hidden c then ['\\', 'u', '\x7b'] ++ hexDigits c.toNat ++ ['\x7d']
  else [c]

/-- the text between quotation marks, with every character escaped that the table has -/
def quotedBy (hidden : Char → Bool) (s : String) : String :=
  String.ofList ('"' :: s.toList.flatMap (escape hidden) ++ ['"'])

/-- the text between quotation marks, with every character that cannot be shown escaped -/
def quoted (s : String) : String := quotedBy unprintable s

end EventServer.Text
