/-
Spelled text: the form in which a journal shows words that came from outside. The control characters that a terminal
acts upon are written by their code points, so that a line cannot steer the terminal that it is read on: escape, bell,
backspace, form feed and delete with two hexadecimal digits, and the controls from U+0080 to U+009F between braces. All
other characters are kept, line ends and tabs among them.
-/
import EventServer.Text.Quoted

namespace EventServer.Text

/-- the ASCII controls that are written by their code points -/
def steering : List Char := ['\x07', '\x08', '\x0c', '\x1b', '\x7f']

/-- how a line shows one character -/
def spell (c : Char) : List Char :=
  if steering.contains c then
    ['\\', 'x'] ++ (if c.toNat < 16 then ['0'] else []) ++ hexDigits c.toNat
  else if 0x80 ≤ c.toNat && c.toNat ≤ 0x9F then ['\\', 'u', '\x7b'] ++ hexDigits c.toNat ++ ['\x7d']
  else [c]

/-- the text with the characters spelled out that a terminal acts upon -/
def spelled (s : String) : String := String.ofList (s.toList.flatMap spell)

end EventServer.Text
