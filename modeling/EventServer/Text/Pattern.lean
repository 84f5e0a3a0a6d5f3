/-
Patterns: regular expressions. What counts here is whether a text is one (`isPattern`): groups and sets are closed, a
repetition has something to repeat, escapes are known, and nothing asks what stands around it.

A text is read from its front. Groups only count how many of them are open (`terms`); so do sets (`setEnd?`), which may
stand within each other.
-/
import EventServer.Text.Alphanumeric
import EventServer.Text.Numeral

namespace EventServer.Text.Pattern

inductive Item where
  | literal (c : Char)
  | kind
  /-- the beginning or the end of the text -/
  | anchor
  deriving DecidableEq, Repr

/-- how many hexadecimal digits follow a letter behind a backslash -/
def codeLength : Char → Option Nat
  | 'x' => some 2
  | 'u' => some 4
  | 'U' => some 8
  | _ => none

def controls : List (Char × Char) :=
  [('a', '\x07'), ('f', '\x0C'), ('t', '\t'), ('n', '\n'), ('r', '\r'), ('v', '\x0B')]

/-- what stands behind a backslash, and the text behind that -/
def escape? : List Char → Option (Item × List Char)
  | [] => none
  | c :: rest =>
    match codeLength c, controls.lookup c with
    | some count, _ =>
      match parseNumber 16 (rest.take count) with
      | some code =>
        if count ≤ rest.length && code.isValidChar then some (.literal (Char.ofNat code), rest.drop count) else none
      | none => none
    | none, some control => some (.literal control, rest)
    | none, none =>
      if "dswDSW".contains c then some (.kind, rest)
      else if c == 'A' || c == 'z' then some (.anchor, rest)
      else if c == 'p' || c == 'P' then
        match rest with
        | letter :: rest => if "LMNPSZC".contains letter.toUpper then some (.kind, rest) else none
        | [] => none
      else if c.toNat < 0x80 && !c.isAlphanum && c != '<' && c != '>' then some (.literal c, rest)
      else none

/-! ## Sets -/

/-- one member of a set, and the text behind it -/
def member? : List Char → Option (Item × List Char)
  | [] => none
  | '\\' :: rest => (escape? rest).filter (·.1 ≠ .anchor)
  | c :: rest => some (.literal c, rest)

/-- the text behind the beginning of a set, where some characters only mean themselves -/
def setStart (text : List Char) : List Char :=
  let text := match text with
    | '^' :: rest => rest
    | rest => rest
  match text with
  | ']' :: rest => rest
  | rest => rest.dropWhile (· == '-')

/-- the names of kinds of character that can stand between colons -/
def kinds : List String :=
  ["alnum", "alpha", "ascii", "blank", "cntrl", "digit", "graph", "lower", "print", "punct", "space", "upper", "word",
   "xdigit"]

/-- the text behind a kind of character that is named within brackets of its own -/
def namedKind? (text : List Char) : Option (List Char) :=
  match text with
  | ':' :: rest =>
    let rest := match rest with
      | '^' :: rest => rest
      | rest => rest
    let name := rest.takeWhile (· != ':')
    match rest.drop name.length with
    | ':' :: ']' :: rest => if kinds.contains (String.ofList name) then some rest else none
    | _ => none
  | _ => none

/-- whether two members are the ends of a range -/
def isRange (first last : Item) : Bool :=
  match first, last with
  | .literal a, .literal b => a ≤ b
  | _, _ => false

/-- the text behind the end of a set; `depth` sets stand around it, and `limit` bounds the members looked at -/
def setEnd? : Nat → Nat → List Char → Option (List Char)
  | 0, _, _ => none
  | limit + 1, depth, text =>
    match text with
    | ']' :: rest =>
      match depth with
      | 0 => some rest
      | depth + 1 => setEnd? limit depth rest
    | '[' :: rest =>
      match namedKind? rest with
      | some rest => setEnd? limit depth rest
      | none => setEnd? limit (depth + 1) (setStart rest)
    | '&' :: '&' :: rest | '-' :: '-' :: rest | '~' :: '~' :: rest => setEnd? limit depth rest
    | _ =>
      match member? text with
      | none => none
      | some (first, '-' :: rest) =>
        if rest.head? = some ']' || rest.head? = some '-' then setEnd? limit depth ('-' :: rest)
        else match member? rest with
        | some (last, rest) => if isRange first last then setEnd? limit depth rest else none
        | none => none
      | some (_, rest) => setEnd? limit depth rest

/-! ## Groups -/

/-- what the beginning of a group that a question mark follows comes to -/
inductive Opening where
  | group
  /-- the rest of the group around it is read in another way -/
  | setting

/-- the letters that say how a group is read -/
def settings : List Char := ['i', 'm', 's', 'U', 'u', 'x', 'R']

/-- the text behind letters that say how a group is read; no letter stands twice, and one minus sign can stand before
some of them -/
def settingsEnd? (seen : List Char) : List Char → Option (Opening × List Char)
  | ':' :: rest => if seen.head? = some '-' then none else some (.group, rest)
  | ')' :: rest => if seen.isEmpty || seen.head? = some '-' then none else some (.setting, rest)
  | c :: rest => if (c == '-' || settings.contains c) && !seen.contains c then settingsEnd? (c :: seen) rest else none
  | [] => none

/-- the text behind the name of a group -/
def nameEnd? (text : List Char) : Option (List Char) :=
  let name := text.takeWhile (· != '>')
  match name, text.drop name.length with
  | first :: others, _ :: rest =>
    let begins := first == '_' || (isAlphanumeric first && !first.isDigit)
    if begins && others.all (fun c => isAlphanumeric c || ['_', '.', '[', ']'].contains c) then some rest else none
  | _, _ => none

/-- what stands behind the beginning of a group and a question mark -/
def opening? : List Char → Option (Opening × List Char)
  | 'P' :: '<' :: rest | '<' :: rest => (nameEnd? rest).map (.group, ·)
  | text => settingsEnd? [] text

/-- whether the text behind `depth` open groups is well formed; `repeatable` says whether what stands before it can be
repeated, and `limit` bounds the terms looked at -/
def terms : Nat → Nat → Bool → List Char → Bool
  | 0, _, _, _ => false
  | limit + 1, depth, repeatable, text =>
    match text with
    | [] => depth = 0
    | '\\' :: rest =>
      match escape? rest with
      | some (_, rest) => terms limit depth true rest
      | none => false
    | '(' :: '?' :: rest =>
      match opening? rest with
      | some (.group, rest) => terms limit (depth + 1) false rest
      | some (.setting, rest) => terms limit depth false rest
      | none => false
    | c :: rest =>
      if c == '(' then terms limit (depth + 1) false rest
      else if c == ')' then 0 < depth && terms limit (depth - 1) true rest
      else if c == '|' then terms limit depth false rest
      else if c == '[' then
        match setEnd? (rest.length + 1) 0 (setStart rest) with
        | some rest => terms limit depth true rest
        | none => false
      else if c == '\x7b' then false
      else if c == '*' || c == '+' || c == '?' then repeatable && terms limit depth true rest
      else terms limit depth true rest

end EventServer.Text.Pattern

namespace EventServer.Text

def isPattern (text : List Char) : Bool :=
  Pattern.terms (text.length + 1) 0 false text

end EventServer.Text
