/-
Filter rules: what one part of a journal filter asks for. A rule is a level, a component, or a component and a level
with `=` between them; behind the component it may name a place and one of its fields in brackets, as in
`component[place{field=value}]=level`.

A rule is read character by character (`RuleScan.step`) from its text without the blanks around it, while names are cut
from the text with them, at the same distances in bytes. So a name behind blanks is another name, and a cut may fall
within a character, which is a fault of its own.
-/
import EventServer.Journal.Note
import EventServer.Text.Alphanumeric
import EventServer.Text.Blank
import EventServer.Text.Pattern

namespace EventServer

/-- how much of a component is kept: nothing, or the level and above -/
abbrev Threshold := Option Level

namespace Threshold

/-- the number that decimal digits give, which a plus sign may precede -/
def number? (text : String) : Option Nat :=
  Text.parseNumber 10 (match text.toList with
    | '+' :: digits => digits
    | digits => digits)

/-- the threshold that a word, in any case, or a number up to five names -/
def ofText? (text : String) : Option Threshold :=
  match number? text, text.map Char.toLower with
  | some 0, _ | none, "off" => some none
  | some 1, _ | none, "error" => some (some .error)
  | some 2, _ | none, "warn" => some (some .warn)
  | some 3, _ | none, "info" => some (some .info)
  | some 4, _ | none, "debug" => some (some .debug)
  | some 5, _ | none, "trace" => some (some .trace)
  | _, _ => none

def admits (t : Threshold) (level : Level) : Bool :=
  match t with
  | none => false
  | some limit => level.within limit

end Threshold

/-- a field that a place must have, and the value of it if that counts -/
structure FieldPattern where
  name : String
  value : Option String := none
  deriving DecidableEq, Repr

namespace FieldPattern

/-- whether a value can be asked for: it is a number or a pattern; only a number can begin with a plus sign -/
def isValue (text : List Char) : Bool :=
  match text with
  | '+' :: number => Text.isFraction number
  | _ => Text.isPattern text

/-- a name, or a name and a value with `=` between them -/
def ofText? (text : String) : Option FieldPattern :=
  match text.splitOn "=" with
  | name :: value :: _ => if isValue value.toList then some ⟨name, some value⟩ else none
  | name :: [] => some ⟨name, none⟩
  | [] => none

end FieldPattern

/-- how much is kept of the components that begin with a text, everywhere or at some places -/
structure FilterRule where
  path : String := ""
  /-- the name of the places that the rule is for -/
  place : Option String := none
  field : Option FieldPattern := none
  threshold : Threshold := some .trace
  deriving DecidableEq, Repr

inductive FilterFault where
  | malformed
  /-- a name would end within a character -/
  | cut
  deriving DecidableEq, Repr

namespace FilterRule

/-- the text from one distance in bytes up to another, unless it would begin or end within a character; `passed` is how
many bytes lie before the characters -/
def slice (start stop : Nat) : Nat → List Char → Except FilterFault (List Char)
  | passed, [] => if start ≤ passed then .ok [] else .error .cut
  | passed, c :: rest =>
    let behind := passed + c.utf8Size
    if stop ≤ passed then .ok []
    else if behind ≤ start then slice start stop behind rest
    else if passed < start || stop < behind then .error .cut
    else (slice start stop behind rest).map (c :: ·)

/-- whether a rule for a component may begin with the character -/
def mayBegin (c : Char) : Bool := c == '-' || c == ':' || c == '_' || Text.isAlphanumeric c

end FilterRule

/-- how far a rule is read; the distances are where a name begins -/
inductive RuleScan where
  | start
  | word
  | level (origin : Nat)
  | place (origin : Nat)
  | field (origin : Nat)
  | behindField
  | behindPlace
  deriving DecidableEq, Repr

namespace RuleScan

def step (whole : List Char) (rule : FilterRule) (here : Nat) (c : Char) :
    RuleScan → Except FilterFault (FilterRule × RuleScan)
  | .start =>
    if c = '[' then .ok (rule, .place (here + 1))
    else if FilterRule.mayBegin c then .ok (rule, .word)
    else .error .malformed
  | .word =>
    if c = '=' || c = '[' then do
      let path ← FilterRule.slice 0 here 0 whole
      return ({ rule with path := String.ofList path }, if c = '=' then .level (here + 1) else .place (here + 1))
    else .ok (rule, .word)
  | .level origin => .ok (rule, .level origin)
  | .place origin =>
    if c = ']' || c = '\x7b' then do
      let name ← FilterRule.slice origin here 0 whole
      let named := { rule with place := some (String.ofList name) }
      return if c = ']' then (named, .behindPlace)
        else if name.isEmpty then (rule, .field (here + 1))
        else (named, .field (here + 1))
    else .ok (rule, .place origin)
  | .field origin =>
    if c = '\x7d' then do
      let text ← FilterRule.slice origin here 0 whole
      match if text.isEmpty then none else FieldPattern.ofText? (String.ofList text) with
      | some pattern => return ({ rule with field := some pattern }, .behindField)
      | none => .error .malformed
    else .ok (rule, .field origin)
  | .behindField => if c = ']' then .ok (rule, .behindPlace) else .error .malformed
  | .behindPlace => if c = '=' then .ok (rule, .level (here + 1)) else .error .malformed

def steps (whole : List Char) : List Char → Nat → FilterRule → RuleScan → Except FilterFault (FilterRule × RuleScan)
  | [], _, rule, scan => .ok (rule, scan)
  | c :: rest, here, rule, scan => do
    let (rule, scan) ← scan.step whole rule here c
    steps whole rest (here + c.utf8Size) rule scan

end RuleScan

namespace FilterRule

/-- the rule with the threshold that a text names; no text stands for all -/
def withLevel (rule : FilterRule) (text : String) : Except FilterFault FilterRule :=
  if text.isEmpty then .ok { rule with threshold := some .trace }
  else match Threshold.ofText? text with
    | some threshold => .ok { rule with threshold }
    | none => .error .malformed

/-- the rule that one part of a filter's text states; a component alone keeps all of it -/
def parse (text : String) : Except FilterFault FilterRule := do
  let whole := text.toList
  let (rule, scan) ← RuleScan.steps whole (Text.trimBlanks whole) 0 {} .start
  match scan with
  | .word =>
    match Threshold.ofText? text with
    | some threshold => return { threshold }
    | none => return { path := text }
  | .level origin =>
    let level ← slice origin text.utf8ByteSize 0 whole
    rule.withLevel (String.ofList level)
  | .behindPlace => return rule
  | .start | .place _ | .field _ | .behindField => throw .malformed

/-- whether two rules are for the same, so that the later one counts -/
def isFor (a b : FilterRule) : Bool := a.path = b.path && a.place = b.place && a.field = b.field

end FilterRule

end EventServer
