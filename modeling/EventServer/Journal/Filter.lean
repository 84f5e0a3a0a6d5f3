/-
Journal filters: which notes are kept, by component, level and place. A filter is a list of rules. Of the rules that
hold everywhere and whose component begins a note's component the longest decides; what they leave out is still kept if
the note was made at a place that another rule is for. A filter that says nothing keeps errors; one that cannot be read
is no filter.
-/
import EventServer.Journal.Entry
import EventServer.Journal.FilterRule

namespace EventServer

/-- which notes are kept -/
structure Filter where
  rules : List FilterRule
  deriving Repr

namespace Filter

def upTo (level : Level) : Filter := ⟨[{ threshold := some level }]⟩

/-- the rules of all parts, in order; of rules for the same the later is kept -/
def parseRules : List FilterRule → List String → Except FilterFault (List FilterRule)
  | rules, [] => .ok rules
  | rules, part :: parts => do
    let rule ← FilterRule.parse part
    parseRules (rules.filter (!rule.isFor ·) ++ [rule]) parts

/-- the filter that a text states: rules between commas, where an empty part says nothing -/
def parse (text : String) : Except FilterFault Filter := do
  match ← parseRules [] ((text.splitOn ",").filter (· ≠ "")) with
  | [] => return upTo .error
  | rules => return ⟨rules⟩

/-- the filter of a setting: without one, or with one that is malformed, information and above is kept; one with a name
that would end within a character is none -/
def ofSetting : Option String → Option Filter
  | none => some (upTo .info)
  | some text =>
    match parse text with
    | .ok filter => some filter
    | .error .malformed => some (upTo .info)
    | .error .cut => none

/-! ## Everywhere -/

def noteField : String := "message"

/-- whether a rule holds for notes wherever they are made: it names no place, and no field that notes do not have -/
def holdsEverywhere (rule : FilterRule) : Bool :=
  rule.place.isNone && rule.field.all fun field => field.value.isNone && field.name == noteField

/-- of two rules for a component the longer decides, and of two as long the one with a field -/
def prefer (path : String) (best : Option FilterRule) (rule : FilterRule) : Option FilterRule :=
  if rule.path.toList.isPrefixOf path.toList then
    match best with
    | some old =>
      if old.path.utf8ByteSize < rule.path.utf8ByteSize then some rule
      else if old.path = rule.path && old.field.isNone then some rule
      else some old
    | none => some rule
  else best

/-- whether the rule that decides for a component keeps the level -/
def decides (rules : List FilterRule) (component : Component) (level : Level) : Bool :=
  match rules.foldl (prefer component.path) none with
  | some rule => rule.threshold.admits level
  | none => false

/-- whether a note of the component and level is kept, wherever it is made -/
def admits (f : Filter) (component : Component) (level : Level) : Bool :=
  decides (f.rules.filter holdsEverywhere) component level

/-! ## At places -/

/-- whether a rule is for connections' tasks: it names a place or a field, and theirs have them -/
def isForPlaces (rule : FilterRule) : Bool :=
  (rule.place.isSome || rule.field.isSome) && rule.path.toList.isPrefixOf Component.engine.path.toList &&
    rule.place.all (· == Place.name) && rule.field.all fun field => Place.fields.contains field.name

/-- whether a field of a place has the value that a pattern asks for -/
def hasField (place : Place) (field : FieldPattern) : Bool :=
  match field.value with
  | none => true
  | some value =>
    if field.name == Place.slotField then Threshold.number? value == some place.slot else value == place.peer.text

/-- whether a note of the level is kept because of the place where it was made -/
def admitsAt (f : Filter) (place : Place) (level : Level) : Bool :=
  f.rules.any fun rule => isForPlaces rule && rule.field.all (hasField place) && rule.threshold.admits level

/-- whether the place of an entry is shown: a rule is for it, or it is kept like information of the engine, which no
field keeps out -/
def showsPlaces (f : Filter) : Bool :=
  f.rules.any isForPlaces ||
    decides (f.rules.filter fun rule => rule.place.isNone && rule.field.all (·.value.isNone)) .engine .info

def keeps (f : Filter) (e : Entry) : Bool :=
  f.admits e.note.component e.note.level || e.place.any fun place => f.admitsAt place e.note.level

def lines (f : Filter) (journal : Journal) : List String :=
  (journal.filter f.keeps).map fun e => if f.showsPlaces then e.line else { e with place := none }.line

/-- the lines that are kept under a setting -/
def linesOfSetting (setting : Option String) (journal : Journal) : List String :=
  ((ofSetting setting).map (·.lines journal)).getD []

end Filter

end EventServer
