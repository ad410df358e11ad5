import RehashChart.Log.Directive

/-! # Filters of events

Events happen outside of every span and have one field, the message. Of the directives that fit an
event, the one with the longest target decides; of those, one about a field before one about none;
and of two that are about the same, the later one.
-/

namespace RehashChart.Log

abbrev Filter := List Directive

def messageField : String := "message"

/-- Whether an event can have the field, whatever its value. -/
def FieldTest.fits (f : FieldTest) : Bool := f.name = messageField && f.value = none

def Directive.fits (d : Directive) (part : String) : Bool :=
  !d.insideSpan && d.field.all (·.fits) && d.target.toList.isPrefixOf part.toList

/-- Whether a directive says less about which events it is about. -/
def Directive.isBroader (a b : Directive) : Bool :=
  a.target.utf8ByteSize < b.target.utf8ByteSize ||
    (a.target.utf8ByteSize = b.target.utf8ByteSize && a.field.isNone && b.field.isSome)

/-- The better of two directives: the second, unless it is the broader one. -/
def better (a b : Directive) : Directive := if b.isBroader a then a else b

def Filter.decisive (filter : Filter) (part : String) : Option Directive :=
  (filter.filter (·.fits part)).foldl (fun best d => some ((best.map (better · d)).getD d)) none

def Directive.admits (d : Directive) (level : Level) : Bool :=
  match d.limit with
  | none => false
  | some limit => level.rank ≤ limit.rank

def Filter.admits (filter : Filter) (e : Event) : Bool :=
  match filter.decisive e.part.name with
  | none => false
  | some d => d.admits e.level

/-! ## Reading filters -/

def judge (text : List Char) : Except String Directive :=
  (readDirective text).mapError fun fault =>
    s!"ignoring `{String.ofList text}`: {fault.message}"

def directivesOf : List (Except String Directive) → List Directive
  | [] => []
  | .ok d :: rest => d :: directivesOf rest
  | .error _ :: rest => directivesOf rest

def complaintsOf : List (Except String Directive) → List String
  | [] => []
  | .ok _ :: rest => complaintsOf rest
  | .error complaint :: rest => complaint :: complaintsOf rest

/-- Reads directives with commas between them, and complains about those that are none. Without any
directive only errors are told. -/
def Filter.read (text : String) : Filter × List String :=
  let judged := ((Text.splitAt ',' text.toList).filter (· ≠ [])).map judge
  let directives := directivesOf judged
  (if directives = [] then [.plain "" (some .error)] else directives, complaintsOf judged)

end RehashChart.Log
