import RehashChart.Binary64.Decimal
import RehashChart.Log.Event
import RehashChart.Pattern.Support
import RehashChart.Text.Blank
import RehashChart.Text.Split

/-! # Directives about events

A directive says up to which level some events are told: `run=info`, `run[{message}]=info`,
`run[load]=info`. Blanks do not count when its signs are looked for, but its words are cut out of
the text as it was written.
-/

namespace RehashChart.Log

/-- A field that an event must have, and the value it must have. -/
structure FieldTest where
  name : String
  value : Option String
  deriving DecidableEq

/-- The events of parts whose name starts with `target`, inside a span if one is asked for, are told
up to a level, or not at all. -/
structure Directive where
  target : String
  insideSpan : Bool
  field : Option FieldTest
  limit : Option Level
  deriving DecidableEq

def Directive.plain (target : String) (limit : Option Level) : Directive :=
  { target, insideSpan := false, field := none, limit }

inductive DirectiveFault where
  /-- It does not have the form of one. -/
  | invalid
  /-- Its level is none. -/
  | level
  /-- The value of its field is none. -/
  | value (fault : Pattern.Fault)
  deriving DecidableEq

def DirectiveFault.message : DirectiveFault → String
  | invalid => "invalid filter directive"
  | level =>
      "error parsing level filter: expected one of \"off\", \"error\", \"warn\", \"info\", " ++
        "\"debug\", \"trace\", or a number 0-5"
  | value fault => "invalid field filter: " ++ fault.message

/-! ## Levels -/

def levelOfNumber : Nat → Option (Option Level)
  | 0 => some none
  | 1 => some (some .error)
  | 2 => some (some .warn)
  | 3 => some (some .info)
  | 4 => some (some .debug)
  | 5 => some (some .trace)
  | _ => none

def levelOfName (text : List Char) : Option (Option Level) :=
  let name := String.ofList (text.map Char.toLower)
  if name = "off" then some none
  else if name = "error" then some (some .error)
  else if name = "warn" then some (some .warn)
  else if name = "info" then some (some .info)
  else if name = "debug" then some (some .debug)
  else if name = "trace" then some (some .trace)
  else none

def readLimit (text : List Char) : Option (Option Level) :=
  (Text.readNat64 text).bind levelOfNumber <|> levelOfName text

/-- Reads what is written after the equals sign. No level there is every level. -/
def readGivenLimit (text : List Char) : Except DirectiveFault (Option Level) :=
  if text = [] then .ok (some .trace)
  else
    match readLimit text with
    | some limit => .ok limit
    | none => .error .level

/-! ## Words -/

/-- A stretch of the directive under way: the text as written, the same without blanks at its ends,
and what is left of the latter. -/
structure Scan where
  written : List Char
  trimmed : List Char
  rest : List Char

def Scan.offset (s : Scan) (rest : List Char) : Nat :=
  Text.byteLength s.trimmed - Text.byteLength rest

/-- What is written between here and the place where `rest` is left. -/
def Scan.until (s : Scan) (rest : List Char) : List Char :=
  Text.takeBytes (s.offset rest - s.offset s.rest) (Text.dropBytes (s.offset s.rest) s.written)

def Scan.toEnd (s : Scan) : List Char := Text.dropBytes (s.offset s.rest) s.written

def startsWord (c : Char) : Bool := c = '-' || c = ':' || c = '_' || Text.isAlphanumeric c

/-- What is wrong with a text as the value that a field is asked for: a number or a pattern. A
filter never compares a pattern with anything, so this is all that it needs to know. -/
def valueFault? (text : List Char) : Option Pattern.Fault :=
  if (Text.readNat64 text).isSome || (Binary64.read text).isSome then none
  else Pattern.fault? text

def FieldTest.read (text : List Char) : Except DirectiveFault FieldTest :=
  match Text.splitAt '=' text with
  | [] => .error .invalid
  | [name] =>
      if name = [] then .error .invalid else .ok ⟨String.ofList name, none⟩
  | name :: value :: _ =>
      match valueFault? value with
      | none => .ok ⟨String.ofList name, some (String.ofList value)⟩
      | some fault => .error (.value fault)

/-- Reads what follows a target or the brackets after it: an equals sign and a level, or nothing. -/
def readEnd (s : Scan) (d : Directive) : Except DirectiveFault Directive :=
  match s.rest with
  | [] => .ok d
  | '=' :: rest => return { d with limit := ← readGivenLimit { s with rest := rest }.toEnd }
  | _ => .error .invalid

def readField (s : Scan) (d : Directive) : Except DirectiveFault Directive := do
  let rest := s.rest.dropWhile (· ≠ '\x7d')
  match rest with
  | '\x7d' :: rest' =>
      let field ← FieldTest.read (s.until rest)
      match rest' with
      | ']' :: rest => readEnd { s with rest := rest } { d with field := some field }
      | _ => .error .invalid
  | _ => .error .invalid

def readSpan (s : Scan) (d : Directive) : Except DirectiveFault Directive :=
  match s.rest.dropWhile (fun c => c ≠ ']' && c ≠ '\x7b') with
  | ']' :: rest => readEnd { s with rest := rest } { d with insideSpan := true }
  | '\x7b' :: rest =>
      readField { s with rest := rest }
        { d with insideSpan := decide (s.until ('\x7b' :: rest) ≠ []) }
  | _ => .error .invalid

/-- Reads a directive. Without a level, what it is about is told at every level. -/
def readDirective (written : List Char) : Except DirectiveFault Directive :=
  let text := Text.trim written
  let s : Scan := ⟨written, text, text⟩
  match text with
  | [] => .error .invalid
  | '[' :: rest => readSpan { s with rest := rest } (.plain "" (some .trace))
  | c :: _ =>
      if !startsWord c then .error .invalid
      else
        let rest := text.dropWhile fun c => c ≠ '=' && c ≠ '['
        let named := Directive.plain (String.ofList (s.until rest)) (some .trace)
        match rest with
        | [] =>
            match readLimit written with
            | some limit => .ok (.plain "" limit)
            | none => .ok (.plain (String.ofList written) (some .trace))
        | '[' :: rest => readSpan { s with rest := rest } named
        | rest => readEnd { s with rest := rest } named

end RehashChart.Log
