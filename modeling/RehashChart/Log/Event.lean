/-! # Events -/

namespace RehashChart.Log

inductive Level where
  | error
  | warn
  | info
  | debug
  | trace
  deriving DecidableEq

def Level.rank : Level → Nat
  | error => 1
  | warn => 2
  | info => 3
  | debug => 4
  | trace => 5

/-- The name of a level in a line, as wide as the longest one. -/
def Level.label : Level → String
  | error => "ERROR"
  | warn => " WARN"
  | info => " INFO"
  | debug => "DEBUG"
  | trace => "TRACE"

inductive Part where
  | run
  | log
  | viewer
  deriving DecidableEq

def Part.name : Part → String
  | run => "rehashplot::entrypoints"
  | log => "rehashplot::routines::logger"
  | viewer => "rehashplot::routines::viewer"

structure Event where
  level : Level
  part : Part
  message : String
  deriving DecidableEq

def spelledChar (c : Char) : List Char :=
  if c = '\x1B' then ['\\', 'x', '1', 'b']
  else if c = '\x07' then ['\\', 'x', '0', '7']
  else if c = '\x08' then ['\\', 'x', '0', '8']
  else if c = '\x0C' then ['\\', 'x', '0', 'c']
  else if c = '\x7F' then ['\\', 'x', '7', 'f']
  else if '\u0080' ≤ c && c ≤ '\u009F' then
    ['\\', 'u', '\x7b'] ++ Nat.toDigits 16 c.toNat ++ ['\x7d']
  else [c]

/-- A message without characters that could control a terminal. -/
def spelled (message : String) : String := String.ofList (message.toList.flatMap spelledChar)

def Event.line (e : Event) (stamp : String) : String :=
  s!"{stamp} {e.level.label} {spelled e.message}"

/-- The line of an event in a log file; it names the part too. -/
def Event.fileLine (e : Event) (stamp : String) : String :=
  s!"{stamp} {e.level.label} {e.part.name}: {spelled e.message}\n"

end RehashChart.Log
