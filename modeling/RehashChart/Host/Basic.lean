import RehashChart.Files.Failure
import RehashChart.Host.Environment
import RehashChart.Log.Filter

/-! # What a run needs from its surroundings

Everything a run does that is not computing. Each operation either does all it says or fails and
does nothing.
-/

namespace RehashChart

open Files (Failure)

inductive ExitStatus where
  | exited (code : Nat)
  | killed (signal : Nat)
  deriving DecidableEq

/-- The names of the signals, from number one on. -/
def signalNames : List String :=
  ["SIGHUP", "SIGINT", "SIGQUIT", "SIGILL", "SIGTRAP", "SIGABRT", "SIGBUS", "SIGFPE", "SIGKILL",
    "SIGUSR1", "SIGSEGV", "SIGUSR2", "SIGPIPE", "SIGALRM", "SIGTERM"]

def ExitStatus.message : ExitStatus → String
  | exited code => s!"exit status: {code}"
  | killed signal =>
      match signalNames[signal - 1]? with
      | some name => s!"signal: {signal} ({name})"
      | none => s!"signal: {signal}"

/-- Surroundings whose temporary files are `Temporary` and whose open log files are `LogFile`. -/
class Host (m : Type → Type) (Temporary LogFile : outParam Type) where
  workingDirectory : m String
  environment : m Environment
  readFile : String → m (Except Failure ByteArray)
  /-- Creates an empty file in a directory; a failure comes with the path that was tried. -/
  createTemporary : String → m (Except (String × Failure) Temporary)
  fill : Temporary → ByteArray → m (Except Failure Unit)
  /-- Moves a temporary file to a path, over the file that may be there. -/
  rename : Temporary → String → m (Except Failure Unit)
  discard : Temporary → m Unit
  /-- Starts the image viewer on a file and waits for it. -/
  view : String → m (Except Failure ExitStatus)
  /-- Empties or creates a file and opens it for lines. -/
  openLog : String → m (Except Failure LogFile)
  /-- Starts telling the events that a filter admits, unless some are told already; says whether it
  has. -/
  install : Log.Filter → Option LogFile → m Bool
  /-- The filter of the events that are told, if any are. -/
  filter : m (Option Log.Filter)
  /-- Writes a line to the open log file, if there is one. -/
  writeLog : String → m Unit
  print : String → m Unit
  complain : String → m Unit
  /-- The time since the start, as lines begin with it. -/
  stamp : m String
  /-- The time since the start, as the last line tells it. -/
  elapsed : m String

namespace Host

variable {m : Type → Type} [Monad m] {τ ρ : Type} [Host m τ ρ]

def emit (e : Log.Event) : m Unit := do
  match ← Host.filter with
  | none => return
  | some filter =>
      if filter.admits e then
        let stamp ← Host.stamp
        Host.writeLog (e.fileLine stamp)
        Host.print (e.line stamp)

end Host

end RehashChart
