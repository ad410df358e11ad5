import RehashChart.Files.Disk
import RehashChart.Host.Basic

/-! # Machines

A machine is surroundings as a value. Runs on a machine are functions from machines to machines, so
what they do to the disk can be stated and compared.
-/

namespace RehashChart

open Files (Disk Failure Location)

/-- An image viewer: how it ends, and what it leaves on the disk, when it is started on a file. -/
abbrev Viewer := String → Disk → ExitStatus × Disk

/-- An open log file: where it is, and where its next line goes. Once another file has been moved
over it, it is nowhere to be seen. -/
structure LogFile where
  location : Location
  offset : Nat
  isVisible : Bool

structure Logger where
  filter : Log.Filter
  file : Option LogFile

def Logger.hide (target : Location) (l : Logger) : Logger :=
  let hidden (f : LogFile) : LogFile :=
    if f.location = target then { f with isVisible := false } else f
  { l with file := l.file.map hidden }

def LogFile.write (f : LogFile) (line : String) (disk : Disk) : LogFile × Disk :=
  let bytes := line.toUTF8
  ({ f with offset := f.offset + bytes.size },
    if f.isVisible then disk.writeAt f.location f.offset bytes else disk)

structure Machine where
  disk : Disk
  environment : Environment
  viewer : Option Viewer
  logger : Option Logger
  /-- The lines on the screen, and those with complaints. -/
  printed : List String
  complaints : List String
  stamp : String
  elapsed : String

namespace Machine

def pathOf (location : Location) : String := "/" ++ "/".intercalate location.reverse

/-- The name of a temporary file, by the number of names that are taken; six characters tell them
apart. -/
def temporaryName (i : Nat) : String :=
  let digits := toString i
  ".tmp" ++ String.ofList (List.replicate (6 - digits.length) '0') ++ digits

def change {α : Type} (f : Disk → Except Failure (α × Disk)) : StateM Machine (Except Failure α) :=
  fun machine =>
    match f machine.disk with
    | .ok (result, disk) => (.ok result, { machine with disk })
    | .error failure => (.error failure, machine)

def absolute (machine : Machine) (directory : String) : String :=
  Files.Path.join (pathOf machine.disk.here) directory

instance : Host (StateM Machine) Location LogFile where
  workingDirectory := fun machine => (pathOf machine.disk.here, machine)
  environment := fun machine => (machine.environment, machine)
  readFile path := fun machine => (machine.disk.read path, machine)
  createTemporary directory := fun machine =>
    let directory := machine.absolute directory
    match machine.disk.createIn directory temporaryName with
    | .ok (location, disk) => (.ok location, { machine with disk })
    | .error failure => (.error (Files.Path.join directory (temporaryName 0), failure), machine)
  fill location bytes := change fun disk => (disk.fill location bytes).map ((), ·)
  rename location path := fun machine =>
    match machine.disk.rename location path with
    | .ok (target, disk) =>
        (.ok (), { machine with disk, logger := machine.logger.map (Logger.hide target) })
    | .error failure => (.error failure, machine)
  discard location := fun machine => ((), { machine with disk := machine.disk.discard location })
  view path := fun machine =>
    match machine.viewer with
    | none => (.error .missing, machine)
    | some viewer =>
        let (status, disk) := viewer path machine.disk
        (.ok status, { machine with disk })
  openLog path := change fun disk =>
    (disk.openForWriting path).map fun (location, disk) => (⟨location, 0, true⟩, disk)
  install filter file := fun machine =>
    match machine.logger with
    | some _ => (false, machine)
    | none => (true, { machine with logger := some ⟨filter, file⟩ })
  filter := fun machine => (machine.logger.map (·.filter), machine)
  writeLog line := fun machine =>
    match machine.logger with
    | some ⟨filter, some file⟩ =>
        let (file, disk) := file.write line machine.disk
        ((), { machine with disk, logger := some ⟨filter, some file⟩ })
    | _ => ((), machine)
  print line := fun machine => ((), { machine with printed := machine.printed ++ [line] })
  complain line := fun machine => ((), { machine with complaints := machine.complaints ++ [line] })
  stamp := fun machine => (machine.stamp, machine)
  elapsed := fun machine => (machine.elapsed, machine)

end Machine

end RehashChart
