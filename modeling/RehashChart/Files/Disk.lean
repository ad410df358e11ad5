import RehashChart.Files.Failure
import RehashChart.Files.Path
import RehashChart.Keyed

/-! # Disks

A disk is a tree of directories and files, kept as what is at each location. Each operation either
does all it says or nothing.
-/

namespace RehashChart.Files

/-- A place below the root: the names on the way from there up to the root. -/
abbrev Location := List String

inductive Entry where
  | directory
  | file (bytes : ByteArray)

structure Disk where
  entries : List (Location × Entry)
  /-- The working directory. -/
  here : Location
  /-- The directories in which nothing can be created, replaced or removed. -/
  sealed : List Location
  /-- Whether there is no room for more bytes in files. -/
  isFull : Bool

namespace Disk

def at? (disk : Disk) (location : Location) : Option Entry :=
  if location = [] then some .directory else Keyed.get? location disk.entries

def put (disk : Disk) (location : Location) (entry : Entry) : Disk :=
  { disk with entries := Keyed.put location entry disk.entries }

def drop (disk : Disk) (location : Location) : Disk :=
  { disk with entries := Keyed.drop location disk.entries }

def maxName : Nat := 255
def maxPath : Nat := 4095

def checkPath (path : String) : Except Failure Unit :=
  if path.contains '\x00' then .error .nulCharacter
  else if path = "" then .error .missing
  else if maxPath < path.utf8ByteSize then .error .nameTooLong
  else .ok ()

def checkDirectory (disk : Disk) (location : Location) : Except Failure Unit :=
  match disk.at? location with
  | some .directory => .ok ()
  | some (.file _) => .error .notDirectory
  | none => .error .missing

/-- Follows the parts of a path. Nothing needs to be at the end, but directories on the way. -/
def walk (disk : Disk) : Location → List String → Except Failure Location
  | location, [] => .ok location
  | location, part :: parts => do
      disk.checkDirectory location
      if part = "" ∨ part = "." then walk disk location parts
      else if part = ".." then walk disk location.tail parts
      else if maxName < part.utf8ByteSize then .error .nameTooLong
      else walk disk (part :: location) parts

def start (disk : Disk) (path : String) : Location := if Path.isAbsolute path then [] else disk.here

def locate (disk : Disk) (path : String) : Except Failure (Location × Entry) := do
  checkPath path
  let location ← disk.walk (disk.start path) (Path.parts path)
  match disk.at? location with
  | some entry => .ok (location, entry)
  | none => .error .missing

def read (disk : Disk) (path : String) : Except Failure ByteArray := do
  match ← disk.locate path with
  | (_, .file bytes) => .ok bytes
  | (_, .directory) => .error .isDirectory

/-! ## New and renamed files -/

/-- Where a path has a new or an existing name: the directory, and the name if the path ends in one.
Slashes after the name say that it should be a directory's. -/
structure Slot where
  directory : Location
  name : Option String
  isSlashed : Bool

def dropSlashes (parts : List String) : List String := (parts.reverse.dropWhile (· = "")).reverse

def slot (disk : Disk) (path : String) : Except Failure Slot := do
  checkPath path
  let parts := Path.parts path
  let kept := dropSlashes parts
  let directory ← disk.walk (disk.start path) kept.dropLast
  disk.checkDirectory directory
  match kept.getLast? with
  | none => .ok ⟨directory, none, true⟩
  | some name =>
      if name = "." ∨ name = ".." then .ok ⟨directory, none, false⟩
      else if maxName < name.utf8ByteSize then .error .nameTooLong
      else .ok ⟨directory, some name, kept.length < parts.length⟩

def checkOpen (disk : Disk) (directory : Location) : Except Failure Unit :=
  if directory ∈ disk.sealed then .error .denied else .ok ()

def maxAttempts : Nat := 65536

/-- The first location in a directory that is free, of those with the names that `name` makes. -/
def freeLocation (disk : Disk) (directory : Location) (name : Nat → String) :
    Nat → Nat → Except Failure Location
  | 0, _ => .error .taken
  | more + 1, i =>
      let location := name i :: directory
      if (disk.at? location).isSome then freeLocation disk directory name more (i + 1)
      else .ok location

/-- Creates an empty file with a name of its own in a directory. The path of the file counts, not
only that of the directory. -/
def createIn (disk : Disk) (directory : String) (name : Nat → String) :
    Except Failure (Location × Disk) := do
  checkPath (Path.join directory (name 0))
  let location ← disk.walk (disk.start directory) (Path.parts directory)
  disk.checkDirectory location
  let fresh ← disk.freeLocation location name maxAttempts 0
  disk.checkOpen location
  .ok (fresh, disk.put fresh (.file .empty))

def fill (disk : Disk) (location : Location) (bytes : ByteArray) : Except Failure Disk :=
  if disk.isFull then .error .full else .ok (disk.put location (.file bytes))

def discard (disk : Disk) (location : Location) : Disk := disk.drop location

/-- Moves the file at a location to a path, over the file that may be there; the new location comes
with the disk. -/
def rename (disk : Disk) (source : Location) (path : String) :
    Except Failure (Location × Disk) := do
  if path.contains '\x00' then .error .invalid
  let slot ← disk.slot path
  let some name := slot.name | .error .busy
  if slot.isSlashed then .error .notDirectory
  disk.checkOpen slot.directory
  let target := name :: slot.directory
  match disk.at? target, disk.at? source with
  | some .directory, _ => .error .isDirectory
  | _, none => .error .missing
  | _, some entry => .ok (target, (disk.drop source).put target entry)

def openForWriting (disk : Disk) (path : String) : Except Failure (Location × Disk) := do
  let slot ← disk.slot path
  let some name := slot.name | .error .isDirectory
  if slot.isSlashed then .error .isDirectory
  let target := name :: slot.directory
  match disk.at? target with
  | some .directory => .error .isDirectory
  | some (.file _) => .ok (target, disk.put target (.file .empty))
  | none =>
      disk.checkOpen slot.directory
      .ok (target, disk.put target (.file .empty))

/-- The content of a file with `bytes` written at an offset; a gap before it is filled with
zeros. -/
def overwrite (old : ByteArray) (offset : Nat) (bytes : ByteArray) : ByteArray :=
  let before := old.extract 0 offset
  let gap := ByteArray.mk (Array.replicate (offset - before.size) 0)
  before ++ gap ++ bytes ++ old.extract (offset + bytes.size) old.size

def writeAt (disk : Disk) (location : Location) (offset : Nat) (bytes : ByteArray) : Disk :=
  match disk.at? location with
  | some (.file old) => disk.put location (.file (overwrite old offset bytes))
  | _ => disk

end Disk

end RehashChart.Files
