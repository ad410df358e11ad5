import RehashChart.Run.Clock
import RehashChart.Run.Pipeline
import RehashChart.Run.Report

/-! # Command line

It starts no other programs, so a chart to be shown gets no further than its preview file.
-/

namespace RehashChart

open Files (Failure)

structure Session where
  startedAt : Nat
  logger : IO.Ref (Option (Log.Filter × Option IO.FS.Handle))

abbrev Console := ReaderT Session IO

namespace Console

/-- The number of an error, which may come with either sign. -/
def magnitude (n : UInt32) : Nat := min n.toNat (UInt32.size - n.toNat)

/-- The number of an error of the operating system, and its words. -/
def numberOf : IO.Error → Nat × String
  | .alreadyExists _ n words => (magnitude n, words)
  | .otherError n words => (magnitude n, words)
  | .resourceBusy n words => (magnitude n, words)
  | .resourceVanished n words => (magnitude n, words)
  | .unsupportedOperation n words => (magnitude n, words)
  | .hardwareFault n words => (magnitude n, words)
  | .unsatisfiedConstraints n words => (magnitude n, words)
  | .illegalOperation n words => (magnitude n, words)
  | .protocolError n words => (magnitude n, words)
  | .timeExpired n words => (magnitude n, words)
  | .interrupted _ n words => (magnitude n, words)
  | .noFileOrDirectory _ n words => (magnitude n, words)
  | .invalidArgument _ n words => (magnitude n, words)
  | .permissionDenied _ n words => (magnitude n, words)
  | .resourceExhausted _ n words => (magnitude n, words)
  | .inappropriateType _ n words => (magnitude n, words)
  | .noSuchThing _ n words => (magnitude n, words)
  | .unexpectedEof => (0, "unexpected end of file")
  | .userError words => (0, words)

def failureOf (e : IO.Error) : Failure :=
  match numberOf e with
  | (2, _) => .missing
  | (13, _) => .denied
  | (16, _) => .busy
  | (17, _) => .taken
  | (20, _) => .notDirectory
  | (21, _) => .isDirectory
  | (22, _) => .invalid
  | (28, _) => .full
  | (36, _) => .nameTooLong
  | (number, words) => .other number words

def attempt {α : Type} (action : IO α) : Console (Except Failure α) := fun _ => do
  try return .ok (← action) catch e => return .error (failureOf e)

def checked {α : Type} (path : String) (action : IO α) : Console (Except Failure α) :=
  if path.contains '\x00' then return .error .nulCharacter else attempt action

def nanoseconds : Console Nat := fun session => return (← IO.monoNanosNow) - session.startedAt

def absolute (path : String) : Console String :=
  return Files.Path.join (← IO.currentDir).toString path

/-- Creates an empty file in a directory, under one of a number of names. -/
def createIn (directory : String) : Nat → Console (Except (String × Failure) String)
  | 0 => return .error (directory, .taken)
  | more + 1 => do
      let name := ".tmp" ++ toString ((← IO.monoNanosNow) % 1000000)
      let path := Files.Path.join directory name
      match ← checked path (IO.FS.Handle.mk path .writeNew) with
      | .ok _ => return .ok path
      | .error .taken => createIn directory more
      | .error failure => return .error (path, failure)

def variableOf (bytes : ByteArray) : Option (String × String) := do
  let text ← String.fromUTF8? bytes
  let name := text.toList.takeWhile (· ≠ '=')
  match text.toList.dropWhile (· ≠ '=') with
  | [] => none
  | _ :: value => some (String.ofList name, String.ofList value)

def pieces (bytes : List UInt8) : List ByteArray :=
  (bytes.foldr (fun byte found =>
    match byte, found with
    | 0, found => [] :: found
    | byte, piece :: found => (byte :: piece) :: found
    | byte, [] => [[byte]]) [[]]).map fun piece => ⟨piece.toArray⟩

instance : Host Console String IO.FS.Handle where
  workingDirectory := return (← IO.currentDir).toString
  environment := do
    match ← attempt (IO.FS.readBinFile "/proc/self/environ") with
    | .ok bytes => return (pieces bytes.data.toList).filterMap variableOf
    | .error _ => return []
  readFile path := checked path (IO.FS.readBinFile path)
  createTemporary directory := do createIn (← absolute directory) 65536
  fill path bytes := attempt (IO.FS.writeBinFile path bytes)
  rename temporary path :=
    if path.contains '\x00' then return .error .invalid else attempt (IO.FS.rename temporary path)
  discard path := do let _ ← attempt (IO.FS.removeFile path)
  view _ := return .error .missing
  openLog path := checked path (IO.FS.Handle.mk path .write)
  install filter file := fun session => do
    if (← session.logger.get).isSome then return false
    session.logger.set (some (filter, file))
    return true
  filter := fun session => return (← session.logger.get).map (·.1)
  writeLog line := fun session => do
    match ← session.logger.get with
    | some (_, some file) => file.putStr line; file.flush
    | _ => return
  print line := fun _ => IO.println line
  complain line := fun _ => IO.eprintln line
  stamp := return Clock.stamp ((← nanoseconds) / Clock.second)
  elapsed := return Clock.elapsed (← nanoseconds)

end Console

end RehashChart

open RehashChart in
def main : IO UInt32 := do
  let session : Session := ⟨← IO.monoNanosNow, ← IO.mkRef none⟩
  match ← (start : Console _) session with
  | .ok () => return 0
  | .error e =>
      (reportLines e.message e.causes).forM fun line => IO.eprintln line
      return UInt32.ofNat e.exitStatus
