import RehashChart.Text.Split

/-! # Paths as text

What a path says before any file is looked at. A slash at the end and parts that are a single point
say nothing, except at the start of a path.
-/

namespace RehashChart.Files.Path

def parts (path : String) : List String := Text.splitText '/' path

def isAbsolute (path : String) : Bool := path.toList.head? = some '/'

/-- A path written backwards without the slashes and single points that say nothing at its end. -/
def trimReversed : List Char → List Char
  | '/' :: rest => if rest = [] then ['/'] else trimReversed rest
  | '.' :: '/' :: rest => trimReversed ('/' :: rest)
  | path => path

def trimmed (path : String) : String := String.ofList (trimReversed path.toList.reverse).reverse

def isNoSlash (c : Char) : Bool := c ≠ '/'

def lastPart (path : String) : String :=
  String.ofList ((trimReversed path.toList.reverse).takeWhile isNoSlash).reverse

/-- The directory that the last part of a path is in; a single point if the path does not say. -/
def directory (path : String) : String :=
  let reversed := trimReversed path.toList.reverse
  if reversed.takeWhile isNoSlash = [] then "."
  else
    let parent := trimReversed (reversed.dropWhile isNoSlash)
    if parent = [] then "." else String.ofList parent.reverse

/-- The path of `name` in a directory; an absolute `name` stands by itself. -/
def join (directory name : String) : String :=
  if isAbsolute name || directory = "" then name
  else if directory.toList.getLast? = some '/' then directory ++ name
  else directory ++ "/" ++ name

def withSuffix (path suffix : String) : Option String :=
  let name := lastPart path
  if name = "" ∨ name = "." ∨ name = ".." then none else some (trimmed path ++ suffix)

def steps (path : String) : List String := (parts path).filter fun part => part ≠ "" ∧ part ≠ "."

/-- The steps to `path` from `base`: up as far as the two differ, and then down. -/
def stepsFrom : List String → List String → List String
  | b :: base, p :: path =>
      if b = p then stepsFrom base path
      else List.replicate (base.length + 1) ".." ++ p :: path
  | base, path => List.replicate base.length ".." ++ path

def relativeTo (base path : String) : String :=
  "/".intercalate (stepsFrom (steps base) (steps path))

end RehashChart.Files.Path
