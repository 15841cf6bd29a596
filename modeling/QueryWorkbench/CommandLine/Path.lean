import QueryWorkbench.Text.Basic

/-! File paths as they are given on a command line. -/

namespace QueryWorkbench.CommandLine

def isStandardInput (path : String) : Bool := path == "-"

def displayName (path : String) : String :=
  if isStandardInput path then "<stdin>" else path

def pathParts : Text → List Text
  | [] => [[]]
  | char :: rest =>
      match pathParts rest with
      | [] => [[char]]
      | part :: others => if char = '/' then [] :: part :: others else (char :: part) :: others

/-- The last part of a path, where empty parts and `.` do not count. A path that ends in `..` names
no file. -/
def fileName? (path : Text) : Option Text :=
  match ((pathParts path).filter fun part => part != [] && part != ['.']).getLast? with
  | some ['.', '.'] => none
  | last => last

/-- What follows the last dot of a file name. A dot at its start makes no extension. -/
def extension? (path : String) : Option String := do
  let name ← fileName? path.toList
  let extension := (name.reverse.takeWhile (· != '.')).reverse
  if name.length ≤ extension.length + 1 then none else some (String.ofList extension)

end QueryWorkbench.CommandLine
