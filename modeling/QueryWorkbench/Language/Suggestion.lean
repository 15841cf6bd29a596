import QueryWorkbench.Language.Basic
import QueryWorkbench.Text.Lowercase

/-! The language that a mistyped name may have meant: the nearest one by edit distance. -/

namespace QueryWorkbench

/-- Two rows of the table of distances, with a cell for each start of the target: the one filled
last, and one that is no longer needed and can be written over. -/
structure DistanceRows (width : Nat) where
  above : Vector Nat (width + 1)
  spare : Vector Nat (width + 1)

section Rows

variable {width : Nat} (target : Vector Char width)

/-- Writes the cell behind a place: the least cost of deleting, inserting, and replacing or keeping
a character. -/
def writeCell (char : Char) (above row : Vector Nat (width + 1)) (place : Fin width) :
    Vector Nat (width + 1) :=
  let change := above[place.castSucc] + if char = target[place] then 0 else 1
  row.set place.succ (min (min (above[place.succ] + 1) (row[place.castSucc] + 1)) change)

/-- Fills the spare row for the next character of the source, from its first cell on. The rows then
change places. -/
def nextRows (rows : DistanceRows width) (entry : Char × Nat) : DistanceRows width :=
  let (char, number) := entry
  let row :=
    width.fold (fun place inside row => writeCell target char rows.above row ⟨place, inside⟩)
    (rows.spare.set 0 (number + 1))
  ⟨row, rows.above⟩

end Rows

def editDistance (source target : Text) : Nat :=
  if source.isEmpty then target.length
  else if target.isEmpty then source.length
  else
    let letters : Vector Char target.length := ⟨target.toArray, by simp⟩
    let start := ⟨Vector.range (target.length + 1), Vector.replicate (target.length + 1) 0⟩
    (source.zipIdx.foldl (nextRows letters) start).above.back

namespace Language

def suggestionLimit : Nat := 2

/-- The first of the languages nearest to a name, if any is near enough. -/
def suggest? (name : String) : Option Language :=
  let wanted := lowercase name.toList
  (List.range (suggestionLimit + 1)).findSome? fun distance =>
    all.find? fun language => editDistance language.name.toList wanted == distance

end Language

end QueryWorkbench
