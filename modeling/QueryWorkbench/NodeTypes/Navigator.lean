import Std.Data.HashMap
import QueryWorkbench.Text.Word
import QueryWorkbench.NodeTypes.Index
import QueryWorkbench.NodeTypes.Outline

/-! Navigation in node-types documents. A navigator keeps an index of recent listings and a table of
the definitions of one listing; the table is derived again only when it is asked for another
reading. -/

namespace QueryWorkbench.NodeTypes

structure Location where
  span : Span
  range : Range
deriving Repr, DecidableEq

namespace Location

def render (location : Location) : String :=
  let start := location.range.start
  let stop := location.range.stop
  s!"{start.line}:{start.character}-{stop.line}:{stop.character}"

end Location

structure DefinitionTable where
  source : Option Nat
  byName : Std.HashMap String Descriptor
  generation : Nat

namespace DefinitionTable

def empty : DefinitionTable := ⟨none, ∅, 0⟩

/-- Of several descriptors of one name the last counts. -/
def derive (descriptors : List Descriptor) : Std.HashMap String Descriptor :=
  descriptors.foldl (fun table descriptor =>
    table.insert (String.ofList descriptor.name.value) descriptor) ∅

def isStale (table : DefinitionTable) (listing : Listing) : Bool :=
  table.source != some listing.identity

def refresh (table : DefinitionTable) (listing : Listing) : DefinitionTable :=
  if table.isStale listing then
    ⟨some listing.identity, derive listing.descriptors, table.generation + 1⟩
  else table

def get? (table : DefinitionTable) (name : Text) : Option Descriptor :=
  table.byName[String.ofList name]?

end DefinitionTable

structure Navigator where
  index : Index
  table : DefinitionTable

namespace Navigator

def empty (capacity : Nat) : Navigator := ⟨Index.empty capacity, DefinitionTable.empty⟩

/-- Brings the table up to the document's listing. Answers whether it had to be derived. -/
def refresh (navigator : Navigator) (text : Text) : Except SchemaError Bool × Navigator :=
  match navigator.index.fetch text with
  | (.error error, index) => (.error error, { navigator with index })
  | (.ok listing, index) =>
      (.ok (navigator.table.isStale listing), ⟨index, navigator.table.refresh listing⟩)

/-- Where the word at an offset is declared. Without a word the document is not even looked up. -/
def definition (navigator : Navigator) (text : Text) (offset : Nat) : Option Location × Navigator :=
  match wordAt? text offset with
  | none => (none, navigator)
  | some word =>
      match navigator.refresh text with
      | (.error _, navigator) => (none, navigator)
      | (.ok _, navigator) =>
          let found := navigator.table.get? word.text
          (found.map fun descriptor =>
            ⟨descriptor.span, (LineIndex.ofText text).range descriptor.span⟩, navigator)

def outline (navigator : Navigator) (text : Text) : List Symbol × Navigator :=
  match navigator.index.fetch text with
  | (.error _, index) => ([], { navigator with index })
  | (.ok listing, index) => (symbols text listing.descriptors, { navigator with index })

def clear (navigator : Navigator) : Navigator := { navigator with index := navigator.index.clear }

end Navigator

def find (text : Text) (position : Position) : Option Location := do
  let offset ← (LineIndex.ofText text).offset? position
  ((Navigator.empty Index.defaultCapacity).definition text offset).1

end QueryWorkbench.NodeTypes
