import QueryWorkbench.NodeTypes.Descriptor

/-! The listings of the documents looked at most recently. A listing is kept under the exact text it
was read from, so an edited document is another key and nothing ever goes stale; when there is no
room the listing fetched longest ago is given up. -/

namespace QueryWorkbench.NodeTypes

/-- A successful reading of a document. Each reading has an identity of its own, also of equal
texts. -/
structure Listing where
  identity : Nat
  descriptors : List Descriptor
deriving Repr, DecidableEq

abbrev Outcome := Except SchemaError Listing

structure Entry where
  text : Text
  outcome : Outcome

structure Index where
  capacity : Nat
  entries : List Entry
  hits : Nat
  misses : Nat
  readings : Nat

namespace Index

def defaultCapacity : Nat := 10

def empty (capacity : Nat) : Index := ⟨max capacity 1, [], 0, 0, 0⟩

def contains (index : Index) (text : Text) : Bool :=
  index.entries.any fun entry => entry.text == text

def size (index : Index) : Nat := index.entries.length

def read (index : Index) (text : Text) : Outcome × Index :=
  match descriptors text with
  | .ok found => (.ok ⟨index.readings, found⟩, { index with readings := index.readings + 1 })
  | .error error => (.error error, index)

/-- The listing of a document, read now unless the index still has it. -/
def fetch (index : Index) (text : Text) : Outcome × Index :=
  match index.entries.find? fun entry => entry.text == text with
  | some entry =>
      let others := index.entries.filter fun other => other.text != text
      (entry.outcome, { index with entries := entry :: others, hits := index.hits + 1 })
  | none =>
      let (outcome, index) := index.read text
      (outcome, { index with
        entries := (⟨text, outcome⟩ :: index.entries).take index.capacity
        misses := index.misses + 1 })

def clear (index : Index) : Index := { index with entries := [], hits := 0, misses := 0 }

end Index

end QueryWorkbench.NodeTypes
