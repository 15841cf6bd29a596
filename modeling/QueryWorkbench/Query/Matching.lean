import QueryWorkbench.Query.Pattern

/-! Matching patterns against trees. All ways are tried in which the children of a node can be cut
where the items of a pattern want them. -/

namespace QueryWorkbench.Query

def cuts : List Tree → List (List Tree × Tree × List Tree)
  | [] => []
  | child :: rest =>
      ([], child, rest) :: (cuts rest).map fun (before, other, after) =>
        (child :: before, other, after)

mutual

/-- The captures of a pattern at the node with an address, one list for each way to match. -/
def Pattern.ways : Pattern → (address : List Nat) → Tree → List (List Capture)
  | .node kind items name, address, tree =>
      if tree.label.named && tree.label.kind == kind then
        (waysOfItems items address 0 false tree.children).map (name.toList.map (⟨·, address⟩) ++ ·)
      else []

/-- The captures of items among the children from a number on. After an anchor only unnamed children
may be passed over. -/
def waysOfItems :
    List Item → (address : List Nat) → (number : Nat) → (anchored : Bool) → List Tree →
    List (List Capture)
  | [], _, _, anchored, children =>
      if anchored && children.any (·.label.named) then [] else [[]]
  | .anchor :: items, address, number, _, children => waysOfItems items address number true children
  | .predicate _ :: items, address, number, anchored, children =>
      waysOfItems items address number anchored children
  | .child field pattern :: items, address, number, anchored, children =>
      (cuts children).flatMap fun (before, child, after) =>
        if (anchored && before.any (·.label.named)) ||
            (field.isSome && child.label.field != field) then []
        else
          let place := number + before.length
          (pattern.ways (address ++ [place]) child).flatMap fun first =>
            (waysOfItems items address (place + 1) false after).map (first ++ ·)

end

namespace Pattern

def find (pattern : Pattern) (text : Text) (tree : Tree) : List (List Capture) :=
  (tree.addresses.flatMap fun address =>
    ((tree.descend? address).map (pattern.ways address)).getD []).filter fun captures =>
      pattern.predicates.all fun predicate => predicate.Holds text tree captures

end Pattern

def find (patterns : List Pattern) (text : Text) (tree : Tree) : List Match :=
  patterns.zipIdx.flatMap fun (pattern, number) =>
    ((pattern.find text tree).foldr List.insert []).map (⟨number, ·⟩)

end QueryWorkbench.Query
