import QueryWorkbench.Tree.Basic

/-! Queries in the grammar library's query language. A pattern asks for a named node of a kind that
has some children in their order, and names nodes of interest; predicates ask for the texts of the
nodes so named. -/

namespace QueryWorkbench.Query

inductive Predicate where
  | equals (name text : String)
  | oneOf (name : String) (texts : List String)
deriving Repr, DecidableEq

mutual

inductive Pattern where
  | node (kind : String) (items : List Item) (name : Option String)

inductive Item where
  /-- Between two children, no named node may stand there; as the first or last item, none before or
  behind. -/
  | anchor
  | predicate (predicate : Predicate)
  | child (field : Option String) (pattern : Pattern)

end

namespace Predicate

def render : Predicate → String
  | .equals name text => "(#eq? @" ++ name ++ " \"" ++ text ++ "\")"
  | .oneOf name texts =>
      "(#any-of? @" ++ name ++ String.join (texts.map fun text => " \"" ++ text ++ "\"") ++ ")"

end Predicate

def Item.isAnchor : Item → Bool
  | .anchor => true
  | _ => false

/-- What stands before each item of a pattern. Several items stand on lines of their own; anchors do
not count. -/
def itemGap (depth : Nat) (items : List Item) : String :=
  if 1 < (items.filter fun item => !item.isAnchor).length then
    "\n" ++ String.ofList (List.replicate (2 * depth) ' ')
  else " "

mutual

def Pattern.render (depth : Nat) : Pattern → String
  | .node kind items name =>
      "(" ++ kind ++ renderItems (itemGap (depth + 1) items) (depth + 1) items ++ ")"
        ++ (name.map (" @" ++ ·)).getD ""

def renderItems (gap : String) (depth : Nat) : List Item → String
  | [] => ""
  | item :: rest => gap ++ Item.render depth item ++ renderItems gap depth rest

def Item.render (depth : Nat) : Item → String
  | .anchor => "."
  | .predicate predicate => predicate.render
  | .child field pattern => (field.map (· ++ ": ")).getD "" ++ Pattern.render depth pattern

end

def render (patterns : List Pattern) : String :=
  "\n".intercalate (patterns.map fun pattern => pattern.render 0 ++ "\n")

mutual

/-- The predicates of a pattern, wherever they stand in it. They count for the whole match. -/
def Pattern.predicates : Pattern → List Predicate
  | .node _ items _ => predicatesOf items

def predicatesOf : List Item → List Predicate
  | [] => []
  | item :: rest => Item.predicates item ++ predicatesOf rest

def Item.predicates : Item → List Predicate
  | .anchor => []
  | .predicate predicate => [predicate]
  | .child _ pattern => Pattern.predicates pattern

end

/-- A node that a match names, by the child numbers on the way down to it. -/
structure Capture where
  name : String
  address : List Nat
deriving Repr, DecidableEq

def Capture.text? (text : Text) (tree : Tree) (capture : Capture) : Option Text :=
  (tree.descend? capture.address).map fun node => Text.slice node.label.span text

def Predicate.Holds (text : Text) (tree : Tree) (captures : List Capture) : Predicate → Prop
  | .equals name value =>
      ∀ capture ∈ captures, capture.name = name → capture.text? text tree = some value.toList
  | .oneOf name values =>
      ∀ capture ∈ captures, capture.name = name →
        ∃ value ∈ values, capture.text? text tree = some value.toList

instance (text : Text) (tree : Tree) (captures : List Capture) (predicate : Predicate) :
    Decidable (predicate.Holds text tree captures) :=
  match predicate with
  | .equals _ _ => List.decidableBAll _ _
  | .oneOf _ _ => List.decidableBAll _ _

structure Match where
  pattern : Nat
  captures : List Capture
deriving Repr, DecidableEq

namespace Match

/-- The node with a name; of several the last one counts. -/
def node? (tree : Tree) (found : Match) (name : String) : Option Tree := do
  let capture ← (found.captures.filter fun capture => capture.name = name).getLast?
  tree.descend? capture.address

end Match

end QueryWorkbench.Query
