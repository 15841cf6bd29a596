import QueryWorkbench.Text.Basic

/-! Syntax trees as the grammar library returns them. -/

namespace QueryWorkbench

structure Point where
  row : Nat
  column : Nat
deriving Repr, DecidableEq

structure NodeLabel where
  kind : String
  /-- Anonymous nodes are literal pieces of the grammar, such as punctuation. -/
  named : Bool
  extra : Bool
  missing : Bool
  field : Option String
  span : Span
  start : Point
  stop : Point
deriving Repr, DecidableEq

inductive Tree where
  | node (label : NodeLabel) (children : List Tree)
deriving Repr

namespace Tree

def label : Tree → NodeLabel
  | .node label _ => label

def children : Tree → List Tree
  | .node _ children => children

mutual

def size : Tree → Nat
  | .node _ children => sizes children + 1

def sizes : List Tree → Nat
  | [] => 0
  | tree :: rest => size tree + sizes rest

end

mutual

def preorder (depth : Nat) : Tree → List (Nat × Tree)
  | .node label children => (depth, .node label children) :: preorders (depth + 1) children

def preorders (depth : Nat) : List Tree → List (Nat × Tree)
  | [] => []
  | tree :: rest => preorder depth tree ++ preorders depth rest

end

def descend? (tree : Tree) : List Nat → Option Tree
  | [] => some tree
  | number :: path =>
      match tree.children[number]? with
      | some child => child.descend? path
      | none => none

mutual

def addresses : Tree → List (List Nat)
  | .node _ children => [] :: addressesFrom 0 children

def addressesFrom (number : Nat) : List Tree → List (List Nat)
  | [] => []
  | tree :: rest => (addresses tree).map (number :: ·) ++ addressesFrom (number + 1) rest

end

/-- Puts a node before trees that follow it in preorder; those that are deeper become its
children. -/
def plant (row : Nat × NodeLabel) (following : List (Nat × Tree)) : List (Nat × Tree) :=
  let isBelow := fun (tree : Nat × Tree) => decide (row.1 < tree.1)
  (row.1, .node row.2 ((following.takeWhile isBelow).map Prod.snd)) :: following.dropWhile isBelow

def ofRows? (rows : List (Nat × NodeLabel)) : Option Tree :=
  match rows.foldr plant [] with
  | [(_, tree)] => some tree
  | _ => none

end Tree

end QueryWorkbench
