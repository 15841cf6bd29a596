import QueryWorkbench.Tree.Walk

/-! Printed trees, one line for each node, indented by its depth. -/

namespace QueryWorkbench

namespace Tree

def defaultIndent : Nat := 4

def maxIndentation : Nat := 65535

structure PrintOptions where
  onlyNamed : Bool
  indent : Nat
deriving Repr, DecidableEq

def line (indentation : Nat) (field : Option String) (label : NodeLabel) : String :=
  let spaces := String.ofList (List.replicate indentation ' ')
  let role := (field.map (· ++ ": ")).getD ""
  spaces ++ role ++ label.kind
    ++ s!" [{label.start.row}, {label.start.column}] - [{label.stop.row}, {label.stop.column}]\n"

def isKept (options : PrintOptions) (label : NodeLabel) : Bool := label.named || !options.onlyNamed

/-- Adds a node to what is printed so far. Nothing can be printed once an indentation is too
wide. -/
def printNode (options : PrintOptions) (printed : Option String) (cursor : Cursor) (depth : Nat) :
    Option String :=
  let label := cursor.focus.label
  if isKept options label then
    if maxIndentation < depth * options.indent then none
    else printed.map (· ++ line (depth * options.indent) cursor.field? label)
  else printed

def print? (options : PrintOptions) (tree : Tree) : Option String :=
  tree.traverse (printNode options) (some "")

end Tree

end QueryWorkbench
