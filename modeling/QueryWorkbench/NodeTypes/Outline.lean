import QueryWorkbench.LineIndex
import QueryWorkbench.NodeTypes.Descriptor

/-! The outline of a node-types document: one symbol per declared node type. -/

namespace QueryWorkbench.NodeTypes

structure Symbol where
  name : Text
  named : Bool
  range : Range
  selectionRange : Range
deriving Repr, DecidableEq

namespace Symbol

def ofDescriptor (index : LineIndex) (descriptor : Descriptor) : Symbol :=
  { name := descriptor.name.value
    named := descriptor.named.value
    range := index.range descriptor.span
    selectionRange := index.range descriptor.name.span }

def detail (symbol : Symbol) : String :=
  if symbol.named then "Named" else "Anonymous"

def line (symbol : Symbol) : String :=
  let start := symbol.selectionRange.start
  s!"{start.line + 1}:{start.character + 1}  {String.ofList symbol.name}  ({symbol.detail})\n"

end Symbol

def symbols (text : Text) (descriptors : List Descriptor) : List Symbol :=
  descriptors.map (Symbol.ofDescriptor (LineIndex.ofText text))

def renderOutline (symbols : List Symbol) : String :=
  String.join (symbols.map Symbol.line)

end QueryWorkbench.NodeTypes
