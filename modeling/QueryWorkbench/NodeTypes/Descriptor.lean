import QueryWorkbench.Json.Parser

/-! The node types that a grammar's `node-types.json` document declares. An element counts if its
first `type` property is a string and its first `named` property a boolean; other elements are
passed over. -/

namespace QueryWorkbench.NodeTypes

structure Annotated (α : Type) where
  value : α
  span : Span
deriving Repr, DecidableEq

structure Descriptor where
  name : Annotated Text
  named : Annotated Bool
  span : Span
deriving Repr, DecidableEq

inductive SchemaError where
  | json (error : Json.Error)
  | rootNotArray
  | emptyArray
deriving Repr, DecidableEq

namespace SchemaError

def message : SchemaError → String
  | .json error => "invalid JSON: " ++ error.message
  | .rootNotArray => "root node must be an array"
  | .emptyArray => "root array has no elements"

end SchemaError

namespace Descriptor

def ofElement? (element : Json.Node) : Option Descriptor := do
  let type ← element.member? ['t', 'y', 'p', 'e']
  let named ← element.member? ['n', 'a', 'm', 'e', 'd']
  let name ← type.value.string?
  let flag ← named.value.boolean?
  some ⟨⟨name, type.span⟩, ⟨flag, named.span⟩, element.span⟩

end Descriptor

def descriptors (text : Text) : Except SchemaError (List Descriptor) :=
  match Json.parse text with
  | .error error => .error (.json error)
  | .ok (.array _ []) => .error .emptyArray
  | .ok (.array _ elements) => .ok (elements.filterMap Descriptor.ofElement?)
  | .ok _ => .error .rootNotArray

end QueryWorkbench.NodeTypes
