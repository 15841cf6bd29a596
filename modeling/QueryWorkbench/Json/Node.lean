import QueryWorkbench.Text.Basic

/-! The tree of a JSON document. Every node keeps the bytes it was read from, so that a reader can
point back into the document. -/

namespace QueryWorkbench.Json

structure Member (α : Type) where
  keySpan : Span
  key : Text
  value : α
deriving Repr

inductive Node where
  | null (span : Span)
  | boolean (span : Span) (value : Bool)
  /-- A number keeps its spelling. -/
  | number (span : Span) (numeral : Text)
  | string (span : Span) (value : Text)
  | array (span : Span) (elements : List Node)
  | object (span : Span) (members : List (Member Node))
deriving Repr

namespace Node

def span : Node → Span
  | .null span | .boolean span _ | .number span _ | .string span _ | .array span _
  | .object span _ => span

def member? (key : Text) : Node → Option (Member Node)
  | .object _ members => members.find? fun member => member.key == key
  | _ => none

def string? : Node → Option Text
  | .string _ value => some value
  | _ => none

def boolean? : Node → Option Bool
  | .boolean _ value => some value
  | _ => none

end Node

namespace Member

def span (member : Member Node) : Span := ⟨member.keySpan.start, member.value.span.stop⟩

end Member

end QueryWorkbench.Json
