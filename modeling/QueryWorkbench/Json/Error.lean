/-! What can be wrong with a JSON document, and where. -/

namespace QueryWorkbench.Json

inductive ErrorKind where
  | unexpectedEnd
  | invalidCharacter
  | expectedValue
  | expectedColon
  | expectedCommaOr (close : Char)
  | expectedPropertyName
  | invalidEscape
  | trailingContent
  | tooDeep
deriving Repr, DecidableEq

namespace ErrorKind

def message : ErrorKind → String
  | .unexpectedEnd => "unexpected end of input"
  | .invalidCharacter => "invalid character"
  | .expectedValue => "expected a value"
  | .expectedColon => "expected `:`"
  | .expectedCommaOr close => "expected `,` or `" ++ close.toString ++ "`"
  | .expectedPropertyName => "expected a property name"
  | .invalidEscape => "invalid escape sequence"
  | .trailingContent => "unexpected content after the root value"
  | .tooDeep => "nesting too deep"

end ErrorKind

structure Error where
  kind : ErrorKind
  offset : Nat
deriving Repr, DecidableEq

namespace Error

def message (error : Error) : String :=
  error.kind.message ++ " at offset " ++ toString error.offset

end Error

end QueryWorkbench.Json
