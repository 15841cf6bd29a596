import QueryWorkbench.Json.Token
import QueryWorkbench.Json.Quoted
import QueryWorkbench.Json.Error
import QueryWorkbench.Json.Node

/-! Reading a JSON document. The parser descends over the tokens and stops at the first one that
cannot continue the document. Nesting is bounded, and the bound is what the recursion descends
on. -/

namespace QueryWorkbench.Json

def maxDepth : Nat := 256

/-- Reads the front of a token list and leaves less than it was given. -/
abbrev Parser (α : Type) := (tokens : List Token) → Except Error (α × Remainder tokens)

namespace Token

def unexpected (token : Token) (kind : ErrorKind) : Error :=
  if token.kind = .garbage then ⟨.invalidCharacter, token.start⟩ else ⟨kind, token.start⟩

end Token

namespace Parser

/-- The next token; `limit` is where the document ends. -/
def next (limit : Nat) : Parser Token
  | [] => .error ⟨.unexpectedEnd, limit⟩
  | token :: rest => .ok (token, Remainder.tail token rest)

def expect (limit : Nat) (kind : TokenKind) (otherwise : ErrorKind) : Parser Token :=
  fun tokens => do
  let (token, rest) ← next limit tokens
  if token.kind = kind then .ok (token, rest) else .error (token.unexpected otherwise)

def decoded (token : Token) : Except Error Text :=
  match Quoted.decode? token.text with
  | some text => .ok text
  | none => .error ⟨.invalidEscape, token.start⟩

def items {α : Type} (limit : Nat) (close : TokenKind) (mark : Char) (item : Parser α)
    (tokens : List Token) : Except Error ((List α × Token) × Remainder tokens) := do
  let (first, rest) ← item tokens
  let (separator, after) ← next limit rest.val
  if separator.kind = .comma then
    let ((others, last), left) ← items limit close mark item after.val
    .ok ((first :: others, last), (rest.trans after).trans left)
  else if separator.kind = close then .ok (([first], separator), rest.trans after)
  else .error (separator.unexpected (.expectedCommaOr mark))
termination_by tokens.length
decreasing_by exact Nat.lt_trans after.property rest.property

def contents {α : Type} (limit : Nat) (close : TokenKind) (mark : Char) (item : Parser α) :
    Parser (List α × Token)
  | [] => items limit close mark item []
  | first :: rest =>
      if first.kind = close then .ok (([], first), Remainder.tail first rest)
      else items limit close mark item (first :: rest)

def member (limit : Nat) (value : Parser Node) : Parser (Member Node) := fun tokens => do
  let (name, rest) ← expect limit .string .expectedPropertyName tokens
  let key ← decoded name
  let (_, after) ← expect limit .colon .expectedColon rest.val
  let (node, left) ← value after.val
  .ok (⟨name.span, key, node⟩, (rest.trans after).trans left)

/-- The items that an opening token may hold, unless containers already nest as deep as they may. -/
def inside {α : Type} (opening : Token) : Option (Parser α) → Except Error (Parser α)
  | some item => .ok item
  | none => .error ⟨.tooDeep, opening.start⟩

def valueOver (limit : Nat) (item : Option (Parser Node)) : Parser Node := fun tokens => do
  let (token, rest) ← next limit tokens
  match token.kind with
  | .braceOpen =>
      let value ← inside token item
      let ((members, close), left) ← contents limit .braceClose '\x7d' (member limit value) rest.val
      .ok (.object ⟨token.start, close.stop⟩ members, rest.trans left)
  | .bracketOpen =>
      let value ← inside token item
      let ((elements, close), left) ← contents limit .bracketClose ']' value rest.val
      .ok (.array ⟨token.start, close.stop⟩ elements, rest.trans left)
  | .string =>
      let text ← decoded token
      .ok (.string token.span text, rest)
  | .number => .ok (.number token.span token.text, rest)
  | .trueLiteral => .ok (.boolean token.span true, rest)
  | .falseLiteral => .ok (.boolean token.span false, rest)
  | .nullLiteral => .ok (.null token.span, rest)
  | _ => .error (token.unexpected .expectedValue)

def value (limit : Nat) : Nat → Parser Node
  | 0 => valueOver limit none
  | depth + 1 => valueOver limit (some (value limit depth))

end Parser

def parse (source : Text) : Except Error Node := do
  let (root, rest) ← Parser.value (Text.byteLength source) maxDepth (tokens source)
  match rest.val with
  | [] => .ok root
  | extra :: _ => .error ⟨.trailingContent, extra.start⟩

end QueryWorkbench.Json
