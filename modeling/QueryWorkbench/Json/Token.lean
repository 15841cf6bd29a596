import QueryWorkbench.Text.Basic

/-! Lexemes and tokens of a JSON document. Lexemes cut the source into consecutive pieces, the
longest match first; tokens are the located lexemes that are not blank, with adjacent garbage
joined. -/

namespace QueryWorkbench.Json

inductive TokenKind where
  | braceOpen
  | braceClose
  | bracketOpen
  | bracketClose
  | colon
  | comma
  | trueLiteral
  | falseLiteral
  | nullLiteral
  | string
  | number
  | garbage
  /-- Insignificant white space, a lexeme but never a token. -/
  | blank
deriving Repr, DecidableEq

structure Lexeme where
  kind : TokenKind
  text : Text
deriving Repr, DecidableEq

structure Token where
  kind : TokenKind
  start : Nat
  text : Text
deriving Repr, DecidableEq

namespace Token

def stop (token : Token) : Nat := token.start + Text.byteLength token.text

def span (token : Token) : Span := ⟨token.start, token.stop⟩

/-- The token with its place kept in 32 bits. One that ends behind the limit of offsets is read
where its narrowed place is. -/
def narrowed (source : Text) (token : Token) : Token :=
  if token.stop < offsetLimit then token
  else ⟨token.kind, token.span.narrowed.start, Text.slice token.span.narrowed source⟩

end Token

def isBlank (char : Char) : Bool :=
  char == ' ' || char == '\t' || char == '\r' || char == '\n'

/-- The part of a string that may stand between its quotes: no quote, no control character, and
after a backslash anything but a line feed. A backslash that nothing may follow ends the part. -/
def quotedPart : Text → Text
  | [] => []
  | ['\\'] => ['\\']
  | '\\' :: char :: rest => if char = '\n' then ['\\'] else '\\' :: char :: quotedPart rest
  | char :: rest => if char = '"' || char < ' ' then [] else char :: quotedPart rest

/-- The lexeme after an opening quote. Without its closing quote a string is garbage. -/
def quoted (rest : Text) : Lexeme :=
  let part := quotedPart rest
  match rest.drop part.length with
  | '"' :: _ => ⟨.string, '"' :: part ++ ['"']⟩
  | _ => ⟨.garbage, '"' :: part⟩

def integerPart : Text → Text
  | '0' :: _ => ['0']
  | text => text.takeWhile Char.isDigit

def fractionPart : Text → Text
  | '.' :: rest =>
      match rest.takeWhile Char.isDigit with
      | [] => []
      | digits => '.' :: digits
  | _ => []

def exponentSign : Text → Text
  | '+' :: _ => ['+']
  | '-' :: _ => ['-']
  | _ => []

def exponentPart : Text → Text
  | [] => []
  | mark :: rest =>
      if mark = 'e' || mark = 'E' then
        let sign := exponentSign rest
        match (rest.drop sign.length).takeWhile Char.isDigit with
        | [] => []
        | digits => mark :: sign ++ digits
      else []

def unsignedPart (text : Text) : Text :=
  match integerPart text with
  | [] => []
  | whole =>
      let fraction := fractionPart (text.drop whole.length)
      let exponent := exponentPart (text.drop (whole.length + fraction.length))
      whole ++ fraction ++ exponent

def numeral (char : Char) (rest : Text) : Lexeme :=
  if char = '-' then
    match unsignedPart rest with
    | [] => ⟨.garbage, [char]⟩
    | digits => ⟨.number, char :: digits⟩
  else ⟨.number, unsignedPart (char :: rest)⟩

def literal (kind : TokenKind) (char : Char) (tail rest : Text) : Lexeme :=
  if tail.isPrefixOf rest then ⟨kind, char :: tail⟩ else ⟨.garbage, [char]⟩

def lexemeAt (char : Char) (rest : Text) : Lexeme :=
  match char with
  | '\x7b' => ⟨.braceOpen, [char]⟩
  | '\x7d' => ⟨.braceClose, [char]⟩
  | '[' => ⟨.bracketOpen, [char]⟩
  | ']' => ⟨.bracketClose, [char]⟩
  | ':' => ⟨.colon, [char]⟩
  | ',' => ⟨.comma, [char]⟩
  | 't' => literal .trueLiteral char ['r', 'u', 'e'] rest
  | 'f' => literal .falseLiteral char ['a', 'l', 's', 'e'] rest
  | 'n' => literal .nullLiteral char ['u', 'l', 'l'] rest
  | '"' => quoted rest
  | _ =>
      if isBlank char then ⟨.blank, char :: rest.takeWhile isBlank⟩
      else if char = '-' || char.isDigit then numeral char rest
      else ⟨.garbage, [char]⟩

def lexemes : Text → List Lexeme
  | [] => []
  | char :: rest =>
      let lexeme := lexemeAt char rest
      lexeme :: lexemes (rest.drop (lexeme.text.length - 1))
termination_by text => text.length
decreasing_by
  simp only [List.length_drop, List.length_cons]
  omega

def joinGarbage : List Lexeme → List Lexeme
  | [] => []
  | first :: rest =>
      match joinGarbage rest with
      | [] => [first]
      | second :: others =>
          if first.kind = .garbage ∧ second.kind = .garbage then
            ⟨.garbage, first.text ++ second.text⟩ :: others
          else first :: second :: others

/-- Places lexemes one after the other from `offset` on and drops the blank ones. -/
def located (offset : Nat) : List Lexeme → List Token
  | [] => []
  | lexeme :: rest =>
      let others := located (offset + Text.byteLength lexeme.text) rest
      if lexeme.kind = .blank then others else ⟨lexeme.kind, offset, lexeme.text⟩ :: others

def tokensFrom (offset : Nat) (text : Text) : List Token :=
  located offset (joinGarbage (lexemes text))

def tokens (source : Text) : List Token := (tokensFrom 0 source).map (Token.narrowed source)

end QueryWorkbench.Json
