/-! Printing JSON values over several lines, two spaces to a level. -/

namespace QueryWorkbench.Json

inductive Value where
  | boolean (value : Bool)
  | number (value : Nat)
  | string (value : String)
  | array (items : List Value)
  | object (members : List (String × Value))

def hexDigit (value : Nat) : Char :=
  if value < 10 then Char.ofNat (48 + value) else Char.ofNat (87 + value)

def escaped (char : Char) : List Char :=
  match char with
  | '"' => ['\\', '"']
  | '\\' => ['\\', '\\']
  | '\x08' => ['\\', 'b']
  | '\x0c' => ['\\', 'f']
  | '\n' => ['\\', 'n']
  | '\r' => ['\\', 'r']
  | '\t' => ['\\', 't']
  | _ =>
      if char.toNat < 32 then
        ['\\', 'u', '0', '0', hexDigit (char.toNat / 16), hexDigit (char.toNat % 16)]
      else [char]

def quote (text : String) : String :=
  "\"" ++ String.ofList (text.toList.flatMap escaped) ++ "\""

def bracketed (level : Nat) (opening closing : String) : List String → String
  | [] => opening ++ closing
  | items =>
      let newline := fun depth => "\n" ++ String.ofList (List.replicate (2 * depth) ' ')
      let inner := newline (level + 1)
      opening ++ inner ++ ("," ++ inner).intercalate items ++ newline level ++ closing

namespace Value

mutual

def pretty (level : Nat) : Value → String
  | .boolean value => if value then "true" else "false"
  | .number value => toString value
  | .string value => quote value
  | .array items => bracketed level "[" "]" (prettyItems (level + 1) items)
  | .object members => bracketed level "\x7b" "\x7d" (prettyMembers (level + 1) members)

def prettyItems (level : Nat) : List Value → List String
  | [] => []
  | item :: items => pretty level item :: prettyItems level items

def prettyMembers (level : Nat) : List (String × Value) → List String
  | [] => []
  | (key, value) :: members =>
      (quote key ++ ": " ++ pretty level value) :: prettyMembers level members

end

end Value

end QueryWorkbench.Json
