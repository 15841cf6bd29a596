import QueryWorkbench.Json.Node

/-! The grammar of JSON documents, over characters. Each relation holds between a stretch of text
and what it stands for: first white space, numerals and strings, then values, members and
documents. -/

namespace QueryWorkbench.Json

/-- What a document says, without the places it says it at. Numbers keep their spelling, and the
members of an object their order and repetitions. -/
inductive Datum where
  | null
  | boolean (value : Bool)
  | number (numeral : Text)
  | string (value : Text)
  | array (elements : List Datum)
  | object (members : List (Text × Datum))

mutual

def Node.datum : Node → Datum
  | .null _ => .null
  | .boolean _ value => .boolean value
  | .number _ numeral => .number numeral
  | .string _ value => .string value
  | .array _ elements => .array (Node.data elements)
  | .object _ members => .object (Member.data members)

def Node.data : List Node → List Datum
  | [] => []
  | node :: rest => node.datum :: Node.data rest

def Member.data : List (Member Node) → List (Text × Datum)
  | [] => []
  | ⟨_, key, value⟩ :: rest => (key, value.datum) :: Member.data rest

end

def Member.datum (member : Member Node) : Text × Datum := (member.key, member.value.datum)

theorem Node.data_eq_map (nodes : List Node) : Node.data nodes = nodes.map Node.datum := by
  induction nodes with
  | nil => rfl
  | cons node rest ih => rw [Node.data, ih, List.map_cons]

theorem Member.data_eq_map (members : List (Member Node)) :
    Member.data members = members.map Member.datum := by
  induction members with
  | nil => rfl
  | cons member rest ih =>
      rw [Member.data, ih, List.map_cons]
      rfl

mutual

def Datum.depth : Datum → Nat
  | .array elements => Datum.deepest elements + 1
  | .object members => Datum.deepestMember members + 1
  | _ => 0

def Datum.deepest : List Datum → Nat
  | [] => 0
  | datum :: rest => max datum.depth (Datum.deepest rest)

def Datum.deepestMember : List (Text × Datum) → Nat
  | [] => 0
  | (_, datum) :: rest => max datum.depth (Datum.deepestMember rest)

end

theorem Datum.deepest_le {elements : List Datum} {bound : Nat} :
    Datum.deepest elements ≤ bound ↔ ∀ datum ∈ elements, datum.depth ≤ bound := by
  induction elements with
  | nil => simp [Datum.deepest]
  | cons datum rest ih => rw [Datum.deepest, Nat.max_le, ih, List.forall_mem_cons]

theorem Datum.deepestMember_le {members : List (Text × Datum)} {bound : Nat} :
    Datum.deepestMember members ≤ bound ↔ ∀ member ∈ members, member.2.depth ≤ bound := by
  induction members with
  | nil => simp [Datum.deepestMember]
  | cons member rest ih => rw [Datum.deepestMember, Nat.max_le, ih, List.forall_mem_cons]

theorem Datum.depth_lt_array {elements : List Datum} {datum : Datum} (member : datum ∈ elements) :
    datum.depth < (Datum.array elements).depth := by
  rw [Datum.depth]
  exact Nat.lt_succ_of_le (Datum.deepest_le.mp (Nat.le_refl _) datum member)

theorem Datum.depth_lt_object {members : List (Text × Datum)} {named : Text × Datum}
    (member : named ∈ members) : named.2.depth < (Datum.object members).depth := by
  rw [Datum.depth]
  exact Nat.lt_succ_of_le (Datum.deepestMember_le.mp (Nat.le_refl _) named member)

theorem Datum.depth_array_le {elements : List Datum} {bound : Nat} :
    (Datum.array elements).depth ≤ bound + 1 ↔ ∀ datum ∈ elements, datum.depth ≤ bound := by
  rw [Datum.depth, Nat.add_le_add_iff_right, Datum.deepest_le]

theorem Datum.depth_object_le {members : List (Text × Datum)} {bound : Nat} :
    (Datum.object members).depth ≤ bound + 1 ↔ ∀ member ∈ members, member.2.depth ≤ bound := by
  rw [Datum.depth, Nat.add_le_add_iff_right, Datum.deepestMember_le]

theorem Node.depth_array_pos {span : Span} {elements : List Node} :
    0 < (Node.array span elements).datum.depth := by
  rw [Node.datum, Datum.depth]
  exact Nat.succ_pos _

theorem Node.depth_object_pos {span : Span} {members : List (Member Node)} :
    0 < (Node.object span members).datum.depth := by
  rw [Node.datum, Datum.depth]
  exact Nat.succ_pos _

theorem Node.depth_array_le {span : Span} {elements : List Node} {bound : Nat} :
    (Node.array span elements).datum.depth ≤ bound + 1 ↔
      ∀ element ∈ elements, element.datum.depth ≤ bound := by
  rw [Node.datum, Node.data_eq_map, Datum.depth_array_le, List.forall_mem_map]

theorem Node.depth_object_le {span : Span} {members : List (Member Node)} {bound : Nat} :
    (Node.object span members).datum.depth ≤ bound + 1 ↔
      ∀ member ∈ members, member.value.datum.depth ≤ bound := by
  rw [Node.datum, Member.data_eq_map, Datum.depth_object_le, List.forall_mem_map]
  exact Iff.rfl

def IsSpace (char : Char) : Prop := char = ' ' ∨ char = '\t' ∨ char = '\n' ∨ char = '\r'

instance (char : Char) : Decidable (IsSpace char) := inferInstanceAs (Decidable (_ ∨ _))

def Blanks (text : Text) : Prop := ∀ char ∈ text, IsSpace char

instance (text : Text) : Decidable (Blanks text) := List.decidableBAll IsSpace text

theorem blanks_nil : Blanks [] := by simp [Blanks]

theorem Blanks.append {first second : Text} (one : Blanks first) (other : Blanks second) :
    Blanks (first ++ second) := by
  intro char member
  rcases List.mem_append.mp member with inner | outer
  · exact one char inner
  · exact other char outer

def IsDigit (char : Char) : Prop := '0' ≤ char ∧ char ≤ '9'

instance (char : Char) : Decidable (IsDigit char) := inferInstanceAs (Decidable (_ ∧ _))

structure Digits (text : Text) : Prop where
  some : text ≠ []
  all : ∀ char ∈ text, IsDigit char

inductive Whole : Text → Prop
  | zero : Whole ['0']
  | other {first : Char} {rest : Text} :
      IsDigit first → first ≠ '0' → (∀ char ∈ rest, IsDigit char) → Whole (first :: rest)

inductive Fraction : Text → Prop
  | absent : Fraction []
  | present {digits : Text} : Digits digits → Fraction ('.' :: digits)

inductive Sign : Text → Prop
  | absent : Sign []
  | plus : Sign ['+']
  | minus : Sign ['-']

inductive Exponent : Text → Prop
  | absent : Exponent []
  | present {mark : Char} {sign digits : Text} :
      mark = 'e' ∨ mark = 'E' → Sign sign → Digits digits → Exponent (mark :: sign ++ digits)

inductive Unsigned : Text → Prop
  | mk {whole fraction exponent : Text} :
      Whole whole → Fraction fraction → Exponent exponent → Unsigned (whole ++ fraction ++ exponent)

inductive Numeral : Text → Prop
  | positive {text : Text} : Unsigned text → Numeral text
  | negative {text : Text} : Unsigned text → Numeral ('-' :: text)

def HexDigit (char : Char) (value : Nat) : Prop :=
  "0123456789abcdef".toList[value]? = some char ∨ "0123456789ABCDEF".toList[value]? = some char

inductive HexUnit : Text → Nat → Prop
  | mk {a b c d : Char} {first second third fourth : Nat} :
      HexDigit a first → HexDigit b second → HexDigit c third → HexDigit d fourth →
      HexUnit [a, b, c, d] (((first * 16 + second) * 16 + third) * 16 + fourth)

def shortEscapes : List (Char × Char) :=
  [('"', '"'), ('\\', '\\'), ('/', '/'), ('b', '\x08'), ('f', '\x0c'), ('n', '\n'),
    ('r', '\r'), ('t', '\t')]

/-- The ways to write one character of a string: as itself, by a short escape, by its code, or by
the two surrogates of its UTF-16 form. A code is that of a character, so a surrogate never stands
alone. -/
inductive Spelling : Text → Char → Prop
  | plain {char : Char} : char ≠ '"' → char ≠ '\\' → ' ' ≤ char → Spelling [char] char
  | short {letter char : Char} : (letter, char) ∈ shortEscapes → Spelling ['\\', letter] char
  | code {digits : Text} {char : Char} :
      HexUnit digits char.toNat → Spelling ('\\' :: 'u' :: digits) char
  | pair {highDigits lowDigits : Text} {high low : Nat} {char : Char} :
      HexUnit highDigits high → 0xD800 ≤ high → high < 0xDC00 →
      HexUnit lowDigits low → 0xDC00 ≤ low → low < 0xE000 →
      char.toNat = 0x10000 + (high - 0xD800) * 0x400 + (low - 0xDC00) →
      Spelling ('\\' :: 'u' :: highDigits ++ '\\' :: 'u' :: lowDigits) char

inductive Spelled : Text → Text → Prop
  | nil : Spelled [] []
  | cons {written rest value : Text} {char : Char} :
      Spelling written char → Spelled rest value → Spelled (written ++ rest) (char :: value)

inductive Separated {α : Type} (item : Text → α → Prop) : Text → List α → Prop
  | last {before written after : Text} {value : α} :
      Blanks before → item written value → Blanks after →
      Separated item (before ++ (written ++ after)) [value]
  | more {before written after others : Text} {value : α} {values : List α} :
      Blanks before → item written value → Blanks after → Separated item others values →
      Separated item (before ++ (written ++ (after ++ ',' :: others))) (value :: values)

inductive Property (denotes : Text → Datum → Prop) : Text → Text × Datum → Prop
  | mk {spelled before after written name : Text} {datum : Datum} :
      Spelled spelled name → Blanks before → Blanks after → denotes written datum →
      Property denotes ('"' :: spelled ++ '"' :: (before ++ ':' :: (after ++ written)))
        (name, datum)

inductive Denotes : Text → Datum → Prop
  | null : Denotes "null".toList .null
  | true : Denotes "true".toList (.boolean true)
  | false : Denotes "false".toList (.boolean false)
  | number {numeral : Text} : Numeral numeral → Denotes numeral (.number numeral)
  | string {spelled value : Text} : Spelled spelled value →
      Denotes ('"' :: spelled ++ ['"']) (.string value)
  | emptyArray {inner : Text} : Blanks inner → Denotes ('[' :: inner ++ [']']) (.array [])
  | array {inner : Text} {elements : List Datum} :
      Separated Denotes inner elements → Denotes ('[' :: inner ++ [']']) (.array elements)
  | emptyObject {inner : Text} : Blanks inner → Denotes ('\x7b' :: inner ++ ['\x7d']) (.object [])
  | object {inner : Text} {members : List (Text × Datum)} :
      Separated (Property Denotes) inner members →
      Denotes ('\x7b' :: inner ++ ['\x7d']) (.object members)

inductive Document : Text → Datum → Prop
  | mk {before written after : Text} {datum : Datum} :
      Blanks before → Denotes written datum → Blanks after →
      Document (before ++ (written ++ after)) datum

end QueryWorkbench.Json
