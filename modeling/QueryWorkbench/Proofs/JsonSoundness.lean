import QueryWorkbench.Proofs.JsonLexing
import QueryWorkbench.Proofs.JsonReading
import QueryWorkbench.Proofs.JsonPlaces

/-! The parser reads nothing but the grammar. A reader over tokens is sound when what it reads
stands in the text. Soundness passes from a reader of items to one of lists, properties and values,
and so, by the depth, to the reader of values that nest. -/

namespace QueryWorkbench.Json

open Text

/-- What the reader makes of the tokens of a text stands in the text, behind white space. -/
def SoundReader {α : Type} (place : Text → Nat → α → Prop)
    (read : List Token → α → List Token → Prop) : Prop :=
  ∀ offset text value left, read (tokensFrom offset text) value left →
    ∃ before written after, text = before ++ (written ++ after) ∧ Blanks before ∧
      place written (offset + byteLength before) value ∧
      left = tokensFrom (offset + byteLength before + byteLength written) after

section Sound

variable {α : Type} {place : Text → Nat → α → Prop} {read : List Token → α → List Token → Prop}
  {close : TokenKind} {closing : Text} {offset : Nat} {text : Text} {values : List α}
  {final : Token} {left : List Token}

structure StandsBehind (inner : Text) (kind : TokenKind) (mark : Text) (offset : Nat) (text : Text)
    (token : Token) (left : List Token) : Prop where
  token : token = ⟨kind, offset + byteLength inner, mark⟩
  split : ∃ after, text = inner ++ (mark ++ after) ∧
    left = tokensFrom (offset + byteLength inner + byteLength mark) after

structure Marks (kind : TokenKind) (mark : Text) : Prop where
  shape : Shape kind mark
  only : ∀ text, Shape kind text → text = mark

structure Brackets (opening closing : TokenKind) (opens closes : Text) : Prop where
  opener : Marks opening opens
  closer : Marks closing closes
  notNumber : opening ≠ .number ∧ closing ≠ .number
  notComma : closing ≠ .comma
  delimits : ∀ rest, Delimited (closes ++ rest)

theorem Shape.marks {kind : TokenKind} {mark : Text} (shape : Shape kind mark)
    (fixed : kind ≠ .string ∧ kind ≠ .number) : Marks kind mark := by
  refine ⟨shape, ?_⟩
  intro text other
  cases shape with
  | string quotable => exact absurd rfl fixed.1
  | number numeral => exact absurd rfl fixed.2
  | _ =>
      cases other
      rfl

theorem squareBrackets : Brackets .bracketOpen .bracketClose ['['] [']'] where
  opener := Shape.bracketOpen.marks (by decide)
  closer := Shape.bracketClose.marks (by decide)
  notNumber := by decide
  notComma := by decide
  delimits rest := delimited_cons rest (by decide)

theorem curlyBrackets : Brackets .braceOpen .braceClose ['\x7b'] ['\x7d'] where
  opener := Shape.braceOpen.marks (by decide)
  closer := Shape.braceClose.marks (by decide)
  notNumber := by decide
  notComma := by decide
  delimits rest := delimited_cons rest (by decide)

theorem standsBehind_of_tokens (marks : Marks close closing)
    (found : tokensFrom offset text = final :: left) (closes : final.kind = close) :
    ∃ blanks, Blanks blanks ∧ StandsBehind blanks close closing offset text final left := by
  obtain ⟨kind, place, written⟩ := final
  obtain rfl : kind = close := closes
  obtain ⟨blanks, after, rfl, all, shape, start, rfl⟩ := tokensFrom_cons found marks.shape.kind_ne.1
  obtain rfl : place = offset + byteLength blanks := start
  obtain rfl : written = closing := marks.only written shape
  exact ⟨blanks, all, rfl, after, rfl, rfl⟩

theorem StandsBehind.append {before inner : Text}
    (stands : StandsBehind inner close closing (offset + byteLength before) text final left) :
    StandsBehind (before ++ inner) close closing offset (before ++ text) final left := by
  obtain ⟨token, after, rfl, rest⟩ := stands
  refine ⟨?_, after, by simp, ?_⟩
  · rw [token, byteLength_append, Nat.add_assoc]
  · rw [rest, byteLength_append, Nat.add_assoc offset]

theorem Listed.spread (sound : SoundReader place read) (marks : Marks close closing)
    (listed : Listed close read (tokensFrom offset text) values final left) :
    ∃ inner, Spread place inner offset values ∧
      StandsBehind inner close closing offset text final left := by
  -- The tokens left by one item are those of the text behind it, so the text moves on with the
  -- list.
  generalize tokensEq : tokensFrom offset text = tokens at listed
  induction listed generalizing offset text with
  | last reads closes =>
      subst tokensEq
      obtain ⟨before, written, after, rfl, blanks, placed, following⟩ := sound _ _ _ _ reads
      obtain ⟨behind, all, stands⟩ := standsBehind_of_tokens marks following.symm closes
      rw [Nat.add_assoc, ← byteLength_append] at stands
      refine ⟨before ++ (written ++ behind), .last blanks placed all, ?_⟩
      rw [← List.append_assoc, ← List.append_assoc]
      exact stands.append
  | more reads comma _ ih =>
      subst tokensEq
      obtain ⟨before, written, after, rfl, blanks, placed, following⟩ := sound _ _ _ _ reads
      obtain ⟨behind, all, _, rest, rfl, restEq⟩ :=
        standsBehind_of_tokens (Shape.comma.marks (by decide)) following.symm comma
      have place :
          offset + byteLength before + byteLength written + byteLength behind + byteLength [','] =
          offset + byteLength (before ++ (written ++ (behind ++ [',']))) := by
        simp only [byteLength_append, Nat.add_assoc]
      rw [place] at restEq
      obtain ⟨inner, spread, stands⟩ := ih restEq.symm
      refine ⟨before ++ (written ++ (behind ++ ',' :: inner)), .more blanks placed all spread, ?_⟩
      simpa using stands.append

def Filled (place : Text → Nat → α → Prop) (inner : Text) (offset : Nat) (values : List α) : Prop :=
  (values = [] ∧ Blanks inner) ∨ Spread place inner offset values

theorem contents_sound {limit : Nat} {mark : Char} {item : Parser α}
    (sound : SoundReader place (Reads item)) (marks : Marks close closing)
    (notComma : close ≠ .comma)
    (reads : Reads (Parser.contents limit close mark item) (tokensFrom offset text)
      (values, final) left) :
    ∃ inner, Filled place inner offset values ∧
      StandsBehind inner close closing offset text final left := by
  rcases (Parser.reads_contents notComma).mp reads with ⟨tokensEq, closes, empty⟩ | ⟨_, listed⟩
  · obtain ⟨blanks, all, stands⟩ := standsBehind_of_tokens marks tokensEq closes
    exact ⟨blanks, .inl ⟨empty, all⟩, stands⟩
  · obtain ⟨inner, spread, stands⟩ := listed.spread sound marks
    exact ⟨inner, .inr spread, stands⟩

end Sound

theorem Shape.numeral {text : Text} (shape : Shape .number text) : Numeral text := by
  generalize kindEq : TokenKind.number = kind at shape
  cases shape with
  | number numeral => exact numeral
  | _ => cases kindEq

theorem spelled_of_decode {text value : Text} (shape : Shape .string text)
    (decoded : Quoted.decode? text = some value) :
    ∃ spelled, text = '"' :: spelled ++ ['"'] ∧ Spelled spelled value := by
  generalize kindEq : TokenKind.string = kind at shape
  cases shape with
  | @string body quotable =>
      rw [decode?_quoted] at decoded
      exact ⟨body, rfl, quotable.decodePart?_iff.mp decoded⟩
  | _ => cases kindEq

theorem member_sound {limit : Nat} {value : Parser Node} {place : Text → Nat → Node → Prop}
    (sound : SoundReader place (Reads value)) :
    SoundReader (PropertyAt place) (Reads (Parser.member limit value)) := by
  intro offset text member left reads
  obtain ⟨name, colon, rest, tokensEq, isName, isColon, spanEq, decoded, reads⟩ :=
    Parser.reads_member.mp reads
  obtain ⟨before, after, rfl, blanks, shape, start, following⟩ :=
    tokensFrom_cons tokensEq (by simp [isName])
  obtain ⟨behind, all, _, last, rfl, rfl⟩ :=
    standsBehind_of_tokens (Shape.colon.marks (by decide)) following.symm isColon
  obtain ⟨space, written, left, rfl, spaces, placed, rfl⟩ := sound _ _ _ _ reads
  rw [isName] at shape
  obtain ⟨spelled, textEq, spelling⟩ := spelled_of_decode shape decoded
  obtain ⟨keySpan, key, node⟩ := member
  obtain rfl : keySpan = spanAt (offset + byteLength before) ('"' :: spelled ++ ['"']) := by
    rw [show keySpan = name.span from spanEq, Token.span, Token.stop, start, textEq, spanAt]
  rw [textEq] at placed ⊢
  refine ⟨before, '"' :: spelled ++ '"' :: (behind ++ ':' :: (space ++ written)), left, by simp,
    blanks, ?_, ?_⟩
  · apply PropertyAt.mk spelling all spaces
    simpa [Nat.add_assoc] using placed
  · simp [Nat.add_assoc]

def WrittenWithin (depth : Nat) (text : Text) (offset : Nat) (node : Node) : Prop :=
  Written text offset node ∧ node.datum.depth ≤ depth

theorem written_array {depth offset : Nat} {inner : Text} {elements : List Node}
    (filled : Filled (WrittenWithin depth) inner (offset + byteLength ['[']) elements) :
    WrittenWithin (depth + 1) ('[' :: inner ++ [']']) offset
      (.array (spanAt offset ('[' :: inner ++ [']'])) elements) := by
  rcases filled with ⟨rfl, blanks⟩ | spread
  · exact ⟨.emptyArray blanks, Node.depth_array_le.mpr (by simp)⟩
  · refine ⟨.array (spread.imp fun _ _ _ _ written => written.1), Node.depth_array_le.mpr ?_⟩
    exact spread.all fun _ _ _ written => written.2

theorem written_object {depth offset : Nat} {inner : Text} {members : List (Member Node)}
    (filled : Filled (PropertyAt (WrittenWithin depth)) inner
      (offset + byteLength ['\x7b']) members) :
    WrittenWithin (depth + 1) ('\x7b' :: inner ++ ['\x7d']) offset
      (.object (spanAt offset ('\x7b' :: inner ++ ['\x7d'])) members) := by
  rcases filled with ⟨rfl, blanks⟩ | spread
  · exact ⟨.emptyObject blanks, Node.depth_object_le.mpr (by simp)⟩
  · refine ⟨.object (spread.imp ?_), Node.depth_object_le.mpr (spread.all ?_)⟩
    · rintro _ _ _ _ ⟨spelled, before, after, written⟩
      exact .mk spelled before after written.1
    · rintro _ _ _ ⟨_, _, _, written⟩
      exact written.2

theorem token_sound {α : Type} {place : Text → Nat → α → Prop} {offset : Nat} {text : Text}
    {token : Token} {left : List Token} {value : α} (found : tokensFrom offset text = token :: left)
    (known : token.kind ≠ .garbage)
    (placed : Shape token.kind token.text → place token.text token.start value) :
    ∃ before written after, text = before ++ (written ++ after) ∧ Blanks before ∧
      place written (offset + byteLength before) value ∧
      left = tokensFrom (offset + byteLength before + byteLength written) after := by
  obtain ⟨before, after, split, blanks, shape, start, rest⟩ := tokensFrom_cons found known
  exact ⟨before, token.text, after, split, blanks, start ▸ placed shape, rest⟩

theorem container_sound {α : Type} {place : Text → Nat → α → Prop} {item : Parser α}
    {limit offset : Nat} {text opens closes : Text} {opening closing : TokenKind} {mark : Char}
    {first final : Token} {rest left : List Token} {values : List α}
    (brackets : Brackets opening closing opens closes) (sound : SoundReader place (Reads item))
    (found : tokensFrom offset text = first :: rest) (kind : first.kind = opening)
    (reads : Reads (Parser.contents limit closing mark item) rest (values, final) left) :
    ∃ before inner after, text = before ++ (opens ++ inner ++ closes ++ after) ∧ Blanks before ∧
      Filled place inner (offset + byteLength before + byteLength opens) values ∧
      (⟨first.start, final.stop⟩ : Span) = spanAt (offset + byteLength before)
        (opens ++ inner ++ closes) ∧
      left = tokensFrom (offset + byteLength before + byteLength (opens ++ inner ++ closes))
        after := by
  obtain ⟨before, blanks, firstEq, behind, rfl, rfl⟩ :=
    standsBehind_of_tokens brackets.opener found kind
  obtain ⟨inner, filled, finalEq, after, rfl, rfl⟩ :=
    contents_sound sound brackets.closer brackets.notComma reads
  refine ⟨before, inner, after, by simp, blanks, filled, ?_, ?_⟩
  · simp [firstEq, finalEq, spanAt, Token.stop, Nat.add_assoc]
  · simp [Nat.add_assoc]

theorem valueOver_sound {limit depth : Nat} {item : Option (Parser Node)}
    (each : ∀ value, item = some value →
      ∃ less, depth = less + 1 ∧ SoundReader (WrittenWithin less) (Reads value)) :
    SoundReader (WrittenWithin depth) (Reads (Parser.valueOver limit item)) := by
  intro offset text node left reads
  generalize tokensEq : tokensFrom offset text = tokens at reads
  cases Parser.reads_valueOver.mp reads with
  | null kind =>
      obtain ⟨before, blanks, rfl, after, rfl, rfl⟩ :=
        standsBehind_of_tokens (Shape.nullLiteral.marks (by decide)) tokensEq kind
      exact ⟨before, _, after, rfl, blanks, ⟨.null, Nat.zero_le _⟩, rfl⟩
  | true kind =>
      obtain ⟨before, blanks, rfl, after, rfl, rfl⟩ :=
        standsBehind_of_tokens (Shape.trueLiteral.marks (by decide)) tokensEq kind
      exact ⟨before, _, after, rfl, blanks, ⟨.true, Nat.zero_le _⟩, rfl⟩
  | false kind =>
      obtain ⟨before, blanks, rfl, after, rfl, rfl⟩ :=
        standsBehind_of_tokens (Shape.falseLiteral.marks (by decide)) tokensEq kind
      exact ⟨before, _, after, rfl, blanks, ⟨.false, Nat.zero_le _⟩, rfl⟩
  | number kind =>
      refine token_sound tokensEq (by simp [kind]) fun shape => ⟨?_, Nat.zero_le _⟩
      rw [kind] at shape
      exact .number shape.numeral
  | string kind decoded =>
      refine token_sound tokensEq (by simp [kind]) fun shape => ⟨?_, Nat.zero_le _⟩
      rw [kind] at shape
      obtain ⟨spelled, textEq, spelling⟩ := spelled_of_decode shape decoded
      rw [Token.span, Token.stop, textEq]
      exact .string spelling
  | @array opening final rest left value elements kind allowed reads =>
      obtain ⟨less, rfl, sound⟩ := each value allowed
      obtain ⟨before, inner, after, rfl, blanks, filled, spanEq, rfl⟩ :=
        container_sound squareBrackets sound tokensEq kind reads
      rw [spanEq]
      exact ⟨before, '[' :: inner ++ [']'], after, rfl, blanks, written_array filled, rfl⟩
  | @object opening final rest left value members kind allowed reads =>
      obtain ⟨less, rfl, sound⟩ := each value allowed
      obtain ⟨before, inner, after, rfl, blanks, filled, spanEq, rfl⟩ :=
        container_sound curlyBrackets (member_sound sound) tokensEq kind reads
      rw [spanEq]
      exact ⟨before, '\x7b' :: inner ++ ['\x7d'], after, rfl, blanks, written_object filled, rfl⟩

theorem value_sound (limit depth : Nat) :
    SoundReader (WrittenWithin depth) (Reads (Parser.value limit depth)) := by
  induction depth with
  | zero => exact valueOver_sound (by simp)
  | succ depth ih =>
      apply valueOver_sound
      rintro value ⟨⟩
      exact ⟨depth, rfl, ih⟩

end QueryWorkbench.Json
