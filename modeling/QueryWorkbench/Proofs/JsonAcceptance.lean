import QueryWorkbench.Proofs.JsonSoundness
import QueryWorkbench.Proofs.JsonTiling

/-! The parser accepts the grammar. A reader over tokens is complete when it reads what stands in
the text. Completeness passes on as soundness does, and both together say which documents are
accepted. -/

namespace QueryWorkbench.Json

open Text

/-- The reader reads what stands in a text behind white space and before an end of values. -/
def CompleteReader {α : Type} (place : Text → Nat → α → Prop)
    (read : List Token → α → List Token → Prop) : Prop :=
  ∀ offset before written after value,
    Blanks before → place written (offset + byteLength before) value →
    Delimited after → read (tokensFrom offset (before ++ (written ++ after))) value
      (tokensFrom (offset + byteLength before + byteLength written) after)

theorem tokensFrom_mark {kind : TokenKind} {mark blanks : Text} (shape : Shape kind mark)
    (notNumber : kind ≠ .number) (all : Blanks blanks) (rest : Text) (offset : Nat) :
    tokensFrom offset (blanks ++ (mark ++ rest)) = ⟨kind, offset + byteLength blanks, mark⟩ ::
      tokensFrom (offset + byteLength blanks + byteLength mark) rest := by
  rw [tokensFrom_blanks _ all, shape.tokensFrom (fun isNumber => absurd isNumber notNumber)]

section Complete

variable {α : Type} {place : Text → Nat → α → Prop} {read : List Token → α → List Token → Prop}
  {close : TokenKind} {closing inner : Text} {offset : Nat} {values : List α}

theorem Spread.listed (complete : CompleteReader place read) (shape : Shape close closing)
    (notNumber : close ≠ .number) (delimits : ∀ rest, Delimited (closing ++ rest))
    (spread : Spread place inner offset values) (rest : Text) :
    Listed close read (tokensFrom offset (inner ++ (closing ++ rest))) values
      ⟨close, offset + byteLength inner, closing⟩
      (tokensFrom (offset + byteLength inner + byteLength closing) rest) := by
  induction spread with
  | @last before written after offset value blanks placed behind =>
      have reads := complete offset before written (after ++ (closing ++ rest)) value blanks placed
        ((delimits rest).behind behind)
      rw [tokensFrom_mark shape notNumber behind] at reads
      have listed : Listed close read _ _ _ _ := .last reads rfl
      simpa only [List.append_assoc, byteLength_append, Nat.add_assoc] using listed
  | @more before written after others offset value values blanks placed behind _ ih =>
      have reads :=
        complete offset before written (after ++ ([','] ++ (others ++ (closing ++ rest)))) value
        blanks placed ((delimited_cons _ (by decide)).behind behind)
      rw [tokensFrom_mark .comma (by decide) behind] at reads
      have later :
          offset + byteLength before + byteLength written + byteLength after + byteLength [','] =
          offset + byteLength (before ++ (written ++ (after ++ [',']))) := by
        simp only [byteLength_append, Nat.add_assoc]
      rw [later] at reads
      have listed : Listed close read _ _ _ _ := .more reads rfl ih
      have same : before ++ (written ++ (after ++ ',' :: others)) =
          before ++ (written ++ (after ++ [','])) ++ others := by simp
      rw [same, byteLength_append, ← Nat.add_assoc]
      simpa only [List.append_assoc] using listed

def Opens (close : TokenKind) (read : List Token → α → List Token → Prop) : Prop :=
  ∀ tokens value left first, read tokens value left → tokens.head? = some first → first.kind ≠ close

theorem Listed.starts {tokens left : List Token} {final first : Token} (opens : Opens close read)
    (listed : Listed close read tokens values final left) (found : tokens.head? = some first) :
    first.kind ≠ close := by
  cases listed with
  | last reads _ => exact opens _ _ _ first reads found
  | more reads _ _ => exact opens _ _ _ first reads found

theorem contents_complete {limit : Nat} {mark : Char} {item : Parser α}
    (complete : CompleteReader place (Reads item)) (opens : Opens close (Reads item))
    (shape : Shape close closing) (notNumber : close ≠ .number) (notComma : close ≠ .comma)
    (delimits : ∀ rest, Delimited (closing ++ rest)) (filled : Filled place inner offset values)
    (rest : Text) :
    Reads (Parser.contents limit close mark item) (tokensFrom offset (inner ++ (closing ++ rest)))
      (values, ⟨close, offset + byteLength inner, closing⟩)
      (tokensFrom (offset + byteLength inner + byteLength closing) rest) := by
  rw [Parser.reads_contents notComma]
  rcases filled with ⟨rfl, blanks⟩ | spread
  · exact .inl ⟨tokensFrom_mark shape notNumber blanks rest offset, rfl, rfl⟩
  · have listed := spread.listed complete shape notNumber delimits rest
    exact .inr ⟨fun first found => listed.starts opens found, listed⟩

end Complete

theorem member_complete {limit : Nat} {value : Parser Node} {place : Text → Nat → Node → Prop}
    (complete : CompleteReader place (Reads value)) :
    CompleteReader (PropertyAt place) (Reads (Parser.member limit value)) := by
  intro offset before text rest member blanks placed delimited
  obtain @⟨spelled, space, after, written, name, _, node, spelling, spaces, behind, placed⟩ :=
    placed
  have split : '"' :: spelled ++ '"' :: (space ++ ':' :: (after ++ written)) ++ rest =
      ('"' :: spelled ++ ['"']) ++ (space ++ ([':'] ++ (after ++ (written ++ rest)))) := by simp
  rw [split, tokensFrom_mark (.string spelling.quotable) (by decide) blanks,
    tokensFrom_mark .colon (by decide) spaces]
  refine Parser.reads_member.mpr ⟨_, _, _, rfl, rfl, rfl, rfl, ?_, ?_⟩
  · rw [decode?_quoted]
    exact spelling.quotable.decodePart?_iff.mpr spelling
  · have start :
        offset + byteLength before + byteLength ('"' :: spelled ++ '"' :: (space ++ ':' :: after)) =
        offset + byteLength before + byteLength ('"' :: spelled ++ ['"']) + byteLength space +
          byteLength [':'] + byteLength after := by
      simp [Nat.add_assoc]
    have stop : offset + byteLength before +
          byteLength ('"' :: spelled ++ '"' :: (space ++ ':' :: (after ++ written))) =
        offset + byteLength before + byteLength ('"' :: spelled ++ ['"']) + byteLength space +
          byteLength [':'] + byteLength after + byteLength written := by
      simp [Nat.add_assoc]
    rw [start] at placed
    rw [stop]
    exact complete _ after written rest node behind placed delimited

theorem member_opens {limit : Nat} {value : Parser Node} :
    Opens .braceClose (Reads (Parser.member limit value)) := by
  intro tokens member left first reads found
  obtain ⟨name, colon, rest, rfl, isName, _⟩ := Parser.reads_member.mp reads
  obtain rfl : name = first := by simpa using found
  simp [isName]

theorem valueOver_opens {limit : Nat} {item : Option (Parser Node)} :
    Opens .bracketClose (Reads (Parser.valueOver limit item)) := by
  intro tokens node left first reads found
  obtain ⟨starting, rest, rfl, notBracket, _⟩ := (Parser.reads_valueOver.mp reads).starts
  obtain rfl : starting = first := by simpa using found
  exact notBracket

theorem value_opens {limit : Nat} (depth : Nat) :
    Opens .bracketClose (Reads (Parser.value limit depth)) := by
  cases depth with
  | zero => exact valueOver_opens
  | succ depth => exact valueOver_opens

theorem filled_of_array {depth offset : Nat} {inner : Text} {elements : List Node} {span : Span}
    (spread : Spread Written inner offset elements)
    (bound : (Node.array span elements).datum.depth ≤ depth + 1) :
    Filled (WrittenWithin depth) inner offset elements := by
  refine .inr (spread.imp ?_)
  intro _ _ element member written
  exact ⟨written, Node.depth_array_le.mp bound element member⟩

theorem filled_of_object {depth offset : Nat} {inner : Text} {members : List (Member Node)}
    {span : Span} (spread : Spread (PropertyAt Written) inner offset members)
    (bound : (Node.object span members).datum.depth ≤ depth + 1) :
    Filled (PropertyAt (WrittenWithin depth)) inner offset members := by
  refine .inr (spread.imp ?_)
  rintro _ _ _ member ⟨spelled, before, after, written⟩
  exact .mk spelled before after ⟨written, Node.depth_object_le.mp bound _ member⟩

theorem container_complete {α : Type} {place : Text → Nat → α → Prop} {item : Parser α}
    {offset : Nat} {before opens inner closes : Text} {opening closing : TokenKind}
    {values : List α} (limit : Nat) (mark : Char) (brackets : Brackets opening closing opens closes)
    (complete : CompleteReader place (Reads item)) (others : Opens closing (Reads item))
    (blanks : Blanks before)
    (filled : Filled place inner (offset + byteLength before + byteLength opens) values)
    (rest : Text) :
    ∃ first tokens final,
      tokensFrom offset (before ++ (opens ++ inner ++ closes ++ rest)) = first :: tokens ∧
      first.kind = opening ∧
      (⟨first.start, final.stop⟩ : Span) = spanAt (offset + byteLength before)
        (opens ++ inner ++ closes) ∧
      Reads (Parser.contents limit closing mark item) tokens (values, final)
        (tokensFrom (offset + byteLength before + byteLength (opens ++ inner ++ closes)) rest) := by
  have opened := tokensFrom_mark brackets.opener.shape brackets.notNumber.1 blanks
    (inner ++ (closes ++ rest)) offset
  have reads : Reads (Parser.contents limit closing mark item) _ _ _ :=
    contents_complete complete others brackets.closer.shape brackets.notNumber.2 brackets.notComma
      brackets.delimits filled rest
  rw [List.append_assoc, List.append_assoc]
  refine ⟨_, _, ⟨closing, offset + byteLength before + byteLength opens + byteLength inner, closes⟩,
    opened, rfl, ?_, ?_⟩
  · simp [spanAt, Token.stop, Nat.add_assoc]
  · simpa [Nat.add_assoc] using reads

theorem array_complete {limit depth offset : Nat} {value : Parser Node} {before inner : Text}
    {elements : List Node} (complete : CompleteReader (WrittenWithin depth) (Reads value))
    (others : Opens .bracketClose (Reads value)) (blanks : Blanks before)
    (filled : Filled (WrittenWithin depth) inner
      (offset + byteLength before + byteLength ['[']) elements)
    (rest : Text) :
    Parser.Valued limit (some value) (tokensFrom offset (before ++ ('[' :: inner ++ [']'] ++ rest)))
      (.array (spanAt (offset + byteLength before) ('[' :: inner ++ [']'])) elements)
      (tokensFrom (offset + byteLength before + byteLength ('[' :: inner ++ [']'])) rest) := by
  obtain ⟨first, tokens, final, tokensEq, kind, spanEq, reads⟩ :=
    container_complete limit ']' squareBrackets complete others blanks filled rest
  rw [List.singleton_append] at tokensEq spanEq reads
  rw [tokensEq, ← spanEq]
  exact .array kind rfl reads

theorem object_complete {limit depth offset : Nat} {value : Parser Node} {before inner : Text}
    {members : List (Member Node)} (complete : CompleteReader (WrittenWithin depth) (Reads value))
    (blanks : Blanks before)
    (filled : Filled (PropertyAt (WrittenWithin depth)) inner
      (offset + byteLength before + byteLength ['\x7b']) members) (rest : Text) :
    Parser.Valued limit (some value)
      (tokensFrom offset (before ++ ('\x7b' :: inner ++ ['\x7d'] ++ rest)))
      (.object (spanAt (offset + byteLength before) ('\x7b' :: inner ++ ['\x7d'])) members)
      (tokensFrom (offset + byteLength before + byteLength ('\x7b' :: inner ++ ['\x7d']))
        rest) := by
  obtain ⟨first, tokens, final, tokensEq, kind, spanEq, reads⟩ :=
    container_complete limit '\x7d' curlyBrackets (member_complete complete) member_opens
      blanks filled rest
  rw [List.singleton_append] at tokensEq spanEq reads
  rw [tokensEq, ← spanEq]
  exact .object kind rfl reads

theorem valueOver_complete {limit depth : Nat} {item : Option (Parser Node)}
    (each : ∀ less, depth = less + 1 → ∃ value, item = some value ∧
      CompleteReader (WrittenWithin less) (Reads value) ∧ Opens .bracketClose (Reads value)) :
    CompleteReader (WrittenWithin depth) (Reads (Parser.valueOver limit item)) := by
  rintro offset before text rest node blanks ⟨written, bound⟩ delimited
  rw [Parser.reads_valueOver]
  cases written with
  | null =>
      rw [tokensFrom_mark .nullLiteral (by decide) blanks]
      exact .null rfl
  | true =>
      rw [tokensFrom_mark .trueLiteral (by decide) blanks]
      exact .true rfl
  | false =>
      rw [tokensFrom_mark .falseLiteral (by decide) blanks]
      exact .false rfl
  | number numeral =>
      rw [tokensFrom_blanks _ blanks, (Shape.number numeral).tokensFrom fun _ =>
        delimited.endsNumeral]
      exact .number rfl
  | string spelling =>
      rw [tokensFrom_mark (.string spelling.quotable) (by decide) blanks]
      refine .string rfl ?_
      rw [decode?_quoted]
      exact spelling.quotable.decodePart?_iff.mpr spelling
  | emptyArray inner =>
      obtain ⟨less, rfl⟩ :=
        Nat.exists_eq_add_one.mpr (Nat.lt_of_lt_of_le Node.depth_array_pos bound)
      obtain ⟨value, rfl, complete, opens⟩ := each less rfl
      exact array_complete complete opens blanks (.inl ⟨rfl, inner⟩) rest
  | array spread =>
      obtain ⟨less, rfl⟩ :=
        Nat.exists_eq_add_one.mpr (Nat.lt_of_lt_of_le Node.depth_array_pos bound)
      obtain ⟨value, rfl, complete, opens⟩ := each less rfl
      exact array_complete complete opens blanks (filled_of_array spread bound) rest
  | emptyObject inner =>
      obtain ⟨less, rfl⟩ :=
        Nat.exists_eq_add_one.mpr (Nat.lt_of_lt_of_le Node.depth_object_pos bound)
      obtain ⟨value, rfl, complete, _⟩ := each less rfl
      exact object_complete complete blanks (.inl ⟨rfl, inner⟩) rest
  | object spread =>
      obtain ⟨less, rfl⟩ :=
        Nat.exists_eq_add_one.mpr (Nat.lt_of_lt_of_le Node.depth_object_pos bound)
      obtain ⟨value, rfl, complete, _⟩ := each less rfl
      exact object_complete complete blanks (filled_of_object spread bound) rest

theorem value_complete (limit depth : Nat) :
    CompleteReader (WrittenWithin depth) (Reads (Parser.value limit depth)) := by
  induction depth with
  | zero => exact valueOver_complete (by simp)
  | succ depth ih =>
      apply valueOver_complete
      rintro less ⟨⟩
      exact ⟨_, rfl, ih, value_opens depth⟩

theorem reads_document {depth : Nat} {before written after : Text} {node : Node} (limit : Nat)
    (blanks : Blanks before) (placed : Written written (byteLength before) node)
    (behind : Blanks after) (bound : node.datum.depth ≤ depth) :
    Reads (Parser.value limit depth) (tokensFrom 0 (before ++ (written ++ after))) node [] := by
  have delimited : Delimited after := by
    have ended := delimited_nil.behind behind
    rwa [List.append_nil] at ended
  rw [← Nat.zero_add (byteLength before)] at placed
  have reads :=
    value_complete limit depth 0 before written after node blanks ⟨placed, bound⟩ delimited
  have none := tokensFrom_blanks [] behind (0 + byteLength before + byteLength written)
  rw [List.append_nil, tokensFrom_nil] at none
  rwa [none] at reads

theorem Written.unique_between {before written after front other back : Text} {first second : Node}
    (same : before ++ (written ++ after) = front ++ (other ++ back)) (blanks : Blanks before)
    (behind : Blanks after) (one : Written written (byteLength before) first) (clear : Blanks front)
    (trailing : Blanks back) (another : Written other (byteLength front) second) :
    first = second := by
  have bound := Nat.le_max_left first.datum.depth second.datum.depth
  have otherBound := Nat.le_max_right first.datum.depth second.datum.depth
  have document := reads_document 0 clear another trailing otherBound
  rw [← same] at document
  obtain ⟨_, reads⟩ := reads_document 0 blanks one behind bound
  obtain ⟨_, again⟩ := document
  rw [reads] at again
  simp only [Except.ok.injEq, Prod.mk.injEq] at again
  exact again.1

theorem Document.unique {source : Text} {first second : Datum} (one : Document source first)
    (other : Document source second) : first = second := by
  obtain @⟨before, written, after, _, blanks, denotes, behind⟩ := one
  obtain ⟨node, placed, rfl⟩ := denotes.written (byteLength before)
  generalize same : before ++ (written ++ after) = source at other
  obtain @⟨front, again, back, _, clear, denoted, trailing⟩ := other
  obtain ⟨another, stands, rfl⟩ := denoted.written (byteLength front)
  rw [placed.unique_between same blanks behind clear trailing stands]

theorem parse_eq_ok_iff_reads {source : Text} {node : Node} :
    parse source = .ok node ↔
      Reads (Parser.value (byteLength source) maxDepth) (tokens source) node [] := by
  constructor
  · intro parsed
    obtain ⟨⟨root, left, shorter⟩, reads, found⟩ := bind_eq_ok.mp parsed
    cases left with
    | nil =>
        obtain rfl : root = node := by simpa using found
        exact ⟨_, reads⟩
    | cons extra rest => cases found
  · rintro ⟨remains, reads⟩
    simp only [parse, reads, bind, Except.bind]

theorem parse_eq_ok {source : Text} {node : Node} (short : byteLength source < offsetLimit) :
    parse source = .ok node ↔ ∃ before written after, source = before ++ (written ++ after) ∧
      Blanks before ∧
      Written written (byteLength before) node ∧ Blanks after ∧ node.datum.depth ≤ maxDepth := by
  rw [parse_eq_ok_iff_reads, tokens_eq short]
  constructor
  · intro reads
    obtain ⟨before, written, after, rfl, blanks, ⟨placed, bound⟩, none⟩ :=
      value_sound _ maxDepth 0 source node [] reads
    rw [Nat.zero_add] at placed
    exact ⟨before, written, after, rfl, blanks, placed, blanks_of_tokensFrom none.symm, bound⟩
  · rintro ⟨before, written, after, rfl, blanks, placed, behind, bound⟩
    exact reads_document (byteLength (before ++ (written ++ after))) blanks placed behind bound

/-- Of the texts that are short enough for their offsets the parser accepts exactly the documents of
the grammar whose containers nest at most 256 deep, and the tree it gives, without its places, is
the one thing that the document says. -/
theorem parse_accepts_grammar {source : Text} (short : byteLength source < offsetLimit) :
    ((∃ node, parse source = .ok node) ↔ ∃ datum, Document source datum ∧ datum.depth ≤ 256) ∧
      ∀ node, parse source = .ok node → ∀ datum, Document source datum ↔ datum = node.datum := by
  have document {node : Node} (parsed : parse source = .ok node) :
      Document source node.datum ∧ node.datum.depth ≤ 256 := by
    obtain ⟨before, written, after, rfl, blanks, placed, behind, bound⟩ :=
      (parse_eq_ok short).mp parsed
    exact ⟨.mk blanks placed.denotes behind, bound⟩
  constructor
  · constructor
    · rintro ⟨node, parsed⟩
      exact ⟨node.datum, document parsed⟩
    · rintro ⟨_, @⟨before, written, after, _, blanks, denotes, behind⟩, bound⟩
      obtain ⟨node, placed, rfl⟩ := denotes.written (byteLength before)
      exact ⟨node, (parse_eq_ok short).mpr ⟨before, written, after, rfl, blanks, placed,
        behind, bound⟩⟩
  · intro node parsed datum
    constructor
    · intro other
      exact other.unique (document parsed).1
    · rintro rfl
      exact (document parsed).1

def escapedSource : Text := ['[', '1', ',', '"', '\\', 'u', '0', '0', 'E', '9', '"', ' ', ']']

theorem document_escapedSource :
    Document escapedSource (.array [.number ['1'], .string ['é']]) := by
  have none : Blanks [] := by simp [Blanks]
  have space : Blanks [' '] := by simp [Blanks, IsSpace]
  have one : Unsigned ['1'] :=
    @Unsigned.mk ['1'] [] [] (.other (by decide) (by decide) (by simp)) .absent .absent
  have unit : HexUnit ['0', '0', 'E', '9'] 'é'.toNat :=
    @HexUnit.mk '0' '0' 'E' '9' 0 0 14 9 (.inl rfl) (.inl rfl) (.inr rfl) (.inl rfl)
  have spelled : Spelled ['\\', 'u', '0', '0', 'E', '9'] ['é'] :=
    @Spelled.cons ['\\', 'u', '0', '0', 'E', '9'] [] [] 'é' (.code unit) .nil
  have last : Separated Denotes ['"', '\\', 'u', '0', '0', 'E', '9', '"', ' '] [.string ['é']] :=
    @Separated.last _ _ [] ['"', '\\', 'u', '0', '0', 'E', '9', '"']
      [' '] _ none (.string spelled) space
  have items := Separated.more none (Denotes.number (.positive one)) none last
  exact @Document.mk [] escapedSource [] _ none (.array items) none

theorem parse_accepts_grammar_escaped :
    byteLength escapedSource < offsetLimit ∧ ∃ node, parse escapedSource = .ok node ∧
      ∀ datum, Document escapedSource datum ↔ datum = .array [.number ['1'], .string ['é']] := by
  have short : byteLength escapedSource < offsetLimit := by decide
  obtain ⟨accepts, denoted⟩ := parse_accepts_grammar short
  obtain ⟨node, parsed⟩ := accepts.mpr ⟨_, document_escapedSource, by decide⟩
  have value := (denoted node parsed _).mp document_escapedSource
  refine ⟨short, node, parsed, ?_⟩
  rw [value]
  exact denoted node parsed

end QueryWorkbench.Json
