import QueryWorkbench.Proofs.JsonNumerals
import QueryWorkbench.Proofs.JsonStrings

/-! Tokens and the text they are cut from. A token that is no garbage has a text of its kind with
only white space before it, and a text of a kind that ends where it may becomes one token. -/

namespace QueryWorkbench.Json

open Text

inductive Shape : TokenKind → Text → Prop
  | braceOpen : Shape .braceOpen ['\x7b']
  | braceClose : Shape .braceClose ['\x7d']
  | bracketOpen : Shape .bracketOpen ['[']
  | bracketClose : Shape .bracketClose [']']
  | colon : Shape .colon [':']
  | comma : Shape .comma [',']
  | trueLiteral : Shape .trueLiteral "true".toList
  | falseLiteral : Shape .falseLiteral "false".toList
  | nullLiteral : Shape .nullLiteral "null".toList
  | string {body : Text} : Quotable body → Shape .string ('"' :: body ++ ['"'])
  | number {numeral : Text} : Numeral numeral → Shape .number numeral

theorem Shape.kind_ne {kind : TokenKind} {text : Text} (shape : Shape kind text) :
    kind ≠ .garbage ∧ kind ≠ .blank := by
  cases shape <;> exact ⟨by decide, by decide⟩

theorem isBlank_iff {char : Char} : isBlank char = true ↔ IsSpace char := by
  simp only [isBlank, IsSpace, Bool.or_eq_true, beq_iff_eq]
  grind

structure Cut (text : Text) (lexeme : Lexeme) (left : Text) : Prop where
  split : text = lexeme.text ++ left
  nonempty : lexeme.text ≠ []
  known : lexeme.kind = .garbage ∨ (lexeme.kind = .blank ∧ Blanks lexeme.text) ∨
    Shape lexeme.kind lexeme.text

theorem cut_garbage (char : Char) (rest : Text) : Cut (char :: rest) ⟨.garbage, [char]⟩ rest :=
  ⟨rfl, by simp, .inl rfl⟩

theorem cut_single {kind : TokenKind} {char : Char} (rest : Text) (shape : Shape kind [char]) :
    Cut (char :: rest) ⟨kind, [char]⟩ rest :=
  ⟨rfl, by simp, .inr (.inr shape)⟩

theorem cut_literal {kind : TokenKind} {char : Char} {tail : Text} (rest : Text)
    (shape : Shape kind (char :: tail)) :
    ∃ left, Cut (char :: rest) (literal kind char tail rest) left := by
  rw [literal]
  split
  · next found =>
      obtain ⟨left, rfl⟩ := List.isPrefixOf_iff_prefix.mp found
      exact ⟨left, rfl, by simp, .inr (.inr shape)⟩
  · exact ⟨rest, cut_garbage char rest⟩

theorem cut_quoted (rest : Text) : ∃ left, Cut ('"' :: rest) (quoted rest) left := by
  rcases quoted_sound rest with ⟨body, left, rfl, quotable, found⟩ | ⟨part, left, rfl, found⟩
  · rw [found]
    exact ⟨left, by simp, by simp, .inr (.inr (.string quotable))⟩
  · rw [found]
    exact ⟨left, by simp, by simp, .inl rfl⟩

theorem cut_numeral {char : Char} (rest : Text) (starts : char = '-' ∨ IsDigit char) :
    ∃ left, Cut (char :: rest) (numeral char rest) left := by
  rw [numeral]
  split
  · next negative =>
      subst negative
      obtain ⟨shape, left, split⟩ := unsignedPart_sound rest
      split
      · exact ⟨rest, cut_garbage '-' rest⟩
      · next some =>
          refine ⟨left, ?_, by simp, .inr (.inr (.number (.negative (shape.resolve_left some))))⟩
          simp [split]
  · next positive =>
      have digit := starts.resolve_left positive
      obtain ⟨shape, left, split⟩ := unsignedPart_sound (char :: rest)
      have some : unsignedPart (char :: rest) ≠ [] := unsignedPart_ne_nil rest digit
      exact ⟨left, split.symm, some, .inr (.inr (.number (.positive (shape.resolve_left some))))⟩

theorem cut_blank {char : Char} (rest : Text) (space : IsSpace char) :
    Cut (char :: rest) ⟨.blank, char :: rest.takeWhile isBlank⟩ (rest.dropWhile isBlank) := by
  refine ⟨by simp, by simp, .inr (.inl ⟨rfl, ?_⟩)⟩
  intro other member
  rcases List.mem_cons.mp member with rfl | later
  · exact space
  · exact isBlank_iff.mp (List.mem_takeWhile_imp later)

theorem cut_lexemeAt (char : Char) (rest : Text) :
    ∃ left, Cut (char :: rest) (lexemeAt char rest) left := by
  unfold lexemeAt
  split
  · exact ⟨rest, cut_single rest .braceOpen⟩
  · exact ⟨rest, cut_single rest .braceClose⟩
  · exact ⟨rest, cut_single rest .bracketOpen⟩
  · exact ⟨rest, cut_single rest .bracketClose⟩
  · exact ⟨rest, cut_single rest .colon⟩
  · exact ⟨rest, cut_single rest .comma⟩
  · exact cut_literal rest .trueLiteral
  · exact cut_literal rest .falseLiteral
  · exact cut_literal rest .nullLiteral
  · exact cut_quoted rest
  · split
    · next space => exact ⟨rest.dropWhile isBlank, cut_blank rest (isBlank_iff.mp space)⟩
    · split
      · next starts => exact cut_numeral rest (by simpa [isDigit_iff] using starts)
      · exact ⟨rest, cut_garbage char rest⟩

theorem lexemes_cut {char : Char} {rest left : Text}
    (cut : Cut (char :: rest) (lexemeAt char rest) left) :
    lexemes (char :: rest) = lexemeAt char rest :: lexemes left := by
  obtain ⟨split, nonempty, _⟩ := cut
  obtain ⟨first, taken, textEq⟩ := List.exists_cons_of_ne_nil nonempty
  rw [textEq, List.cons_append, List.cons.injEq] at split
  rw [lexemes, textEq]
  simp [split.2]

theorem lexemeAt_blank {char : Char} (rest : Text) (space : IsSpace char) :
    lexemeAt char rest = ⟨.blank, char :: rest.takeWhile isBlank⟩ := by
  rcases space with rfl | rfl | rfl | rfl <;> rfl

theorem lexemeAt_numeral {char : Char} (rest : Text) (starts : char = '-' ∨ IsDigit char) :
    lexemeAt char rest = numeral char rest := by
  have notSpace : isBlank char = false := by
    rw [Bool.eq_false_iff, Ne, isBlank_iff]
    rintro (rfl | rfl | rfl | rfl) <;> exact absurd starts (by decide)
  have numeric : (decide (char = '-') || char.isDigit) = true := by
    simpa [isDigit_iff] using starts
  unfold lexemeAt
  split
  case h_11 =>
      rw [notSpace, numeric]
      rfl
  all_goals exact absurd starts (by decide)

theorem Shape.lexemeAt {kind : TokenKind} {char : Char} {taken rest : Text}
    (shape : Shape kind (char :: taken)) (ends : kind = .number → EndsNumeral rest) :
    lexemeAt char (taken ++ rest) = ⟨kind, char :: taken⟩ := by
  generalize textEq : char :: taken = text at shape
  cases shape with
  | string quotable =>
      rw [List.cons_append] at textEq
      obtain ⟨rfl, rfl⟩ := List.cons.inj textEq
      rw [List.append_assoc]
      exact quotable.quoted
  | number numeral =>
      subst textEq
      rw [lexemeAt_numeral _ numeral.starts]
      exact numeral.numeral (ends rfl)
  | _ =>
      obtain ⟨rfl, rfl⟩ := List.cons.inj textEq
      rfl

theorem Shape.ne_nil {kind : TokenKind} {text : Text} (shape : Shape kind text) : text ≠ [] := by
  cases shape with
  | number numeral =>
      cases numeral with
      | positive unsigned =>
          obtain ⟨first, others, rfl, _⟩ := unsigned.starts
          simp
      | negative _ => simp
  | _ => simp

theorem joinGarbage_cons {first : Lexeme} (rest : List Lexeme) (known : first.kind ≠ .garbage) :
    joinGarbage (first :: rest) = first :: joinGarbage rest := by
  rw [joinGarbage]
  split
  · next none => rw [none]
  · next second others some => rw [some, if_neg (by simp [known])]

theorem joinGarbage_garbage {first : Lexeme} (rest : List Lexeme)
    (garbage : first.kind = .garbage) :
    ∃ text others, joinGarbage (first :: rest) = ⟨.garbage, text⟩ :: others := by
  obtain ⟨kind, text⟩ := first
  obtain rfl : kind = .garbage := garbage
  rw [joinGarbage]
  split
  · exact ⟨text, [], rfl⟩
  · next second others some =>
      split
      · exact ⟨text ++ second.text, others, rfl⟩
      · exact ⟨text, second :: others, rfl⟩

theorem tokensFrom_nil (offset : Nat) : tokensFrom offset [] = [] := by
  simp [tokensFrom, lexemes, joinGarbage, located]

theorem tokensFrom_blank_lexeme {char : Char} (rest : Text) (space : IsSpace char) (offset : Nat) :
    tokensFrom offset (char :: rest) =
      tokensFrom (offset + (char.utf8Size + byteLength (rest.takeWhile isBlank)))
        (rest.dropWhile isBlank) := by
  have cut := cut_blank rest space
  rw [← lexemeAt_blank rest space] at cut
  rw [tokensFrom, lexemes_cut cut, lexemeAt_blank rest space, joinGarbage_cons _ (by simp), located]
  simp [tokensFrom]

theorem tokensFrom_blank {char : Char} (rest : Text) (space : IsSpace char) (offset : Nat) :
    tokensFrom offset (char :: rest) = tokensFrom (offset + char.utf8Size) rest := by
  rw [tokensFrom_blank_lexeme rest space]
  cases rest with
  | nil => simp
  | cons next others =>
      by_cases more : IsSpace next
      · rw [tokensFrom_blank_lexeme others more]
        simp [isBlank_iff.mpr more, Nat.add_assoc]
      · simp [isBlank_iff.not.mpr more]

theorem tokensFrom_blanks {blanks : Text} (rest : Text) (all : Blanks blanks) (offset : Nat) :
    tokensFrom offset (blanks ++ rest) = tokensFrom (offset + byteLength blanks) rest := by
  induction blanks generalizing offset with
  | nil => simp
  | cons char others ih =>
      obtain ⟨space, later⟩ := List.forall_mem_cons.mp all
      rw [List.cons_append, tokensFrom_blank _ space, ih later, byteLength_cons, Nat.add_assoc]

theorem Cut.isSpace {char : Char} {rest left : Text} {lexeme : Lexeme}
    (cut : Cut (char :: rest) lexeme left) (spaces : Blanks lexeme.text) : IsSpace char := by
  obtain ⟨first, taken, textEq⟩ := List.exists_cons_of_ne_nil cut.nonempty
  have split := cut.split
  rw [textEq] at split spaces
  obtain ⟨rfl, _⟩ := List.cons.inj split
  exact spaces char (List.mem_cons_self ..)

theorem Cut.tokensFrom {char : Char} {rest left : Text}
    (cut : Cut (char :: rest) (lexemeAt char rest) left)
    (shape : Shape (lexemeAt char rest).kind (lexemeAt char rest).text) (offset : Nat) :
    tokensFrom offset (char :: rest) =
      ⟨(lexemeAt char rest).kind, offset, (lexemeAt char rest).text⟩ ::
        tokensFrom (offset + byteLength (lexemeAt char rest).text) left := by
  rw [Json.tokensFrom, lexemes_cut cut, joinGarbage_cons _ shape.kind_ne.1, located,
    if_neg shape.kind_ne.2]
  rfl

theorem tokensFrom_garbage {char : Char} {rest : Text}
    (garbage : (lexemeAt char rest).kind = .garbage) (offset : Nat) :
    ∃ text others, tokensFrom offset (char :: rest) = ⟨.garbage, offset, text⟩ :: others := by
  obtain ⟨left, cut⟩ := cut_lexemeAt char rest
  obtain ⟨text, others, joined⟩ := joinGarbage_garbage (lexemes left) garbage
  rw [tokensFrom, lexemes_cut cut, joined, located, if_neg (by simp)]
  exact ⟨text, _, rfl⟩

theorem Shape.tokensFrom_lexeme {kind : TokenKind} {char : Char} {taken rest : Text}
    (shape : Shape kind (char :: taken))
    (lexeme : Json.lexemeAt char (taken ++ rest) = ⟨kind, char :: taken⟩) (offset : Nat) :
    tokensFrom offset (char :: taken ++ rest) =
      ⟨kind, offset, char :: taken⟩ :: tokensFrom (offset + byteLength (char :: taken)) rest := by
  have cut : Cut (char :: (taken ++ rest)) (Json.lexemeAt char (taken ++ rest)) rest := by
    rw [lexeme]
    exact ⟨rfl, by simp, .inr (.inr shape)⟩
  rw [List.cons_append, cut.tokensFrom (by rwa [lexeme]), lexeme]

theorem Shape.tokensFrom {kind : TokenKind} {text rest : Text} (shape : Shape kind text)
    (ends : kind = .number → EndsNumeral rest) (offset : Nat) :
    tokensFrom offset (text ++ rest) =
      ⟨kind, offset, text⟩ :: tokensFrom (offset + byteLength text) rest := by
  obtain ⟨char, taken, rfl⟩ := List.exists_cons_of_ne_nil shape.ne_nil
  exact shape.tokensFrom_lexeme (shape.lexemeAt ends) offset

/-- The tokens of a text begin with garbage or with a token of some shape, behind white space; or
there are none, and the text is white space. -/
theorem tokensFrom_cases (offset : Nat) (text : Text) :
    (Blanks text ∧ tokensFrom offset text = []) ∨
      (∃ before rest garbage others, text = before ++ rest ∧ Blanks before ∧
        tokensFrom offset text = ⟨.garbage, offset + byteLength before, garbage⟩ :: others) ∨
      ∃ before kind written after, text = before ++ (written ++ after) ∧ Blanks before ∧
        Shape kind written ∧
        tokensFrom offset text = ⟨kind, offset + byteLength before, written⟩ ::
          tokensFrom (offset + byteLength before + byteLength written) after := by
  induction text generalizing offset with
  | nil => exact .inl ⟨blanks_nil, tokensFrom_nil offset⟩
  | cons char rest ih =>
      obtain ⟨left, cut⟩ := cut_lexemeAt char rest
      -- The induction is on characters, and a blank lexeme takes several: only its first goes here.
      rcases cut.known with garbage | ⟨blank, spaces⟩ | shape
      · obtain ⟨text, others, first⟩ := tokensFrom_garbage garbage offset
        exact .inr (.inl ⟨[], _, _, _, rfl, blanks_nil, first⟩)
      · have space : IsSpace char := cut.isSpace spaces
        rw [tokensFrom_blank rest space]
        rcases ih (offset + char.utf8Size) with ⟨all, none⟩ | garbage | found
        · exact .inl ⟨List.forall_mem_cons.mpr ⟨space, all⟩, none⟩
        · obtain ⟨before, rest, text, others, rfl, all, tokensEq⟩ := garbage
          refine .inr (.inl ⟨char :: before, rest, text, others, rfl,
            List.forall_mem_cons.mpr ⟨space, all⟩, ?_⟩)
          rw [tokensEq, byteLength_cons, Nat.add_assoc offset]
        · obtain ⟨before, kind, written, after, rfl, all, shape, tokensEq⟩ := found
          refine .inr (.inr ⟨char :: before, kind, written, after, rfl, ?_, shape, ?_⟩)
          · exact List.forall_mem_cons.mpr ⟨space, all⟩
          · rw [tokensEq, byteLength_cons, Nat.add_assoc offset]
      · exact .inr (.inr ⟨[], _, _, left, cut.split, blanks_nil, shape,
          cut.tokensFrom shape offset⟩)

theorem tokensFrom_cons {offset : Nat} {text : Text} {token : Token} {others : List Token}
    (found : tokensFrom offset text = token :: others) (known : token.kind ≠ .garbage) :
    ∃ before after, text = before ++ (token.text ++ after) ∧ Blanks before ∧
      Shape token.kind token.text ∧ token.start = offset + byteLength before ∧
      others = tokensFrom (offset + byteLength before + byteLength token.text) after := by
  rcases tokensFrom_cases offset text with ⟨_, none⟩ | ⟨_, _, _, _, _, _, tokensEq⟩ | shaped
  · rw [none] at found
    cases found
  · rw [tokensEq] at found
    obtain ⟨rfl, _⟩ := List.cons.inj found
    exact absurd rfl known
  · obtain ⟨before, kind, written, after, rfl, all, shape, tokensEq⟩ := shaped
    rw [tokensEq] at found
    obtain ⟨rfl, rfl⟩ := List.cons.inj found
    exact ⟨before, after, rfl, all, shape, rfl, rfl⟩

theorem blanks_of_tokensFrom {offset : Nat} {text : Text} (none : tokensFrom offset text = []) :
    Blanks text := by
  rcases tokensFrom_cases offset text with ⟨all, _⟩ | ⟨_, _, _, _, _, _, some⟩
    | ⟨_, _, _, _, _, _, _, some⟩
  · exact all
  · rw [none] at some
    cases some
  · rw [none] at some
    cases some

end QueryWorkbench.Json
