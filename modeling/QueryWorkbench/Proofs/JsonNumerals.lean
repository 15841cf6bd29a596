import Mathlib.Data.List.TakeWhile
import QueryWorkbench.Json.Token
import QueryWorkbench.Proofs.JsonGrammar

/-! Numerals as the lexer cuts them. What it takes is a numeral of the grammar, and it takes the
whole of a numeral that ends where a value may end. -/

namespace QueryWorkbench.Json

/-- What may follow a value: nothing, white space, a comma, or the end of the container around
it. -/
def Delimited (rest : Text) : Prop :=
  ∀ char, rest.head? = some char → IsSpace char ∨ char = ',' ∨ char = ']' ∨ char = '\x7d'

theorem Delimited.behind {blanks rest : Text} (all : Blanks blanks) (delimited : Delimited rest) :
    Delimited (blanks ++ rest) := by
  cases blanks with
  | nil => exact delimited
  | cons char others =>
      rintro first ⟨⟩
      exact .inl (all char (List.mem_cons_self ..))

theorem delimited_nil : Delimited [] := by
  rintro char ⟨⟩

theorem delimited_cons {char : Char} (rest : Text)
    (ends : IsSpace char ∨ char = ',' ∨ char = ']' ∨ char = '\x7d') : Delimited (char :: rest) := by
  rintro first ⟨⟩
  exact ends

theorem isDigit_iff {char : Char} : char.isDigit = true ↔ IsDigit char := by
  simp only [Char.isDigit, IsDigit, Bool.and_eq_true, decide_eq_true_eq]
  exact Iff.rfl

theorem IsDigit.ne_minus {char : Char} (digit : IsDigit char) : char ≠ '-' := by
  rintro rfl
  exact absurd digit (by decide)

theorem isDigit_takeWhile {text : Text} : ∀ char ∈ text.takeWhile Char.isDigit, IsDigit char := by
  intro char member
  exact isDigit_iff.mp (List.mem_takeWhile_imp member)

theorem takeWhile_digits {digits rest : Text} (all : ∀ char ∈ digits, IsDigit char)
    (stop : rest.takeWhile Char.isDigit = []) :
    (digits ++ rest).takeWhile Char.isDigit = digits := by
  rw [List.takeWhile_append_of_pos (fun char member => isDigit_iff.mpr (all char member)), stop,
    List.append_nil]

theorem takeWhile_stop {char : Char} {rest : Text} (other : ¬ IsDigit char) :
    (char :: rest).takeWhile Char.isDigit = [] := by
  rw [← isDigit_iff] at other
  simp [other]

theorem drop_part {part left text : Text} (split : part ++ left = text) :
    text.drop part.length = left := by
  rw [← split, List.drop_left]

theorem integerPart_sound (text : Text) :
    (integerPart text = [] ∨ Whole (integerPart text)) ∧ integerPart text <+: text := by
  fun_cases integerPart text with
  | case1 rest => exact ⟨.inr .zero, by simp⟩
  | case2 text notZero =>
      refine ⟨?_, List.takeWhile_prefix _⟩
      cases text with
      | nil => exact .inl rfl
      | cons first rest =>
          by_cases digit : IsDigit first
          · right
            rw [List.takeWhile_cons_of_pos (isDigit_iff.mpr digit)]
            refine .other digit ?_ isDigit_takeWhile
            rintro rfl
            exact notZero rest rfl
          · exact .inl (takeWhile_stop digit)

theorem fractionPart_sound (text : Text) :
    Fraction (fractionPart text) ∧ fractionPart text <+: text := by
  fun_cases fractionPart text with
  | case1 rest none => exact ⟨.absent, List.nil_prefix⟩
  | case2 rest some =>
      refine ⟨.present ⟨some, isDigit_takeWhile⟩, ?_⟩
      exact (List.prefix_cons_inj '.').mpr (List.takeWhile_prefix _)
  | case3 => exact ⟨.absent, List.nil_prefix⟩

theorem exponentSign_sound (text : Text) :
    Sign (exponentSign text) ∧ exponentSign text <+: text := by
  fun_cases exponentSign text with
  | case1 rest => exact ⟨.plus, by simp⟩
  | case2 rest => exact ⟨.minus, by simp⟩
  | case3 => exact ⟨.absent, List.nil_prefix⟩

theorem exponentPart_sound (text : Text) :
    Exponent (exponentPart text) ∧ exponentPart text <+: text := by
  fun_cases exponentPart text with
  | case1 => exact ⟨.absent, List.nil_prefix⟩
  | case2 mark rest isMark sign none => exact ⟨.absent, List.nil_prefix⟩
  | case3 mark rest isMark sign some =>
      obtain ⟨signed, left, split⟩ := exponentSign_sound rest
      have behind : rest.drop sign.length = left := drop_part split
      refine ⟨.present (by simpa using isMark) signed ⟨some, isDigit_takeWhile⟩, ?_⟩
      rw [List.cons_append, List.prefix_cons_inj, behind, ← split]
      exact (List.prefix_append_right_inj sign).mpr (List.takeWhile_prefix _)
  | case4 => exact ⟨.absent, List.nil_prefix⟩

theorem unsignedPart_parts {text behind left : Text} (some : integerPart text ≠ [])
    (wholeSplit : integerPart text ++ behind = text)
    (fractionSplit : fractionPart behind ++ left = behind) :
    unsignedPart text = integerPart text ++ fractionPart behind ++ exponentPart left := by
  have afterWhole : text.drop (integerPart text).length = behind := drop_part wholeSplit
  have afterFraction : behind.drop (fractionPart behind).length = left := drop_part fractionSplit
  rw [unsignedPart]
  split
  · next none => exact absurd none some
  · simp only [← List.drop_drop, afterWhole, afterFraction]

theorem unsignedPart_sound (text : Text) :
    (unsignedPart text = [] ∨ Unsigned (unsignedPart text)) ∧ unsignedPart text <+: text := by
  obtain ⟨whole, behind, wholeSplit⟩ := integerPart_sound text
  obtain ⟨fraction, left, fractionSplit⟩ := fractionPart_sound behind
  obtain ⟨exponent, last, exponentSplit⟩ := exponentPart_sound left
  by_cases some : integerPart text = []
  · have none : unsignedPart text = [] := by
      rw [unsignedPart, some]
    rw [none]
    exact ⟨.inl rfl, List.nil_prefix⟩
  · rw [unsignedPart_parts some wholeSplit fractionSplit]
    refine ⟨.inr (.mk (whole.resolve_left some) fraction exponent), last, ?_⟩
    rw [List.append_assoc, exponentSplit, List.append_assoc, fractionSplit, wholeSplit]

theorem unsignedPart_ne_nil {char : Char} (rest : Text) (digit : IsDigit char) :
    unsignedPart (char :: rest) ≠ [] := by
  have some : integerPart (char :: rest) ≠ [] := by
    unfold integerPart
    split
    · simp
    · simp [isDigit_iff.mpr digit]
  rw [unsignedPart]
  split
  · exact absurd ‹_› some
  · simp [some]

structure EndsNumeral (rest : Text) : Prop where
  digits : rest.takeWhile Char.isDigit = []
  fraction : fractionPart rest = []
  exponent : exponentPart rest = []

def Continues (char : Char) : Prop := char = '.' ∨ char = 'e' ∨ char = 'E'

instance (char : Char) : Decidable (Continues char) := inferInstanceAs (Decidable (_ ∨ _))

theorem fractionPart_stop {char : Char} (rest : Text) (stop : ¬ Continues char) :
    fractionPart (char :: rest) = [] := by
  rw [fractionPart.eq_2]
  rintro _ same
  obtain ⟨rfl, _⟩ := List.cons.inj same
  exact stop (.inl rfl)

theorem exponentPart_stop {char : Char} (rest : Text) (stop : ¬ Continues char) :
    exponentPart (char :: rest) = [] := by
  have noMark : ¬ (char = 'e' ∨ char = 'E') := fun mark => stop (.inr mark)
  simp [exponentPart, noMark]

theorem endsNumeral_cons {char : Char} (rest : Text) (notDigit : ¬ IsDigit char)
    (stop : ¬ Continues char) : EndsNumeral (char :: rest) :=
  ⟨takeWhile_stop notDigit, fractionPart_stop rest stop, exponentPart_stop rest stop⟩

theorem Delimited.endsNumeral {rest : Text} (delimited : Delimited rest) : EndsNumeral rest := by
  cases rest with
  | nil => exact ⟨rfl, rfl, rfl⟩
  | cons char others =>
      rcases delimited char rfl with (rfl | rfl | rfl | rfl) | rfl | rfl | rfl <;>
        exact endsNumeral_cons others (by decide) (by decide)

theorem Exponent.takeWhile {exponent rest : Text} (shape : Exponent exponent)
    (ends : EndsNumeral rest) : (exponent ++ rest).takeWhile Char.isDigit = [] := by
  cases shape with
  | absent => exact ends.digits
  | present isMark sign digits =>
      apply takeWhile_stop
      rcases isMark with rfl | rfl <;> decide

theorem Fraction.takeWhile {fraction rest : Text} (shape : Fraction fraction)
    (stop : rest.takeWhile Char.isDigit = []) : (fraction ++ rest).takeWhile Char.isDigit = [] := by
  cases shape with
  | absent => exact stop
  | present digits => exact takeWhile_stop (by decide)

theorem Whole.integerPart {whole rest : Text} (shape : Whole whole)
    (stop : rest.takeWhile Char.isDigit = []) : integerPart (whole ++ rest) = whole := by
  cases shape with
  | zero => rfl
  | @other first digits digit notZero all =>
      rw [List.cons_append, Json.integerPart.eq_2 _ (by simp [notZero])]
      exact takeWhile_digits (List.forall_mem_cons.mpr ⟨digit, all⟩) stop

theorem Exponent.fractionPart {exponent rest : Text} (shape : Exponent exponent)
    (ends : EndsNumeral rest) : fractionPart (exponent ++ rest) = [] := by
  cases shape with
  | absent => exact ends.fraction
  | present isMark sign digits => rcases isMark with rfl | rfl <;> rfl

theorem Fraction.fractionPart {fraction rest : Text} (shape : Fraction fraction)
    (stop : rest.takeWhile Char.isDigit = []) (bare : Json.fractionPart rest = []) :
    fractionPart (fraction ++ rest) = fraction := by
  cases shape with
  | absent => exact bare
  | @present digits shape =>
      have taken := takeWhile_digits shape.all stop
      rw [List.cons_append, Json.fractionPart, taken]
      split
      · exact absurd rfl shape.some
      · rfl

theorem Sign.exponentSign {sign digits rest : Text} (shape : Sign sign) (some : Digits digits) :
    exponentSign (sign ++ (digits ++ rest)) = sign := by
  cases shape with
  | absent =>
      cases digits with
      | nil => exact absurd rfl some.some
      | cons first others =>
          have digit := some.all first (List.mem_cons_self ..)
          have notPlus : first ≠ '+' := by
            rintro rfl
            exact absurd digit (by decide)
          rw [List.nil_append, List.cons_append, Json.exponentSign.eq_3]
          · simpa using notPlus
          · simpa using digit.ne_minus
  | plus => rfl
  | minus => rfl

theorem Exponent.exponentPart {exponent rest : Text} (shape : Exponent exponent)
    (ends : EndsNumeral rest) : exponentPart (exponent ++ rest) = exponent := by
  cases shape with
  | absent => exact ends.exponent
  | @present mark sign digits isMark signed shape =>
      have found : Json.exponentSign (sign ++ (digits ++ rest)) = sign := signed.exponentSign shape
      have taken := takeWhile_digits shape.all ends.digits
      rw [List.append_assoc, List.cons_append, Json.exponentPart]
      simp only [isMark, found, List.drop_left, taken, Bool.or_eq_true,
        decide_eq_true_eq, ↓reduceIte]
      split
      · exact absurd rfl shape.some
      · rfl

theorem Unsigned.unsignedPart {part rest : Text} (shape : Unsigned part) (ends : EndsNumeral rest) :
    unsignedPart (part ++ rest) = part := by
  obtain @⟨whole, fraction, exponent, wholeShape, fractionShape, exponentShape⟩ := shape
  have afterFraction := exponentShape.takeWhile ends
  have afterWhole := fractionShape.takeWhile afterFraction
  have wholeTaken := wholeShape.integerPart afterWhole
  have fractionTaken := fractionShape.fractionPart afterFraction (exponentShape.fractionPart ends)
  have exponentTaken := exponentShape.exponentPart ends
  have some : whole ≠ [] := by
    cases wholeShape <;> simp
  rw [List.append_assoc, List.append_assoc, Json.unsignedPart, wholeTaken]
  split
  · exact absurd rfl some
  · simp only [List.drop_left, fractionTaken, ← List.drop_drop, exponentTaken]

theorem Unsigned.starts {part : Text} (shape : Unsigned part) :
    ∃ first others, part = first :: others ∧ IsDigit first := by
  obtain ⟨wholeShape, _, _⟩ := shape
  cases wholeShape with
  | zero => exact ⟨'0', _, rfl, by decide⟩
  | other digit _ _ => exact ⟨_, _, rfl, digit⟩

theorem Numeral.starts {char : Char} {taken : Text} (shape : Numeral (char :: taken)) :
    char = '-' ∨ IsDigit char := by
  cases shape with
  | positive unsigned =>
      obtain ⟨first, others, same, digit⟩ := unsigned.starts
      obtain ⟨rfl, _⟩ := List.cons.inj same
      exact .inr digit
  | negative _ => exact .inl rfl

theorem Numeral.numeral {char : Char} {taken rest : Text} (shape : Numeral (char :: taken))
    (ends : EndsNumeral rest) : numeral char (taken ++ rest) = ⟨.number, char :: taken⟩ := by
  cases shape with
  | positive unsigned =>
      obtain ⟨first, others, same, digit⟩ := unsigned.starts
      obtain ⟨rfl, rfl⟩ := List.cons.inj same
      rw [Json.numeral, if_neg digit.ne_minus, ← List.cons_append, unsigned.unsignedPart ends]
  | negative unsigned =>
      obtain ⟨first, others, rfl, digit⟩ := unsigned.starts
      rw [Json.numeral, if_pos rfl, unsigned.unsignedPart ends]

end QueryWorkbench.Json
