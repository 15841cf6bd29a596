import QueryWorkbench.Json.Token
import QueryWorkbench.Json.Quoted
import QueryWorkbench.Proofs.JsonGrammar

/-! Strings: what the lexer takes between two quotes, and what decoding makes of it. Decoding gives
a text exactly when the part between the quotes is a spelling of that text. -/

namespace QueryWorkbench.Json

/-- What can stand between two quotes: no quote and no control character, and after a backslash
anything but a line feed. -/
inductive Quotable : Text → Prop
  | nil : Quotable []
  | plain {char : Char} {rest : Text} :
      char ≠ '"' → char ≠ '\\' → ' ' ≤ char → Quotable rest → Quotable (char :: rest)
  | escaped {char : Char} {rest : Text} : char ≠ '\n' → Quotable rest →
      Quotable ('\\' :: char :: rest)

theorem Quotable.quotedPart {body rest : Text} (quotable : Quotable body) :
    quotedPart (body ++ '"' :: rest) = body := by
  induction quotable with
  | nil => simp [Json.quotedPart]
  | @plain char body notQuote notEscape printed _ ih =>
      have above : ¬ char < ' ' := Char.not_lt.mpr printed
      rw [List.cons_append, Json.quotedPart.eq_4, ih]
      · simp [notQuote, above]
      · simp [notEscape]
      · simp [notEscape]
  | escaped notFeed _ ih => simp [Json.quotedPart, notFeed, ih]

theorem quotable_quotedPart {text left : Text} (closed : text = quotedPart text ++ '"' :: left) :
    Quotable (quotedPart text) := by
  fun_induction quotedPart text with
  | case1 => exact .nil
  | case2 => simp at closed
  | case3 rest => simp at closed
  | case4 char rest notFeed ih => exact .escaped notFeed (ih (by simpa using closed))
  | case5 => exact .nil
  | case6 char rest lone pair ends ih =>
      simp only [Bool.or_eq_true, decide_eq_true_eq, not_or] at ends
      have notEscape : char ≠ '\\' := by
        rintro rfl
        cases rest with
        | nil => exact lone rfl rfl
        | cons next others => exact pair next others rfl rfl
      exact .plain ends.1 notEscape (Char.not_lt.mp ends.2) (ih (by simpa using closed))

theorem quotedPart_prefix (text : Text) : quotedPart text <+: text := by
  fun_induction quotedPart text with
  | case1 => exact List.nil_prefix
  | case2 => exact List.prefix_rfl
  | case3 rest => exact ⟨'\n' :: rest, rfl⟩
  | case4 char rest notFeed ih => simpa using ih
  | case5 => exact List.nil_prefix
  | case6 char rest lone pair ends ih => simpa using ih

theorem Quotable.quoted {body rest : Text} (quotable : Quotable body) :
    quoted (body ++ '"' :: rest) = ⟨.string, '"' :: body ++ ['"']⟩ := by
  simp only [Json.quoted, quotable.quotedPart, List.drop_left]

theorem quoted_sound (rest : Text) :
    (∃ body left, rest = body ++ '"' :: left ∧ Quotable body ∧
        quoted rest = ⟨.string, '"' :: body ++ ['"']⟩) ∨
      ∃ part left, rest = part ++ left ∧ quoted rest = ⟨.garbage, '"' :: part⟩ := by
  obtain ⟨left, split⟩ := quotedPart_prefix rest
  have behind : rest.drop (quotedPart rest).length = left := by
    calc
      rest.drop (quotedPart rest).length =
        (quotedPart rest ++ left).drop (quotedPart rest).length := by
        rw [split]
      _ = left := List.drop_left
  rw [quoted, behind]
  cases left with
  | nil => exact .inr ⟨quotedPart rest, [], split.symm, rfl⟩
  | cons char after =>
      by_cases closed : char = '"'
      · subst closed
        exact .inl ⟨quotedPart rest, after, split.symm, quotable_quotedPart split.symm, rfl⟩
      · refine .inr ⟨quotedPart rest, char :: after, split.symm, ?_⟩
        split
        · next other same => exact absurd (List.cons.inj same).1 closed
        · rfl

namespace Quoted

def Takes {α : Type} {text : Text} (result : Option (α × Remainder text)) (value : α)
    (left : Text) : Prop :=
  ∃ remains, result = some (value, ⟨left, remains⟩)

theorem digit_of_range {table : Text} {low count first : Nat} {char : Char}
    (run : ∀ value < count, table[value + first]? = some (Char.ofNat (low + value)))
    (above : low ≤ char.toNat) (below : char.toNat < low + count) :
    table[char.toNat - low + first]? = some char := by
  have place := run (char.toNat - low) (by omega)
  rwa [Nat.add_sub_cancel' above, Char.ofNat_toNat] at place

theorem hexDigit?_iff {char : Char} {value : Nat} :
    hexDigit? char = some value ↔ HexDigit char value := by
  constructor
  · intro found
    unfold hexDigit? at found
    split at found
    · next range =>
        obtain rfl := Option.some.inj found
        have run : ∀ value < 10, "0123456789abcdef".toList[value + 0]? =
            some (Char.ofNat (48 + value)) := by
          decide
        exact .inl (digit_of_range run range.1 (Nat.lt_succ_of_le range.2))
    · split at found
      · next range =>
          obtain rfl := Option.some.inj found
          have run : ∀ value < 6, "0123456789abcdef".toList[value + 10]? =
              some (Char.ofNat (97 + value)) := by
            decide
          exact .inl (digit_of_range run range.1 (Nat.lt_succ_of_le range.2))
      · split at found
        · next range =>
            obtain rfl := Option.some.inj found
            have run : ∀ value < 6,
                "0123456789ABCDEF".toList[value + 10]? = some (Char.ofNat (65 + value)) := by
              decide
            exact .inr (digit_of_range run range.1 (Nat.lt_succ_of_le range.2))
        · cases found
  · have lower :
        ∀ value < 16, ("0123456789abcdef".toList[value]?).bind hexDigit? = some value := by decide
    have upper :
        ∀ value < 16, ("0123456789ABCDEF".toList[value]?).bind hexDigit? = some value := by decide
    rintro (found | found)
    · have bound : value < 16 := (List.getElem?_eq_some_iff.mp found).1
      simpa only [found, Option.bind_some] using lower value bound
    · have bound : value < 16 := (List.getElem?_eq_some_iff.mp found).1
      simpa only [found, Option.bind_some] using upper value bound

theorem unit?_iff {text left : Text} {value : Nat} :
    Takes (unit? text) value left ↔ ∃ digits, text = digits ++ left ∧ HexUnit digits value := by
  constructor
  · rintro ⟨remains, found⟩
    unfold unit? at found
    split at found
    · next a b c d rest =>
        simp only [Option.bind_eq_bind, Option.bind_eq_some_iff] at found
        obtain ⟨first, firstFound, second, secondFound, third, thirdFound, fourth, fourthFound,
          same⟩ := found
        simp only [Option.some.injEq, Prod.mk.injEq, Subtype.mk.injEq] at same
        obtain ⟨rfl, rfl⟩ := same
        exact ⟨[a, b, c, d], rfl, .mk (hexDigit?_iff.mp firstFound) (hexDigit?_iff.mp secondFound)
          (hexDigit?_iff.mp thirdFound) (hexDigit?_iff.mp fourthFound)⟩
    · cases found
  · rintro ⟨_, rfl, @⟨a, b, c, d, _, _, _, _, first, second, third, fourth⟩⟩
    refine ⟨by simp; omega, ?_⟩
    simp [unit?, hexDigit?_iff.mpr first, hexDigit?_iff.mpr second, hexDigit?_iff.mpr third,
      hexDigit?_iff.mpr fourth]

theorem scalar?_iff {code : Nat} {char : Char} : scalar? code = some char ↔ char.toNat = code := by
  constructor
  · intro found
    rw [scalar?] at found
    split at found
    · next valid =>
        obtain rfl := Option.some.inj found
        rw [Char.ofNat, dif_pos valid]
        rfl
    · cases found
  · rintro rfl
    have valid : char.toNat.isValidChar := char.valid
    rw [scalar?, if_pos valid, Char.ofNat_toNat]

theorem lowUnit?_iff {text left : Text} {low : Nat} :
    Takes (lowUnit? text) low left ↔
      ∃ digits, text = '\\' :: 'u' :: digits ++ left ∧ HexUnit digits low ∧ 0xDC00 ≤ low ∧
        low < 0xE000 := by
  constructor
  · rintro ⟨remains, found⟩
    unfold lowUnit? at found
    split at found
    · next rest =>
        simp only [Option.bind_eq_bind, Option.bind_eq_some_iff] at found
        obtain ⟨⟨unit, after, shorter⟩, taken, same⟩ := found
        split at same
        · next range =>
            simp only [Option.some.injEq, Prod.mk.injEq, Subtype.mk.injEq] at same
            obtain ⟨rfl, rfl⟩ := same
            obtain ⟨digits, rfl, shape⟩ := unit?_iff.mp ⟨_, taken⟩
            simp only [isLowSurrogate, Bool.and_eq_true, decide_eq_true_eq] at range
            exact ⟨digits, rfl, shape, range⟩
        · cases same
    · cases found
  · rintro ⟨digits, rfl, shape, range⟩
    have reads : Takes (unit? (digits ++ left)) low left := unit?_iff.mpr ⟨digits, rfl, shape⟩
    obtain ⟨remains, taken⟩ := reads
    have isLow : isLowSurrogate low = true := by
      simpa only [isLowSurrogate, Bool.and_eq_true, decide_eq_true_eq] using range
    refine ⟨by simp; omega, ?_⟩
    simp [lowUnit?, taken, isLow]

theorem not_isHighSurrogate (char : Char) : isHighSurrogate char.toNat = false := by
  have valid : char.toNat < 0xD800 ∨ 0xDFFF < char.toNat ∧ char.toNat < 0x110000 := char.valid
  simp only [isHighSurrogate, Bool.and_eq_false_iff, decide_eq_false_iff_not]
  omega

theorem unicodeEscape?_sound {text left : Text} {char : Char}
    (reads : Takes (unicodeEscape? text) char left) :
    ∃ written, text = written ++ left ∧ Spelling ('\\' :: 'u' :: written) char := by
  obtain ⟨remains, found⟩ := reads
  simp only [unicodeEscape?, Option.bind_eq_bind, Option.bind_eq_some_iff] at found
  obtain ⟨⟨high, after, shorter⟩, taken, found⟩ := found
  obtain ⟨digits, rfl, shape⟩ := unit?_iff.mp ⟨_, taken⟩
  split at found
  · next isHigh =>
      simp only [Option.bind_eq_some_iff] at found
      obtain ⟨⟨low, last, shorter⟩, lowTaken, scalar, isScalar, same⟩ := found
      simp only [Option.some.injEq, Prod.mk.injEq, Remainder.trans, Subtype.mk.injEq] at same
      obtain ⟨rfl, rfl⟩ := same
      obtain ⟨lowDigits, rfl, lowShape, above, below⟩ := lowUnit?_iff.mp ⟨_, lowTaken⟩
      simp only [isHighSurrogate, Bool.and_eq_true, decide_eq_true_eq] at isHigh
      refine ⟨digits ++ '\\' :: 'u' :: lowDigits, by simp, ?_⟩
      exact .pair shape isHigh.1 isHigh.2 lowShape above below (scalar?_iff.mp isScalar)
  · simp only [Option.bind_eq_some_iff] at found
    obtain ⟨scalar, isScalar, same⟩ := found
    simp only [Option.some.injEq, Prod.mk.injEq, Subtype.mk.injEq] at same
    obtain ⟨rfl, rfl⟩ := same
    obtain rfl := scalar?_iff.mp isScalar
    exact ⟨digits, rfl, .code shape⟩

theorem unicodeEscape?_code {text left : Text} {char : Char}
    (reads : Takes (unit? text) char.toNat left) : Takes (unicodeEscape? text) char left := by
  obtain ⟨remains, taken⟩ := reads
  have scalar : scalar? char.toNat = some char := scalar?_iff.mpr rfl
  refine ⟨remains, ?_⟩
  rw [unicodeEscape?, taken]
  simp only [Option.bind_eq_bind, Option.bind_some, not_isHighSurrogate,
    Bool.false_eq_true, ↓reduceIte, scalar]

theorem unicodeEscape?_pair {text middle left : Text} {high low : Nat} {char : Char}
    (highReads : Takes (unit? text) high middle) (above : 0xD800 ≤ high) (below : high < 0xDC00)
    (lowReads : Takes (lowUnit? middle) low left)
    (sum : char.toNat = 0x10000 + (high - 0xD800) * 0x400 + (low - 0xDC00)) :
    Takes (unicodeEscape? text) char left := by
  obtain ⟨highRemains, highTaken⟩ := highReads
  obtain ⟨lowRemains, lowTaken⟩ := lowReads
  have isHigh : isHighSurrogate high = true := by simp [isHighSurrogate, above, below]
  have scalar := scalar?_iff.mpr sum
  refine ⟨Nat.lt_trans lowRemains highRemains, ?_⟩
  rw [unicodeEscape?, Option.bind_eq_bind, Option.bind_eq_some_iff]
  refine ⟨_, highTaken, ?_⟩
  dsimp only
  rw [if_pos isHigh, Option.bind_eq_bind, Option.bind_eq_some_iff]
  refine ⟨_, lowTaken, ?_⟩
  dsimp only
  rw [Option.bind_eq_bind, Option.bind_eq_some_iff]
  exact ⟨char, scalar, rfl⟩

theorem shortEscape?_iff {letter char : Char} :
    shortEscape? letter = some char ↔ (letter, char) ∈ shortEscapes := by
  constructor
  · intro found
    unfold shortEscape? at found
    split at found <;> cases found <;> simp [shortEscapes]
  · intro member
    simp only [shortEscapes, List.mem_cons, Prod.mk.injEq, List.not_mem_nil, or_false] at member
    rcases member with ⟨rfl, rfl⟩ | ⟨rfl, rfl⟩ | ⟨rfl, rfl⟩ | ⟨rfl, rfl⟩ |
      ⟨rfl, rfl⟩ | ⟨rfl, rfl⟩ | ⟨rfl, rfl⟩ | ⟨rfl, rfl⟩ <;> rfl

theorem escape?_sound {text left : Text} {char : Char} (reads : Takes (escape? text) char left) :
    ∃ written, text = written ++ left ∧ Spelling ('\\' :: written) char := by
  obtain ⟨remains, found⟩ := reads
  unfold escape? at found
  split at found
  · cases found
  · next rest =>
      simp only [Option.map_eq_some_iff] at found
      obtain ⟨⟨decoded, after, shorter⟩, taken, same⟩ := found
      simp only [Prod.mk.injEq, Remainder.trans, Subtype.mk.injEq] at same
      obtain ⟨rfl, rfl⟩ := same
      obtain ⟨written, rfl, spelling⟩ := unicodeEscape?_sound ⟨_, taken⟩
      exact ⟨'u' :: written, rfl, spelling⟩
  · next letter rest _ =>
      simp only [Option.map_eq_some_iff] at found
      obtain ⟨decoded, short, same⟩ := found
      simp only [Prod.mk.injEq, Remainder.tail, Subtype.mk.injEq] at same
      obtain ⟨rfl, rfl⟩ := same
      exact ⟨[letter], rfl, .short (shortEscape?_iff.mp short)⟩

theorem escape?_unicode {text left : Text} {char : Char}
    (reads : Takes (unicodeEscape? text) char left) : Takes (escape? ('u' :: text)) char left := by
  obtain ⟨remains, taken⟩ := reads
  refine ⟨Nat.lt_trans remains (by simp), ?_⟩
  rw [escape?, taken]
  rfl

theorem escape?_short {letter char : Char} {left : Text} (member : (letter, char) ∈ shortEscapes) :
    Takes (escape? (letter :: left)) char left := by
  have short := shortEscape?_iff.mpr member
  have notUnicode : letter ≠ 'u' := by
    rintro rfl
    exact absurd short (by simp [shortEscape?])
  refine ⟨by simp, ?_⟩
  rw [escape?.eq_3 _ _ notUnicode, short]
  rfl

theorem decodePart?_escape {text left : Text} {char : Char}
    (reads : Takes (escape? text) char left) :
    decodePart? ('\\' :: text) = (decodePart? left).map (char :: ·) := by
  obtain ⟨remains, taken⟩ := reads
  rw [decodePart?, if_pos rfl, taken]

theorem decodePart?_spelling {written rest : Text} {char : Char}
    (spelling : Spelling written char) :
    decodePart? (written ++ rest) = (decodePart? rest).map (char :: ·) := by
  cases spelling with
  | plain _ notEscape _ => rw [List.singleton_append, decodePart?, if_neg notEscape]
  | short member => exact decodePart?_escape (escape?_short member)
  | code shape =>
      apply decodePart?_escape
      apply escape?_unicode
      exact unicodeEscape?_code (unit?_iff.mpr ⟨_, rfl, shape⟩)
  | pair highShape highAbove highBelow lowShape lowAbove lowBelow sum =>
      rw [List.append_assoc]
      apply decodePart?_escape
      apply escape?_unicode
      exact unicodeEscape?_pair (unit?_iff.mpr ⟨_, rfl, highShape⟩) highAbove highBelow
        (lowUnit?_iff.mpr ⟨_, rfl, lowShape, lowAbove, lowBelow⟩) sum

end Quoted

theorem HexDigit.plain {char : Char} {value : Nat} (digit : HexDigit char value) :
    char ≠ '"' ∧ char ≠ '\\' ∧ ' ' ≤ char := by
  have all : ∀ char ∈ "0123456789abcdef".toList ++ "0123456789ABCDEF".toList,
      char ≠ '"' ∧ char ≠ '\\' ∧ ' ' ≤ char := by
    simp [Char.le_def]
  apply all
  rcases digit with found | found
  · exact List.mem_append_left _ (List.mem_of_getElem? found)
  · exact List.mem_append_right _ (List.mem_of_getElem? found)

theorem quotable_plain {char : Char} {rest : Text} (notEscape : char ≠ '\\') :
    Quotable (char :: rest) ↔ char ≠ '"' ∧ ' ' ≤ char ∧ Quotable rest := by
  constructor
  · rintro (_ | ⟨notQuote, _, printed, quotable⟩ | _)
    · exact ⟨notQuote, printed, quotable⟩
    · exact absurd rfl notEscape
  · rintro ⟨notQuote, printed, quotable⟩
    exact .plain notQuote notEscape printed quotable

theorem quotable_escaped {char : Char} {rest : Text} :
    Quotable ('\\' :: char :: rest) ↔ char ≠ '\n' ∧ Quotable rest := by
  constructor
  · rintro (_ | ⟨_, notEscape, _, _⟩ | ⟨notFeed, quotable⟩)
    · exact absurd rfl notEscape
    · exact ⟨notFeed, quotable⟩
  · rintro ⟨notFeed, quotable⟩
    exact .escaped notFeed quotable

theorem HexUnit.quotable {digits rest : Text} {value : Nat} (shape : HexUnit digits value) :
    Quotable (digits ++ rest) ↔ Quotable rest := by
  obtain ⟨first, second, third, fourth⟩ := shape
  simp [quotable_plain, first.plain, second.plain, third.plain, fourth.plain]

theorem Spelling.quotable {written rest : Text} {char : Char} (spelling : Spelling written char) :
    Quotable (written ++ rest) ↔ Quotable rest := by
  cases spelling with
  | plain notQuote notEscape printed => simp [quotable_plain, notQuote, notEscape, printed]
  | @short letter _ member =>
      have notFeed : letter ≠ '\n' := by
        rintro rfl
        simp [shortEscapes] at member
      simp [quotable_escaped, notFeed]
  | code shape => simp [quotable_escaped, shape.quotable]
  | pair highShape _ _ lowShape _ _ _ =>
      simp [quotable_escaped, highShape.quotable, lowShape.quotable]

theorem Spelled.quotable {body value : Text} (spelled : Spelled body value) : Quotable body := by
  induction spelled with
  | nil => exact .nil
  | cons spelling _ ih => exact spelling.quotable.mpr ih

theorem Quotable.decodePart?_iff {body value : Text} (quotable : Quotable body) :
    Quoted.decodePart? body = some value ↔ Spelled body value := by
  constructor
  · intro found
    induction body using Quoted.decodePart?.induct generalizing value with
    | case1 =>
        rw [Quoted.decodePart?] at found
        obtain rfl := Option.some.inj found
        exact .nil
    | case2 rest failed =>
        rw [Quoted.decodePart?, if_pos rfl, failed] at found
        cases found
    | case3 rest char after taken ih =>
        -- An escape may be longer than the two characters that the lexer skips; the rest are plain.
        obtain ⟨left, shorter⟩ := after
        obtain ⟨written, rfl, spelling⟩ := Quoted.escape?_sound ⟨_, taken⟩
        have behind : Quotable left := spelling.quotable.mp quotable
        rw [Quoted.decodePart?_escape ⟨_, taken⟩, Option.map_eq_some_iff] at found
        obtain ⟨others, decoded, rfl⟩ := found
        exact .cons spelling (ih behind decoded)
    | case4 char rest notEscape ih =>
        rw [quotable_plain notEscape] at quotable
        rw [Quoted.decodePart?, if_neg notEscape, Option.map_eq_some_iff] at found
        obtain ⟨others, decoded, rfl⟩ := found
        obtain ⟨notQuote, printed, behind⟩ := quotable
        exact .cons (.plain notQuote notEscape printed) (ih behind decoded)
  · intro spelled
    clear quotable
    induction spelled with
    | nil => rw [Quoted.decodePart?]
    | cons spelling _ ih => rw [Quoted.decodePart?_spelling spelling, ih, Option.map_some]

theorem decode?_quoted (body : Text) :
    Quoted.decode? ('"' :: body ++ ['"']) = Quoted.decodePart? body := by
  simp [Quoted.decode?]

end QueryWorkbench.Json
