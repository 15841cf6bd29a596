import Mathlib.Data.List.Pairwise
import QueryWorkbench.Proofs.JsonCodec

/-! Tokens and the whole of the source. Every byte of a document is in one token or is white space
between tokens; a token is the longest match where it starts, and garbage stands only where nothing
matches. -/

namespace QueryWorkbench.Json

open Text

inductive Pattern : TokenKind → Text → Prop
  | token {kind : TokenKind} {written : Text} : Shape kind written → Pattern kind written
  | blank {written : Text} : written ≠ [] → Blanks written → Pattern .blank written

structure LongestMatch (text : Text) (kind : TokenKind) (written : Text) : Prop where
  starts : written <+: text
  shape : Shape kind written
  longest : ∀ other shorter, Pattern other shorter → shorter <+: text →
    shorter.length ≤ written.length
  only : ∀ other, Pattern other written → other = kind

def Unmatched (text : Text) : Prop := ∀ kind written, Pattern kind written → ¬ written <+: text

theorem Pattern.ne_nil {kind : TokenKind} {written : Text} (pattern : Pattern kind written) :
    written ≠ [] := by
  cases pattern with
  | token shape => exact shape.ne_nil
  | blank nonempty _ => exact nonempty

/-! The lexer takes at least every numeral that a text starts with. -/

theorem prefix_takeWhile {text part rest : Text} {passes : Char → Bool}
    (split : text = part ++ rest) (all : ∀ char ∈ part, passes char = true) :
    part <+: text.takeWhile passes := by
  rw [split, List.takeWhile_append_of_pos all]
  exact List.prefix_append ..

theorem Whole.prefix_integerPart {whole : Text} (shape : Whole whole) (rest : Text) :
    whole <+: Json.integerPart (whole ++ rest) := by
  cases shape with
  | zero => exact List.prefix_rfl
  | @other first digits digit notZero all =>
      rw [List.cons_append, Json.integerPart.eq_2 _ (by simp [notZero])]
      refine prefix_takeWhile (List.cons_append ..).symm ?_
      intro char member
      exact isDigit_iff.mpr (List.forall_mem_cons.mpr ⟨digit, all⟩ char member)

theorem Digits.takeWhile_ne_nil {digits : Text} (shape : Digits digits) (rest : Text) :
    (digits ++ rest).takeWhile Char.isDigit ≠ [] := by
  obtain ⟨first, others, rfl⟩ := List.exists_cons_of_ne_nil shape.some
  have digit := isDigit_iff.mpr (shape.all first (List.mem_cons_self ..))
  simp [digit]

theorem Digits.prefix_takeWhile {digits : Text} (shape : Digits digits) (rest : Text) :
    digits <+: (digits ++ rest).takeWhile Char.isDigit :=
  Json.prefix_takeWhile rfl fun char member => isDigit_iff.mpr (shape.all char member)

theorem Fraction.prefix_fractionPart {fraction : Text} (shape : Fraction fraction) (rest : Text) :
    fraction <+: Json.fractionPart (fraction ++ rest) := by
  cases shape with
  | absent => exact List.nil_prefix
  | @present digits shape =>
      rw [List.cons_append, Json.fractionPart]
      split
      · next none => exact absurd none (shape.takeWhile_ne_nil rest)
      · exact (List.prefix_cons_inj '.').mpr (shape.prefix_takeWhile rest)

theorem Exponent.prefix_exponentPart {exponent : Text} (shape : Exponent exponent) (rest : Text) :
    exponent <+: Json.exponentPart (exponent ++ rest) := by
  cases shape with
  | absent => exact List.nil_prefix
  | @present mark sign digits isMark signed shape =>
      have found : Json.exponentSign (sign ++ (digits ++ rest)) = sign := signed.exponentSign shape
      rw [List.append_assoc, List.cons_append, List.cons_append, Json.exponentPart]
      simp only [isMark, found, List.drop_left, Bool.or_eq_true, decide_eq_true_eq, ↓reduceIte]
      split
      · next none => exact absurd none (shape.takeWhile_ne_nil rest)
      · rw [List.cons_append, List.prefix_cons_inj]
        exact (List.prefix_append_right_inj sign).mpr (shape.prefix_takeWhile rest)

theorem Exponent.stops {exponent : Text} (shape : Exponent exponent) (present : exponent ≠ [])
    (rest : Text) :
    (exponent ++ rest).takeWhile Char.isDigit = [] ∧ Json.fractionPart (exponent ++ rest) = [] := by
  cases shape with
  | absent => exact (present rfl).elim
  | present isMark sign digits =>
      rcases isMark with rfl | rfl
      · exact ⟨takeWhile_stop (by decide), rfl⟩
      · exact ⟨takeWhile_stop (by decide), rfl⟩

theorem Whole.ne_nil {whole : Text} (shape : Whole whole) : whole ≠ [] := by
  cases shape <;> simp

theorem Whole.unsignedPart {whole rest left : Text} (shape : Whole whole)
    (stop : rest.takeWhile Char.isDigit = []) (split : Json.fractionPart rest ++ left = rest) :
    Json.unsignedPart (whole ++ rest) =
      whole ++ Json.fractionPart rest ++ Json.exponentPart left := by
  have taken := shape.integerPart stop
  have some : Json.integerPart (whole ++ rest) ≠ [] := by
    rw [taken]
    exact shape.ne_nil
  rw [unsignedPart_parts some (by rw [taken]) split, taken]

theorem integerPart_prefix_unsignedPart (text : Text) : integerPart text <+: unsignedPart text := by
  rw [unsignedPart]
  split
  · next none => rw [none]
  · rw [List.append_assoc]
    exact List.prefix_append ..

/-- A part that another one follows is taken exactly, and the last one at least. -/
theorem Unsigned.prefix_unsignedPart {part : Text} (shape : Unsigned part) (rest : Text) :
    part <+: Json.unsignedPart (part ++ rest) := by
  obtain @⟨whole, fraction, exponent, wholeShape, fractionShape, exponentShape⟩ := shape
  rw [List.append_assoc, List.append_assoc, List.append_assoc]
  by_cases present : exponent = []
  · subst present
    rw [List.append_nil, List.nil_append]
    cases fractionShape with
    | absent =>
        rw [List.append_nil, List.nil_append]
        exact (wholeShape.prefix_integerPart rest).trans (integerPart_prefix_unsignedPart _)
    | @present digits shape =>
        obtain ⟨_, left, split⟩ := fractionPart_sound ('.' :: digits ++ rest)
        have stop : ('.' :: digits ++ rest).takeWhile Char.isDigit = [] :=
          takeWhile_stop (by decide)
        have taken := (Fraction.present shape).prefix_fractionPart rest
        rw [wholeShape.unsignedPart stop split, List.append_assoc]
        exact (List.prefix_append_right_inj whole).mpr (taken.trans (List.prefix_append ..))
  · obtain ⟨stop, bare⟩ := exponentShape.stops present rest
    have taken := fractionShape.fractionPart stop bare
    rw [wholeShape.unsignedPart (fractionShape.takeWhile stop) (by rw [taken]), taken,
      List.append_assoc]
    exact (List.prefix_append_right_inj whole).mpr
      ((List.prefix_append_right_inj fraction).mpr (exponentShape.prefix_exponentPart rest))

theorem Numeral.prefix_numeral {char : Char} {taken : Text} (shape : Numeral (char :: taken))
    (rest : Text) : char :: taken <+: (Json.numeral char (taken ++ rest)).text := by
  cases shape with
  | positive unsigned =>
      obtain ⟨first, others, same, digit⟩ := unsigned.starts
      obtain ⟨rfl, rfl⟩ := List.cons.inj same
      rw [Json.numeral, if_neg digit.ne_minus]
      exact unsigned.prefix_unsignedPart rest
  | negative unsigned =>
      obtain ⟨first, others, rfl, digit⟩ := unsigned.starts
      have more := unsigned.prefix_unsignedPart rest
      rw [Json.numeral, if_pos rfl]
      split
      · next none =>
          rw [none] at more
          exact absurd (List.prefix_nil.mp more) (by simp)
      · exact (List.prefix_cons_inj '-').mpr more

/-- The first character of a text decides which pattern it can start with, and the lexer takes all
of it. -/
theorem Pattern.le_lexemeAt {kind : TokenKind} {written rest : Text} {char : Char}
    (pattern : Pattern kind written) (starts : written <+: char :: rest) :
    (lexemeAt char rest).kind = kind ∧ written.length ≤ (lexemeAt char rest).text.length := by
  obtain ⟨first, taken, rfl⟩ := List.exists_cons_of_ne_nil pattern.ne_nil
  obtain ⟨rfl, following, rfl⟩ := List.cons_prefix_cons.mp starts
  cases pattern with
  | token shape =>
      by_cases number : kind = .number
      · subst number
        rw [lexemeAt_numeral _ shape.numeral.starts]
        exact ⟨numeral_kind shape.numeral following,
          (shape.numeral.prefix_numeral following).length_le⟩
      · rw [shape.lexemeAt fun isNumber => absurd isNumber number]
        exact ⟨rfl, Nat.le_refl _⟩
  | blank _ all =>
      obtain ⟨space, later⟩ := List.forall_mem_cons.mp all
      rw [lexemeAt_blank _ space]
      have longer : taken <+: (taken ++ following).takeWhile isBlank :=
        prefix_takeWhile rfl fun other member => isBlank_iff.mpr (later other member)
      exact ⟨rfl, Nat.succ_le_succ longer.length_le⟩

theorem longestMatch_lexemeAt {char : Char} {rest left : Text}
    (cut : Cut (char :: rest) (lexemeAt char rest) left)
    (shape : Shape (lexemeAt char rest).kind (lexemeAt char rest).text) :
    LongestMatch (char :: rest) (lexemeAt char rest).kind (lexemeAt char rest).text where
  starts := ⟨left, cut.split.symm⟩
  shape := shape
  longest := fun _ _ pattern starts => (pattern.le_lexemeAt starts).2
  only := fun _ pattern => (pattern.le_lexemeAt ⟨left, cut.split.symm⟩).1.symm

theorem unmatched_of_garbage {char : Char} {rest : Text}
    (garbage : (lexemeAt char rest).kind = .garbage) : Unmatched (char :: rest) := by
  intro kind written pattern starts
  obtain ⟨same, _⟩ := pattern.le_lexemeAt starts
  rw [garbage] at same
  subst same
  cases pattern with
  | token shape => exact shape.kind_ne.1 rfl

theorem matched_of_lexemeAt {char : Char} {rest : Text}
    (known : (lexemeAt char rest).kind ≠ .garbage) : ¬ Unmatched (char :: rest) := by
  intro unmatched
  obtain ⟨left, cut⟩ := cut_lexemeAt char rest
  rcases cut.known with garbage | ⟨_, blanks⟩ | shape
  · exact known garbage
  · exact unmatched _ _ (.blank cut.nonempty blanks) ⟨left, cut.split.symm⟩
  · exact unmatched _ _ (.token shape) ⟨left, cut.split.symm⟩

theorem joinGarbage_run {char : Char} {rest : Text}
    (garbage : (lexemeAt char rest).kind = .garbage) :
    ∃ part left, char :: rest = part ++ left ∧ part ≠ [] ∧ (left ≠ [] → ¬ Unmatched left) ∧
      joinGarbage (lexemes (char :: rest)) = ⟨.garbage, part⟩ :: joinGarbage (lexemes left) := by
  induction size : rest.length using Nat.strongRecOn generalizing char rest with
  | ind count ih =>
      obtain ⟨left, cut⟩ := cut_lexemeAt char rest
      have lexeme : lexemeAt char rest = ⟨.garbage, (lexemeAt char rest).text⟩ := by rw [← garbage]
      cases left with
      | nil =>
          refine ⟨_, [], cut.split, cut.nonempty, by simp, ?_⟩
          rw [lexemes_cut cut, lexeme, lexemes]
          rfl
      | cons next others =>
          rw [lexemes_cut cut]
          by_cases more : (lexemeAt next others).kind = .garbage
          · have shorter : others.length < count := by
              have lengths := congrArg List.length cut.split
              have positive := List.length_pos_iff.mpr cut.nonempty
              simp only [List.length_append, List.length_cons] at lengths
              omega
            obtain ⟨part, left, split, _, ends, joined⟩ := ih others.length shorter more rfl
            refine ⟨(lexemeAt char rest).text ++ part, left, ?_, by simp [cut.nonempty], ends, ?_⟩
            · rw [cut.split, split, List.append_assoc]
            · rw [joinGarbage, joined]
              simp [garbage]
          · refine ⟨_, next :: others, cut.split, cut.nonempty, fun _ =>
              matched_of_lexemeAt more, ?_⟩
            obtain ⟨after, nextCut⟩ := cut_lexemeAt next others
            rw [lexemes_cut nextCut, joinGarbage, joinGarbage_cons _ more]
            simp only [more, and_false, if_false]
            rw [← lexeme]

/-! How the tokens of a text lie in it. -/

/-- Tokens of a text that stands at an offset, with white space before and behind each. -/
inductive Laid : Nat → Text → List Token → Prop
  | blank {offset : Nat} {text : Text} : Blanks text → Laid offset text []
  | token {offset : Nat} {before written rest : Text} {kind : TokenKind} {tokens : List Token} :
      Blanks before → LongestMatch (written ++ rest) kind written →
      Laid (offset + byteLength before + byteLength written) rest tokens →
      Laid offset (before ++ (written ++ rest))
        (⟨kind, offset + byteLength before, written⟩ :: tokens)
  | garbage {offset : Nat} {before written rest : Text} {tokens : List Token} :
      Blanks before → written ≠ [] → Unmatched (written ++ rest) → (rest ≠ [] → ¬ Unmatched rest) →
      Laid (offset + byteLength before + byteLength written) rest tokens →
      Laid offset (before ++ (written ++ rest))
        (⟨.garbage, offset + byteLength before, written⟩ :: tokens)

theorem Laid.behind {offset : Nat} {text : Text} {tokens : List Token} {space : Char}
    (isSpace : IsSpace space) (laid : Laid (offset + space.utf8Size) text tokens) :
    Laid offset (space :: text) tokens := by
  have longer {before : Text} (blanks : Blanks before) : Blanks (space :: before) :=
    List.forall_mem_cons.mpr ⟨isSpace, blanks⟩
  cases laid with
  | blank blanks => exact .blank (longer blanks)
  | token blanks longest later =>
      rw [Nat.add_assoc offset, ← byteLength_cons] at later ⊢
      exact .token (longer blanks) longest later
  | garbage blanks nonempty unmatched ends later =>
      rw [Nat.add_assoc offset, ← byteLength_cons] at later ⊢
      exact .garbage (longer blanks) nonempty unmatched ends later

theorem laid_tokensFrom (offset : Nat) (text : Text) :
    Laid offset text (tokensFrom offset text) := by
  induction size : text.length using Nat.strongRecOn generalizing offset text with
  | ind count ih =>
      cases text with
      | nil =>
          rw [tokensFrom_nil]
          exact .blank blanks_nil
      | cons char rest =>
          have shorter {part left : Text} (split : char :: rest = part ++ left)
            (nonempty : part ≠ []) :
              left.length < count := by
            have lengths := congrArg List.length split
            have positive := List.length_pos_iff.mpr nonempty
            rw [List.length_append] at lengths
            omega
          obtain ⟨left, cut⟩ := cut_lexemeAt char rest
          rcases cut.known with garbage | ⟨_, spaces⟩ | shape
          · obtain ⟨part, left, split, nonempty, ends, joined⟩ := joinGarbage_run garbage
            have unmatched := unmatched_of_garbage garbage
            rw [tokensFrom, joined, located, if_neg (by simp), split]
            rw [split] at unmatched
            exact .garbage blanks_nil nonempty unmatched ends
              (ih _ (shorter split nonempty) _ _ rfl)
          · have space := cut.isSpace spaces
            rw [tokensFrom_blank rest space]
            exact (ih _ (@shorter [char] rest rfl (by simp)) _ _ rfl).behind space
          · have longest := longestMatch_lexemeAt cut shape
            rw [cut.tokensFrom shape offset]
            have later := ih _ (shorter cut.split cut.nonempty)
              (offset + byteLength (lexemeAt char rest).text) left rfl
            generalize lexemeAt char rest = lexeme at *
            obtain ⟨kind, written⟩ := lexeme
            have split := cut.split
            rw [split] at longest ⊢
            exact .token blanks_nil longest later

def Token.Covers (token : Token) (offset : Nat) : Prop := token.start ≤ offset ∧ offset < token.stop

def SpaceAt (text : Text) (offset : Nat) : Prop :=
  ∃ before space after, text = before ++ space :: after ∧ IsSpace space ∧ byteLength before = offset

theorem SpaceAt.behind {text : Text} {offset : Nat} (spaceAt : SpaceAt text offset) (front : Text) :
    SpaceAt (front ++ text) (byteLength front + offset) := by
  obtain ⟨before, space, after, rfl, isSpace, rfl⟩ := spaceAt
  exact ⟨front ++ before, space, after, by simp, isSpace, by simp⟩

theorem spaceAt_blanks {blanks : Text} (all : Blanks blanks) (rest : Text) {offset : Nat}
    (inside : offset < byteLength blanks) : SpaceAt (blanks ++ rest) offset := by
  induction blanks generalizing offset with
  | nil => simp at inside
  | cons space others ih =>
      obtain ⟨isSpace, later⟩ := List.forall_mem_cons.mp all
      have single : space.utf8Size = 1 := by
        rcases isSpace with rfl | rfl | rfl | rfl <;> decide
      rw [byteLength_cons, single] at inside
      by_cases first : offset = 0
      · subst first
        exact ⟨[], space, others ++ rest, rfl, isSpace, rfl⟩
      · have inner : offset - 1 < byteLength others := by omega
        have found := (ih later inner).behind [space]
        have place : byteLength [space] + (offset - 1) = offset := by
          rw [byteLength_cons, single, byteLength_nil]
          omega
        rwa [place] at found

section Laid

variable {offset : Nat} {text : Text} {tokens : List Token}

theorem covered_step {before written rest : Text} {kind : TokenKind} (blanks : Blanks before)
    (later : ∀ place < byteLength rest, (∃ token ∈ tokens,
      token.Covers (offset + byteLength before + byteLength written + place)) ∨ SpaceAt rest place)
    {place : Nat} (inside : place < byteLength (before ++ (written ++ rest))) :
    (∃ token ∈ ⟨kind, offset + byteLength before, written⟩ :: tokens,
      token.Covers (offset + place)) ∨ SpaceAt (before ++ (written ++ rest)) place := by
  rw [byteLength_append, byteLength_append] at inside
  by_cases ahead : place < byteLength before
  · exact .inr (spaceAt_blanks blanks _ ahead)
  · by_cases within : place < byteLength before + byteLength written
    · refine .inl ⟨_, List.mem_cons_self .., ?_⟩
      simp only [Token.Covers, Token.stop]
      omega
    · obtain ⟨more, rfl⟩ := Nat.exists_eq_add_of_le (Nat.le_of_not_lt within)
      rcases later more (by omega) with ⟨token, member, covers⟩ | spaceAt
      · refine .inl ⟨token, List.mem_cons_of_mem _ member, ?_⟩
        simpa only [Nat.add_assoc] using covers
      · right
        have found := spaceAt.behind (before ++ written)
        rwa [byteLength_append, List.append_assoc] at found

theorem Laid.covered (laid : Laid offset text tokens) : ∀ place < byteLength text,
    (∃ token ∈ tokens, token.Covers (offset + place)) ∨ SpaceAt text place := by
  induction laid with
  | @blank offset text blanks =>
      intro place inside
      have found := spaceAt_blanks blanks [] inside
      rw [List.append_nil] at found
      exact .inr found
  | token blanks _ _ ih => exact fun place inside => covered_step blanks ih inside
  | garbage blanks _ _ _ _ ih => exact fun place inside => covered_step blanks ih inside

theorem Laid.le_start (laid : Laid offset text tokens) :
    ∀ token ∈ tokens, offset ≤ token.start := by
  induction laid with
  | blank => simp
  | token _ _ _ ih | garbage _ _ _ _ _ ih =>
      refine List.forall_mem_cons.mpr ⟨Nat.le_add_right .., ?_⟩
      intro token member
      have later := ih token member
      omega

theorem Laid.lt_garbage (laid : Laid offset text tokens) (matched : text ≠ [] → ¬ Unmatched text) :
    ∀ token ∈ tokens, token.kind = .garbage → offset < token.start := by
  have behind {before written rest : Text} {tokens : List Token} (nonempty : written ≠ [])
      (later : Laid (offset + byteLength before + byteLength written) rest tokens) :
      ∀ token ∈ tokens, token.kind = .garbage → offset < token.start := by
    intro token member _
    have positive := byteLength_pos nonempty
    have start := later.le_start token member
    omega
  cases laid with
  | blank => simp
  | token _ longest later =>
      refine List.forall_mem_cons.mpr ⟨fun garbage => ?_, behind longest.shape.ne_nil later⟩
      exact absurd garbage longest.shape.kind_ne.1
  | @garbage _ before _ _ _ _ nonempty unmatched _ later =>
      refine List.forall_mem_cons.mpr ⟨fun _ => ?_, behind nonempty later⟩
      have some : before ≠ [] := by
        rintro rfl
        exact matched (by simp [nonempty]) unmatched
      exact Nat.lt_add_of_pos_right (byteLength_pos some)

theorem Laid.apart (laid : Laid offset text tokens) : tokens.Pairwise fun first second =>
    first.kind = .garbage → second.kind = .garbage → first.stop < second.start := by
  induction laid with
  | blank => exact .nil
  | token _ longest _ ih =>
      refine List.pairwise_cons.mpr ⟨fun second _ garbage => ?_, ih⟩
      exact absurd garbage longest.shape.kind_ne.1
  | garbage _ _ _ ends later ih =>
      exact List.pairwise_cons.mpr
        ⟨fun second member _ garbage => later.lt_garbage ends second member garbage, ih⟩

def Token.Matches (token : Token) (rest : Text) : Prop :=
  if token.kind = .garbage then Unmatched rest else LongestMatch rest token.kind token.text

theorem Laid.matches (laid : Laid offset text tokens) : ∀ token ∈ tokens,
    ∃ before rest, text = before ++ rest ∧ token.start = offset + byteLength before ∧
      token.Matches rest := by
  have behind {before written rest : Text} {tokens : List Token} {offset : Nat}
      (ih : ∀ token ∈ tokens, ∃ front left, rest = front ++ left ∧
        token.start = offset + byteLength before + byteLength written + byteLength front ∧
        token.Matches left) :
      ∀ token ∈ tokens, ∃ front left, before ++ (written ++ rest) = front ++ left ∧
        token.start = offset + byteLength front ∧ token.Matches left := by
    intro token member
    obtain ⟨front, left, rfl, start, matched⟩ := ih token member
    refine ⟨before ++ (written ++ front), left, by simp, ?_, matched⟩
    rw [start, byteLength_append, byteLength_append, Nat.add_assoc, Nat.add_assoc]
  induction laid with
  | blank => simp
  | token _ longest _ ih =>
      refine List.forall_mem_cons.mpr ⟨⟨_, _, rfl, rfl, ?_⟩, behind ih⟩
      rw [Token.Matches, if_neg longest.shape.kind_ne.1]
      exact longest
  | garbage _ _ unmatched _ _ ih =>
      refine List.forall_mem_cons.mpr ⟨⟨_, _, rfl, rfl, ?_⟩, behind ih⟩
      rw [Token.Matches, if_pos rfl]
      exact unmatched

end Laid

theorem eq_of_covers {source : Text} {first second : Token} {offset : Nat}
    (member : first ∈ tokensFrom 0 source) (other : second ∈ tokensFrom 0 source)
    (covers : first.Covers offset) (again : second.Covers offset) : first = second := by
  have apart : (tokensFrom 0 source).Pairwise fun first second =>
      first.stop ≤ second.start ∨ second.stop ≤ first.start :=
        (tokensFrom_ordered source).1.imp .inl
  by_contra different
  obtain ⟨start, stop⟩ := covers
  obtain ⟨start', stop'⟩ := again
  have :
      Std.Symm fun first second : Token => first.stop ≤ second.start ∨ second.stop ≤ first.start :=
    ⟨fun _ _ => Or.symm⟩
  rcases apart.forall member other different with before | behind
  · omega
  · omega

/-- In a source that is short enough for its offsets, tokens stand where they say, one behind the
other, and every byte is in one of them or is white space. A token is the longest match of the
source from its start on, nothing matches where garbage starts, and garbage never touches
garbage. -/
theorem tokens_tile_source {source : Text} (short : byteLength source < offsetLimit) :
    (∀ token ∈ tokens source, token.text ≠ [] ∧ source.Holds token.span token.text) ∧
    (tokens source).Pairwise (fun first second => first.stop ≤ second.start) ∧
    (∀ offset < byteLength source,
      (∃! token, token ∈ tokens source ∧ token.Covers offset) ∨
        SpaceAt source offset ∧ ∀ token ∈ tokens source, ¬ token.Covers offset) ∧
    (∀ token ∈ tokens source, token.kind ≠ .garbage →
      LongestMatch (dropBytes token.start source) token.kind token.text) ∧
    (∀ token ∈ tokens source, token.kind = .garbage → Unmatched (dropBytes token.start source)) ∧
    (tokens source).Pairwise fun first second =>
      first.kind = .garbage → second.kind = .garbage → first.stop < second.start := by
  rw [tokens_eq short]
  have laid : Laid 0 source (tokensFrom 0 source) := laid_tokensFrom 0 source
  have matched : ∀ token ∈ tokensFrom 0 source, token.Matches (dropBytes token.start source) := by
    intro token member
    obtain ⟨before, rest, rfl, start, matched⟩ := laid.matches token member
    rwa [start, Nat.zero_add, dropBytes_append]
  refine ⟨?_, (tokensFrom_ordered source).1, ?_, ?_, ?_, laid.apart⟩
  · intro token member
    refine ⟨?_, holds_of_mem member⟩
    intro empty
    have proper := ((tokensFrom_ordered source).2 token member).1
    rw [Token.stop, empty, byteLength_nil] at proper
    omega
  · intro offset inside
    by_cases covered : ∃ token ∈ tokensFrom 0 source, token.Covers offset
    · obtain ⟨token, member, covers⟩ := covered
      refine .inl ⟨token, ⟨member, covers⟩, ?_⟩
      rintro other ⟨otherMember, otherCovers⟩
      exact eq_of_covers otherMember member otherCovers covers
    · right
      rw [not_exists] at covered
      have found := laid.covered offset inside
      rw [Nat.zero_add] at found
      refine ⟨found.resolve_left ?_, ?_⟩
      · rintro ⟨token, both⟩
        exact covered token both
      · exact fun token member covers => covered token ⟨member, covers⟩
  · intro token member known
    have found := matched token member
    rwa [Token.Matches, if_neg known] at found
  · intro token member garbage
    have found := matched token member
    rwa [Token.Matches, if_pos garbage] at found

def brokenSource : Text := ['1', '.', 'é', '"', 'a', '\t', ' ', 't', 'r', 'u']

/-- A string without its closing quote joins the garbage before it and ends at the tab. -/
theorem tokens_tile_source_broken :
    byteLength brokenSource < offsetLimit ∧
      tokens brokenSource =
        [⟨.number, 0, ['1']⟩, ⟨.garbage, 1, ['.', 'é', '"', 'a']⟩, ⟨.garbage, 8, ['t', 'r', 'u']⟩] ∧
      LongestMatch brokenSource .number ['1'] ∧ Unmatched ['t', 'r', 'u'] ∧
      SpaceAt brokenSource 7 := by
  have lexed : tokens brokenSource =
      [⟨.number, 0, ['1']⟩, ⟨.garbage, 1, ['.', 'é', '"', 'a']⟩,
        ⟨.garbage, 8, ['t', 'r', 'u']⟩] := by
    decide +kernel
  have short : byteLength brokenSource < offsetLimit := by decide
  obtain ⟨_, _, covered, longest, unmatched, _⟩ := tokens_tile_source short
  rw [lexed] at covered longest unmatched
  refine ⟨short, lexed, longest ⟨.number, 0, ['1']⟩ (by simp) (by decide),
    unmatched ⟨.garbage, 8, ['t', 'r', 'u']⟩ (by simp) rfl, ?_⟩
  rcases covered 7 (by decide) with ⟨token, ⟨member, start, stop⟩, _⟩ | ⟨spaceAt, _⟩
  · exfalso
    simp only [List.mem_cons, List.not_mem_nil, or_false] at member
    rcases member with rfl | rfl | rfl
    · exact absurd stop (by decide)
    · exact absurd stop (by decide)
    · exact absurd start (by decide)
  · exact spaceAt

end QueryWorkbench.Json
