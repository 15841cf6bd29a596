import Mathlib.Data.List.Infix
import QueryWorkbench.Proofs.StatedOffsets

/-! What is left of a compiler message. Every stated offset is taken out in one pass from the left,
so none is left in the pieces between them; but where an offset stood inside the mark of another
one, the pieces join to a new offset. -/

namespace QueryWorkbench.Message

def Marked (text : Text) : Prop := ∃ before, MarkedBehind text before

/-- The pieces of a text around its stated offsets. Each time the first offset is taken out, with
all its digits. -/
inductive Parts : Text → List Text → Prop
  | whole {text : Text} : ¬ Marked text → Parts text [text]
  | cut {text before rest digits after : Text} {pieces : List Text} : text = before ++ rest →
      Fragment rest digits after →
      (∀ earlier, MarkedBehind text earlier → before.length ≤ earlier.length) →
      Parts after pieces → Parts text (before :: pieces)

/-- A mark with a digit that only arises between pieces: one side ends with the first part of the
mark, the other starts with the rest of it and the digit. -/
def Rejoins (pieces : List Text) : Prop :=
  ∃ left right start rest digit, pieces = left ++ right ∧ offsetMark = start ++ rest ∧
    start ≠ [] ∧ rest ≠ [] ∧
    isDecimalDigit digit = true ∧ start <:+ left.flatten ∧ rest ++ [digit] <+: right.flatten

def ellipsis : Text := ['.', '.', '.']

def LessEllipsis (text result : Text) : Prop :=
  text = result ++ ellipsis ∨ ¬ ellipsis <:+ text ∧ result = text

theorem Marked.append {text : Text} (marked : Marked text) (more : Text) :
    Marked (text ++ more) := by
  obtain ⟨before, digit, after, rfl, decimal⟩ := marked
  exact ⟨before, digit, after ++ more, by simp, decimal⟩

theorem marked_cons {char : Char} {rest : Text} :
    Marked (char :: rest) ↔ MarkedBehind (char :: rest) [] ∨ Marked rest := by
  constructor
  · rintro ⟨before, marked⟩
    cases before with
    | nil => exact .inl marked
    | cons first before =>
        have same : first = char := by
          obtain ⟨digit, after, split, _⟩ := marked
          exact (List.cons.inj split).1.symm
        subst same
        exact .inr ⟨before, markedBehind_cons.mp marked⟩
  · rintro (here | ⟨before, later⟩)
    · exact ⟨[], here⟩
    · exact ⟨char :: before, markedBehind_cons.mpr later⟩

theorem not_marked_nil : ¬ Marked [] := by
  rintro ⟨before, digit, after, split, _⟩
  simp [offsetMark] at split

instance decidableMarked : (text : Text) → Decidable (Marked text)
  | [] => .isFalse not_marked_nil
  | char :: rest =>
      have : Decidable (Marked rest) := decidableMarked rest
      have : Decidable (MarkedBehind (char :: rest) []) :=
        decidable_of_iff (offsetDigits? (char :: rest) ≠ none)
          (by rw [ne_eq, offsetDigits?_eq_none, not_not])
      decidable_of_iff (MarkedBehind (char :: rest) [] ∨ Marked rest) marked_cons.symm

theorem Fragment.marked_behind {rest digits after : Text} (fragment : Fragment rest digits after)
    (before : Text) : Marked (before ++ rest) := by
  obtain ⟨digit, behind, mark, decimal⟩ := fragment.marked
  exact ⟨before, digit, behind, by rw [mark, List.nil_append], decimal⟩

theorem statedOffset?_of_not_marked {text : Text} (unmarked : ¬ Marked text) :
    statedOffset? text = none := by
  rw [Option.eq_none_iff_forall_ne_some]
  intro value stated
  obtain ⟨digits, ⟨before, rest, after, rfl, fragment, _⟩, _⟩ := statedOffset?_eq_some.mp stated
  exact unmarked (fragment.marked_behind before)

theorem not_marked_of_first {text before rest : Text} (split : text = before ++ rest)
    (first : ∀ earlier, MarkedBehind text earlier → before.length ≤ earlier.length) :
    ¬ Marked before := by
  rintro ⟨earlier, digit, after, inside, decimal⟩
  have bound := first earlier ⟨digit, after ++ rest, by simp [split, inside], decimal⟩
  rw [inside] at bound
  simp [offsetMark] at bound

theorem Parts.not_marked {text : Text} {pieces : List Text} (parts : Parts text pieces) :
    ∀ piece ∈ pieces, ¬ Marked piece := by
  induction parts with
  | whole unmarked => simpa using unmarked
  | cut split fragment first parts ih =>
      exact List.forall_mem_cons.mpr ⟨not_marked_of_first split first, ih⟩

theorem Parts.cons {char : Char} {rest : Text} {pieces : List Text}
    (unmarked : ¬ MarkedBehind (char :: rest) []) (parts : Parts rest pieces) :
    ∃ first others,
      pieces = first :: others ∧ Parts (char :: rest) ((char :: first) :: others) := by
  cases parts with
  | whole clean =>
      refine ⟨rest, [], rfl, .whole ?_⟩
      rw [marked_cons]
      exact not_or.mpr ⟨unmarked, clean⟩
  | @cut _ before left digits after others split fragment first parts =>
      refine ⟨before, others, rfl, .cut (by rw [split, List.cons_append]) fragment ?_ parts⟩
      intro earlier marked
      cases earlier with
      | nil => exact absurd marked unmarked
      | cons same earlier =>
          obtain ⟨digit, behind, inside, decimal⟩ := marked
          exact Nat.succ_le_succ (first earlier ⟨digit, behind, (List.cons.inj inside).2, decimal⟩)

theorem exists_parts (text : Text) :
    ∃ pieces, Parts text pieces ∧ dropOffsets text = pieces.flatten := by
  fun_induction dropOffsets text with
  | case1 => exact ⟨[[]], .whole not_marked_nil, rfl⟩
  | case2 char rest digits found ih =>
      obtain ⟨after, fragment⟩ := offsetDigits?_eq_some.mp found
      have behind : rest.drop (offsetMark.length - 1 + digits.length) = after := by
        have size :
            offsetMark.length + digits.length = offsetMark.length - 1 + digits.length + 1 := by
          simp only [offsetMark, List.length_cons, List.length_nil]
          omega
        rw [← List.drop_succ_cons, ← size,
          fragment.split, ← List.append_assoc, ← List.length_append, List.drop_left]
      rw [behind] at ih ⊢
      obtain ⟨pieces, parts, kept⟩ := ih
      exact ⟨[] :: pieces, .cut rfl fragment (fun _ _ => Nat.zero_le _) parts, kept⟩
  | case3 char rest none ih =>
      obtain ⟨pieces, parts, kept⟩ := ih
      obtain ⟨first, others, rfl, longer⟩ := parts.cons (offsetDigits?_eq_none.mp none)
      exact ⟨(char :: first) :: others, longer, by rw [kept]; rfl⟩

theorem Parts.eq_whole {text : Text} {pieces : List Text} (parts : Parts text pieces)
    (unmarked : ¬ Marked text) : pieces = [text] := by
  cases parts with
  | whole _ => rfl
  | @cut _ before rest digits after others split fragment first parts =>
      rw [split] at unmarked
      exact absurd (fragment.marked_behind before) unmarked

/-- Nothing that is left behind an offset starts with a digit, since its digits are all taken
out. -/
theorem Parts.head_not_digit {text : Text} {pieces : List Text} (parts : Parts text pieces)
    (ends : ∀ next, text.head? = some next → isDecimalDigit next = false) :
    ∀ next, pieces.flatten.head? = some next → isDecimalDigit next = false := by
  induction parts with
  | whole unmarked => simpa using ends
  | @cut text before rest digits after pieces split fragment first parts ih =>
      cases before with
      | nil => exact ih fragment.ends
      | cons char others => simpa [split] using ends

theorem Rejoins.cons {pieces : List Text} (rejoins : Rejoins pieces) (piece : Text) :
    Rejoins (piece :: pieces) := by
  obtain ⟨left, right, start, rest, digit, rfl, mark, some, more, decimal, stops, starts⟩ := rejoins
  refine ⟨piece :: left, right, start, rest, digit, rfl, mark, some, more, decimal, ?_, starts⟩
  rw [List.flatten_cons]
  exact stops.trans (List.suffix_append ..)

theorem Rejoins.marked {pieces : List Text} (rejoins : Rejoins pieces) : Marked pieces.flatten := by
  obtain ⟨left, right, start, rest, digit, rfl, mark, _, _, decimal, ⟨before, stops⟩,
    ⟨after, starts⟩⟩ := rejoins
  refine ⟨before, digit, after, ?_, decimal⟩
  rw [List.flatten_append, ← stops, ← starts, mark]
  simp

theorem rejoins_of_across {piece part : Text} {pieces : List Text} {digit : Char} {after : Text}
    (clean : ¬ Marked piece)
    (ends : ∀ next, pieces.flatten.head? = some next → isDecimalDigit next = false)
    (decimal : isDecimalDigit digit = true) (some : part ≠ []) (stops : part <:+ piece)
    (across : part ++ pieces.flatten = offsetMark ++ digit :: after) :
    Rejoins (piece :: pieces) := by
  have apart : pieces.flatten ≠ digit :: after := by
    intro starts
    have other := ends digit (by rw [starts]; rfl)
    rw [decimal] at other
    cases other
  rcases List.append_eq_append_iff.mp across with ⟨rest, mark, behind⟩ | ⟨more, longer, left⟩
  · have proper : rest ≠ [] := by
      rintro rfl
      exact apart behind
    refine ⟨[piece], pieces, part, rest, digit, rfl, mark, some, proper,
      decimal, by simpa using stops, after, ?_⟩
    rw [behind, List.append_assoc, List.singleton_append]
  · exfalso
    cases more with
    | nil => exact apart left.symm
    | cons first more =>
        obtain ⟨rfl, _⟩ := List.cons.inj left
        obtain ⟨before, rfl⟩ := stops
        exact clean ⟨before, digit, more, by rw [longer], decimal⟩

theorem Parts.marked_iff {text : Text} {pieces : List Text} (parts : Parts text pieces) :
    Marked pieces.flatten ↔ Rejoins pieces := by
  refine ⟨?_, Rejoins.marked⟩
  induction parts with
  | whole unmarked =>
      intro marked
      exact absurd (by simpa using marked) unmarked
  | @cut text before rest digits after pieces split fragment first parts ih =>
      rintro ⟨earlier, digit, behind, joined, decimal⟩
      have ends := parts.head_not_digit fragment.ends
      have clean := not_marked_of_first split first
      -- The mark starts behind the first piece, or inside it and then lies across the cut.
      rcases List.append_eq_append_iff.mp joined with ⟨gap, _, later⟩ | ⟨part, longer, across⟩
      · exact (ih ⟨gap, digit, behind, later, decimal⟩).cons before
      · by_cases none : part = []
        · subst none
          exact (ih ⟨[], digit, behind, across.symm, decimal⟩).cons before
        · exact rejoins_of_across clean ends decimal none ⟨earlier, longer.symm⟩ across.symm

theorem lessEllipsis_dropEllipsis (text : Text) : LessEllipsis text (dropEllipsis text) := by
  unfold dropEllipsis
  split
  next final =>
    obtain ⟨rest, rfl⟩ := List.isSuffixOf_iff_suffix.mp final
    left
    simp [ellipsis]
  next other =>
    right
    exact ⟨fun suffix => other (List.isSuffixOf_iff_suffix.mpr suffix), rfl⟩

theorem marked_of_append_dot {text : Text} (marked : Marked (text ++ ['.'])) : Marked text := by
  obtain ⟨before, digit, after, split, decimal⟩ := marked
  cases after using List.reverseRecOn with
  | nil =>
      rw [← List.append_assoc] at split
      obtain ⟨_, last⟩ := List.append_inj' split rfl
      obtain rfl : '.' = digit := by simpa using last
      exact absurd decimal (by decide)
  | append_singleton after last =>
      have longer :
          text ++ ['.'] = (before ++ (offsetMark ++ digit :: after)) ++ [last] := by simp [split]
      exact ⟨before, digit, after, (List.append_inj' longer rfl).1, decimal⟩

theorem LessEllipsis.marked_iff {text result : Text} (less : LessEllipsis text result) :
    Marked result ↔ Marked text := by
  rcases less with rfl | ⟨_, rfl⟩
  · have dots : result ++ ellipsis = ((result ++ ['.']) ++ ['.']) ++ ['.'] := by simp [ellipsis]
    constructor
    · exact fun marked => marked.append ellipsis
    · intro marked
      rw [dots] at marked
      exact marked_of_append_dot (marked_of_append_dot (marked_of_append_dot marked))
  · rfl

/-- A message is shown as the pieces around its stated offsets, less a final ellipsis. No piece
states an offset, so what is shown states one exactly where a mark with its digit joins from
different pieces; without such a place no offset can be read from it. A message that states none
only loses a final ellipsis. -/
theorem sanitize_leaves_pieces (message : String) :
    ∃ pieces, Parts message.toList pieces ∧ LessEllipsis pieces.flatten (sanitize message).toList ∧
      (∀ piece ∈ pieces, ¬ Marked piece) ∧ (Marked (sanitize message).toList ↔ Rejoins pieces) ∧
      (¬ Rejoins pieces → statedOffset? (sanitize message).toList = none) ∧
      (¬ Marked message.toList → LessEllipsis message.toList (sanitize message).toList) := by
  obtain ⟨pieces, parts, kept⟩ := exists_parts message.toList
  have less : LessEllipsis pieces.flatten (sanitize message).toList := by
    rw [sanitize, String.toList_ofList, kept]
    exact lessEllipsis_dropEllipsis pieces.flatten
  have joined : Marked (sanitize message).toList ↔ Rejoins pieces :=
    less.marked_iff.trans parts.marked_iff
  refine ⟨pieces, parts, less, parts.not_marked, joined, ?_, ?_⟩
  · intro apart
    exact statedOffset?_of_not_marked fun marked => apart (joined.mp marked)
  · intro unmarked
    rw [parts.eq_whole unmarked, List.flatten_singleton] at less
    exact less

def statedMessage : String := "Bad syntax at offset 12: (a..."

def plainMessage : String := "kept... in the middle"

theorem sanitize_leaves_pieces_apart :
    (∃ pieces, Parts statedMessage.toList pieces ∧ ¬ Rejoins pieces) ∧
      statedOffset? (sanitize statedMessage).toList = none ∧ ¬ Marked plainMessage.toList ∧
      LessEllipsis plainMessage.toList (sanitize plainMessage).toList := by
  obtain ⟨pieces, parts, _, _, joined, silent, _⟩ := sanitize_leaves_pieces statedMessage
  have shown : ¬ Marked (sanitize statedMessage).toList := by decide +kernel
  have apart : ¬ Rejoins pieces := fun rejoins => shown (joined.mpr rejoins)
  obtain ⟨_, _, _, _, _, _, only⟩ := sanitize_leaves_pieces plainMessage
  have unmarked : ¬ Marked plainMessage.toList := by decide +kernel
  exact ⟨⟨pieces, parts, apart⟩, silent apart, unmarked, only unmarked⟩

/-- The offset that stands inside the mark of another one is taken out, and the other one is then
shown and read. -/
theorem sanitize_joins_pieces :
    sanitize "x at of at offset 1fset 2" = "x at offset 2" ∧
      Marked (sanitize "x at of at offset 1fset 2").toList ∧
      statedOffset? (sanitize "x at of at offset 1fset 2").toList = some 2 := by
  decide +kernel

end QueryWorkbench.Message
