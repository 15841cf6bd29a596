import Mathlib.Data.List.Infix
import QueryWorkbench.Proofs.Lines

/-! Positions and offsets as inverses. Every offset of a text lies in a line, at or inside a
character of its content, at its end, or between the two characters of the line break behind it;
each case has its position, and from a position the offset is read back. -/

namespace QueryWorkbench

open Text

def Text.Boundary (text : Text) (offset : Nat) : Prop :=
  ∃ before after, text = before ++ after ∧ byteLength before = offset

theorem Text.Boundary.le_byteLength {text : Text} {offset : Nat} (boundary : text.Boundary offset) :
    offset ≤ byteLength text := by
  obtain ⟨before, after, rfl, rfl⟩ := boundary
  rw [byteLength_append]
  omega

/-- An offset between the carriage return and the line feed of one line break. -/
def Text.SplitsBreak (text : Text) (offset : Nat) : Prop :=
  ∃ before after, text = before ++ '\r' :: '\n' :: after ∧ byteLength before + 1 = offset

def Greatest (property : Nat → Prop) (number : Nat) : Prop :=
  property number ∧ ∀ other, property other → other ≤ number

theorem Greatest.eq_bound {property : Nat → Prop} {number bound : Nat}
    (greatest : Greatest (fun other => property other ∧ other ≤ bound) number)
    (holds : property bound) : number = bound := by
  have upper := greatest.2 bound ⟨holds, Nat.le_refl bound⟩
  exact Nat.le_antisymm greatest.1.2 upper

/-- The cut at the start of the character that an offset points into. -/
structure Reaches (before after : Text) (offset : Nat) : Prop where
  reached : byteLength before ≤ offset
  within : ∀ char, after.head? = some char → offset < byteLength before + char.utf8Size
  finished : after = [] → offset = byteLength before

theorem exists_reaches {text : Text} {offset : Nat} (inside : offset ≤ byteLength text) :
    ∃ before after, text = before ++ after ∧ Reaches before after offset := by
  induction text generalizing offset with
  | nil => exact ⟨[], [], rfl, Nat.zero_le _, by simp, by simpa using inside⟩
  | cons char rest ih =>
      rw [byteLength_cons] at inside
      by_cases here : offset < char.utf8Size
      · exact ⟨[], char :: rest, rfl, Nat.zero_le _, by simpa using here, by simp⟩
      · have left : offset - char.utf8Size ≤ byteLength rest := by omega
        obtain ⟨before, after, rfl, reaches⟩ := ih left
        have reached := reaches.reached
        refine ⟨char :: before, after, rfl, ?_, ?_, ?_⟩
        · rw [byteLength_cons]
          omega
        · intro next found
          have bound := reaches.within next found
          rw [byteLength_cons]
          omega
        · intro empty
          have done := reaches.finished empty
          rw [byteLength_cons]
          omega

theorem Reaches.greatest {before after : Text} {offset : Nat}
    (reaches : Reaches before after offset) :
    Greatest (fun other => (before ++ after).Boundary other ∧ other ≤ offset)
      (byteLength before) := by
  refine ⟨⟨⟨before, after, rfl, rfl⟩, reaches.reached⟩, ?_⟩
  rintro other ⟨⟨first, second, same, rfl⟩, bound⟩
  rcases List.append_eq_append_iff.mp same with ⟨middle, split, behind⟩ | ⟨middle, split, _⟩
  · cases middle with
    | nil => simp [split]
    | cons char rest =>
        have beyond := reaches.within char (by simp [behind])
        rw [split, byteLength_append, byteLength_cons] at bound
        omega
  · rw [split, byteLength_append]
    omega

theorem exists_between {first second before after : Text} (same : first ++ second = before ++ after)
    (order : byteLength first ≤ byteLength before) :
    ∃ middle, before = first ++ middle ∧ second = middle ++ after := by
  rcases List.append_eq_append_iff.mp same with ⟨middle, split, rest⟩ | ⟨middle, split, rest⟩
  · exact ⟨middle, split, rest⟩
  · cases middle with
    | nil => exact ⟨[], by simpa using split.symm, by simpa using rest.symm⟩
    | cons char others =>
        have positive := char.utf8Size_pos
        rw [split, byteLength_append, byteLength_cons] at order
        omega

theorem boundary_within {before content after : Text} {offset : Nat}
    (boundary : (before ++ (content ++ after)).Boundary offset) (above : byteLength before ≤ offset)
    (below : offset ≤ byteLength (before ++ content)) :
    ∃ first second, content = first ++ second ∧ offset = byteLength (before ++ first) := by
  obtain ⟨front, behind, same, rfl⟩ := boundary
  obtain ⟨first, rfl, rest⟩ := exists_between same above
  rw [byteLength_append, byteLength_append] at below
  obtain ⟨second, split, _⟩ := exists_between rest.symm (by omega)
  exact ⟨first, second, split, rfl⟩

namespace LineIndex

theorem table_split (before content after : Text) :
    (ofText (before ++ (content ++ after))).wideChars =
      (QueryWorkbench.wideChars 0 before ++ (QueryWorkbench.wideChars (byteLength before) content ++
        QueryWorkbench.wideChars (byteLength (before ++ content)) after)).toArray := by
  simp only [ofText, wideChars_append, byteLength_append, Nat.zero_add]

theorem wideWithin_line (before content after : Text) :
    (ofText (before ++ (content ++ after))).wideWithin (byteLength before)
      (byteLength (before ++ content)) = QueryWorkbench.wideChars (byteLength before) content := by
  apply wideWithin_eq (table_split before content after)
  · rw [byteLength_append]
    omega
  · intro wide member
    have bounds := mem_wideChars member
    omega
  · intro wide member
    have bounds := mem_wideChars member
    rw [byteLength_append]
    omega
  · intro wide member
    exact (mem_wideChars member).1

theorem wideWithin_inside {before content rest : Text} {char : Char} {more : Nat}
    (wide : ¬ char.toNat < 128) (entered : 0 < more) (bound : more < char.utf8Size) :
    (ofText (before ++ (content ++ char :: rest))).wideWithin (byteLength before)
        (byteLength (before ++ content) + more) =
      QueryWorkbench.wideChars (byteLength before) content ++
        [⟨byteLength (before ++ content), char.utf8Size, utf16Size char⟩] := by
  have table := table_split before content (char :: rest)
  have entry : QueryWorkbench.wideChars (byteLength (before ++ content)) (char :: rest) =
      [⟨byteLength (before ++ content), char.utf8Size, utf16Size char⟩] ++
        QueryWorkbench.wideChars (byteLength (before ++ content) + char.utf8Size) rest := by
    rw [QueryWorkbench.wideChars, if_neg wide, List.singleton_append]
  rw [entry, ← List.append_assoc (QueryWorkbench.wideChars (byteLength before) content)] at table
  have length := byteLength_append before content
  apply wideWithin_eq table
  · omega
  · intro other member
    have bounds := mem_wideChars member
    omega
  · intro other member
    rcases List.mem_append.mp member with inner | last
    · have bounds := mem_wideChars inner
      omega
    · rw [List.mem_singleton.mp last]
      dsimp only
      omega
  · intro other member
    have bounds := mem_wideChars member
    omega

theorem position_reaches {before content after : Text} {offset : Nat}
    (starts : StartsLine before (content ++ after)) (plain : WithinLine content)
    (reaches : Reaches (before ++ content) after offset) :
    (ofText (before ++ (content ++ after))).position offset =
      ⟨(lineBreaks 0 before).length, utf16Length content⟩ := by
  have inside : offset ≤ byteLength (before ++ (content ++ after)) := by
    rw [← List.append_assoc, byteLength_append]
    cases after with
    | nil =>
        have done := reaches.finished rfl
        omega
    | cons char rest =>
        have bound := reaches.within char rfl
        rw [byteLength_cons]
        omega
  have line :
      (ofText (before ++ (content ++ after))).lineOf offset = (lineBreaks 0 before).length := by
    rw [← List.append_assoc] at inside ⊢
    rw [lineOf_eq (starts.not_straddles plain) reaches.reached inside,
      lineBreaks_content starts plain]
    intro span member
    cases after with
    | nil => simp [lineBreaks] at member
    | cons char rest =>
        have bound := reaches.within char rfl
        have stop := stop_of_mem_lineBreaks member
        omega
  have clamped : min offset (ofText (before ++ (content ++ after))).length = offset :=
    Nat.min_eq_left inside
  have length := byteLength_append before content
  have reached := reaches.reached
  simp only [position, clamped, line, lineStart?_eq starts, Option.getD_some,
    Position.mk.injEq, true_and]
  by_cases exact : offset = byteLength (before ++ content)
  · rw [exact, wideWithin_line, foldl_widen (by omega) (by omega)]
    omega
  · cases after with
    | nil => exact (exact (reaches.finished rfl)).elim
    | cons char rest =>
        have bound := reaches.within char rfl
        have wide : ¬ char.toNat < 128 := by
          intro ascii
          have single := utf8Size_of_ascii ascii
          omega
        obtain ⟨more, rfl⟩ := Nat.exists_eq_add_of_le reached
        have partly : min more char.utf8Size = more := by omega
        rw [wideWithin_inside wide (by omega) (by omega), List.foldl_append,
          foldl_widen (by omega) (by omega), List.foldl_cons, List.foldl_nil]
        simp only [widen, Nat.add_sub_cancel_left, partly]
        rw [if_neg (by omega)]
        omega

theorem position_splitsBreak {before content rest : Text}
    (starts : StartsLine before (content ++ '\r' :: '\n' :: rest)) (plain : WithinLine content) :
    (ofText (before ++ (content ++ '\r' :: '\n' :: rest))).position
      (byteLength (before ++ content) + 1) =
      ⟨(lineBreaks 0 before).length, utf16Length content + 1⟩ := by
  have inside : byteLength (before ++ content) + 1 ≤
      byteLength (before ++ (content ++ '\r' :: '\n' :: rest)) := by
    rw [← List.append_assoc, byteLength_append (before ++ content), byteLength_pair]
    omega
  have line : (ofText (before ++ (content ++ '\r' :: '\n' :: rest))).lineOf
      (byteLength (before ++ content) + 1) = (lineBreaks 0 before).length := by
    rw [← List.append_assoc] at inside ⊢
    rw [lineOf_eq (starts.not_straddles plain) (by omega) inside, lineBreaks_content starts plain]
    intro span member
    rcases List.mem_cons.mp member with here | later
    · subst span
      dsimp only
      omega
    · have bounds := mem_lineBreaks later
      omega
  have clamped : min (byteLength (before ++ content) + 1)
      (ofText (before ++ (content ++ '\r' :: '\n' :: rest))).length =
        byteLength (before ++ content) + 1 := Nat.min_eq_left inside
  have length := byteLength_append before content
  have within :
      (ofText (before ++ (content ++ '\r' :: '\n' :: rest))).wideWithin (byteLength before)
      (byteLength (before ++ content) + 1) =
        QueryWorkbench.wideChars (byteLength before) content := by
    apply wideWithin_eq (table_split before content ('\r' :: '\n' :: rest))
    · omega
    · intro wide member
      have bounds := mem_wideChars member
      omega
    · intro wide member
      have bounds := mem_wideChars member
      omega
    · intro wide member
      have behind :
          wide ∈ QueryWorkbench.wideChars (byteLength (before ++ content) + 2) rest := member
      have bounds := mem_wideChars behind
      omega
  simp only [position, clamped, line, lineStart?_eq starts, Option.getD_some, within]
  rw [foldl_widen (by omega) (by omega)]
  simp only [Position.mk.injEq, true_and]
  omega

theorem offset?_eq {before content after : Text} (starts : StartsLine before (content ++ after))
    (plain : WithinLine content) (ends : EndsLine after) (units : Nat) :
    (ofText (before ++ (content ++ after))).offset? ⟨(lineBreaks 0 before).length, units⟩ =
      some (byteLength (before ++ fitting units content)) := by
  simp only [offset?, lineStart?_eq starts, lineEnd?_eq starts plain ends, Option.bind_eq_bind,
    Option.bind_some, wideWithin_line]
  rw [advance_wideChars (Nat.le_refl _) (byteLength_append before content), byteLength_append,
    Nat.sub_self, Nat.sub_zero]
  split
  · rename_i none
    have zero : units = 0 := by omega
    rw [zero, fitting_zero, byteLength_nil]
  · rfl

theorem exists_line {text : Text} {number : Nat} (exists_ : number < (ofText text).lineCount) :
    ∃ before content after,
      text = before ++ (content ++ after) ∧ StartsLine before (content ++ after) ∧
      WithinLine content ∧ EndsLine after ∧ (lineBreaks 0 before).length = number := by
  rw [lineCount_eq] at exists_
  obtain ⟨before, behind, rfl, starts, count⟩ := exists_line_number (Nat.le_of_lt_succ exists_)
  obtain ⟨content, after, rfl, plain, ends⟩ := exists_line_end behind
  exact ⟨before, content, after, rfl, starts, plain, ends, count⟩

theorem exists_place {text : Text} {offset : Nat} (inside : offset ≤ byteLength text)
    (whole : ¬ text.SplitsBreak offset) :
    ∃ before content after,
      text = before ++ (content ++ after) ∧ StartsLine before (content ++ after) ∧
      WithinLine content ∧ Reaches (before ++ content) after offset := by
  obtain ⟨front, after, rfl, reaches⟩ := exists_reaches inside
  have apart : ¬ Straddles front after := by
    rintro ⟨carriage, feed⟩
    obtain ⟨init, rfl⟩ := List.getLast?_eq_some_iff.mp carriage
    obtain ⟨rest, rfl⟩ := List.head?_eq_some_iff.mp feed
    have bound := reaches.within '\n' rfl
    have reached := reaches.reached
    have feedSize : '\n'.utf8Size = 1 := by decide
    have carriageSize : byteLength ['\r'] = 1 := by decide
    rw [byteLength_append] at bound reached
    exact whole ⟨init, rest, by simp, by omega⟩
  obtain ⟨before, content, rfl, plain, starts⟩ := exists_line_start apart
  exact ⟨before, content, after, by simp, starts, plain, reaches⟩

theorem position_within {before first second after : Text}
    (starts : StartsLine before ((first ++ second) ++ after))
    (plain : WithinLine (first ++ second)) :
    (ofText (before ++ ((first ++ second) ++ after))).position (byteLength (before ++ first)) =
      ⟨(lineBreaks 0 before).length, utf16Length first⟩ := by
  rw [List.append_assoc] at starts ⊢
  apply position_reaches starts
  · intro char member
    exact plain char (List.mem_append_left second member)
  · refine ⟨Nat.le_refl _, ?_, fun _ => rfl⟩
    intro char _
    have positive := char.utf8Size_pos
    omega

theorem offset?_eq_none (text : Text) (position : Position) :
    (ofText text).offset? position = none ↔ (ofText text).lineCount ≤ position.line := by
  constructor
  · intro missing
    apply Nat.le_of_not_lt
    intro present
    obtain ⟨before, content, after, rfl, starts, plain, ends, count⟩ := exists_line present
    have found := offset?_eq starts plain ends position.character
    rw [count, missing] at found
    cases found
  · intro beyond
    have missing : (ofText text).lineStart? position.line = none := by
      simp only [lineStart?, Array.getElem?_eq_none_iff]
      exact beyond
    simp [offset?, missing]

theorem offset?_greatest (text : Text) (position : Position)
    (present : position.line < (ofText text).lineCount) :
    ∃ start stop offset, (ofText text).lineStart? position.line = some start ∧
      (ofText text).lineEnd? position.line = some stop ∧
      (ofText text).offset? position = some offset ∧
      Greatest (fun other => text.Boundary other ∧ start ≤ other ∧ other ≤ stop ∧
        ((ofText text).position other).character ≤ position.character) offset := by
  obtain ⟨before, content, after, rfl, starts, plain, ends, count⟩ := exists_line present
  have found := offset?_eq starts plain ends position.character
  rw [count] at found
  rw [← count]
  refine ⟨_, _, _, lineStart?_eq starts, lineEnd?_eq starts plain ends, found, ?_, ?_⟩
  · obtain ⟨rest, split⟩ := exists_append_of_fitting position.character content
    have shown := position_within (split ▸ starts) (split ▸ plain)
    rw [← split] at shown
    refine ⟨⟨_, rest ++ after, ?_, rfl⟩, ?_, ?_, ?_⟩
    · rw [List.append_assoc before, ← List.append_assoc _ rest, ← split]
    · rw [byteLength_append]
      omega
    · rw [byteLength_append, byteLength_append]
      have whole := congrArg byteLength split
      rw [byteLength_append] at whole
      omega
    · rw [shown]
      exact utf16Length_fitting_le position.character content
  · rintro other ⟨boundary, above, below, fits⟩
    obtain ⟨first, second, rfl, rfl⟩ := boundary_within boundary above below
    rw [position_within starts plain] at fits
    have bound := byteLength_le_fitting second fits
    rw [byteLength_append, byteLength_append]
    omega

theorem offset?_position (text : Text) (offset : Nat) (inside : offset ≤ byteLength text)
    (whole : ¬ text.SplitsBreak offset) :
    ∃ start, (ofText text).offset? ((ofText text).position offset) = some start ∧
      Greatest (fun other => text.Boundary other ∧ other ≤ offset) start := by
  obtain ⟨before, content, behind, rfl, starts, plain, reaches⟩ := exists_place inside whole
  obtain ⟨more, after, rfl, morePlain, ends⟩ := exists_line_end behind
  have all : WithinLine (content ++ more) := by
    intro char member
    rcases List.mem_append.mp member with first | second
    · exact plain char first
    · exact morePlain char second
  rw [position_reaches starts plain reaches]
  rw [← List.append_assoc content] at starts ⊢
  rw [offset?_eq starts all ends, fitting_exact]
  refine ⟨_, rfl, ?_⟩
  have greatest := reaches.greatest
  rwa [List.append_assoc before, ← List.append_assoc content] at greatest

theorem offset?_splitsBreak (before after : Text) :
    (ofText (before ++ '\r' :: '\n' :: after)).offset?
        ((ofText (before ++ '\r' :: '\n' :: after)).position (byteLength before + 1)) =
      some (byteLength before) := by
  have apart : ¬ Straddles before ('\r' :: '\n' :: after) := by simp [Straddles]
  obtain ⟨earlier, content, rfl, plain, starts⟩ := exists_line_start apart
  have ends : EndsLine ('\r' :: '\n' :: after) := by
    intro char first
    have carriage : '\r' = char := by simpa using first
    exact .inr carriage.symm
  rw [List.append_assoc earlier, position_splitsBreak starts plain, offset?_eq starts plain ends,
    fitting_all (by omega)]

/-- Reading an offset back from a position, and from the position of an offset. A position on a line
leads to the last boundary of that line within its column. The position of an offset leads back to
the character that the offset points into, except that an offset within a line break leads to the
end of the line. -/
theorem offset_inverts_position (text : Text) :
    (∀ position, (ofText text).offset? position = none ↔ (ofText text).lineCount ≤ position.line) ∧
      (∀ position, position.line < (ofText text).lineCount →
        ∃ start stop offset, (ofText text).lineStart? position.line = some start ∧
          (ofText text).lineEnd? position.line = some stop ∧
          (ofText text).offset? position = some offset ∧
          Greatest (fun other => text.Boundary other ∧ start ≤ other ∧ other ≤ stop ∧
            ((ofText text).position other).character ≤ position.character) offset) ∧
      (∀ offset, offset ≤ byteLength text → ¬ text.SplitsBreak offset →
        ∃ start, (ofText text).offset? ((ofText text).position offset) = some start ∧
          Greatest (fun other => text.Boundary other ∧ other ≤ offset) start) ∧
      (∀ offset, text.Boundary offset → ¬ text.SplitsBreak offset →
        (ofText text).offset? ((ofText text).position offset) = some offset) ∧
      ∀ before after, text = before ++ '\r' :: '\n' :: after →
        (ofText text).offset? ((ofText text).position (byteLength before + 1)) =
          some (byteLength before) := by
  refine ⟨?_, ?_, ?_, ?_, ?_⟩
  · exact offset?_eq_none text
  · exact offset?_greatest text
  · exact offset?_position text
  · intro offset boundary whole
    obtain ⟨before, after, rfl, rfl⟩ := boundary
    obtain ⟨start, found, greatest⟩ := offset?_position (before ++ after) (byteLength before)
      (by rw [byteLength_append]; omega) whole
    have upper := greatest.2 (byteLength before) ⟨⟨before, after, rfl, rfl⟩, Nat.le_refl _⟩
    have lower := greatest.1.2
    rw [found, Nat.le_antisymm lower upper]
  · rintro before after rfl
    exact offset?_splitsBreak before after

def mixedText : Text := ['a', '😀', '\r', '\n', 'é']

theorem mixedText_boundary {offset : Nat} (boundary : mixedText.Boundary offset) :
    offset ∈ [0, 1, 5, 6, 7, 9] := by
  obtain ⟨before, after, split, rfl⟩ := boundary
  have member : before ∈ mixedText.inits :=
    (List.mem_inits before mixedText).mpr ⟨after, split.symm⟩
  have offsets : mixedText.inits.map byteLength = [0, 1, 5, 6, 7, 9] := by decide
  rw [← offsets]
  exact List.mem_map_of_mem member

theorem mixedText_splitsBreak {offset : Nat} (splits : mixedText.SplitsBreak offset) :
    offset = 6 := by
  obtain ⟨before, after, split, rfl⟩ := splits
  have member : before ∈ mixedText.inits := (List.mem_inits before mixedText).mpr ⟨_, split.symm⟩
  simp only [mixedText, List.inits, List.map_cons, List.map_nil, List.mem_cons, List.not_mem_nil,
    or_false] at member
  rcases member with rfl | rfl | rfl | rfl | rfl | rfl <;> simp [mixedText] at split
  decide

theorem offset_inverts_position_mixed :
    (3 ≤ byteLength mixedText ∧ ¬ mixedText.SplitsBreak 3) ∧
      (ofText mixedText).offset? ((ofText mixedText).position 3) = some 1 ∧
      (mixedText.Boundary 5 ∧ ¬ mixedText.SplitsBreak 5) ∧
      (ofText mixedText).offset? ((ofText mixedText).position 5) = some 5 ∧
      (ofText mixedText).offset? ((ofText mixedText).position 6) = some 5 := by
  obtain ⟨_, _, inside, boundary, within⟩ := offset_inverts_position mixedText
  have whole (offset : Nat) (other : offset ≠ 6) : ¬ mixedText.SplitsBreak offset := fun splits =>
    other (mixedText_splitsBreak splits)
  have fifth : mixedText.Boundary 5 := ⟨['a', '😀'], ['\r', '\n', 'é'], rfl, by decide⟩
  obtain ⟨start, found, ⟨reached, bound⟩, greatest⟩ := inside 3 (by decide) (whole 3 (by decide))
  have above : 1 ≤ start := greatest 1 ⟨⟨['a'], ['😀', '\r', '\n', 'é'], rfl, by decide⟩, by decide⟩
  have first : start = 1 := by
    have member := mixedText_boundary reached
    simp only [List.mem_cons, List.not_mem_nil, or_false] at member
    omega
  rw [first] at found
  exact ⟨⟨by decide, whole 3 (by decide)⟩, found, ⟨fifth, whole 5 (by decide)⟩,
    boundary 5 fifth (whole 5 (by decide)), within ['a', '😀'] ['é'] rfl⟩

end LineIndex

end QueryWorkbench
