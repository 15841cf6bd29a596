import QueryWorkbench.Proofs.PositionScan

/-! The tables of a line index. Lines and line breaks take turns and cover the text, so the starts
of lines increase and a search among them finds the line of any offset. The table of wide characters
has every character beyond ASCII once and in order. -/

namespace QueryWorkbench

open Text

/-- The UTF-16 form of a character: its code, or a high and a low surrogate. -/
def utf16EncodeChar (char : Char) : List Nat :=
  if char.toNat < 0x10000 then [char.toNat]
  else [0xD800 + (char.toNat - 0x10000) / 0x400, 0xDC00 + (char.toNat - 0x10000) % 0x400]

theorem length_utf16EncodeChar (char : Char) : (utf16EncodeChar char).length = utf16Size char := by
  unfold utf16EncodeChar utf16Size
  split <;> rfl

def Text.WideAt (text : Text) (wide : WideChar) : Prop :=
  ∃ before char after, text = before ++ char :: after ∧ 128 ≤ char.toNat ∧
    wide = ⟨byteLength before, (String.utf8EncodeChar char).length, (utf16EncodeChar char).length⟩

theorem mem_wideChars_iff {offset : Nat} {text : Text} {wide : WideChar} :
    wide ∈ wideChars offset text ↔ ∃ before char after, text = before ++ char :: after ∧
      128 ≤ char.toNat ∧ wide = ⟨offset + byteLength before, char.utf8Size, utf16Size char⟩ := by
  induction text generalizing offset with
  | nil => simp [wideChars]
  | cons first rest ih =>
      have behind :
          (∃ before char after, first :: rest = before ++ char :: after ∧ 128 ≤ char.toNat ∧
            wide = ⟨offset + byteLength before, char.utf8Size, utf16Size char⟩) ↔
          128 ≤ first.toNat ∧ wide = ⟨offset, first.utf8Size, utf16Size first⟩ ∨
            wide ∈ wideChars (offset + first.utf8Size) rest := by
        rw [ih]
        constructor
        · rintro ⟨before, char, after, split, beyond, same⟩
          cases before with
          | nil =>
              obtain ⟨rfl, _⟩ := List.cons.inj split
              exact .inl ⟨beyond, same⟩
          | cons _ before =>
              obtain ⟨rfl, later⟩ := List.cons.inj split
              exact .inr ⟨before, char, after, later,
                beyond, by rw [same, byteLength_cons, Nat.add_assoc]⟩
        · rintro (⟨beyond, same⟩ | ⟨before, char, after, split, beyond, same⟩)
          · exact ⟨[], first, rest, rfl, beyond, same⟩
          · refine ⟨first :: before, char, after, by rw [split, List.cons_append], beyond, ?_⟩
            rw [same, byteLength_cons, Nat.add_assoc]
      rw [behind, wideChars]
      split
      next ascii => simp [Nat.not_le.mpr ascii]
      next other => simp [Nat.le_of_not_lt other]

theorem wideChars_ordered (offset : Nat) (text : Text) :
    (wideChars offset text).Pairwise fun first second => first.offset < second.offset := by
  induction text generalizing offset with
  | nil => exact .nil
  | cons char rest ih =>
      rw [wideChars]
      split
      · exact ih _
      · refine List.pairwise_cons.mpr ⟨?_, ih _⟩
        intro wide member
        have bounds := mem_wideChars member
        have positive := char.utf8Size_pos
        dsimp only
        omega

theorem Text.BreakAt.start_lt_stop {text : Text} {span : Span} (isBreak : text.BreakAt span) :
    span.start < span.stop :=
  (mem_lineBreaks (mem_of_breakAt isBreak)).2.1

namespace LineIndex

def HasLine (index : LineIndex) (text : Text) (number : Nat) : Prop :=
  ∃ start stop content, index.lineStart? number = some start ∧ index.lineEnd? number = some stop ∧
    start ≤ stop ∧ text.Holds ⟨start, stop⟩ content ∧ WithinLine content

def HasBreak (index : LineIndex) (text : Text) (number : Nat) : Prop :=
  ∃ stop start, index.lineEnd? number = some stop ∧ index.lineStart? (number + 1) = some start ∧
    text.BreakAt ⟨stop, start⟩

structure Partitions (index : LineIndex) (text : Text) : Prop where
  length : index.length = byteLength text
  sizes : index.lineStarts.size = index.lineEnds.size
  nonempty : 0 < index.lineCount
  first : index.lineStart? 0 = some 0
  last : index.lineEnd? (index.lineCount - 1) = some (byteLength text)
  lines : ∀ number, number < index.lineCount → index.HasLine text number
  breaks : ∀ number, number + 1 < index.lineCount → index.HasBreak text number
  wide : ∀ wide, wide ∈ index.wideChars ↔ text.WideAt wide
  ordered : index.wideChars.toList.Pairwise fun first second => first.offset < second.offset

/-- The search for the line of an offset passes at least one start, and ends at a line of both
tables: the last one that starts at the offset or before it. -/
structure LooksUp (index : LineIndex) (offset : Nat) : Prop where
  passed : 0 < leading (fun start => decide (start ≤ min offset index.length)) index.lineStarts
  start : ∃ start, index.lineStart? (index.lineOf offset) = some start ∧
    start ≤ min offset index.length
  later : ∀ next, index.lineStart? (index.lineOf offset + 1) = some next →
    min offset index.length < next
  stop : ∃ stop, index.lineEnd? (index.lineOf offset) = some stop ∧ index.lineEndOf offset = stop

theorem hasLine_ofText {text : Text} {number : Nat} (bound : number < (ofText text).lineCount) :
    (ofText text).HasLine text number := by
  obtain ⟨before, content, after, rfl, starts, plain, ends, rfl⟩ := exists_line bound
  refine ⟨_, _, content, lineStart?_eq starts, lineEnd?_eq starts plain ends, ?_,
    ⟨before, after, rfl, ?_⟩, plain⟩
  · rw [byteLength_append]
    omega
  · rw [byteLength_append]

theorem hasBreak_ofText {text : Text} {number : Nat}
    (bound : number + 1 < (ofText text).lineCount) : (ofText text).HasBreak text number := by
  rw [lineCount_eq, Nat.add_lt_add_iff_right] at bound
  have member : (lineBreaks 0 text)[number] ∈ lineBreaks 0 text := List.getElem_mem bound
  refine ⟨_, _, ?_, ?_, mem_lineBreaks_iff.mp member⟩
  · simp [lineEnd?, ofText, List.getElem?_append_left, bound]
  · simp [lineStart?, ofText, bound]

theorem partitions_ofText (text : Text) : (ofText text).Partitions text where
  length := rfl
  sizes := by simp [ofText]
  nonempty := by simp [lineCount, ofText]
  first := by simp [lineStart?, ofText]
  last := by simp [lineEnd?, lineCount, ofText]
  lines _ := hasLine_ofText
  breaks _ := hasBreak_ofText
  wide wide := by
    simp only [ofText, List.mem_toArray, mem_wideChars_iff, Nat.zero_add, WideAt,
      String.length_utf8EncodeChar, length_utf16EncodeChar]
  ordered := wideChars_ordered 0 text

/-! Looking up an offset, by what the tables promise. -/

section Partitions

variable {index : LineIndex} {text : Text}

theorem Partitions.start_lt {number : Nat} (partitions : index.Partitions text)
    (more : number + 1 < index.lineCount) :
    ∃ start next, index.lineStart? number = some start ∧ index.lineStart? (number + 1) = some next ∧
      start < next := by
  obtain ⟨start, stop, _, starts, ends, order, _⟩ := partitions.lines number (by omega)
  obtain ⟨same, next, endsAgain, nextStarts, isBreak⟩ := partitions.breaks number more
  obtain rfl : stop = same := Option.some.inj (ends.symm.trans endsAgain)
  exact ⟨start, next, starts, nextStarts, Nat.lt_of_le_of_lt order isBreak.start_lt_stop⟩

theorem Partitions.increasing (partitions : index.Partitions text) :
    index.lineStarts.toList.Pairwise (· < ·) := by
  rw [← List.isChain_iff_pairwise, List.isChain_iff_getElem]
  intro number bound
  rw [Array.length_toList] at bound
  obtain ⟨start, next, starts, nextStarts, order⟩ := partitions.start_lt bound
  obtain ⟨_, rfl⟩ := Array.getElem?_eq_some_iff.mp starts
  obtain ⟨_, rfl⟩ := Array.getElem?_eq_some_iff.mp nextStarts
  simpa using order

theorem passesFirst_of_increasing {starts : Array Nat} (increasing : starts.toList.Pairwise (· < ·))
    (offset : Nat) : PassesFirst (fun start => decide (start ≤ offset)) starts := by
  intro early late first second order foundEarly foundLate passed
  obtain ⟨earlyBound, rfl⟩ := Array.getElem?_eq_some_iff.mp foundEarly
  obtain ⟨lateBound, rfl⟩ := Array.getElem?_eq_some_iff.mp foundLate
  rw [decide_eq_true_eq] at passed ⊢
  rcases Nat.eq_or_lt_of_le order with rfl | less
  · exact passed
  · have between := List.pairwise_iff_getElem.mp increasing early late earlyBound lateBound less
    rw [Array.getElem_toList, Array.getElem_toList] at between
    omega

theorem Partitions.looksUp (partitions : index.Partitions text) (offset : Nat) :
    index.LooksUp offset := by
  have ordered := passesFirst_of_increasing partitions.increasing (min offset index.length)
  have count : leading (fun start => decide (start ≤ min offset index.length)) index.lineStarts =
      index.lineOf offset + 1 := by
    have passed := (leading_iff ordered partitions.first).mp (by simp)
    rw [lineOf]
    omega
  have within : index.lineOf offset < index.lineCount := by
    have bound :=
      leadingFrom_le (fun start => decide (start ≤ min offset index.length)) index.lineStarts
      (Nat.zero_le index.lineStarts.size)
    rw [← leading, count] at bound
    exact bound
  obtain ⟨start, stop, _, starts, ends, _⟩ := partitions.lines _ within
  refine ⟨by omega, ⟨start, starts, ?_⟩, ?_,
    ⟨stop, ends, by rw [lineEndOf, ends, Option.getD_some]⟩⟩
  · have passed := (leading_iff ordered starts).mpr (by omega)
    simpa using passed
  · intro next found
    have failed := (leading_iff ordered found).not.mpr (by omega)
    rw [decide_eq_true_eq] at failed
    omega

end Partitions

/-- The tables of a text cut it into lines at every line break, and list its wide characters. So the
starts of lines increase, and every offset, even one past the end, has a line that both tables
know. -/
theorem tables_partition_text (text : Text) :
    (ofText text).Partitions text ∧ (ofText text).lineStarts.toList.Pairwise (· < ·) ∧
      ∀ offset, (ofText text).LooksUp offset := by
  have partitions := partitions_ofText text
  exact ⟨partitions, partitions.increasing, partitions.looksUp⟩

example : ofText ['\r', '\r', '\n', '\n', '\r', 'é'] =
    ⟨#[0, 1, 3, 4, 5], #[0, 1, 3, 4, 7], #[⟨5, 2, 1⟩], 7⟩ := by
  decide

end LineIndex

end QueryWorkbench
