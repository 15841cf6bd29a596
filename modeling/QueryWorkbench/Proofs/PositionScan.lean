import Mathlib.Data.Prod.Lex
import Mathlib.Data.Set.Card
import QueryWorkbench.Proofs.Slices

/-! Positions by counting. An index finds a position by halving its tables and by correcting a
column for wide characters; counting line breaks and columns from the start of the text gives the
same position. So a later offset never has an earlier position. -/

namespace QueryWorkbench

open Text

instance : Preorder Position :=
  Preorder.lift fun position => toLex (position.line, position.character)

theorem Position.le_iff {first second : Position} :
    first ≤ second ↔ first.line < second.line ∨ first.line = second.line ∧
      first.character ≤ second.character :=
  Prod.Lex.le_iff

theorem Position.lt_iff {first second : Position} :
    first < second ↔ first.line < second.line ∨ first.line = second.line ∧
      first.character < second.character :=
  Prod.Lex.lt_iff

/-! Line breaks, without the scan that lists them. -/

/-- A line break of the text, and where it stands: a line feed, a carriage return, or one and the
other. -/
inductive Text.BreakAt : Text → Span → Prop
  | feed {before after : Text} : before.getLast? ≠ some '\r' →
      BreakAt (before ++ '\n' :: after) ⟨byteLength before, byteLength before + 1⟩
  | carriage {before after : Text} : after.head? ≠ some '\n' →
      BreakAt (before ++ '\r' :: after) ⟨byteLength before, byteLength before + 1⟩
  | pair {before after : Text} :
      BreakAt (before ++ '\r' :: '\n' :: after) ⟨byteLength before, byteLength before + 2⟩

theorem utf16Length_append (first second : Text) :
    utf16Length (first ++ second) = utf16Length first + utf16Length second := by
  induction first with
  | nil => simp
  | cons char rest ih => simp [ih, Nat.add_assoc]

theorem utf16Length_pos {text : Text} (nonempty : text ≠ []) : 0 < utf16Length text := by
  cases text with
  | nil => exact (nonempty rfl).elim
  | cons char rest =>
      have positive := utf16Size_pos char
      rw [utf16Length_cons]
      omega

theorem not_straddles_snoc {front rest : Text} {char : Char}
    (apart : char = '\r' → rest.head? ≠ some '\n') : ¬ Straddles (front ++ [char]) rest := by
  rintro ⟨carriage, feed⟩
  exact apart (by simpa using carriage) feed

theorem breakAt_of_mem {front text : Text} {span : Span} (whole : ¬ Straddles front text)
    (member : span ∈ lineBreaks (byteLength front) text) : (front ++ text).BreakAt span := by
  generalize standing : byteLength front = offset at member
  fun_induction lineBreaks offset text generalizing front with
  | case1 offset => simp at member
  | case2 offset rest ih =>
      subst standing
      rcases List.mem_cons.mp member with here | later
      · rw [here]
        exact .pair
      · have size : byteLength ['\r', '\n'] = 2 := by decide
        have apart : ¬ Straddles (front ++ ['\r', '\n']) rest := by simp [Straddles]
        have found := ih apart (by rw [byteLength_append, size]) later
        simpa using found
  | case3 offset char rest notPair isBreak ih =>
      subst standing
      have lone : char = '\r' → rest.head? ≠ some '\n' := by
        intro carriage feed
        obtain ⟨tail, split⟩ := List.head?_eq_some_iff.mp feed
        exact notPair tail carriage split
      have single : IsLineBreak char := by simpa [IsLineBreak] using isBreak
      rcases List.mem_cons.mp member with here | later
      · rw [here]
        rcases single with feed | carriage
        · subst feed
          exact .feed fun last => whole ⟨last, rfl⟩
        · subst carriage
          exact .carriage (lone rfl)
      · have apart : ¬ Straddles (front ++ [char]) rest := not_straddles_snoc lone
        have found := ih apart (by simp [single.utf8Size]) later
        simpa using found
  | case4 offset char rest notPair notBreak ih =>
      subst standing
      have other : ¬ IsLineBreak char := by simpa [IsLineBreak] using notBreak
      have apart : ¬ Straddles (front ++ [char]) rest :=
        not_straddles_snoc fun carriage => (other (.inr carriage)).elim
      have found := ih apart (by simp) member
      simpa using found

theorem mem_of_breakAt {text : Text} {span : Span} (isBreak : text.BreakAt span) :
    span ∈ lineBreaks 0 text := by
  cases isBreak with
  | @feed before after lone =>
      have whole : ¬ Straddles before ('\n' :: after) := fun straddles => lone straddles.1
      rw [lineBreaks_append 0 whole, lineBreaks_single _ (.inl rfl) (by simp [Straddles])]
      simp
  | @carriage before after lone =>
      have whole : ¬ Straddles before ('\r' :: after) := by simp [Straddles]
      rw [lineBreaks_append 0 whole, lineBreaks_single _ (.inr rfl) fun straddles =>
        lone straddles.2]
      simp
  | @pair before after =>
      have whole : ¬ Straddles before ('\r' :: '\n' :: after) := by simp [Straddles]
      rw [lineBreaks_append 0 whole, lineBreaks]
      simp

theorem mem_lineBreaks_iff {text : Text} {span : Span} :
    span ∈ lineBreaks 0 text ↔ text.BreakAt span := by
  constructor
  · intro member
    have whole : ¬ Straddles [] text := by simp [Straddles]
    exact breakAt_of_mem whole member
  · exact mem_of_breakAt

theorem lineBreaks_ordered (offset : Nat) (text : Text) :
    (lineBreaks offset text).Pairwise fun first second => first.stop ≤ second.start := by
  fun_induction lineBreaks offset text with
  | case1 offset => exact .nil
  | case2 offset rest ih =>
      exact List.pairwise_cons.mpr ⟨fun span member => (mem_lineBreaks member).1, ih⟩
  | case3 offset char rest notPair isBreak ih =>
      exact List.pairwise_cons.mpr ⟨fun span member => (mem_lineBreaks member).1, ih⟩
  | case4 offset char rest notPair notBreak ih => exact ih

theorem lineBreaks_nodup (offset : Nat) (text : Text) : (lineBreaks offset text).Nodup := by
  refine (lineBreaks_ordered offset text).imp_of_mem ?_
  intro first second member _ order same
  have proper := mem_lineBreaks member
  rw [← same] at order
  omega

def Text.breaksUpTo (text : Text) (offset : Nat) : Set Span :=
  {span | text.BreakAt span ∧ span.stop ≤ offset}

/-! The line that an offset lies on, up to the character that the offset points into. -/

structure InLine (before content after : Text) (offset : Nat) : Prop where
  starts : StartsLine before (content ++ after)
  reaches : Reaches (before ++ content) after offset
  unbroken : ∀ span ∈ lineBreaks (byteLength before) (content ++ after), offset < span.stop

section InLine

variable {before content after : Text} {offset : Nat}

theorem Reaches.le_byteLength (reaches : Reaches before after offset) :
    offset ≤ byteLength (before ++ after) := by
  rw [byteLength_append]
  cases after with
  | nil =>
      have finished := reaches.finished rfl
      omega
  | cons char rest =>
      have within := reaches.within char rfl
      rw [byteLength_cons]
      omega

theorem inLine_plain (starts : StartsLine before (content ++ after)) (plain : WithinLine content)
    (reaches : Reaches (before ++ content) after offset) : InLine before content after offset := by
  refine ⟨starts, reaches, ?_⟩
  rw [lineBreaks_append _ (plain.not_straddles after), lineBreaks_withinLine _ plain,
    List.nil_append, ← byteLength_append]
  intro span member
  cases after with
  | nil => simp [lineBreaks] at member
  | cons char rest =>
      have within := reaches.within char rfl
      have stop := stop_of_mem_lineBreaks member
      omega

theorem inLine_splitsBreak {rest : Text}
    (starts : StartsLine before (content ++ '\r' :: '\n' :: rest)) (plain : WithinLine content) :
    InLine before (content ++ ['\r']) ('\n' :: rest) (byteLength (before ++ content) + 1) := by
  have feed : '\n'.utf8Size = 1 := by decide
  have carriage : byteLength ['\r'] = 1 := by decide
  have length :
      byteLength (before ++ (content ++ ['\r'])) = byteLength (before ++ content) + 1 := by
    rw [← List.append_assoc, byteLength_append (before ++ content), carriage]
  refine ⟨by simpa using starts, ⟨?_, ?_, ?_⟩, ?_⟩
  · omega
  · rintro char ⟨⟩
    omega
  · simp
  · rw [List.append_assoc, List.singleton_append, lineBreaks_append _ (plain.not_straddles _),
      lineBreaks_withinLine _ plain, List.nil_append, ← byteLength_append, lineBreaks]
    intro span member
    rcases List.mem_cons.mp member with here | later
    · rw [here]
      dsimp only
      omega
    · have bounds := mem_lineBreaks later
      omega

theorem exists_inLine {text : Text} (inside : offset ≤ byteLength text) :
    ∃ before content after,
      text = before ++ (content ++ after) ∧ InLine before content after offset ∧
      (LineIndex.ofText text).position offset =
        ⟨(lineBreaks 0 before).length, utf16Length content⟩ := by
  by_cases splits : text.SplitsBreak offset
  · obtain ⟨front, rest, rfl, rfl⟩ := splits
    have apart : ¬ Straddles front ('\r' :: '\n' :: rest) := by simp [Straddles]
    obtain ⟨before, content, rfl, plain, starts⟩ := exists_line_start apart
    refine ⟨before, content ++ ['\r'], '\n' :: rest, by simp, inLine_splitsBreak starts plain, ?_⟩
    rw [List.append_assoc, LineIndex.position_splitsBreak starts plain, utf16Length_append]
    rfl
  · obtain ⟨before, content, after, rfl, starts, plain, reaches⟩ :=
      LineIndex.exists_place inside splits
    exact ⟨before, content, after, rfl, inLine_plain starts plain reaches,
      LineIndex.position_reaches starts plain reaches⟩

theorem InLine.mem_breaksUpTo (inLine : InLine before content after offset) {span : Span} :
    span ∈ (before ++ (content ++ after)).breaksUpTo offset ↔ span ∈ lineBreaks 0 before := by
  have reached := inLine.reaches.reached
  have split := lineBreaks_append 0 inLine.starts.whole
  rw [byteLength_append] at reached
  constructor
  · rintro ⟨isBreak, bound⟩
    rw [← mem_lineBreaks_iff, split, Nat.zero_add] at isBreak
    rcases List.mem_append.mp isBreak with earlier | later
    · exact earlier
    · have beyond := inLine.unbroken span later
      omega
  · intro member
    have bounds := mem_lineBreaks member
    refine ⟨mem_lineBreaks_iff.mp ?_, by omega⟩
    rw [split]
    exact List.mem_append_left _ member

theorem InLine.ncard_breaksUpTo (inLine : InLine before content after offset) :
    ((before ++ (content ++ after)).breaksUpTo offset).ncard = (lineBreaks 0 before).length := by
  have listed :
      (before ++ (content ++ after)).breaksUpTo offset = ↑(lineBreaks 0 before).toFinset := by
    ext span
    rw [inLine.mem_breaksUpTo, List.coe_toFinset]
    rfl
  rw [listed, Set.ncard_coe_finset, List.toFinset_card_of_nodup (lineBreaks_nodup 0 before)]

def Text.LineOpens (text : Text) (offset start : Nat) : Prop :=
  start = 0 ∨ ∃ span ∈ text.breaksUpTo offset, span.stop = start

theorem InLine.lineOpens (inLine : InLine before content after offset) :
    Greatest ((before ++ (content ++ after)).LineOpens offset) (byteLength before) := by
  constructor
  · by_cases first : before = []
    · left
      rw [first, byteLength_nil]
    · right
      obtain ⟨others, last, breaks, stop⟩ := lineBreaks_snoc inLine.starts first
      refine ⟨last, inLine.mem_breaksUpTo.mpr ?_, stop⟩
      rw [breaks]
      simp
  · rintro start (first | ⟨span, found, stop⟩)
    · omega
    · have bounds := mem_lineBreaks (inLine.mem_breaksUpTo.mp found)
      omega

end InLine

namespace LineIndex

/-- No correction for a wide character takes more from the column than the column has. -/
def Corrects (offset : Nat) : Nat → List WideChar → Prop
  | _, [] => True
  | column, wide :: rest =>
      wide.offset ≤ offset ∧ min (offset - wide.offset) wide.bytes ≤ column ∧
        Corrects offset (widen offset column wide) rest

structure Subtracts (index : LineIndex) (offset : Nat) : Prop where
  line : 0 < leading (fun start => decide (start ≤ offset)) index.lineStarts
  column : ∃ start, index.lineStart? (index.lineOf offset) = some start ∧ start ≤ offset ∧
    Corrects offset (offset - start) (index.wideWithin start offset)

theorem corrects_append {offset column : Nat} {first second : List WideChar}
    (front : Corrects offset column first)
    (back : Corrects offset (first.foldl (widen offset) column) second) :
    Corrects offset column (first ++ second) := by
  induction first generalizing column with
  | nil => exact back
  | cons wide rest ih =>
      obtain ⟨before, enough, later⟩ := front
      exact ⟨before, enough, ih later back⟩

theorem corrects_wideChars {offset start column : Nat} {text : Text}
    (passed : start + byteLength text ≤ offset) (counted : byteLength text ≤ column) :
    Corrects offset column (QueryWorkbench.wideChars start text) := by
  induction text generalizing start column with
  | nil => trivial
  | cons char rest ih =>
      rw [byteLength_cons] at passed counted
      rw [QueryWorkbench.wideChars]
      split
      · exact ih (by omega) (by omega)
      · have whole : min (offset - start) char.utf8Size = char.utf8Size := by omega
        simp only [Corrects, widen, whole, if_true]
        exact ⟨by omega, by omega, ih (by omega) (by omega)⟩

theorem subtracts_inLine {before content after : Text} {offset : Nat}
    (inLine : InLine before content after offset) :
    (ofText (before ++ (content ++ after))).Subtracts offset := by
  have reached := inLine.reaches.reached
  have inside := inLine.reaches.le_byteLength
  have length := byteLength_append before content
  rw [List.append_assoc] at inside
  have line := lineOf_eq inLine.starts.whole (by omega) inside inLine.unbroken
  constructor
  · rw [leading_lineStarts inLine.starts.whole (by omega) inLine.unbroken]
    omega
  · refine ⟨byteLength before, by rw [line, lineStart?_eq inLine.starts], by omega, ?_⟩
    obtain ⟨more, rfl⟩ := Nat.exists_eq_add_of_le reached
    have front :
        Corrects (byteLength (before ++ content) + more) (byteLength (before ++ content) + more -
        byteLength before) (QueryWorkbench.wideChars (byteLength before) content) :=
      corrects_wideChars (by omega) (by omega)
    by_cases exact : more = 0
    · subst exact
      rw [Nat.add_zero] at front ⊢
      rw [wideWithin_line]
      exact front
    · cases after with
      | nil =>
          have finished := inLine.reaches.finished rfl
          omega
      | cons char rest =>
          have within := inLine.reaches.within char rfl
          have wide : ¬ char.toNat < 128 := by
            intro ascii
            have single := utf8Size_of_ascii ascii
            omega
          rw [wideWithin_inside wide (by omega) (by omega)]
          refine corrects_append front ⟨by simp, ?_, trivial⟩
          rw [foldl_widen (by omega) (by omega)]
          dsimp only
          omega

theorem position_clamped (text : Text) (offset : Nat) :
    (ofText text).position offset = (ofText text).position (min offset (byteLength text)) := by
  have length : (ofText text).length = byteLength text := rfl
  simp [position, length]

end LineIndex

/-- The position at which a scan of the text up to an offset arrives. It has counted the line breaks
it has passed and, on its line, the columns up to the character that the offset points into. -/
structure Text.Counts (text : Text) (offset : Nat) (position : Position) : Prop where
  line : position.line = (text.breaksUpTo offset).ncard
  character : ∃ start stop stretch, Greatest (text.LineOpens offset) start ∧
    Greatest (fun boundary => text.Boundary boundary ∧ boundary ≤ offset) stop ∧
    (text.Boundary offset → stop = offset) ∧ text.Holds ⟨start, stop⟩ stretch ∧
    position.character = utf16Length stretch

section Order

variable {before content after : Text} {offset : Nat}

theorem InLine.greatest (inLine : InLine before content after offset) :
    Greatest (fun boundary => (before ++ (content ++ after)).Boundary boundary ∧ boundary ≤ offset)
      (byteLength (before ++ content)) := by
  have greatest := inLine.reaches.greatest
  rwa [List.append_assoc] at greatest

theorem InLine.eq_of_boundary (inLine : InLine before content after offset)
    (boundary : (before ++ (content ++ after)).Boundary offset) :
    byteLength (before ++ content) = offset :=
  inLine.greatest.eq_bound boundary

theorem InLine.counts (inLine : InLine before content after offset) :
    (before ++ (content ++ after)).Counts offset
      ⟨(lineBreaks 0 before).length, utf16Length content⟩ where
  line := inLine.ncard_breaksUpTo.symm
  character := by
    refine ⟨byteLength before, byteLength (before ++ content), content, inLine.lineOpens,
      inLine.greatest, inLine.eq_of_boundary, ⟨before, after, rfl, ?_⟩, rfl⟩
    rw [byteLength_append]

theorem Text.LineOpens.mono {text : Text} {first second start : Nat} (order : first ≤ second)
    (opens : text.LineOpens first start) : text.LineOpens second start := by
  rcases opens with zero | ⟨span, ⟨isBreak, bound⟩, stop⟩
  · exact .inl zero
  · exact .inr ⟨span, ⟨isBreak, bound.trans order⟩, stop⟩

theorem lines_lt {middle rest : Text} (starts : StartsLine before (middle ++ rest))
    (later : StartsLine (before ++ middle) rest) (nonempty : middle ≠ []) :
    (lineBreaks 0 before).length < (lineBreaks 0 (before ++ middle)).length := by
  have whole : ¬ Straddles before middle := by
    rintro ⟨carriage, feed⟩
    exact starts.whole ⟨carriage, by simp [feed]⟩
  have split := lineBreaks_append 0 whole
  obtain ⟨others, last, breaks, stop⟩ := lineBreaks_snoc later (by simp [nonempty])
  have some : lineBreaks (0 + byteLength before) middle ≠ [] := by
    -- The last break ends behind the middle part, and breaks of the first part end before it.
    intro none
    have member : last ∈ lineBreaks 0 before := by
      rw [none, List.append_nil] at split
      rw [← split, breaks]
      simp
    have bounds := mem_lineBreaks member
    obtain ⟨char, tail, rfl⟩ := List.exists_cons_of_ne_nil nonempty
    have positive := char.utf8Size_pos
    rw [byteLength_append, byteLength_cons] at stop
    omega
  have positive := List.length_pos_iff.mpr some
  rw [split, List.length_append]
  omega

theorem InLine.ordered {before' content' after' : Text} {offset' : Nat}
    (first : InLine before content after offset) (second : InLine before' content' after' offset')
    (same : before ++ (content ++ after) = before' ++ (content' ++ after'))
    (order : offset ≤ offset') :
    (lineBreaks 0 before).length < (lineBreaks 0 before').length ∨
      before = before' ∧ ∃ more, content' = content ++ more := by
  have opens : byteLength before ≤ byteLength before' := by
    apply second.lineOpens.2
    rw [← same]
    exact first.lineOpens.1.mono order
  have reach : byteLength (before ++ content) ≤ byteLength (before' ++ content') := by
    apply second.greatest.2
    rw [← same]
    exact ⟨first.greatest.1.1, first.greatest.1.2.trans order⟩
  obtain ⟨middle, rfl, rest⟩ := exists_between same opens
  by_cases none : middle = []
  · subst none
    simp only [List.append_nil, List.nil_append, byteLength_append] at reach rest
    obtain ⟨more, split, _⟩ := exists_between rest (by omega)
    exact .inr ⟨(List.append_nil before).symm, more, split⟩
  · left
    have starts := first.starts
    rw [rest] at starts
    exact lines_lt starts second.starts none

end Order

namespace LineIndex

theorem position_monotone (text : Text) : Monotone (ofText text).position := by
  intro first second order
  rw [position_clamped text first, position_clamped text second]
  obtain ⟨before, content, after, rfl, inLine, place⟩ :=
    exists_inLine (Nat.min_le_right first (byteLength text))
  obtain ⟨before', content', after', same, inLine', place'⟩ :=
    exists_inLine (Nat.min_le_right second (byteLength (before ++ (content ++ after))))
  rw [place, place', Position.le_iff]
  rcases inLine.ordered inLine' same (by omega) with above | ⟨line, more, further⟩
  · exact .inl above
  · right
    rw [line, further, utf16Length_append]
    exact ⟨rfl, Nat.le_add_right ..⟩

theorem position_strictMonoOn (text : Text) :
    StrictMonoOn (ofText text).position {offset | text.Boundary offset} := by
  intro first firstBoundary second secondBoundary order
  obtain ⟨before, content, after, split, inLine, place⟩ := exists_inLine firstBoundary.le_byteLength
  obtain ⟨before', content', after', same, inLine', place'⟩ :=
    exists_inLine secondBoundary.le_byteLength
  have start := inLine.eq_of_boundary (split ▸ firstBoundary)
  have stop := inLine'.eq_of_boundary (same ▸ secondBoundary)
  rw [place, place', Position.lt_iff]
  rcases inLine.ordered inLine' (split.symm.trans same) (by omega) with above | ⟨rfl, more, rfl⟩
  · exact .inl above
  · right
    have nonempty : more ≠ [] := by
      rintro rfl
      rw [List.append_nil] at stop
      omega
    rw [utf16Length_append]
    exact ⟨rfl, Nat.lt_add_of_pos_right (utf16Length_pos nonempty)⟩

/-- The position of an offset is what counting gives, no subtraction on the way to it goes below
zero, and the positions of a text are in the order of its offsets. -/
theorem position_matches_scan (text : Text) :
    (∀ offset, text.Counts (min offset (byteLength text)) ((ofText text).position offset) ∧
      (ofText text).Subtracts (min offset (byteLength text))) ∧
    Monotone (ofText text).position ∧
    StrictMonoOn (ofText text).position {offset | text.Boundary offset} := by
  refine ⟨?_, position_monotone text, position_strictMonoOn text⟩
  intro offset
  rw [position_clamped]
  obtain ⟨before, content, after, rfl, inLine, place⟩ :=
    exists_inLine (Nat.min_le_right offset (byteLength text))
  rw [place]
  exact ⟨inLine.counts, subtracts_inLine inLine⟩

end LineIndex

end QueryWorkbench
