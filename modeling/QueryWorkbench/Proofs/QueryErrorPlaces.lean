import QueryWorkbench.Query.Error
import QueryWorkbench.Proofs.LineEnds
import QueryWorkbench.Proofs.PositionScan
import QueryWorkbench.Proofs.StatedOffsets

/-! Where errors of a query file are placed. An error with an offset reaches from there to the end
of the line and never over a line break, wherever the offset points; an error without one covers the
whole file. -/

namespace QueryWorkbench

open Text

def Text.BreakByte (text : Text) (offset : Nat) : Prop :=
  ∃ before char after,
    text = before ++ char :: after ∧ IsLineBreak char ∧ byteLength before = offset

section Line

variable {before content after : Text} {offset : Nat}

theorem WithinLine.not_breakByte (plain : WithinLine content) (above : byteLength before ≤ offset)
    (below : offset < byteLength (before ++ content)) :
    ¬ (before ++ (content ++ after)).BreakByte offset := by
  rintro ⟨front, char, behind, same, isBreak, rfl⟩
  obtain ⟨middle, rfl, rest⟩ := exists_between same above
  rw [byteLength_append, byteLength_append] at below
  obtain ⟨more, rfl, stands⟩ :=
    exists_between rest.symm (Nat.le_of_lt (Nat.lt_of_add_lt_add_left below))
  cases more with
  | nil =>
      rw [List.append_nil] at below
      exact absurd below (Nat.lt_irrefl _)
  | cons first others =>
      obtain ⟨rfl, _⟩ := List.cons.inj stands
      exact plain char (by simp) isBreak

theorem exists_break_behind (starts : StartsLine before (content ++ after))
    (plain : WithinLine content) (ends : EndsLine after) (more : after ≠ []) :
    ∃ stop, byteLength (before ++ content) < stop ∧
      (before ++ (content ++ after)).BreakAt ⟨byteLength (before ++ content), stop⟩ ∧
      (before ++ (content ++ after)).LineStart stop := by
  obtain ⟨char, rest, rfl⟩ := List.exists_cons_of_ne_nil more
  have whole := starts.not_straddles plain
  have isBreak := ends char rfl
  rw [← List.append_assoc]
  generalize before ++ content = front at *
  by_cases pair : Straddles [char] rest
  · obtain ⟨tail, rfl⟩ := List.head?_eq_some_iff.mp pair.2
    have carriage : char = '\r' := by simpa using pair.1
    subst carriage
    refine ⟨byteLength front + 2, by omega, .pair, front ++ ['\r', '\n'], tail, by simp,
      ⟨?_, by simp [Straddles]⟩, ?_⟩
    · intro last found
      have feed : '\n' = last := by simpa using found
      exact .inl feed.symm
    · rw [byteLength_append, byteLength_pair, byteLength_nil]
  · have size := isBreak.utf8Size
    have next : (front ++ char :: rest).LineStart (byteLength front + 1) := by
      refine ⟨front ++ [char], rest, by simp, ⟨?_, ?_⟩, by simp [size]⟩
      · intro last found
        have same : char = last := by simpa using found
        rwa [← same]
      · rintro ⟨carriage, feed⟩
        exact pair ⟨by simpa using carriage, feed⟩
    refine ⟨byteLength front + 1, by omega, ?_, next⟩
    rcases isBreak with rfl | rfl
    · exact .feed fun last => whole ⟨last, rfl⟩
    · exact .carriage fun feed => pair ⟨rfl, feed⟩

theorem line_within (starts : StartsLine before (content ++ after)) (plain : WithinLine content)
    (above : byteLength before ≤ offset) (below : offset ≤ byteLength (before ++ content)) :
    ((LineIndex.ofText (before ++ (content ++ after))).position offset).line =
      (lineBreaks 0 before).length := by
  have inside : offset ≤ byteLength (before ++ (content ++ after)) := by
    rw [← List.append_assoc, byteLength_append (before ++ content)]
    omega
  rw [← LineIndex.lineOf_eq_position inside]
  refine LineIndex.lineOf_eq starts.whole above inside ?_
  rw [lineBreaks_append _ (plain.not_straddles after), lineBreaks_withinLine _ plain,
    List.nil_append, ← byteLength_append]
  intro span member
  have bounds := mem_lineBreaks member
  omega

namespace OnLine

theorem beyond (onLine : OnLine before content after offset)
    (inside : offset ≤ byteLength (before ++ (content ++ after))) :
    max (byteLength (before ++ content)) offset = byteLength (before ++ (content ++ after)) ∨
      ∃ stop, max (byteLength (before ++ content)) offset < stop ∧
        (before ++ (content ++ after)).BreakAt ⟨byteLength (before ++ content), stop⟩ := by
  by_cases more : after = []
  · subst more
    rw [List.append_nil] at inside ⊢
    exact .inl (Nat.max_eq_left inside)
  · right
    obtain ⟨stop, past, isBreak, next⟩ :=
      exists_break_behind onLine.starts onLine.plain onLine.ends more
    refine ⟨stop, Nat.max_lt.mpr ⟨past, ?_⟩, isBreak⟩
    apply Nat.lt_of_not_le
    intro reached
    have last := onLine.last.2 stop ⟨next, reached⟩
    rw [byteLength_append] at past
    omega

theorem unbroken (onLine : OnLine before content after offset) :
    ∀ place, offset ≤ place → place < max (byteLength (before ++ content)) offset →
      ¬ (before ++ (content ++ after)).BreakByte place := by
  intro place above below
  have start := onLine.last.1.2
  exact onLine.plain.not_breakByte (by omega) (by omega)

theorem line_eq (onLine : OnLine before content after offset) :
    ((LineIndex.ofText (before ++ (content ++ after))).position offset).line =
      ((LineIndex.ofText (before ++ (content ++ after))).position
        (max (byteLength (before ++ content)) offset)).line := by
  by_cases within : offset ≤ byteLength (before ++ content)
  · have length := byteLength_append before content
    rw [Nat.max_eq_left within, line_within onLine.starts onLine.plain onLine.last.1.2 within,
      line_within onLine.starts onLine.plain (by omega) (Nat.le_refl _)]
  · rw [Nat.max_eq_right (Nat.le_of_not_le within)]

end OnLine

end Line

/-- A span from an offset on that no line break interrupts and that cannot be longer. -/
structure ToLineEnd (text : Text) (offset : Nat) (span : Span) (range : Range) : Prop where
  start : span.start = min offset (byteLength text)
  unbroken : ∀ place, span.start ≤ place → place < span.stop → ¬ text.BreakByte place
  line : range.start.line = range.stop.line
  complete : span.stop = byteLength text ∨
    ∃ other, text.BreakAt other ∧ other.start ≤ span.stop ∧ span.stop < other.stop

theorem Diagnostic.toLineEnd_spans {text : Text} (short : byteLength text < offsetLimit)
    (offset : Nat) (message : String) :
    let diagnostic := toLineEnd (LineIndex.ofText text) offset message
    ToLineEnd text offset diagnostic.span diagnostic.range ∧
    diagnostic.span.start ≤ diagnostic.span.stop ∧
      diagnostic.span.stop ≤ byteLength text := by
  have inside : min offset (byteLength text) ≤ byteLength text := Nat.min_le_right ..
  obtain ⟨before, content, after, split, onLine, stop⟩ := LineIndex.lineEndOf_lineEnd inside
  rw [toLineEnd_eq short, stop]
  generalize clamped : min offset (byteLength text) = start at *
  subst split
  have within : byteLength (before ++ content) ≤ byteLength (before ++ (content ++ after)) := by
    rw [← List.append_assoc, byteLength_append (before ++ content)]
    omega
  refine ⟨⟨clamped.symm, onLine.unbroken, onLine.line_eq, ?_⟩, Nat.le_max_right ..,
    Nat.max_le.mpr ⟨within, inside⟩⟩
  rcases onLine.beyond inside with final | ⟨stop, past, isBreak⟩
  · exact .inl final
  · exact .inr ⟨_, isBreak, Nat.le_max_left .., past⟩

namespace Query.CompileError

def LocatedAt (error : CompileError) (number : Nat) : Prop :=
  error.offset = some number ∨ error.offset = none ∧ Message.States error.message.toList number

theorem located_iff {error : CompileError} {number : Nat} :
    (error.offset <|> Message.statedOffset? error.message.toList) = some number ↔
      error.LocatedAt number := by
  rw [LocatedAt, ← Message.statedOffset?_eq_some]
  cases error.offset <;> simp

theorem lineEnd?_last (text : Text) :
    (LineIndex.ofText text).lineEnd? ((LineIndex.ofText text).lineCount - 1) =
      some (byteLength text) := by
  rw [LineIndex.lineCount_eq, Nat.add_sub_cancel]
  simp [LineIndex.lineEnd?, LineIndex.ofText]

/-- The error of a query file stands inside the file. With an offset it starts there, or at the end
of a shorter file, and reaches over all that is left of the line; without one it covers the file. -/
theorem diagnostic_within_file {text : Text} (short : byteLength text < offsetLimit)
    (error : CompileError) :
    let diagnostic := error.diagnostic (LineIndex.ofText text)
    diagnostic.span.start ≤ diagnostic.span.stop ∧ diagnostic.span.stop ≤ byteLength text ∧
      diagnostic.range = ⟨(LineIndex.ofText text).position diagnostic.span.start,
        (LineIndex.ofText text).position diagnostic.span.stop⟩ ∧
      (∀ number, error.LocatedAt number → ToLineEnd text number diagnostic.span diagnostic.range) ∧
      ((∀ number, ¬ error.LocatedAt number) → diagnostic.span = ⟨0, byteLength text⟩) := by
  simp only [← located_iff]
  rw [diagnostic]
  cases located : error.offset <|> Message.statedOffset? error.message.toList with
  | some number =>
      obtain ⟨placed, ordered, inside⟩ :=
        Diagnostic.toLineEnd_spans short number (Message.sanitize error.message)
      refine ⟨ordered, inside, rfl, ?_, ?_⟩
      · rintro other ⟨⟩
        exact placed
      · exact fun none => absurd rfl (none number)
  | none =>
      dsimp only
      rw [lineEnd?_last, Option.getD_some, Diagnostic.error_eq _ (Nat.zero_lt_of_lt short) short]
      exact ⟨Nat.zero_le _, Nat.le_refl _, rfl, by simp, fun _ => rfl⟩

def pairedLines : Text := ['a', '\r', '\n', 'b']

def betweenError : CompileError := ⟨none, "Invalid syntax at offset 2"⟩

def hiddenError : CompileError := ⟨none, "Invalid syntax at offset ٣ at offset 1"⟩

theorem diagnostic_within_file_paired :
    byteLength pairedLines < offsetLimit ∧ betweenError.LocatedAt 2 ∧
    ToLineEnd pairedLines 2 ⟨2, 2⟩ ⟨⟨0, 2⟩, ⟨0, 2⟩⟩ ∧
      (∀ number, ¬ hiddenError.LocatedAt number) ∧
      (hiddenError.diagnostic (LineIndex.ofText pairedLines)).span = ⟨0, 4⟩ := by
  have between : betweenError.LocatedAt 2 := located_iff.mp (by decide +kernel)
  have none : ∀ number, ¬ hiddenError.LocatedAt number := by
    intro number located
    have unread :
        (hiddenError.offset <|> Message.statedOffset? hiddenError.message.toList) = none := by
      decide +kernel
    rw [← located_iff, unread] at located
    cases located
  have shown : betweenError.diagnostic (LineIndex.ofText pairedLines) =
      ⟨⟨2, 2⟩, ⟨⟨0, 2⟩, ⟨0, 2⟩⟩, "Invalid syntax"⟩ := by decide +kernel
  have short : byteLength pairedLines < offsetLimit := by decide
  obtain ⟨_, _, _, toLineEnd, _⟩ := diagnostic_within_file short betweenError
  obtain ⟨_, _, _, _, whole⟩ := diagnostic_within_file short hiddenError
  have placed := toLineEnd 2 between
  rw [shown] at placed
  exact ⟨short, between, placed, none, whole none⟩

end Query.CompileError

end QueryWorkbench
