import QueryWorkbench.Diagnostic.Basic
import QueryWorkbench.Proofs.Positions

/-! The end of the line that an offset lies on. The line is the last one that starts at the offset
or before it, and its end is where its content stops, before the line break. -/

namespace QueryWorkbench

open Text

def Text.LineStart (text : Text) (start : Nat) : Prop :=
  ∃ before after, text = before ++ after ∧ StartsLine before after ∧ byteLength before = start

structure OnLine (before content after : Text) (offset : Nat) : Prop where
  starts : StartsLine before (content ++ after)
  plain : WithinLine content
  ends : EndsLine after
  last : Greatest (fun start => (before ++ (content ++ after)).LineStart start ∧ start ≤ offset)
    (byteLength before)

def Text.LineEnd (text : Text) (offset stop : Nat) : Prop :=
  ∃ before content after, text = before ++ (content ++ after) ∧ OnLine before content after offset ∧
    stop = byteLength (before ++ content)

theorem StartsLine.le_of_withinLine {first second before content after : Text}
    (starts : StartsLine first second) (same : first ++ second = before ++ (content ++ after))
    (plain : WithinLine content) (bound : byteLength first ≤ byteLength (before ++ content)) :
    byteLength first ≤ byteLength before := by
  by_contra beyond
  obtain ⟨middle, rfl, rest⟩ := exists_between same.symm (Nat.le_of_not_le beyond)
  rw [byteLength_append, byteLength_append] at bound
  obtain ⟨remains, rfl, _⟩ := exists_between rest.symm (Nat.le_of_add_le_add_left bound)
  cases middle using List.reverseRecOn with
  | nil => simp at beyond
  | append_singleton front char =>
      have isBreak := starts.fresh char (by simp)
      exact plain char (by simp) isBreak

theorem eq_carriage_of_split {rest middle second : Text}
    (split : '\r' :: '\n' :: rest = middle ++ second) (positive : 0 < byteLength middle)
    (bound : byteLength middle ≤ 1) : middle = ['\r'] := by
  cases middle with
  | nil => simp at positive
  | cons char others =>
      obtain ⟨carriage, _⟩ := List.cons_eq_cons.mp split
      subst carriage
      have size : '\r'.utf8Size = 1 := by decide
      cases others with
      | nil => rfl
      | cons next tail =>
          have nextSize := next.utf8Size_pos
          rw [byteLength_cons, byteLength_cons, size] at bound
          omega

namespace LineIndex

theorem lineOf_eq_position {text : Text} {offset : Nat} (inside : offset ≤ byteLength text) :
    (ofText text).lineOf offset = ((ofText text).position offset).line := by
  have clamped : min offset (ofText text).length = offset := Nat.min_eq_left inside
  rw [position, clamped]

theorem lineEndOf_eq {before content after : Text} {offset : Nat}
    (inside : offset ≤ byteLength (before ++ (content ++ after)))
    (line : ((ofText (before ++ (content ++ after))).position offset).line =
      (lineBreaks 0 before).length)
    (starts : StartsLine before (content ++ after)) (plain : WithinLine content)
    (ends : EndsLine after) :
    (ofText (before ++ (content ++ after))).lineEndOf offset = byteLength (before ++ content) := by
  rw [lineEndOf, lineOf_eq_position inside, line, lineEnd?_eq starts plain ends, Option.getD_some]

theorem lineEnd_splitsBreak {text : Text} {offset : Nat} (splits : text.SplitsBreak offset) :
    text.LineEnd offset ((ofText text).lineEndOf offset) := by
  obtain ⟨front, rest, rfl, rfl⟩ := splits
  have apart : ¬ Straddles front ('\r' :: '\n' :: rest) := by simp [Straddles]
  obtain ⟨before, content, rfl, plain, starts⟩ := exists_line_start apart
  have ends : EndsLine ('\r' :: '\n' :: rest) := by
    intro char first
    have carriage : '\r' = char := by simpa using first
    exact .inr carriage.symm
  have line := position_splitsBreak starts plain
  rw [List.append_assoc]
  have inside : byteLength (before ++ content) + 1 ≤
      byteLength (before ++ (content ++ '\r' :: '\n' :: rest)) := by
    rw [← List.append_assoc, byteLength_append (before ++ content), byteLength_pair]
    omega
  refine ⟨before, content, _, rfl, ⟨starts, plain, ends, ?_, ?_⟩,
    lineEndOf_eq inside (by rw [line]) starts plain ends⟩
  · refine ⟨⟨before, _, rfl, starts, rfl⟩, ?_⟩
    rw [byteLength_append]
    omega
  · rintro start ⟨⟨first, second, same, startsOther, rfl⟩, bound⟩
    by_cases within : byteLength first ≤ byteLength (before ++ content)
    · exact startsOther.le_of_withinLine same.symm plain within
    · exfalso
      rw [← List.append_assoc] at same
      obtain ⟨middle, rfl, split⟩ := exists_between same (Nat.le_of_not_le within)
      rw [byteLength_append (before ++ content)] at bound within
      have carriage : middle = ['\r'] := eq_carriage_of_split split (by omega) (by omega)
      subst carriage
      have feed : second = '\n' :: rest := by simpa using split.symm
      exact startsOther.whole ⟨by simp, by simp [feed]⟩

theorem lineEnd_whole {text : Text} {offset : Nat} (inside : offset ≤ byteLength text)
    (whole : ¬ text.SplitsBreak offset) : text.LineEnd offset ((ofText text).lineEndOf offset) := by
  obtain ⟨before, content, behind, rfl, starts, plain, reaches⟩ := exists_place inside whole
  have line := position_reaches starts plain reaches
  have nearest := reaches.greatest
  have reached := reaches.reached
  obtain ⟨more, after, rfl, morePlain, ends⟩ := exists_line_end behind
  have all : WithinLine (content ++ more) := by
    intro char member
    rcases List.mem_append.mp member with first | second
    · exact plain char first
    · exact morePlain char second
  rw [← List.append_assoc content] at starts line inside ⊢
  refine ⟨before, content ++ more, after, rfl, ⟨starts, all, ends, ?_, ?_⟩,
    lineEndOf_eq inside (by rw [line]) starts all ends⟩
  · refine ⟨⟨before, _, rfl, starts, rfl⟩, ?_⟩
    rw [byteLength_append] at reached
    omega
  · rintro start ⟨⟨first, second, same, startsOther, rfl⟩, bound⟩
    rw [List.append_assoc content] at same
    have boundary : ((before ++ content) ++ (more ++ after)).Boundary (byteLength first) :=
      ⟨first, second, by rw [List.append_assoc, same], rfl⟩
    exact startsOther.le_of_withinLine same.symm plain (nearest.2 _ ⟨boundary, bound⟩)

theorem lineEndOf_lineEnd {text : Text} {offset : Nat} (inside : offset ≤ byteLength text) :
    text.LineEnd offset ((ofText text).lineEndOf offset) := by
  by_cases splits : text.SplitsBreak offset
  · exact lineEnd_splitsBreak splits
  · exact lineEnd_whole inside splits

theorem lineEndOf_le {text : Text} {offset : Nat} (inside : offset ≤ byteLength text) :
    (ofText text).lineEndOf offset ≤ byteLength text := by
  obtain ⟨before, content, after, split, _, stop⟩ := lineEndOf_lineEnd inside
  rw [stop, split, ← List.append_assoc, byteLength_append (before ++ content)]
  exact Nat.le_add_right ..

end LineIndex

theorem Diagnostic.toLineEnd_eq {text : Text} (short : byteLength text < offsetLimit) (offset : Nat)
    (message : String) :
    let start := min offset (byteLength text)
    let span : Span := ⟨start, max ((LineIndex.ofText text).lineEndOf start) start⟩
    toLineEnd (LineIndex.ofText text) offset message =
      ⟨span, (LineIndex.ofText text).range span, message⟩ := by
  intro start span
  have inside : start ≤ byteLength text := Nat.min_le_right ..
  have lineEnd := LineIndex.lineEndOf_le inside
  exact error_eq message (Nat.lt_of_le_of_lt inside short)
    (Nat.lt_of_le_of_lt (Nat.max_le.mpr ⟨lineEnd, inside⟩) short)

end QueryWorkbench
