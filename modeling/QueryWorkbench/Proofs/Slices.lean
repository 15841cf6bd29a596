import Mathlib.Data.List.TakeWhile
import QueryWorkbench.Proofs.Positions

/-! Stretches of a text. Where a text has a stretch at a span, the span starts and ends between
characters and cutting it out gives the stretch. -/

namespace QueryWorkbench.Text

def Holds (text : Text) (span : Span) (stretch : Text) : Prop :=
  ∃ before after, text = before ++ (stretch ++ after) ∧
    span = ⟨byteLength before, byteLength before + byteLength stretch⟩

section Holds

variable {text stretch : Text} {span : Span}

theorem Holds.part {front back : Text} (holds : text.Holds span (front ++ (stretch ++ back))) :
    text.Holds ⟨span.start + byteLength front,
      span.start + byteLength front + byteLength stretch⟩ stretch := by
  obtain ⟨before, after, rfl, rfl⟩ := holds
  exact ⟨before ++ front, back ++ after, by simp, by simp⟩

theorem dropBytes_append (before rest : Text) :
    dropBytes (byteLength before) (before ++ rest) = rest := by
  induction before with
  | nil => rw [byteLength_nil, List.nil_append, dropBytes]
  | cons char before ih =>
      have positive := char.utf8Size_pos
      obtain ⟨less, size⟩ :=
        Nat.exists_eq_add_one.mpr (Nat.add_pos_left positive (byteLength before))
      rw [byteLength_cons, size, List.cons_append, dropBytes, ← size, Nat.add_sub_cancel_left, ih]

theorem takeBytes_append (stretch rest : Text) :
    takeBytes (byteLength stretch) (stretch ++ rest) = stretch := by
  induction stretch with
  | nil => rw [byteLength_nil, takeBytes]
  | cons char stretch ih =>
      have positive := char.utf8Size_pos
      obtain ⟨less, size⟩ :=
        Nat.exists_eq_add_one.mpr (Nat.add_pos_left positive (byteLength stretch))
      rw [byteLength_cons, size, List.cons_append, takeBytes, ← size, Nat.add_sub_cancel_left, ih]

theorem splitAt?_append (before rest : Text) :
    splitAt? (byteLength before) (before ++ rest) = some (before, rest) := by
  induction before with
  | nil => rw [byteLength_nil, List.nil_append, splitAt?]
  | cons char before ih =>
      have positive := char.utf8Size_pos
      obtain ⟨less, size⟩ :=
        Nat.exists_eq_add_one.mpr (Nat.add_pos_left positive (byteLength before))
      have enough : char.utf8Size ≤ less + 1 := by omega
      rw [byteLength_cons, size, List.cons_append, splitAt?, if_pos enough, ← size,
        Nat.add_sub_cancel_left, ih]
      rfl

theorem eq_of_cut {first second before after : Text} (same : first ++ second = before ++ after)
    (length : byteLength first = byteLength before) : second = after := by
  rw [← dropBytes_append first second, same, length, dropBytes_append]

theorem ends_of_splitsBreak {before after : Text}
    (splits : (before ++ after).SplitsBreak (byteLength before)) :
    before.getLast? = some '\r' ∧ after.head? = some '\n' := by
  obtain ⟨front, rest, same, length⟩ := splits
  have carriage : byteLength ['\r'] = 1 := by decide
  have cut : (front ++ ['\r']) ++ '\n' :: rest = before ++ after := by simp [same]
  obtain rfl := eq_of_cut cut (by rw [byteLength_append, carriage, length])
  rw [← List.append_cancel_right cut, List.getLast?_concat]
  exact ⟨rfl, rfl⟩

theorem Holds.slice (holds : text.Holds span stretch) : Text.slice span text = stretch := by
  obtain ⟨before, after, rfl, rfl⟩ := holds
  rw [Text.slice, Span.length, Nat.add_sub_cancel_left, dropBytes_append, takeBytes_append]

theorem holds_of_boundaries (first : text.Boundary span.start) (last : text.Boundary span.stop)
    (order : span.start ≤ span.stop) : text.Holds span (Text.slice span text) := by
  obtain ⟨start, stop⟩ := span
  obtain ⟨before, behind, rfl, rfl⟩ := first
  obtain ⟨front, after, same, rfl⟩ := last
  obtain ⟨stretch, rfl, rfl⟩ := exists_between same order
  have holds : (before ++ (stretch ++ after)).Holds
      ⟨byteLength before, byteLength (before ++ stretch)⟩ stretch :=
    ⟨before, after, rfl, by simp⟩
  rwa [holds.slice]

end Holds

theorem exists_leading (passes : Char → Bool) (text : Text) :
    ∃ run rest, text = run ++ rest ∧ (∀ char ∈ run, passes char = true) ∧
      ∀ char, rest.head? = some char → passes char = false := by
  refine ⟨text.takeWhile passes, text.dropWhile passes, List.takeWhile_append_dropWhile.symm,
    fun char member => List.mem_takeWhile_imp member, ?_⟩
  intro char found
  have stops := List.head?_dropWhile_not passes text
  rw [found] at stops
  exact stops

end QueryWorkbench.Text
