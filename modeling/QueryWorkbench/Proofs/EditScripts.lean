import Mathlib.Data.List.Forall2
import Mathlib.Data.List.Induction
import Mathlib.Order.Bounds.Basic
import Mathlib.Order.MinMax
import QueryWorkbench.Text.Basic

/-! Edits of one character at a time. A sequence of edits touches characters in any order and may
undo what it did; laid side by side, the first text and the last one show what of it is needed, and
the last column of such a layout says how the least number of edits follows from those of shorter
texts. -/

namespace QueryWorkbench

inductive SingleEdit : Text → Text → Prop
  | insert (before after : Text) (char : Char) : SingleEdit (before ++ after)
      (before ++ char :: after)
  | delete (before after : Text) (char : Char) : SingleEdit (before ++ char :: after)
      (before ++ after)
  | substitute (before after : Text) (old new : Char) : SingleEdit (before ++ old :: after)
      (before ++ new :: after)

inductive EditedIn : Nat → Text → Text → Prop
  | same (text : Text) : EditedIn 0 text text
  | step {count : Nat} {source middle target : Text} :
      EditedIn count source middle → SingleEdit middle target → EditedIn (count + 1) source target

def LeastEdits (source target : Text) (count : Nat) : Prop :=
  IsLeast {count | EditedIn count source target} count

theorem SingleEdit.cons {source target : Text} (edit : SingleEdit source target) (char : Char) :
    SingleEdit (char :: source) (char :: target) := by
  cases edit with
  | insert before after inserted => exact .insert (char :: before) after inserted
  | delete before after deleted => exact .delete (char :: before) after deleted
  | substitute before after old new => exact .substitute (char :: before) after old new

theorem EditedIn.cons {count : Nat} {source target : Text} (edited : EditedIn count source target)
    (char : Char) : EditedIn count (char :: source) (char :: target) := by
  induction edited with
  | same text => exact .same (char :: text)
  | step _ edit ih => exact .step ih (edit.cons char)

theorem EditedIn.lengths {count : Nat} {source target : Text}
    (edited : EditedIn count source target) :
    target.length ≤ source.length + count ∧ source.length ≤ target.length + count := by
  induction edited with
  | same text => simp
  | step _ edit ih =>
      cases edit <;> simp only [List.length_append, List.length_cons] at ih ⊢ <;> omega

/-- A character of the first text over one of the second; where one is missing, the other is deleted
or inserted. -/
abbrev Column := Option Char × Option Char

def changes (columns : List Column) : Nat := columns.countP fun column => column.1 != column.2

theorem changes_cons (upper lower : Option Char) (columns : List Column) :
    changes ((upper, lower) :: columns) = changes columns + if upper = lower then 0 else 1 := by
  by_cases same : upper = lower <;> simp [changes, same]

structure LaysOut (columns : List Column) (source target : Text) : Prop where
  upper : columns.filterMap Prod.fst = source
  lower : columns.filterMap Prod.snd = target

theorem LaysOut.editedIn {columns : List Column} {source target : Text}
    (layout : LaysOut columns source target) : EditedIn (changes columns) source target := by
  obtain ⟨rfl, rfl⟩ := layout
  induction columns with
  | nil => exact .same []
  | cons column rest ih =>
      obtain ⟨upper, lower⟩ := column
      -- The rest is edited first, behind the upper character, which is then dealt with at the
      -- front.
      match upper, lower with
      | none, none => simpa [changes] using ih
      | some char, none =>
          have edited := (ih.cons char).step (.delete [] _ char)
          simpa [changes] using edited
      | none, some char =>
          have edited := ih.step (.insert [] _ char)
          simpa [changes] using edited
      | some old, some new =>
          by_cases kept : old = new
          · subst kept
            simpa [changes] using ih.cons old
          · have edited := (ih.cons old).step (.substitute [] _ old new)
            simpa [changes, kept] using edited

theorem laysOut_same (text : Text) :
    LaysOut (text.map fun char => (some char, some char)) text text := by
  constructor <;> simp [List.filterMap_map]

theorem LaysOut.exists_column {columns : List Column} {source before after : Text} {char : Char}
    (layout : LaysOut columns source (before ++ char :: after)) :
    ∃ left upper right,
      columns = left ++ (upper, some char) :: right ∧ left.filterMap Prod.snd = before ∧
      right.filterMap Prod.snd = after := by
  obtain ⟨left, rest, rfl, leftLower, restLower⟩ := List.filterMap_eq_append_iff.mp layout.lower
  obtain ⟨gaps, column, right, rfl, empty, found, rightLower⟩ :=
    List.filterMap_eq_cons_iff.mp restLower
  obtain ⟨upper, lower⟩ := column
  obtain rfl : lower = some char := found
  refine ⟨left ++ gaps, upper, right, by simp, ?_, rightLower⟩
  rw [List.filterMap_append, leftLower, List.filterMap_eq_nil_iff.mpr empty, List.append_nil]

theorem LaysOut.replace {left right : List Column} {upper old : Option Char} {source middle : Text}
    (layout : LaysOut (left ++ (upper, old) :: right) source middle) (new : Option Char) :
    LaysOut (left ++ (upper, new) :: right) source
        (left.filterMap Prod.snd ++ (new.toList ++ right.filterMap Prod.snd)) ∧
      changes (left ++ (upper, new) :: right) ≤ changes (left ++ (upper, old) :: right) + 1 := by
  refine ⟨⟨?_, ?_⟩, ?_⟩
  · rw [← layout.upper, List.filterMap_append, List.filterMap_append, List.filterMap_cons,
      List.filterMap_cons]
  · cases new <;> simp
  · simp only [changes, List.countP_append, List.countP_cons]
    split <;> split <;> omega

theorem LaysOut.edit {columns : List Column} {source middle target : Text}
    (layout : LaysOut columns source middle) (edit : SingleEdit middle target) :
    ∃ edited, LaysOut edited source target ∧ changes edited ≤ changes columns + 1 := by
  cases edit with
  | insert before after char =>
      obtain ⟨left, right, rfl, rfl, rfl⟩ := List.filterMap_eq_append_iff.mp layout.lower
      refine ⟨left ++ (none, some char) :: right, ⟨?_, by simp⟩, ?_⟩
      · rw [← layout.upper]
        simp
      · simp only [changes, List.countP_append, List.countP_cons]
        split <;> omega
  | delete before after char =>
      obtain ⟨left, upper, right, rfl, rfl, rfl⟩ := layout.exists_column
      exact ⟨_, layout.replace none⟩
  | substitute before after old new =>
      obtain ⟨left, upper, right, rfl, rfl, rfl⟩ := layout.exists_column
      exact ⟨_, layout.replace (some new)⟩

theorem EditedIn.exists_layout {count : Nat} {source target : Text}
    (edited : EditedIn count source target) :
    ∃ columns, LaysOut columns source target ∧ changes columns ≤ count := by
  induction edited with
  | same text => exact ⟨_, laysOut_same text, by simp [changes, List.countP_map]⟩
  | step _ edit ih =>
      obtain ⟨columns, layout, bound⟩ := ih
      obtain ⟨next, nextLayout, nextBound⟩ := layout.edit edit
      exact ⟨next, nextLayout, by omega⟩

theorem leastEdits_iff {source target : Text} {count : Nat} : LeastEdits source target count ↔
    (∃ columns, LaysOut columns source target ∧ changes columns = count) ∧
      ∀ columns, LaysOut columns source target → count ≤ changes columns := by
  constructor
  · rintro ⟨edited, least⟩
    -- Its layout needs no more edits than the sequence has, and being one itself no fewer than the
    -- least.
    obtain ⟨columns, layout, bound⟩ := edited.exists_layout
    have lower : ∀ columns, LaysOut columns source target → count ≤ changes columns :=
      fun columns layout => least layout.editedIn
    exact ⟨⟨columns, layout, Nat.le_antisymm bound (lower columns layout)⟩, lower⟩
  · rintro ⟨⟨columns, layout, rfl⟩, least⟩
    refine ⟨layout.editedIn, ?_⟩
    intro other edited
    obtain ⟨others, otherLayout, bound⟩ := edited.exists_layout
    exact Nat.le_trans (least others otherLayout) bound

theorem LaysOut.append {columns : List Column} {source target : Text}
    (layout : LaysOut columns source target) (upper lower : Option Char) :
    LaysOut (columns ++ [(upper, lower)]) (source ++ upper.toList) (target ++ lower.toList) := by
  obtain ⟨rfl, rfl⟩ := layout
  constructor
  · cases upper <;> simp
  · cases lower <;> simp

theorem changes_append (columns : List Column) (upper lower : Option Char) :
    changes (columns ++ [(upper, lower)]) = changes columns + if upper = lower then 0 else 1 := by
  by_cases same : upper = lower <;> simp [changes, same]

/-- Without the column of its last characters, a layout lays out shorter texts. -/
theorem LaysOut.shorten {columns : List Column} {source target : Text} {upper lower : Char}
    (layout : LaysOut columns (source ++ [upper]) (target ++ [lower])) :
    (∃ rest, LaysOut rest source (target ++ [lower]) ∧ changes rest + 1 ≤ changes columns) ∨
      (∃ rest, LaysOut rest (source ++ [upper]) target ∧ changes rest + 1 ≤ changes columns) ∨
      ∃ rest, LaysOut rest source target ∧
        (changes rest + if upper = lower then 0 else 1) ≤ changes columns := by
  induction columns using List.reverseRecOn with
  | nil => simpa using layout.upper
  | append_singleton front column ih =>
      obtain ⟨last, final⟩ := column
      obtain ⟨above, below⟩ := layout
      rw [changes_append]
      match last, final with
      | none, none => simpa using ih ⟨by simpa using above, by simpa using below⟩
      | some char, none =>
          obtain ⟨rfl, rfl⟩ : front.filterMap Prod.fst = source ∧ char = upper := by
            simpa using above
          exact .inl ⟨front, ⟨rfl, by simpa using below⟩, by simp⟩
      | none, some char =>
          obtain ⟨rfl, rfl⟩ : front.filterMap Prod.snd = target ∧ char = lower := by
            simpa using below
          exact .inr (.inl ⟨front, ⟨by simpa using above, rfl⟩, by simp⟩)
      | some first, some second =>
          obtain ⟨rfl, rfl⟩ : front.filterMap Prod.fst = source ∧ first = upper := by
            simpa using above
          obtain ⟨rfl, rfl⟩ : front.filterMap Prod.snd = target ∧ second = lower := by
            simpa using below
          exact .inr (.inr ⟨front, ⟨rfl, rfl⟩, by simp⟩)

theorem leastEdits_nil_left (target : Text) : LeastEdits [] target target.length := by
  have layout : LaysOut (target.map fun char => (none, some char)) [] target := by
    constructor <;> simp [List.filterMap_map]
  have size : changes (target.map fun char => (none, some char)) = target.length := by
    simp [changes, List.countP_map, List.countP_eq_length]
  exact ⟨size ▸ layout.editedIn, fun count edited => by simpa using edited.lengths.1⟩

theorem leastEdits_nil_right (source : Text) : LeastEdits source [] source.length := by
  have layout : LaysOut (source.map fun char => (some char, none)) source [] := by
    constructor <;> simp [List.filterMap_map]
  have size : changes (source.map fun char => (some char, none)) = source.length := by
    simp [changes, List.countP_map, List.countP_eq_length]
  exact ⟨size ▸ layout.editedIn, fun count edited => by simpa using edited.lengths.2⟩

/-- The least number of edits between two texts from those between shorter ones. -/
theorem LeastEdits.extend {source target : Text} {upper lower : Char}
    {deleted inserted changed : Nat} (deletes : LeastEdits source (target ++ [lower]) deleted)
    (inserts : LeastEdits (source ++ [upper]) target inserted)
    (keeps : LeastEdits source target changed) :
    LeastEdits (source ++ [upper]) (target ++ [lower])
      (min (min (deleted + 1) (inserted + 1)) (changed + if upper = lower then 0 else 1)) := by
  rw [leastEdits_iff] at deletes inserts keeps ⊢
  obtain ⟨⟨deleting, deletingLayout, rfl⟩, deletesLeast⟩ := deletes
  obtain ⟨⟨inserting, insertingLayout, rfl⟩, insertsLeast⟩ := inserts
  obtain ⟨⟨keeping, keepingLayout, rfl⟩, keepsLeast⟩ := keeps
  have deletion :
      LaysOut (deleting ++ [(some upper, none)]) (source ++ [upper]) (target ++ [lower]) := by
    simpa using deletingLayout.append (some upper) none
  have insertion :
      LaysOut (inserting ++ [(none, some lower)]) (source ++ [upper]) (target ++ [lower]) := by
    simpa using insertingLayout.append none (some lower)
  have change :
      LaysOut (keeping ++ [(some upper, some lower)]) (source ++ [upper]) (target ++ [lower]) :=
    keepingLayout.append (some upper) (some lower)
  constructor
  · rcases min_choice (min (changes deleting + 1) (changes inserting + 1))
      (changes keeping + if upper = lower then 0 else 1) with short | direct
    · rw [short]
      rcases min_choice (changes deleting + 1) (changes inserting + 1) with first | second
      · exact ⟨_, deletion, by simp [first, changes_append]⟩
      · exact ⟨_, insertion, by simp [second, changes_append]⟩
    · rw [direct]
      exact ⟨_, change, by simp [changes_append]⟩
  · intro columns layout
    rcases layout.shorten with ⟨rest, shorter, bound⟩ | ⟨rest, shorter, bound⟩
      | ⟨rest, shorter, bound⟩
    · have least := deletesLeast rest shorter
      omega
    · have least := insertsLeast rest shorter
      omega
    · have least := keepsLeast rest shorter
      omega

end QueryWorkbench
