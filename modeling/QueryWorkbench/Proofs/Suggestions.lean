import QueryWorkbench.Language.Suggestion
import QueryWorkbench.Proofs.EditScripts

/-! Suggested names. A row of the table holds the least numbers of edits from one start of the
source to every start of the target. It is written over a row of an earlier start, from the left, so
that a cell is read only when it is older than the row or when it has been written before. -/

namespace QueryWorkbench

section Rows

variable {width : Nat} {target : Vector Char width}

/-- The cells of the row up to the given one hold the least numbers of edits from the source. -/
def FilledTo (source : Text) (target : Vector Char width) (row : Vector Nat (width + 1))
    (last : Nat) : Prop :=
  ∀ (place : Nat) (inside : place < width + 1), place ≤ last →
    LeastEdits source (target.toList.take place) row[place]

theorem toList_take_succ (target : Vector Char width) {place : Nat} (inside : place < width) :
    target.toList.take (place + 1) = target.toList.take place ++ [target[place]] := by
  rw [← List.take_append_getElem (by simpa using inside)]
  simp

theorem FilledTo.writeCell {source : Text} {char : Char} {above row : Vector Nat (width + 1)}
    {place : Fin width} (filled : FilledTo (source ++ [char]) target row place)
    (done : FilledTo source target above width) :
    FilledTo (source ++ [char]) target (writeCell target char above row place) (place + 1) := by
  intro cell inside bound
  simp only [QueryWorkbench.writeCell, Fin.getElem_fin, Fin.val_castSucc, Fin.val_succ,
    Vector.getElem_set]
  split
  next written =>
    subst written
    rw [toList_take_succ target place.isLt]
    -- The cells above, to the left and across are those of the three pairs of shorter texts.
    apply LeastEdits.extend
    · rw [← toList_take_succ target place.isLt]
      exact done (place + 1) inside place.isLt
    · exact filled place (by omega) (Nat.le_refl _)
    · exact done place (by omega) (by omega)
  next other => exact filled cell inside (by omega)

theorem FilledTo.row {source : Text} {char : Char} {above spare : Vector Nat (width + 1)}
    (done : FilledTo source target above width) (count : Nat) (bound : count ≤ width) :
    FilledTo (source ++ [char]) target
      (count.fold (fun place inside row =>
        QueryWorkbench.writeCell target char above row ⟨place, by omega⟩)
        (spare.set 0 (source.length + 1))) count := by
  induction count with
  | zero =>
      intro cell inside first
      obtain rfl : cell = 0 := by omega
      simpa using leastEdits_nil_right (source ++ [char])
  | succ count ih =>
      -- Behind `count` the row still has its old cells, about which nothing is known; the next cell
      -- reads none of them.
      rw [Nat.fold_succ]
      exact (ih (by omega)).writeCell done

theorem filledTo_nextRows {source : Text} {rows : DistanceRows width}
    (done : FilledTo source target rows.above width) (char : Char) :
    FilledTo (source ++ [char]) target (nextRows target rows (char, source.length)).above width :=
  done.row width (Nat.le_refl width)

theorem filledTo_rows {source : Text} {rows : DistanceRows width}
    (done : FilledTo source target rows.above width) (rest : Text) :
    FilledTo (source ++ rest) target
      ((rest.zipIdx source.length).foldl (nextRows target) rows).above width := by
  induction rest generalizing source rows with
  | nil => simpa using done
  | cons char rest ih =>
      have next := ih (filledTo_nextRows done char)
      simpa using next

theorem filledTo_range (target : Vector Char width) :
    FilledTo [] target (Vector.range (width + 1)) width := by
  intro place inside bound
  have size : (target.toList.take place).length = place := by simpa using bound
  have least := leastEdits_nil_left (target.toList.take place)
  rw [size] at least
  simpa using least

end Rows

theorem editDistance_least (source target : Text) :
    LeastEdits source target (editDistance source target) := by
  rw [editDistance]
  split
  next empty =>
    obtain rfl := List.isEmpty_iff.mp empty
    exact leastEdits_nil_left target
  next =>
    split
    next empty =>
      obtain rfl := List.isEmpty_iff.mp empty
      exact leastEdits_nil_right source
    next =>
      let letters : Vector Char target.length := ⟨target.toArray, by simp⟩
      let start : DistanceRows target.length :=
        ⟨Vector.range (target.length + 1), Vector.replicate (target.length + 1) 0⟩
      have first : FilledTo [] letters start.above target.length := filledTo_range letters
      have last := filledTo_rows first source target.length (by omega) (Nat.le_refl _)
      have whole : letters.toList.take target.length = target := by simp [letters]
      rw [whole] at last
      exact last

/-- Characters that no ASCII text tells apart. -/
def AsciiAlike (first second : Char) : Prop :=
  first = second ∨ (128 ≤ first.toNat ∧ 128 ≤ second.toNat)

/-- A lower case of the text. It may have other characters outside ASCII than `lowercase` has, but
in the same places. -/
def LowerCaseOf (text lowered : Text) : Prop := List.Forall₂ AsciiAlike (lowercase text) lowered

theorem AsciiAlike.compare {first second : Char} (alike : AsciiAlike first second)
    {upper : Option Char} (ascii : ∀ char ∈ upper, char.toNat < 128) :
    upper = some first ↔ upper = some second := by
  rcases alike with rfl | ⟨firstOutside, secondOutside⟩
  · rfl
  · constructor
    · rintro rfl
      have inside := ascii first rfl
      omega
    · rintro rfl
      have inside := ascii second rfl
      omega

theorem LaysOut.alike {columns : List Column} {name first second : Text}
    (layout : LaysOut columns name first) (ascii : ∀ char ∈ name, char.toNat < 128)
    (alike : List.Forall₂ AsciiAlike first second) :
    ∃ others, LaysOut others name second ∧ changes others = changes columns := by
  obtain ⟨rfl, rfl⟩ := layout
  induction columns generalizing second with
  | nil =>
      cases alike
      exact ⟨[], ⟨rfl, rfl⟩, rfl⟩
  | cons column rest ih =>
      obtain ⟨upper, lower⟩ := column
      have asciiRest : ∀ char ∈ rest.filterMap Prod.fst, char.toNat < 128 := by
        intro char member
        apply ascii
        cases upper <;> simp [member]
      have asciiUpper : ∀ char ∈ upper, char.toNat < 128 := by
        rintro char rfl
        exact ascii char (by simp)
      cases lower with
      | none =>
          obtain ⟨others, ⟨upperEq, rfl⟩, same⟩ := ih asciiRest (by simpa using alike)
          refine ⟨(upper, none) :: others, ⟨?_, by simp⟩, ?_⟩
          · rw [List.filterMap_cons, List.filterMap_cons, upperEq]
          · rw [changes_cons, changes_cons, same]
      | some char =>
          have pairs : List.Forall₂ AsciiAlike (char :: rest.filterMap Prod.snd) second := by
            simpa using alike
          obtain ⟨other, behind, head, tail, rfl⟩ := List.forall₂_cons_left_iff.mp pairs
          obtain ⟨others, ⟨upperEq, rfl⟩, same⟩ := ih asciiRest tail
          refine ⟨(upper, some other) :: others, ⟨?_, by simp⟩, ?_⟩
          · rw [List.filterMap_cons, List.filterMap_cons, upperEq]
          · rw [changes_cons, changes_cons, same, if_congr (head.compare asciiUpper) rfl rfl]

theorem editDistance_le_of_alike {name first second : Text}
    (ascii : ∀ char ∈ name, char.toNat < 128) (alike : List.Forall₂ AsciiAlike first second) :
    editDistance name second ≤ editDistance name first := by
  obtain ⟨⟨columns, layout, cost⟩, _⟩ := leastEdits_iff.mp (editDistance_least name first)
  obtain ⟨others, otherLayout, same⟩ := layout.alike ascii alike
  rw [← cost, ← same]
  exact (leastEdits_iff.mp (editDistance_least name second)).2 others otherLayout

theorem editDistance_alike {name first second : Text} (ascii : ∀ char ∈ name, char.toNat < 128)
    (alike : List.Forall₂ AsciiAlike first second) :
    editDistance name first = editDistance name second := by
  have back : List.Forall₂ AsciiAlike second first := by
    refine alike.flip.imp ?_
    rintro late early (rfl | ⟨outside, otherOutside⟩)
    · exact .inl rfl
    · exact .inr ⟨otherOutside, outside⟩
  exact Nat.le_antisymm (editDistance_le_of_alike ascii back) (editDistance_le_of_alike ascii alike)

namespace Language

theorem name_ascii (language : Language) : ∀ char ∈ language.name.toList, char.toNat < 128 := by
  have checked : (language.name.toList.all fun char => decide (char.toNat < 128)) = true := by
    cases language <;> decide +kernel
  intro char member
  exact of_decide_eq_true (List.all_eq_true.mp checked char member)

def FirstNearest (text : Text) (language : Language) : Prop :=
  ∃ earlier later, all = earlier ++ language :: later ∧
    (∀ other : Language,
      editDistance language.name.toList text ≤ editDistance other.name.toList text) ∧
    ∀ other ∈ earlier, editDistance language.name.toList text < editDistance other.name.toList text

theorem suggest?_eq_none_iff (name : String) : suggest? name = none ↔
    ∀ language : Language,
      suggestionLimit < editDistance language.name.toList (lowercase name.toList) := by
  simp only [suggest?, List.findSome?_eq_none_iff, List.find?_eq_none, List.mem_range, beq_iff_eq]
  constructor
  · intro none language
    apply Nat.lt_of_not_le
    intro near
    exact none _ (Nat.lt_succ_of_le near) language (mem_all language) rfl
  · rintro far distance bound language _ rfl
    have beyond := far language
    omega

theorem mem_before_of_range {count number smaller : Nat} {before after : List Nat}
    (split : List.range count = before ++ number :: after) (less : smaller < number) :
    smaller ∈ before := by
  have member : number ∈ List.range count := by simp [split]
  have bound := List.mem_range.mp member
  have listed : smaller ∈ List.range count := List.mem_range.mpr (by omega)
  have sorted : (List.range count).Pairwise (· < ·) := List.pairwise_lt_range
  rw [split] at listed sorted
  rcases List.mem_append.mp listed with early | late
  · exact early
  · rcases List.mem_cons.mp late with same | behind
    · omega
    · have above := List.rel_of_pairwise_cons (List.pairwise_append.mp sorted).2.1 behind
      omega

theorem firstNearest_of_suggest? {name : String} {language : Language}
    (found : suggest? name = some language) : FirstNearest (lowercase name.toList) language := by
  obtain ⟨smaller, distance, larger, split, here, none⟩ := List.findSome?_eq_some_iff.mp found
  obtain ⟨near, earlier, later, order, others⟩ := List.find?_eq_some_iff_append.mp here
  obtain rfl : editDistance language.name.toList (lowercase name.toList) = distance := by
    simpa using near
  -- The distances are tried in ascending order, so every smaller one was tried without success.
  have least : ∀ other : Language, editDistance language.name.toList (lowercase name.toList) ≤
      editDistance other.name.toList (lowercase name.toList) := by
    intro other
    apply Nat.le_of_not_lt
    intro nearer
    have missing :=
      List.find?_eq_none.mp (none _ (mem_before_of_range split nearer)) other (mem_all other)
    simp at missing
  refine ⟨earlier, later, order, least, ?_⟩
  intro other member
  have different : editDistance other.name.toList (lowercase name.toList) ≠
      editDistance language.name.toList (lowercase name.toList) := by
    simpa using others other member
  exact Nat.lt_of_le_of_ne (least other) different.symm

/-- The distance is the least number of edits, and a name is suggested exactly when one is near
enough to the lower case of what was given: the first of the nearest. -/
theorem suggestion_is_nearest :
    (∀ source target : Text,
      IsLeast {count | EditedIn count source target} (editDistance source target)) ∧
    ∀ (input : String) (lowered : Text), LowerCaseOf input.toList lowered →
      ((∃ language, suggest? input = some language) ↔
        ∃ language : Language, editDistance language.name.toList lowered ≤ 2) ∧
      ∀ language, suggest? input = some language → FirstNearest lowered language := by
  refine ⟨editDistance_least, ?_⟩
  intro input lowered lower
  have same : ∀ language : Language, editDistance language.name.toList (lowercase input.toList) =
      editDistance language.name.toList lowered :=
        fun language => editDistance_alike language.name_ascii lower
  constructor
  · have missing := suggest?_eq_none_iff input
    simp only [same, suggestionLimit] at missing
    rw [← Option.isSome_iff_exists, Option.isSome_iff_ne_none, ne_eq, missing]
    simp
  · intro language found
    have nearest := firstNearest_of_suggest? found
    simpa only [FirstNearest, same] using nearest

theorem suggestion_is_nearest_accented :
    LowerCaseOf "ÉAVA".toList "éava".toList ∧ suggest? "ÉAVA" = some .java ∧
      editDistance "java".toList "éava".toList = 1 ∧ FirstNearest "éava".toList .java := by
  have lower : LowerCaseOf "ÉAVA".toList "éava".toList :=
    .cons (.inr (by decide +kernel)) (.cons (.inl rfl) (.cons (.inl rfl) (.cons (.inl rfl) .nil)))
  have found : suggest? "ÉAVA" = some .java := by decide +kernel
  exact ⟨lower, found, by decide +kernel, (suggestion_is_nearest.2 _ _ lower).2 _ found⟩

end Language

end QueryWorkbench
