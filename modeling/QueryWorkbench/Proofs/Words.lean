import QueryWorkbench.Text.Word
import QueryWorkbench.Proofs.Slices

/-! Words around a cursor. The scan to the left and the scan to the right stop at the ends of one
stretch of word characters, so every cursor in the stretch or at its ends finds the whole of it. -/

namespace QueryWorkbench

open Text

namespace Text

theorem splitAt?_eq_some {offset : Nat} {text before after : Text}
    (split : splitAt? offset text = some (before, after)) :
    text = before ++ after ∧ byteLength before = offset := by
  induction text generalizing offset before with
  | nil =>
      cases offset with
      | zero =>
          obtain ⟨rfl, rfl⟩ : [] = before ∧ [] = after := by simpa [splitAt?] using split
          exact ⟨rfl, rfl⟩
      | succ offset => simp [splitAt?] at split
  | cons char rest ih =>
      cases offset with
      | zero =>
          obtain ⟨rfl, rfl⟩ : [] = before ∧ char :: rest = after := by simpa [splitAt?] using split
          exact ⟨rfl, rfl⟩
      | succ offset =>
          rw [splitAt?] at split
          split at split
          next enough =>
            obtain ⟨⟨front, behind⟩, found, same⟩ := Option.map_eq_some_iff.mp split
            obtain ⟨rfl, rfl⟩ : char :: front = before ∧ behind = after := by simpa using same
            obtain ⟨rfl, length⟩ := ih found
            refine ⟨rfl, ?_⟩
            rw [byteLength_cons, length]
            omega
          next short => simp at split

theorem splitAt?_eq_none_iff {offset : Nat} {text : Text} :
    splitAt? offset text = none ↔ ¬ text.Boundary offset := by
  constructor
  · rintro missing ⟨before, after, rfl, rfl⟩
    simp [splitAt?_append] at missing
  · intro inside
    cases split : splitAt? offset text with
    | none => rfl
    | some cut =>
        obtain ⟨whole, length⟩ := splitAt?_eq_some split
        exact (inside ⟨cut.1, cut.2, whole, length⟩).elim

end Text

def EndsOutsideWord (text : Text) : Prop :=
  ∀ char, text.getLast? = some char → isWordChar char = false

def StartsOutsideWord (text : Text) : Prop :=
  ∀ char, text.head? = some char → isWordChar char = false

/-- A stretch of word characters that cannot be extended on either side. -/
structure WordIn (text : Text) (word : Word) : Prop where
  nonempty : word.text ≠ []
  all : ∀ char ∈ word.text, isWordChar char = true
  alone : ∃ before after, text = before ++ (word.text ++ after) ∧ byteLength before = word.start ∧
    EndsOutsideWord before ∧ StartsOutsideWord after

def TouchesWord (text : Text) (offset : Nat) : Prop :=
  ∃ before after char, text = before ++ after ∧ byteLength before = offset ∧
    isWordChar char = true ∧ (before.getLast? = some char ∨ after.head? = some char)

theorem takeWhile_run {run rest : Text} (all : ∀ char ∈ run, isWordChar char = true)
    (closed : StartsOutsideWord rest) : (run ++ rest).takeWhile isWordChar = run := by
  rw [List.takeWhile_append_of_pos all]
  cases rest with
  | nil => simp
  | cons char rest => simp [closed char rfl]

theorem endsOutsideWord_reverse {text : Text} :
    EndsOutsideWord text.reverse ↔ StartsOutsideWord text := by
  simp [EndsOutsideWord, StartsOutsideWord]

theorem exists_run_behind (text : Text) :
    ∃ front run, text = front ++ run ∧ (∀ char ∈ run, isWordChar char = true) ∧
      EndsOutsideWord front := by
  obtain ⟨run, rest, split, all, closed⟩ := exists_leading isWordChar text.reverse
  refine ⟨rest.reverse, run.reverse, ?_, by simpa using all, endsOutsideWord_reverse.mpr closed⟩
  rw [← List.reverse_append, ← split, List.reverse_reverse]

theorem wordAt?_runs {front left right rest : Text}
    (leftAll : ∀ char ∈ left, isWordChar char = true)
    (rightAll : ∀ char ∈ right, isWordChar char = true) (opens : EndsOutsideWord front)
    (closes : StartsOutsideWord rest) :
    wordAt? ((front ++ left) ++ (right ++ rest)) (byteLength (front ++ left)) =
      if left ++ right = [] then none else some ⟨byteLength front, left ++ right⟩ := by
  have ahead : (right ++ rest).takeWhile isWordChar = right := takeWhile_run rightAll closes
  have behind : (front ++ left).reverse.takeWhile isWordChar = left.reverse := by
    rw [List.reverse_append]
    apply takeWhile_run (by simpa using leftAll)
    rwa [← endsOutsideWord_reverse, List.reverse_reverse]
  have start : byteLength (front ++ left) - byteLength left = byteLength front := by
    rw [byteLength_append]
    omega
  simp only [wordAt?, splitAt?_append, Option.bind_eq_bind, Option.bind_some, ahead, behind,
    List.reverse_reverse, start]
  split
  next empty => rw [if_pos empty]
  next found => rw [if_neg (by simpa using found)]

theorem WordIn.holds {text : Text} {word : Word} (wordIn : WordIn text word) :
    text.Holds ⟨word.start, word.start + byteLength word.text⟩ word.text := by
  obtain ⟨before, after, whole, start, _⟩ := wordIn.alone
  exact ⟨before, after, whole, by rw [start]⟩

theorem WordIn.found {text : Text} {word : Word} {offset : Nat} (wordIn : WordIn text word)
    (boundary : text.Boundary offset) (above : word.start ≤ offset)
    (below : offset ≤ word.start + byteLength word.text) : wordAt? text offset = some word := by
  obtain ⟨start, letters⟩ := word
  obtain ⟨nonempty, all, before, after, rfl, rfl, opens, closes⟩ := wordIn
  rw [← byteLength_append] at below
  obtain ⟨first, second, rfl, rfl⟩ := boundary_within boundary above below
  obtain ⟨firstAll, secondAll⟩ := List.forall_mem_append.mp all
  have regroup :
      before ++ (first ++ second ++ after) = (before ++ first) ++ (second ++ after) := by simp
  rw [regroup, wordAt?_runs firstAll secondAll opens closes, if_neg nonempty]

theorem wordIn_of_wordAt? {text : Text} {word : Word} {offset : Nat}
    (found : wordAt? text offset = some word) :
    text.Boundary offset ∧ WordIn text word ∧ word.start ≤ offset ∧
    offset ≤ word.start + byteLength word.text := by
  cases split : splitAt? offset text with
  | none => simp [wordAt?, split] at found
  | some cut =>
      obtain ⟨before, after⟩ := cut
      obtain ⟨rfl, rfl⟩ := splitAt?_eq_some split
      obtain ⟨front, left, rfl, leftAll, opens⟩ := exists_run_behind before
      obtain ⟨right, rest, rfl, rightAll, closes⟩ := exists_leading isWordChar after
      rw [wordAt?_runs leftAll rightAll opens closes] at found
      split at found
      next empty => simp at found
      next nonempty =>
        obtain rfl := Option.some.inj found
        refine ⟨⟨_, _, rfl, rfl⟩,
          ⟨nonempty, List.forall_mem_append.mpr ⟨leftAll, rightAll⟩, front, rest, by simp, rfl,
          opens, closes⟩, ?_, ?_⟩
        · exact byteLength_append front left ▸ Nat.le_add_right ..
        · simp only [byteLength_append]
          omega

theorem not_touchesWord_iff {before after : Text} :
    ¬ TouchesWord (before ++ after) (byteLength before) ↔
      EndsOutsideWord before ∧ StartsOutsideWord after := by
  constructor
  · intro untouched
    refine ⟨fun char last => ?_, fun char first => ?_⟩
    · rw [← Bool.not_eq_true]
      intro isWord
      exact untouched ⟨before, after, char, rfl, rfl, isWord, .inl last⟩
    · rw [← Bool.not_eq_true]
      intro isWord
      exact untouched ⟨before, after, char, rfl, rfl, isWord, .inr first⟩
  · rintro ⟨opens, closes⟩ ⟨front, behind, char, same, length, isWord, touches⟩
    obtain rfl := eq_of_cut same length.symm
    obtain rfl := List.append_cancel_right same
    rcases touches with last | first
    · simp [opens char last] at isWord
    · simp [closes char first] at isWord

theorem wordAt?_cut_eq_none_iff {before after : Text} :
    wordAt? (before ++ after) (byteLength before) = none ↔
      EndsOutsideWord before ∧ StartsOutsideWord after := by
  obtain ⟨front, left, rfl, leftAll, opens⟩ := exists_run_behind before
  obtain ⟨right, rest, rfl, rightAll, closes⟩ := exists_leading isWordChar after
  rw [wordAt?_runs leftAll rightAll opens closes]
  constructor
  · intro missing
    obtain ⟨rfl, rfl⟩ : left = [] ∧ right = [] := by simpa using missing
    simpa using ⟨opens, closes⟩
  · rintro ⟨noneBehind, noneAhead⟩
    have noLeft : left = [] := by
      cases last : left.getLast? with
      | none => exact List.getLast?_eq_none_iff.mp last
      | some char =>
          have isWord := leftAll char (List.mem_of_getLast? last)
          rw [noneBehind char (by simp [last])] at isWord
          exact Bool.noConfusion isWord
    have noRight : right = [] := by
      cases right with
      | nil => rfl
      | cons char others =>
          have isWord := rightAll char (by simp)
          rw [noneAhead char (by simp)] at isWord
          exact Bool.noConfusion isWord
    simp [noLeft, noRight]

/-- A cursor finds the one stretch of word characters that it stands in or touches and that cannot
be extended, and finds none only where there is no such stretch. Every cursor of the stretch finds
the same one. -/
theorem cursors_share_word (text : Text) (offset : Nat) :
    (wordAt? text offset = none ↔
      byteLength text < offset ∨ ¬ text.Boundary offset ∨ ¬ TouchesWord text offset) ∧
    ∀ word, wordAt? text offset = some word →
      word.text = Text.slice ⟨word.start, word.start + byteLength word.text⟩ text ∧
      WordIn text word ∧ word.start ≤ offset ∧ offset ≤ word.start + byteLength word.text ∧
      ∀ other, text.Boundary other → word.start ≤ other →
        other ≤ word.start + byteLength word.text → wordAt? text other = some word := by
  refine ⟨?_, ?_⟩
  · by_cases boundary : text.Boundary offset
    · have inside := boundary.le_byteLength
      obtain ⟨before, after, rfl, rfl⟩ := boundary
      rw [wordAt?_cut_eq_none_iff, ← not_touchesWord_iff]
      constructor
      · exact fun untouched => .inr (.inr untouched)
      · rintro (past | off | untouched)
        · omega
        · exact (off ⟨before, after, rfl, rfl⟩).elim
        · exact untouched
    · simp [wordAt?, splitAt?_eq_none_iff.mpr boundary, boundary]
  · intro word found
    obtain ⟨_, wordIn, above, below⟩ := wordIn_of_wordAt? found
    refine ⟨wordIn.holds.slice.symm, wordIn, above, below, ?_⟩
    intro other boundary start stop
    exact wordIn.found boundary start stop

theorem cursors_share_word_accented :
    wordAt? ['+', 'é', '_', 'x', ' '] 3 = some ⟨1, ['é', '_', 'x']⟩ ∧
      wordAt? ['+', 'é', '_', 'x', ' '] 5 = some ⟨1, ['é', '_', 'x']⟩ := by
  have found : wordAt? ['+', 'é', '_', 'x', ' '] 3 = some ⟨1, ['é', '_', 'x']⟩ := by decide
  obtain ⟨_, _, _, _, same⟩ := (cursors_share_word _ 3).2 _ found
  exact ⟨found, same 5 ⟨['+', 'é', '_', 'x'], [' '], rfl, by decide⟩ (by decide) (by decide)⟩

end QueryWorkbench
