import Mathlib.Data.List.Induction
import QueryWorkbench.Proofs.Columns

/-! The lines of a text, and where an index has them. A text is cut between two characters; a cut
between the carriage return and the line feed of one line break is the only one that a line break
straddles. -/

namespace QueryWorkbench

open Text

def IsLineBreak (char : Char) : Prop := char = '\n' ∨ char = '\r'

instance (char : Char) : Decidable (IsLineBreak char) := inferInstanceAs (Decidable (_ ∨ _))

theorem IsLineBreak.utf8Size {char : Char} (isBreak : IsLineBreak char) : char.utf8Size = 1 := by
  rcases isBreak with feed | carriage
  · subst char
    decide
  · subst char
    decide

/-- One line break lies on both sides of the cut. -/
def Straddles (before after : Text) : Prop :=
  before.getLast? = some '\r' ∧ after.head? = some '\n'

def WithinLine (text : Text) : Prop := ∀ char ∈ text, ¬ IsLineBreak char

theorem byteLength_pair (rest : Text) :
    byteLength ('\r' :: '\n' :: rest) = 2 + byteLength rest := by
  have feed : '\n'.utf8Size = 1 := by decide
  have carriage : '\r'.utf8Size = 1 := by decide
  simp only [byteLength_cons, feed, carriage]
  omega

theorem lineBreaks_single {char : Char} {rest : Text} (offset : Nat) (isBreak : IsLineBreak char)
    (whole : ¬ Straddles [char] rest) :
    lineBreaks offset (char :: rest) = ⟨offset, offset + 1⟩ :: lineBreaks (offset + 1) rest := by
  rw [lineBreaks]
  · rcases isBreak with feed | carriage
    · simp [feed]
    · simp [carriage]
  · rintro tail rfl rfl
    exact whole ⟨rfl, rfl⟩

theorem lineBreaks_other {char : Char} {rest : Text} (offset : Nat) (other : ¬ IsLineBreak char) :
    lineBreaks offset (char :: rest) = lineBreaks (offset + char.utf8Size) rest := by
  rw [lineBreaks]
  · have parts : char ≠ '\n' ∧ char ≠ '\r' := not_or.mp other
    simp [parts.1, parts.2]
  · rintro tail rfl rfl
    exact other (.inr rfl)

theorem not_straddles_tail {char : Char} {before after : Text}
    (whole : ¬ Straddles (char :: before) after) : ¬ Straddles before after := by
  intro straddles
  apply whole
  refine ⟨?_, straddles.2⟩
  rw [List.getLast?_cons, straddles.1]
  rfl

theorem lineBreaks_append {first second : Text} (offset : Nat) (whole : ¬ Straddles first second) :
    lineBreaks offset (first ++ second) =
      lineBreaks offset first ++ lineBreaks (offset + byteLength first) second := by
  fun_induction lineBreaks offset first with
  | case1 offset => simp
  | case2 offset rest ih =>
      have later := ih (not_straddles_tail (not_straddles_tail whole))
      rw [List.cons_append, List.cons_append, lineBreaks, later, byteLength_pair, List.cons_append,
        Nat.add_assoc]
  | case3 offset char rest notPair isBreak ih =>
      have single : IsLineBreak char := by simpa [IsLineBreak] using isBreak
      have apart : ¬ Straddles [char] (rest ++ second) := by
        rintro ⟨carriage, feed⟩
        have isCarriage : char = '\r' := by simpa using carriage
        cases rest with
        | nil => exact whole ⟨carriage, feed⟩
        | cons next tail =>
            have isFeed : next = '\n' := by simpa using feed
            subst next
            exact notPair tail isCarriage rfl
      rw [List.cons_append, lineBreaks_single offset single apart, ih (not_straddles_tail whole),
        byteLength_cons, single.utf8Size, List.cons_append, Nat.add_assoc]
  | case4 offset char rest notPair notBreak ih =>
      have other : ¬ IsLineBreak char := by simpa [IsLineBreak] using notBreak
      rw [List.cons_append, lineBreaks_other offset other, ih (not_straddles_tail whole),
        byteLength_cons, Nat.add_assoc]

theorem lineBreaks_withinLine {text : Text} (offset : Nat) (plain : WithinLine text) :
    lineBreaks offset text = [] := by
  induction text generalizing offset with
  | nil => rfl
  | cons char rest ih =>
      rw [lineBreaks_other offset (plain char (by simp))]
      exact ih _ fun other member => plain other (by simp [member])

theorem mem_lineBreaks {offset : Nat} {text : Text} {span : Span}
    (member : span ∈ lineBreaks offset text) :
    offset ≤ span.start ∧ span.start < span.stop ∧ span.stop ≤ offset + byteLength text := by
  fun_induction lineBreaks offset text with
  | case1 offset => simp at member
  | case2 offset rest ih =>
      rw [byteLength_pair]
      rcases List.mem_cons.mp member with here | later
      · subst span
        dsimp only
        omega
      · have inside := ih later
        omega
  | case3 offset char rest notPair isBreak ih =>
      have positive := char.utf8Size_pos
      rw [byteLength_cons]
      rcases List.mem_cons.mp member with here | later
      · subst span
        dsimp only
        omega
      · have inside := ih later
        omega
  | case4 offset char rest notPair notBreak ih =>
      have inside := ih member
      rw [byteLength_cons]
      omega

theorem stop_of_mem_lineBreaks {offset : Nat} {char : Char} {rest : Text} {span : Span}
    (member : span ∈ lineBreaks offset (char :: rest)) : offset + char.utf8Size ≤ span.stop := by
  by_cases isBreak : IsLineBreak char
  · have inside := mem_lineBreaks member
    have size := isBreak.utf8Size
    omega
  · rw [lineBreaks_other offset isBreak] at member
    have inside := mem_lineBreaks member
    omega

/-- A line starts at the cut: at the start of the text, or behind a whole line break. -/
structure StartsLine (before after : Text) : Prop where
  fresh : ∀ char, before.getLast? = some char → IsLineBreak char
  whole : ¬ Straddles before after

def EndsLine (after : Text) : Prop := ∀ char, after.head? = some char → IsLineBreak char

theorem WithinLine.not_straddles {content : Text} (plain : WithinLine content) (after : Text) :
    ¬ Straddles content after := by
  rintro ⟨carriage, _⟩
  exact plain '\r' (List.mem_of_getLast? carriage) (.inr rfl)

theorem StartsLine.not_straddles {before content after : Text}
    (starts : StartsLine before (content ++ after)) (plain : WithinLine content) :
    ¬ Straddles (before ++ content) after := by
  cases content with
  | nil => simpa using starts.whole
  | cons char rest =>
      rintro ⟨carriage, feed⟩
      rw [List.getLast?_append, List.getLast?_cons,
        Option.some_or, ← List.getLast?_cons] at carriage
      exact plain.not_straddles after ⟨carriage, feed⟩

theorem lineBreaks_content {before content after : Text}
    (starts : StartsLine before (content ++ after)) (plain : WithinLine content) :
    lineBreaks 0 (before ++ content) = lineBreaks 0 before := by
  have whole : ¬ Straddles before content := by
    rintro ⟨carriage, feed⟩
    exact starts.whole ⟨carriage, by simp [feed]⟩
  rw [lineBreaks_append 0 whole, lineBreaks_withinLine _ plain, List.append_nil]

theorem lineBreaks_snoc {before after : Text} (starts : StartsLine before after)
    (notFirst : before ≠ []) :
    ∃ others last, lineBreaks 0 before = others ++ [last] ∧ last.stop = byteLength before := by
  cases before using List.reverseRecOn with
  | nil => exact (notFirst rfl).elim
  | append_singleton init char =>
      have isBreak := starts.fresh char (by simp)
      by_cases straddles : Straddles init [char]
      · obtain ⟨front, rfl⟩ := List.getLast?_eq_some_iff.mp straddles.1
        have feed : char = '\n' := by simpa using straddles.2
        subst char
        have whole : ¬ Straddles front ['\r', '\n'] := by simp [Straddles]
        refine ⟨lineBreaks 0 front, ⟨byteLength front, byteLength front + 2⟩, ?_, ?_⟩
        · rw [List.append_assoc, List.singleton_append, lineBreaks_append 0 whole, Nat.zero_add]
          rfl
        · rw [List.append_assoc, List.singleton_append, byteLength_append, byteLength_pair]
          rfl
      · refine ⟨lineBreaks 0 init, ⟨byteLength init, byteLength init + 1⟩, ?_, ?_⟩
        · rw [lineBreaks_append 0 straddles, lineBreaks_single _ isBreak (by simp [Straddles]),
            Nat.zero_add]
          rfl
        · rw [byteLength_append, byteLength_cons, isBreak.utf8Size]
          rfl

theorem exists_line_start {before after : Text} (whole : ¬ Straddles before after) :
    ∃ earlier content, before = earlier ++ content ∧ WithinLine content ∧
      StartsLine earlier (content ++ after) := by
  induction before using List.reverseRecOn generalizing after with
  | nil => exact ⟨[], [], rfl, by simp [WithinLine], by simp, whole⟩
  | append_singleton init char ih =>
      by_cases isBreak : IsLineBreak char
      · refine ⟨init ++ [char], [], by simp, by simp [WithinLine], ?_, whole⟩
        intro last found
        have same : char = last := by simpa using found
        rwa [← same]
      · have apart : ¬ Straddles init ([char] ++ after) := by
          rintro ⟨_, feed⟩
          have isFeed : char = '\n' := by simpa using feed
          exact isBreak (.inl isFeed)
        obtain ⟨earlier, content, rfl, plain, starts⟩ := ih apart
        refine ⟨earlier, content ++ [char], by simp, ?_, by simpa using starts⟩
        intro other member
        rcases List.mem_append.mp member with inner | last
        · exact plain other inner
        · rwa [List.mem_singleton.mp last]

theorem exists_line_end (text : Text) :
    ∃ content after, text = content ++ after ∧ WithinLine content ∧ EndsLine after := by
  induction text with
  | nil => exact ⟨[], [], rfl, by simp [WithinLine], by simp [EndsLine]⟩
  | cons char rest ih =>
      by_cases isBreak : IsLineBreak char
      · exact ⟨[], char :: rest, rfl, by simp [WithinLine], by simpa [EndsLine] using isBreak⟩
      · obtain ⟨content, after, rfl, plain, ends⟩ := ih
        refine ⟨char :: content, after, rfl, ?_, ends⟩
        intro other member
        rcases List.mem_cons.mp member with same | inner
        · rwa [same]
        · exact plain other inner

theorem StartsLine.cons {char : Char} {before after : Text} (starts : StartsLine before after)
    (first : before = [] → IsLineBreak char ∧ ¬ Straddles [char] after) :
    StartsLine (char :: before) after := by
  cases before with
  | nil =>
      obtain ⟨isBreak, whole⟩ := first rfl
      refine ⟨?_, whole⟩
      intro last found
      have same : char = last := by simpa using found
      rwa [← same]
  | cons next rest =>
      refine ⟨?_, ?_⟩
      · intro last found
        rw [List.getLast?_cons_cons] at found
        exact starts.fresh last found
      · rintro ⟨carriage, feed⟩
        rw [List.getLast?_cons_cons] at carriage
        exact starts.whole ⟨carriage, feed⟩

theorem exists_line_number {offset : Nat} {text : Text} {number : Nat}
    (bound : number ≤ (lineBreaks offset text).length) :
    ∃ before after, text = before ++ after ∧ StartsLine before after ∧
      (lineBreaks offset before).length = number := by
  cases number with
  | zero => exact ⟨[], text, rfl, ⟨by simp, by simp [Straddles]⟩, rfl⟩
  | succ number =>
      fun_induction lineBreaks offset text generalizing number with
      | case1 offset => simp at bound
      | case2 offset rest ih =>
          have feed : IsLineBreak '\n' := .inl rfl
          cases number with
          | zero =>
              refine ⟨['\r', '\n'], rest, rfl, ⟨by simpa using feed, by simp [Straddles]⟩, rfl⟩
          | succ number =>
              obtain ⟨before, after, rfl, starts, count⟩ := ih number (by simpa using bound)
              refine ⟨'\r' :: '\n' :: before, after, rfl, ?_, by simp [lineBreaks, count]⟩
              exact (starts.cons fun _ => ⟨feed, by simp [Straddles]⟩).cons (by simp)
      | case3 offset char rest notPair isBreak ih =>
          have single : IsLineBreak char := by simpa [IsLineBreak] using isBreak
          have apart : ¬ Straddles [char] rest := by
            rintro ⟨carriage, feed⟩
            obtain ⟨tail, rfl⟩ := List.head?_eq_some_iff.mp feed
            exact notPair tail (by simpa using carriage) rfl
          cases number with
          | zero =>
              refine ⟨[char], rest, rfl, ⟨by simpa using single, apart⟩, ?_⟩
              rw [lineBreaks_single offset single (by simp [Straddles])]
              rfl
          | succ number =>
              obtain ⟨before, after, rfl, starts, count⟩ := ih number (by simpa using bound)
              have inner : ¬ Straddles [char] before := by
                rintro ⟨carriage, feed⟩
                exact apart ⟨carriage, by simp [feed]⟩
              refine ⟨char :: before, after, rfl, starts.cons ?_, ?_⟩
              · rintro rfl
                exact ⟨single, by simpa using apart⟩
              · rw [lineBreaks_single offset single inner, List.length_cons, count]
      | case4 offset char rest notPair notBreak ih =>
          have other : ¬ IsLineBreak char := by simpa [IsLineBreak] using notBreak
          obtain ⟨before, after, rfl, starts, count⟩ := ih number bound
          refine ⟨char :: before, after, rfl, starts.cons ?_, ?_⟩
          · rintro rfl
            simp [lineBreaks] at count
          · rw [lineBreaks_other offset other, count]

namespace LineIndex

theorem lineStart?_eq {before after : Text} (starts : StartsLine before after) :
    (ofText (before ++ after)).lineStart? (lineBreaks 0 before).length =
      some (byteLength before) := by
  simp only [lineStart?, ofText, lineBreaks_append 0 starts.whole, List.map_append,
    List.getElem?_toArray]
  by_cases first : before = []
  · subst before
    simp [lineBreaks]
  · obtain ⟨others, last, breaks, stop⟩ := lineBreaks_snoc starts first
    rw [breaks, ← stop]
    simp

theorem lineEnd?_eq {before content after : Text} (starts : StartsLine before (content ++ after))
    (plain : WithinLine content) (ends : EndsLine after) :
    (ofText (before ++ (content ++ after))).lineEnd? (lineBreaks 0 before).length =
      some (byteLength (before ++ content)) := by
  have breaks : lineBreaks 0 (before ++ (content ++ after)) =
      lineBreaks 0 before ++ lineBreaks (byteLength (before ++ content)) after := by
    rw [lineBreaks_append 0 starts.whole, lineBreaks_append _ (plain.not_straddles after),
      lineBreaks_withinLine _ plain, byteLength_append, Nat.zero_add, List.nil_append]
  simp only [lineEnd?, ofText, breaks, List.map_append, List.getElem?_toArray]
  cases after with
  | nil => simp [lineBreaks]
  | cons char rest =>
      have head : ∃ stop others, lineBreaks (byteLength (before ++ content)) (char :: rest) =
          ⟨byteLength (before ++ content), stop⟩ :: others := by
        by_cases pair : Straddles [char] rest
        · obtain ⟨tail, rfl⟩ := List.head?_eq_some_iff.mp pair.2
          have carriage : char = '\r' := by simpa using pair.1
          subst char
          exact ⟨_, _, rfl⟩
        · exact ⟨_, _, lineBreaks_single _ (ends char rfl) pair⟩
      obtain ⟨stop, others, found⟩ := head
      rw [found]
      simp

theorem lineCount_eq (text : Text) : (ofText text).lineCount = (lineBreaks 0 text).length + 1 := by
  simp [lineCount, ofText]

theorem leading_lineStarts {before after : Text} {offset : Nat} (whole : ¬ Straddles before after)
    (reached : byteLength before ≤ offset)
    (beyond : ∀ span ∈ lineBreaks (byteLength before) after, offset < span.stop) :
    leading (fun start => decide (start ≤ offset)) (ofText (before ++ after)).lineStarts =
      (lineBreaks 0 before).length + 1 := by
  have starts : (ofText (before ++ after)).lineStarts =
      ((0 :: (lineBreaks 0 before).map Span.stop) ++
        (lineBreaks (byteLength before) after).map Span.stop).toArray := by
    simp [ofText, lineBreaks_append 0 whole]
  rw [starts, leading_append]
  · simp
  · intro start member
    rcases List.mem_cons.mp member with zero | later
    · simp [zero]
    · obtain ⟨span, found, rfl⟩ := List.mem_map.mp later
      have bounds := mem_lineBreaks found
      simp only [decide_eq_true_eq]
      omega
  · intro start member
    obtain ⟨span, found, rfl⟩ := List.mem_map.mp member
    simpa using beyond span found

theorem lineOf_eq {before after : Text} {offset : Nat} (whole : ¬ Straddles before after)
    (reached : byteLength before ≤ offset) (inside : offset ≤ byteLength (before ++ after))
    (beyond : ∀ span ∈ lineBreaks (byteLength before) after, offset < span.stop) :
    (ofText (before ++ after)).lineOf offset = (lineBreaks 0 before).length := by
  have clamped : min offset (ofText (before ++ after)).length = offset := Nat.min_eq_left inside
  rw [lineOf, clamped, leading_lineStarts whole reached beyond, Nat.add_sub_cancel]

end LineIndex

end QueryWorkbench
