import QueryWorkbench.Query.Directive
import QueryWorkbench.Proofs.Slices

/-! The directive of a query file as a grammar of the whole text. Lines are told apart by line feeds
only, and white space that is no line feed may stand before the mark and on both sides of the
name. -/

namespace QueryWorkbench

def Blank (text : Text) : Prop := ∀ char ∈ text, isWhiteSpace char = true

instance (text : Text) : Decidable (Blank text) :=
  List.decidableBAll (fun char => isWhiteSpace char = true) text

namespace Text

theorem trim_blank_append {lead : Text} (blank : Blank lead) (text : Text) :
    trim (lead ++ text) = trim text := by
  rw [trim, trimStart, List.dropWhile_append_of_pos blank]
  rfl

theorem trimEnd_append_blank (text : Text) {trail : Text} (blank : Blank trail) :
    trimEnd (text ++ trail) = trimEnd text := by
  have reversed : ∀ char ∈ trail.reverse, isWhiteSpace char = true := fun char member =>
    blank char (List.mem_reverse.mp member)
  rw [trimEnd, List.reverse_append, List.dropWhile_append_of_pos reversed]
  rfl

theorem trim_append_blank (text : Text) {trail : Text} (blank : Blank trail) :
    trim (text ++ trail) = trim text := by
  rw [trim, trimStart, List.dropWhile_append]
  split
  next empty =>
    have nothing : trail.dropWhile isWhiteSpace = [] := List.dropWhile_eq_nil_iff.mpr blank
    rw [trim, trimStart, nothing, List.isEmpty_iff.mp empty]
  next kept => exact trimEnd_append_blank _ blank

theorem trim_eq_self {text : Text} {first last : Char} (head : text.head? = some first)
    (final : text.getLast? = some last) (opens : isWhiteSpace first = false)
    (closes : isWhiteSpace last = false) : trim text = text := by
  have start : trimStart text = text := by
    obtain ⟨rest, rfl⟩ := List.head?_eq_some_iff.mp head
    simp [trimStart, opens]
  obtain ⟨front, rfl⟩ := List.getLast?_eq_some_iff.mp final
  rw [trim, start]
  simp [trimEnd, closes]

theorem exists_trim (text : Text) :
    ∃ lead trail, text = lead ++ (trim text ++ trail) ∧ Blank lead ∧ Blank trail := by
  refine ⟨text.takeWhile isWhiteSpace,
    ((trimStart text).reverse.takeWhile isWhiteSpace).reverse, ?_,
    fun char member => List.mem_takeWhile_imp member, ?_⟩
  · rw [trim, trimEnd, ← List.reverse_append, List.takeWhile_append_dropWhile,
      List.reverse_reverse, trimStart, List.takeWhile_append_dropWhile]
  · intro char member
    exact List.mem_takeWhile_imp (List.mem_reverse.mp member)

end Text

namespace Query

open Text

def EndsLine (rest : Text) : Prop := rest = [] ∨ ∃ later, rest = '\n' :: later

/-- White space, then a line of the mark and one word with white space around it, then further
lines. -/
def DirectiveFor (text name : Text) : Prop :=
  ∃ lead gap trail rest, text = lead ++ (';' :: ';' :: (gap ++ (name ++ (trail ++ rest)))) ∧
    Blank lead ∧ (Blank gap ∧ '\n' ∉ gap) ∧ (Blank trail ∧ '\n' ∉ trail) ∧
    (name ≠ [] ∧ ∀ char ∈ name, isWhiteSpace char = false) ∧ EndsLine rest

theorem linesAtFeed_line {line rest : Text} (whole : '\n' ∉ line) (ends : EndsLine rest) :
    ∃ others, linesAtFeed (line ++ rest) = line :: others := by
  induction line with
  | nil =>
      rcases ends with rfl | ⟨later, rfl⟩
      · exact ⟨[], rfl⟩
      · exact ⟨linesAtFeed later, by simp [linesAtFeed]⟩
  | cons char line ih =>
      rw [List.mem_cons, not_or] at whole
      obtain ⟨others, found⟩ := ih whole.2
      exact ⟨others, by simp [linesAtFeed, Ne.symm whole.1, found]⟩

theorem exists_line (text : Text) :
    ∃ line rest, text = line ++ rest ∧ '\n' ∉ line ∧ EndsLine rest := by
  obtain ⟨line, rest, rfl, passes, stops⟩ := exists_leading (· != '\n') text
  refine ⟨line, rest, rfl, fun member => by simpa using passes '\n' member, ?_⟩
  cases rest with
  | nil => exact .inl rfl
  | cons char later =>
      have feed : char = '\n' := by simpa using stops char rfl
      exact .inr ⟨later, by rw [feed]⟩

theorem directive?_blank_append {lead : Text} (blank : Blank lead) (text : Text) :
    directive? (lead ++ text) = directive? text := by
  induction lead with
  | nil => rfl
  | cons char lead ih =>
      obtain ⟨first, later⟩ := List.forall_mem_cons.mp blank
      rw [← ih later, List.cons_append]
      by_cases feed : char = '\n'
      · have empty : trim [] = [] := rfl
        simp [directive?, linesAtFeed, feed, empty]
      · -- The character joins the first line of what follows it and is trimmed from there.
        obtain ⟨line, rest, split, whole, ends⟩ := exists_line (lead ++ text)
        obtain ⟨others, lines⟩ := linesAtFeed_line whole ends
        have single : Blank [char] := by simpa [Blank] using first
        have same : trim (char :: line) = trim line := trim_blank_append single line
        simp [directive?, linesAtFeed, feed, split, lines, same]

theorem directive?_line {first : Char} {line rest : Text} (shown : isWhiteSpace first = false)
    (whole : '\n' ∉ line) (ends : EndsLine rest) :
    directive? (first :: (line ++ rest)) = directiveOfLine? (trim (first :: line)) := by
  have notFeed : '\n' ≠ first := by
    rintro rfl
    exact Bool.noConfusion shown
  have wholeLine : '\n' ∉ first :: line := by simp [notFeed, whole]
  obtain ⟨others, lines⟩ := linesAtFeed_line wholeLine ends
  have nonempty : trim (first :: line) ≠ [] := by
    intro empty
    obtain ⟨lead, trail, split, leadBlank, trailBlank⟩ := exists_trim (first :: line)
    rw [empty, List.nil_append] at split
    have blank :=
      List.forall_mem_append.mpr ⟨leadBlank, trailBlank⟩ first (split ▸ List.mem_cons_self ..)
    rw [shown] at blank
    exact Bool.noConfusion blank
  rw [List.cons_append] at lines
  simp [directive?, lines, nonempty]

theorem directiveOfLine?_eq_some {line name : Text} (found : directiveOfLine? line = some name) :
    ∃ rest, line = ';' :: ';' :: rest ∧ name = trim rest ∧ name ≠ [] ∧
      ∀ char ∈ name, isWhiteSpace char = false := by
  unfold directiveOfLine? at found
  split at found
  next rest =>
    dsimp only at found
    split at found
    next refused => simp at found
    next accepted =>
      obtain rfl := Option.some.inj found
      rw [Bool.or_eq_true, not_or] at accepted
      refine ⟨rest, rfl, rfl, by simpa using accepted.1, ?_⟩
      simpa using accepted.2
  next => simp at found

theorem directiveOfLine?_trim_iff {first : Char} {line name : Text}
    (shown : isWhiteSpace first = false) :
    directiveOfLine? (trim (first :: line)) = some name ↔
      ∃ gap trail, first :: line = ';' :: ';' :: (gap ++ (name ++ trail)) ∧
        Blank gap ∧ Blank trail ∧ name ≠ [] ∧ ∀ char ∈ name, isWhiteSpace char = false := by
  constructor
  · intro found
    obtain ⟨rest, mark, rfl, nonempty, solid⟩ := directiveOfLine?_eq_some found
    obtain ⟨lead, trail, split, leadBlank, trailBlank⟩ := exists_trim (first :: line)
    obtain ⟨gap, behind, inner, gapBlank, behindBlank⟩ := exists_trim rest
    have noLead : lead = [] := by
      cases lead with
      | nil => rfl
      | cons char others =>
          obtain rfl : first = char := (List.cons.inj split).1
          have blank := leadBlank first (List.mem_cons_self ..)
          rw [shown] at blank
          exact Bool.noConfusion blank
    refine ⟨gap, behind ++ trail, ?_, gapBlank,
      List.forall_mem_append.mpr ⟨behindBlank, trailBlank⟩, nonempty, solid⟩
    rw [split, noLead, mark, List.nil_append, List.cons_append, List.cons_append]
    nth_rewrite 1 [inner]
    simp
  · rintro ⟨gap, trail, split, gapBlank, trailBlank, nonempty, solid⟩
    obtain ⟨initial, head⟩ : ∃ initial, name.head? = some initial :=
      Option.isSome_iff_exists.mp (List.isSome_head?.mpr nonempty)
    obtain ⟨last, final⟩ : ∃ last, name.getLast? = some last :=
      Option.isSome_iff_exists.mp (List.getLast?_isSome.mpr nonempty)
    have closes : isWhiteSpace last = false := solid last (List.mem_of_getLast? final)
    have outer : trim (first :: line) = ';' :: ';' :: (gap ++ name) := by
      have regroup : first :: line = (';' :: ';' :: (gap ++ name)) ++ trail := by simp [split]
      have same : (';' :: ';' :: (gap ++ name)).getLast? = some last := by
        simp [List.getLast?_cons, final]
      rw [regroup, trim_append_blank _ trailBlank]
      exact trim_eq_self rfl same (by decide) closes
    have inner : trim (gap ++ name) = name := by
      rw [trim_blank_append gapBlank]
      exact trim_eq_self head final (solid initial (List.mem_of_head? head)) closes
    have accepted : (name.isEmpty || name.any isWhiteSpace) = false := by
      rw [Bool.or_eq_false_iff]
      exact ⟨by simpa using nonempty, by simpa [List.any_eq_false] using solid⟩
    rw [outer, directiveOfLine?]
    simp only [inner, accepted]
    rfl

theorem DirectiveFor.read {text name : Text} (written : DirectiveFor text name) :
    directive? text = some name := by
  obtain ⟨lead, gap, trail, rest, rfl, blank, ⟨gapBlank, gapWhole⟩, ⟨trailBlank, trailWhole⟩,
      ⟨nonempty, solid⟩, ends⟩ :=
    written
  have nameWhole : '\n' ∉ name := fun member => Bool.noConfusion (solid '\n' member)
  have whole : '\n' ∉ ';' :: (gap ++ (name ++ trail)) := by simp [gapWhole, nameWhole, trailWhole]
  have regroup : ';' :: ';' :: (gap ++ (name ++ (trail ++ rest))) =
      ';' :: ((';' :: (gap ++ (name ++ trail))) ++ rest) := by simp
  have mark : isWhiteSpace ';' = false := by decide
  rw [directive?_blank_append blank, regroup, directive?_line mark whole ends,
    directiveOfLine?_trim_iff mark]
  exact ⟨gap, trail, rfl, gapBlank, trailBlank, nonempty, solid⟩

theorem directiveFor_of_read {text name : Text} (read : directive? text = some name) :
    DirectiveFor text name := by
  obtain ⟨lead, behind, rfl, blank, stops⟩ := exists_leading isWhiteSpace text
  rw [directive?_blank_append blank] at read
  cases behind with
  | nil =>
      have nothing : directive? [] = none := rfl
      rw [nothing] at read
      cases read
  | cons first more =>
      have shown : isWhiteSpace first = false := stops first rfl
      obtain ⟨line, rest, rfl, whole, ends⟩ := exists_line more
      rw [directive?_line shown whole ends, directiveOfLine?_trim_iff shown] at read
      obtain ⟨gap, trail, split, gapBlank, trailBlank, nonempty, solid⟩ := read
      obtain ⟨rfl, rfl⟩ := List.cons.inj split
      simp only [List.mem_cons, List.mem_append, not_or] at whole
      exact ⟨lead, gap, trail, rest, by simp, blank, ⟨gapBlank, whole.2.1⟩,
        ⟨trailBlank, whole.2.2.2⟩, ⟨nonempty, solid⟩, ends⟩

/-- A text has a directive exactly when it is written by the grammar, for one language at most, and
nothing behind the line of its first visible character matters. -/
theorem directive_matches_grammar (text : Text) :
    (∀ name, directive? text = some name ↔ DirectiveFor text name) ∧
    (∀ first second, DirectiveFor text first → DirectiveFor text second → first = second) ∧
    ∀ lead first line rest, text = lead ++ first :: (line ++ '\n' :: rest) → Blank lead →
      isWhiteSpace first = false →
      '\n' ∉ line → ∀ other, directive? (lead ++ first :: (line ++ '\n' :: other)) =
        directive? text := by
  refine ⟨fun name => ⟨directiveFor_of_read, DirectiveFor.read⟩, ?_, ?_⟩
  · intro first second firstWritten secondWritten
    have same : some first = some second := firstWritten.read.symm.trans secondWritten.read
    exact Option.some.inj same
  · rintro lead first line rest rfl blank shown whole other
    rw [directive?_blank_append blank, directive?_blank_append blank,
      directive?_line shown whole (.inr ⟨other, rfl⟩),
      directive?_line shown whole (.inr ⟨rest, rfl⟩)]

/-- A line separator before the mark and a next-line character behind it are white space and end no
line. -/
theorem directive_matches_grammar_separated :
    DirectiveFor "\n\u2028;;\u0085go\r\n;; php".toList "go".toList ∧
      directive? "\n\u2028;;\u0085go\r\n;; php".toList = some "go".toList ∧
      directive? "\n\u2028;;\u0085go\r\nanything".toList = some "go".toList := by
  have written : DirectiveFor "\n\u2028;;\u0085go\r\n;; php".toList "go".toList := by
    have solid : ∀ char ∈ ['g', 'o'], isWhiteSpace char = false := by simp [isWhiteSpace]
    refine ⟨['\n', '\u2028'], ['\u0085'], ['\r'], "\n;; php".toList, by decide +kernel, ?_⟩
    exact ⟨by decide, ⟨by decide, by decide⟩, ⟨by decide, by decide⟩, ⟨by decide +kernel, solid⟩,
      .inr ⟨";; php".toList, by decide +kernel⟩⟩
  obtain ⟨reads, _, forgets⟩ := directive_matches_grammar "\n\u2028;;\u0085go\r\n;; php".toList
  have read := (reads _).mpr written
  refine ⟨written, read, ?_⟩
  rw [← read]
  exact forgets ['\n', '\u2028'] ';' [';', '\u0085', 'g', 'o', '\r'] ";; php".toList
    (by decide +kernel)
    (by decide) (by decide) (by decide) "anything".toList

end Query

end QueryWorkbench
