import QueryWorkbench.Diagnostic.Report
import QueryWorkbench.Proofs.LineEnds
import QueryWorkbench.Proofs.PositionScan

/-! The two line numbers of a diagnostic. The brief form takes its number from the line index, and
the excerpt counts the line feeds of the source. The numbers agree but for two things: a carriage
return that stands alone breaks a line for the index only, and the end of a text behind a final line
feed has a line of its own for the index only. -/

namespace QueryWorkbench

open Text

def Text.carriagesUpTo (text : Text) (offset : Nat) : Set Span :=
  {span | span ∈ text.breaksUpTo offset ∧ slice span text = ['\r']}

def Text.BehindFinalFeed (text : Text) (offset : Nat) : Prop :=
  offset = byteLength text ∧ text.getLast? = some '\n'

instance (text : Text) (offset : Nat) : Decidable (text.BehindFinalFeed offset) :=
  inferInstanceAs (Decidable (_ ∧ _))

theorem byteLength_le_append (before after : Text) :
    byteLength before ≤ byteLength (before ++ after) := by
  rw [byteLength_append]
  omega

theorem behindFinalFeed_cut (before after : Text) :
    (before ++ after).BehindFinalFeed (byteLength before) ↔
      after = [] ∧ before.getLast? = some '\n' := by
  cases after with
  | nil => simp [BehindFinalFeed]
  | cons char rest =>
      have positive := char.utf8Size_pos
      simp only [BehindFinalFeed, byteLength_append, byteLength_cons, reduceCtorEq,
        false_and, iff_false]
      omega

namespace Excerpt

theorem linesOf_ne_nil (text : Text) : linesOf text ≠ [] := by
  unfold linesOf
  split
  · simp
  · next some => exact some

theorem splitLines_cons_ne_nil (char : Char) (rest : Text) : splitLines (char :: rest) ≠ [] := by
  rw [splitLines]
  split
  · simp
  · split <;> simp

theorem linesOf_cons (char : Char) (rest : Text) :
    linesOf (char :: rest) = splitLines (char :: rest) := by
  unfold linesOf
  split
  · next none => exact absurd none (splitLines_cons_ne_nil char rest)
  · rfl

theorem linesOf_feed {rest : Text} (more : rest ≠ []) :
    linesOf ('\n' :: rest) = ['\n'] :: linesOf rest := by
  obtain ⟨char, others, rfl⟩ := List.exists_cons_of_ne_nil more
  rw [linesOf_cons, linesOf_cons, splitLines, if_pos rfl]

theorem exists_linesOf_cons {char : Char} (other : char ≠ '\n') (rest : Text) :
    ∃ line others,
      linesOf rest = line :: others ∧ linesOf (char :: rest) = (char :: line) :: others := by
  rw [linesOf_cons, splitLines, if_neg other, linesOf]
  cases splitLines rest with
  | nil => exact ⟨[], [], rfl, rfl⟩
  | cons line others => exact ⟨line, others, rfl, rfl⟩

theorem place_longer (char : Char) (line : Text) (others : List Text) (index : Nat) :
    (place (index + 1) ((char :: line) :: others)).1 = (place index (line :: others)).1 := by
  cases others with
  | nil => rfl
  | cons next others =>
      simp only [place, List.length_cons, Nat.add_lt_add_iff_right, Nat.add_sub_add_right]
      split <;> rfl

theorem place_next (line : Text) {lines : List Text} (more : lines ≠ []) (index : Nat) :
    (place (index + line.length) (line :: lines)).1 = (place index lines).1 + 1 := by
  obtain ⟨next, others, rfl⟩ := List.exists_cons_of_ne_nil more
  rw [place, if_neg (by omega), Nat.add_sub_cancel]
  simp

theorem place_zero (text : Text) : (place 0 (linesOf text)).1 = 0 := by
  cases text with
  | nil => rfl
  | cons char rest =>
      by_cases feed : char = '\n'
      · subst feed
        cases rest with
        | nil => rfl
        | cons next others =>
            rw [linesOf_feed (by simp)]
            obtain ⟨line, lines, found⟩ :=
              List.exists_cons_of_ne_nil (linesOf_ne_nil (next :: others))
            rw [found]
            rfl
      · obtain ⟨line, others, _, longer⟩ := exists_linesOf_cons feed rest
        rw [longer]
        cases others <;> simp [place]

/-- A cut behind the last line feed of a text is still on the line that it ends; any other cut is on
the line after all the line feeds before it. -/
theorem count_feeds (before after : Text) :
    before.count '\n' = (place before.length (linesOf (before ++ after))).1 +
      if after = [] ∧ before.getLast? = some '\n' then 1 else 0 := by
  induction before with
  | nil => simp [place_zero]
  | cons char rest ih =>
      by_cases feed : char = '\n'
      · subst feed
        by_cases final : rest ++ after = []
        · obtain ⟨rfl, rfl⟩ := List.append_eq_nil_iff.mp final
          rfl
        · have last : (after = [] ∧ ('\n' :: rest).getLast? = some '\n') ↔
              after = [] ∧ rest.getLast? = some '\n' := by
            refine and_congr_right fun none => ?_
            obtain ⟨next, others, rfl⟩ :=
              List.exists_cons_of_ne_nil (by simpa [none] using final : rest ≠ [])
            rw [List.getLast?_cons_cons]
          have next : (place (rest.length + 1) (['\n'] :: linesOf (rest ++ after))).1 =
              (place rest.length (linesOf (rest ++ after))).1 + 1 :=
            place_next ['\n'] (linesOf_ne_nil (rest ++ after)) rest.length
          simp only [last]
          rw [List.count_cons_self, ih, List.cons_append, linesOf_feed final,
            List.length_cons, next]
          omega
      · have last : (char :: rest).getLast? = some '\n' ↔ rest.getLast? = some '\n' := by
          cases rest with
          | nil => simpa using feed
          | cons next others => rw [List.getLast?_cons_cons]
        obtain ⟨line, others, found, longer⟩ := exists_linesOf_cons feed (rest ++ after)
        simp only [last]
        rw [List.count_cons_of_ne feed, ih, List.cons_append, longer, List.length_cons,
          place_longer, ← found]

end Excerpt

theorem exists_breakAt_feed (front rest : Text) :
    ∃ start, (front ++ '\n' :: rest).BreakAt ⟨start, byteLength front + 1⟩ := by
  by_cases paired : front.getLast? = some '\r'
  · obtain ⟨init, rfl⟩ := List.getLast?_eq_some_iff.mp paired
    have carriage : byteLength ['\r'] = 1 := by decide
    refine ⟨byteLength init, ?_⟩
    rw [byteLength_append, carriage, List.append_assoc]
    exact .pair
  · exact ⟨byteLength front, .feed paired⟩

theorem countP_feeds (front text after : Text) :
    ((lineBreaks (byteLength front) text).countP fun span =>
      ¬ slice span (front ++ (text ++ after)) = ['\r']) =
      text.count '\n' := by
  generalize standing : byteLength front = offset
  fun_induction lineBreaks offset text generalizing front with
  | case1 offset => rfl
  | case2 offset rest ih =>
      have feed : byteLength ['\r', '\n'] = 2 := by decide
      have pair :
          (front ++ ('\r' :: '\n' :: rest ++ after)).Holds ⟨offset, offset + 2⟩ ['\r', '\n'] :=
        ⟨front, rest ++ after, rfl, by rw [standing, feed]⟩
      have later := ih (front ++ ['\r', '\n']) (by rw [byteLength_append, feed, standing])
      simp only [List.append_assoc, List.cons_append, List.nil_append] at later pair ⊢
      rw [List.countP_cons, later]
      simp [pair.slice]
  | case3 offset char rest notPair isBreak ih =>
      have single : IsLineBreak char := by simpa [IsLineBreak] using isBreak
      have here : (front ++ (char :: rest ++ after)).Holds ⟨offset, offset + 1⟩ [char] :=
        ⟨front, rest ++ after, rfl,
          by rw [standing, byteLength_cons, byteLength_nil, single.utf8Size]⟩
      have later := ih (front ++ [char]) (by simp [single.utf8Size, standing])
      simp only [List.append_assoc, List.cons_append, List.nil_append] at later here ⊢
      rw [List.countP_cons, later]
      rcases single with rfl | rfl <;> simp [here.slice]
  | case4 offset char rest notPair notBreak ih =>
      have other : char ≠ '\n' := by
        rintro rfl
        simp at notBreak
      have later := ih (front ++ [char]) (by simp [standing])
      simp only [List.append_assoc, List.cons_append, List.nil_append] at later ⊢
      rw [later, List.count_cons_of_ne other]

section InLine

variable {before content after : Text} {offset : Nat}

theorem InLine.feed_not_mem (inLine : InLine before content after offset) : '\n' ∉ content := by
  intro member
  -- Such a line feed ends a break at the offset or before it, but the breaks behind the line's
  -- start end later.
  obtain ⟨front, rest, rfl⟩ := List.append_of_mem member
  obtain ⟨start, isBreak⟩ := exists_breakAt_feed (before ++ front) (rest ++ after)
  have same : (before ++ front) ++ '\n' :: (rest ++ after) =
      before ++ ((front ++ '\n' :: rest) ++ after) := by simp
  rw [same, ← mem_lineBreaks_iff, lineBreaks_append 0 inLine.starts.whole, Nat.zero_add] at isBreak
  have reached := inLine.reaches.reached
  have feed : '\n'.utf8Size = 1 := by decide
  simp only [byteLength_append, byteLength_cons, feed] at reached isBreak
  rcases List.mem_append.mp isBreak with earlier | later
  · have bounds := mem_lineBreaks earlier
    dsimp only at bounds
    omega
  · have beyond := inLine.unbroken _ later
    dsimp only at beyond
    omega

theorem InLine.carriagesUpTo_eq (inLine : InLine before content after offset) :
    (before ++ (content ++ after)).carriagesUpTo offset =
      ↑((lineBreaks 0 before).filter fun span => slice span (before ++ (content ++ after)) =
        ['\r']).toFinset := by
  ext span
  simp [carriagesUpTo, inLine.mem_breaksUpTo]

theorem InLine.line_eq (inLine : InLine before content after offset) :
    (lineBreaks 0 before).length = (before ++ content).count '\n' +
      ((before ++ (content ++ after)).carriagesUpTo offset).ncard := by
  have feeds := countP_feeds [] before (content ++ after)
  have none := List.count_eq_zero.mpr inLine.feed_not_mem
  rw [inLine.carriagesUpTo_eq, Set.ncard_coe_finset,
    List.toFinset_card_of_nodup ((lineBreaks_nodup 0 before).filter _), List.count_append,
    none, ← feeds, ← List.countP_eq_length_filter, byteLength_nil, List.nil_append]
  have split := List.length_eq_countP_add_countP (l := lineBreaks 0 before)
    fun span => slice span (before ++ (content ++ after)) = ['\r']
  simp only [decide_eq_true_eq] at split
  omega

end InLine

theorem LineIndex.line_of_cut (before after : Text) :
    ((ofText (before ++ after)).position (byteLength before)).line =
      before.count '\n' + ((before ++ after).carriagesUpTo (byteLength before)).ncard := by
  have inside := byteLength_le_append before after
  obtain ⟨front, content, rest, same, inLine, place⟩ := exists_inLine inside
  have boundary : (front ++ (content ++ rest)).Boundary (byteLength before) :=
    ⟨before, after, same.symm, rfl⟩
  have length := inLine.eq_of_boundary boundary
  have cut : (front ++ content) ++ rest = before ++ after := by rw [List.append_assoc, same]
  obtain rfl := eq_of_cut cut length
  obtain rfl := List.append_cancel_right cut
  rw [place, same]
  exact inLine.line_eq

theorem finite_carriagesUpTo {text : Text} {offset : Nat} (inside : offset ≤ byteLength text) :
    (text.carriagesUpTo offset).Finite := by
  obtain ⟨before, content, after, rfl, inLine, _⟩ := exists_inLine inside
  rw [inLine.carriagesUpTo_eq]
  exact Finset.finite_toSet _

namespace Excerpt

/-- Below the message, the excerpt is announced with the path and the line. -/
def Headed (colored : Bool) (path message : String) (line : Nat) (printed : String) : Prop :=
  ∃ (margin column : Nat) (rest : String), printed = "\n".intercalate
    [renderRow colored [alarm "error", ⟨.strong, ": " ++ message⟩],
      renderRow colored [plain (repeated margin ' '), gutter "--> ",
        plain s!"{path}:{line}:{column}"], rest]

theorem render_headed (colored : Bool) (path : String) (text : Text) (span : Span)
    (message : String) :
    Headed colored path message (Layout.ofSpan text span).heading.1
      (render colored (some path) text span message) := by
  obtain ⟨others, found⟩ : ∃ others, rows (some path) text span message =
      [alarm "error", ⟨.strong, ": " ++ message⟩] :: (Layout.ofSpan text span).pathRow path ::
        (Layout.ofSpan text span).bare [] :: others := ⟨_, rfl⟩
  refine ⟨(Layout.ofSpan text span).gutterWidth, (Layout.ofSpan text span).heading.2,
    "\n".intercalate ((((Layout.ofSpan text span).bare []) :: others).map (renderRow colored)), ?_⟩
  rw [render, found]
  simp only [List.map_cons, String.intercalate_cons_cons, String.intercalate_singleton]
  rfl

theorem heading_of_cut (before after : Text) (stop : Nat) :
    (Layout.ofSpan (before ++ after) ⟨byteLength before, stop⟩).heading.1 =
      (place before.length (linesOf (before ++ after))).1 + 1 := by
  have inside := byteLength_le_append before after
  have start : (marked ⟨byteLength before, stop⟩ (byteLength (before ++ after))).start =
      byteLength before := by
    simp only [marked]
    split <;> exact Nat.min_eq_left inside
  simp only [Layout.heading, Layout.ofSpan]
  rw [start, takeBytes_append]

end Excerpt

namespace Report

def Names (path message : String) (line : Nat) (printed : String) : Prop :=
  ∃ column : Nat, printed = s!"{path}: " ++ s!"error at {line}:{column}: {message}"

theorem brief_names (path : String) (diagnostic : Diagnostic) :
    Names path diagnostic.message (diagnostic.range.start.line + 1)
      (brief (some path) [diagnostic]) := by
  refine ⟨diagnostic.range.start.character + 1, ?_⟩
  apply String.toList_inj.mp
  simp [brief, Diagnostic.summary, Diagnostic.severity, String.intercalate_singleton, toString]

theorem line_eq_heading (before after : Text) (stop : Nat) :
    ((LineIndex.ofText (before ++ after)).position (byteLength before)).line + 1 =
      (Excerpt.Layout.ofSpan (before ++ after) ⟨byteLength before, stop⟩).heading.1 +
        ((before ++ after).carriagesUpTo (byteLength before)).ncard +
        (if (before ++ after).BehindFinalFeed (byteLength before) then 1 else 0) := by
  have feeds := Excerpt.count_feeds before after
  simp only [← behindFinalFeed_cut] at feeds
  rw [LineIndex.line_of_cut, Excerpt.heading_of_cut]
  omega

theorem toLineEnd_cut {before after : Text} (short : byteLength (before ++ after) < offsetLimit)
    (message : String) :
    ∃ stop, Diagnostic.toLineEnd (LineIndex.ofText (before ++ after)) (byteLength before) message =
      ⟨⟨byteLength before, stop⟩,
        (LineIndex.ofText (before ++ after)).range ⟨byteLength before, stop⟩, message⟩ := by
  have start : min (byteLength before) (byteLength (before ++ after)) = byteLength before :=
    Nat.min_eq_left (byteLength_le_append before after)
  exact ⟨_, by rw [Diagnostic.toLineEnd_eq short, start]⟩

/-- A diagnostic at a character of the source is printed with its line in both forms. The number
above the excerpt is smaller by one for each carriage return that breaks a line alone, and by one
behind the line feed that ends the text; otherwise the forms name the same line. -/
theorem renderings_name_lines {text : Text} {offset : Nat} (short : byteLength text < offsetLimit)
    (boundary : text.Boundary offset) (colored : Bool) (path message : String) :
    let diagnostic := Diagnostic.toLineEnd (LineIndex.ofText text) offset message
    let line := diagnostic.range.start.line + 1
    Names path message line (brief (some path) [diagnostic]) ∧
      ∃ heading,
        Excerpt.Headed colored path message heading (full colored (some path) text [diagnostic]) ∧
        line = heading + (text.carriagesUpTo offset).ncard +
          (if text.BehindFinalFeed offset then 1 else 0) ∧
        (heading = line ↔ text.carriagesUpTo offset = ∅ ∧ ¬ text.BehindFinalFeed offset) := by
  have finite := finite_carriagesUpTo boundary.le_byteLength
  obtain ⟨before, after, rfl, rfl⟩ := boundary
  obtain ⟨stop, placed⟩ := toLineEnd_cut short message
  have line := line_eq_heading before after stop
  rw [placed]
  refine ⟨brief_names path _, _, ?_, line, ?_⟩
  · simp only [full, List.map_cons, List.map_nil, String.intercalate_singleton]
    exact Excerpt.render_headed colored path _ _ message
  · rw [← Set.ncard_eq_zero finite]
    change _ = ((LineIndex.ofText (before ++ after)).position (byteLength before)).line + 1 ↔ _
    rw [line]
    split
    next final =>
      simp only [final, not_true_eq_false, and_false, iff_false]
      omega
    next other => simp [other]

def pairedQuery : Text := ['é', '\r', '\n', '(', 'a']

theorem carriagesUpTo_pairedQuery : pairedQuery.carriagesUpTo 4 = ∅ := by
  have breaks : lineBreaks 0 pairedQuery = [⟨2, 4⟩] := by decide
  rw [Set.eq_empty_iff_forall_notMem]
  rintro span ⟨⟨isBreak, _⟩, alone⟩
  rw [← mem_lineBreaks_iff, breaks, List.mem_singleton] at isBreak
  subst isBreak
  exact absurd alone (by decide)

theorem renderings_name_lines_paired :
    let diagnostic := Diagnostic.toLineEnd (LineIndex.ofText pairedQuery) 4 "Invalid syntax"
    byteLength pairedQuery < offsetLimit ∧ pairedQuery.Boundary 4 ∧
    Names "q.scm" "Invalid syntax" 2 (brief (some "q.scm") [diagnostic]) ∧
      Excerpt.Headed false "q.scm" "Invalid syntax" 2
        (full false (some "q.scm") pairedQuery [diagnostic]) := by
  intro diagnostic
  have boundary : pairedQuery.Boundary 4 := ⟨['é', '\r', '\n'], ['(', 'a'], rfl, by decide⟩
  have second : diagnostic.range.start.line + 1 = 2 := by decide +kernel
  have short : byteLength pairedQuery < offsetLimit := by decide
  obtain ⟨named, heading, headed, _, agrees⟩ :=
    renderings_name_lines short boundary false "q.scm" "Invalid syntax"
  have same := agrees.mpr ⟨carriagesUpTo_pairedQuery, by decide⟩
  rw [same] at headed
  rw [← second]
  exact ⟨short, boundary, named, headed⟩

def openQuery : Text := ['(', 'a', '\n']

def carriageQuery : Text := ['(', '\r', 'a']

/-- At the end of a query that ends with a line feed, and behind a carriage return, the forms name
different lines. -/
theorem renderings_part :
    let atEnd := Diagnostic.toLineEnd (LineIndex.ofText openQuery) 3 "Invalid syntax"
    let behindCarriage := Diagnostic.toLineEnd (LineIndex.ofText carriageQuery) 2 "Invalid syntax"
    openQuery.Boundary 3 ∧ brief (some "q.scm") [atEnd] = "q.scm: error at 2:1: Invalid syntax" ∧
      full false (some "q.scm") openQuery [atEnd] =
        "error: Invalid syntax\n --> q.scm:1:4\n  |\n1 | (a\n  |   ^ Invalid syntax" ∧
      carriageQuery.Boundary 2 ∧ behindCarriage.range.start.line + 1 = 2 ∧
      (Excerpt.Layout.ofSpan carriageQuery behindCarriage.span).heading.1 = 1 := by
  have printed :
      brief (some "q.scm") [Diagnostic.toLineEnd (LineIndex.ofText openQuery) 3 "Invalid syntax"] =
        "q.scm: error at 2:1: Invalid syntax" ∧
      full false (some "q.scm") openQuery
        [Diagnostic.toLineEnd (LineIndex.ofText openQuery) 3 "Invalid syntax"] =
        "error: Invalid syntax\n --> q.scm:1:4\n  |\n1 | (a\n  |   ^ Invalid syntax" := by
    decide +kernel
  exact ⟨⟨openQuery, [], rfl, by decide⟩, printed.1, printed.2,
    ⟨['(', '\r'], ['a'], rfl, by decide⟩, by decide +kernel, by decide +kernel⟩

end Report

end QueryWorkbench
