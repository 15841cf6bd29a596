import QueryWorkbench.Tree.Printer
import QueryWorkbench.Proofs.TreeWalk

/-! Printed trees, node by node. What is printed is one entry for each node that is kept, in
preorder, with a line feed behind it; the entries are the lines as long as no kind has a line feed
of its own. -/

namespace QueryWorkbench

namespace Tree

/-- The role that is printed with a node: where the walk starts, it knows of none. -/
def shownField (visit : Nat × Tree) : Option String :=
  if visit.1 = 0 then none else visit.2.label.field

def keptNodes (options : PrintOptions) (tree : Tree) : List (Nat × Tree) :=
  (tree.preorder 0).filter fun visit => isKept options visit.2.label

def points (label : NodeLabel) : String :=
  s!" [{label.start.row}, {label.start.column}] - [{label.stop.row}, {label.stop.column}]"

def entry (options : PrintOptions) (visit : Nat × Tree) : Text :=
  List.replicate (visit.1 * options.indent) ' ' ++
    (((shownField visit).map (· ++ ": ")).getD "").toList ++
    visit.2.label.kind.toList ++ (points visit.2.label).toList

theorem toList_line (options : PrintOptions) (visit : Nat × Tree) :
    (line (visit.1 * options.indent) (shownField visit) visit.2.label).toList =
      entry options visit ++ ['\n'] := by
  simp [line, entry, points, toString]

def OnOneLine (visit : Nat × Tree) : Prop :=
  '\n' ∉ visit.2.label.kind.toList ∧ ∀ field ∈ shownField visit, '\n' ∉ field.toList

instance (visit : Nat × Tree) : Decidable (OnOneLine visit) :=
  inferInstanceAs (Decidable (_ ∧ ∀ field ∈ shownField visit, '\n' ∉ field.toList))

theorem feed_not_mem_number (number : Nat) : '\n' ∉ Nat.toDigits 10 number := by
  intro member
  have digit := Nat.isDigit_of_mem_toDigits (by decide) (by decide) member
  exact absurd digit (by decide)

theorem feed_not_mem_points (label : NodeLabel) : '\n' ∉ (points label).toList := by
  simp [points, toString, feed_not_mem_number]

theorem feed_not_mem_entry_iff (options : PrintOptions) (visit : Nat × Tree) :
    '\n' ∉ entry options visit ↔ OnOneLine visit := by
  cases role : shownField visit with
  | none => simp [entry, OnOneLine, role, feed_not_mem_points]
  | some field => simp [entry, OnOneLine, role, feed_not_mem_points, and_comm]

theorem stop_depth {tree : Tree} {stop : Nat × Cursor} (member : stop ∈ Cursor.stops [] 0 tree) :
    stop.2.frames.length = stop.1 := by
  obtain ⟨index, bound, rfl⟩ := List.getElem_of_mem member
  have addressed := Cursor.stops_addressed tree [] 0
  obtain ⟨depth, _, address⟩ := addressed.get (by rwa [addressed.length_eq]) bound
  have lengths := congrArg List.length address
  simp only [Cursor.address, List.length_reverse, List.length_map, List.map_nil, List.reverse_nil,
    List.nil_append, List.get_eq_getElem] at lengths depth
  omega

theorem stop_field {tree : Tree} {stop : Nat × Cursor} (member : stop ∈ Cursor.stops [] 0 tree) :
    stop.2.field? = shownField (stop.1, stop.2.focus) := by
  rw [Cursor.field?, shownField, ← stop_depth member]
  simp [List.isEmpty_iff]

theorem printNode_kept {options : PrintOptions} {cursor : Cursor} {depth : Nat} (printed : String)
    (kept : isKept options cursor.focus.label = true)
    (fits : depth * options.indent ≤ maxIndentation)
    (field : cursor.field? = shownField (depth, cursor.focus)) :
    printNode options (some printed) cursor depth =
      some (printed ++ String.ofList (entry options (depth, cursor.focus) ++ ['\n'])) := by
  rw [← toList_line, String.ofList_toList, printNode]
  simp [kept, Nat.not_lt.mpr fits, field]

theorem visitAll_printNode (options : PrintOptions) (stops : List (Nat × Cursor)) (printed : String)
    (fits : ∀ stop ∈ stops, isKept options stop.2.focus.label = true →
      stop.1 * options.indent ≤ maxIndentation)
    (fields : ∀ stop ∈ stops, stop.2.field? = shownField (stop.1, stop.2.focus)) :
    Cursor.visitAll (printNode options) (some printed) stops =
      some (printed ++ String.ofList (((stops.map fun stop => (stop.1, stop.2.focus)).filter
        fun visit => isKept options visit.2.label).flatMap fun visit =>
          entry options visit ++ ['\n'])) := by
  induction stops generalizing printed with
  | nil => simp [Cursor.visitAll]
  | cons stop later ih =>
      obtain ⟨fitsHere, fitsLater⟩ := List.forall_mem_cons.mp fits
      obtain ⟨fieldHere, fieldsLater⟩ := List.forall_mem_cons.mp fields
      have next := fun printed => ih printed fitsLater fieldsLater
      simp only [Cursor.visitAll] at next
      rw [Cursor.visitAll, List.foldl_cons, List.map_cons, List.filter_cons]
      by_cases kept : isKept options stop.2.focus.label = true
      · rw [printNode_kept printed kept (fitsHere kept) fieldHere, next, if_pos kept,
          List.flatMap_cons, String.append_assoc, ← String.ofList_append]
      · have skipped : printNode options (some printed) stop.2 stop.1 = some printed := by
          simp [printNode, kept]
        rw [skipped, next, if_neg kept]

theorem print?_eq {options : PrintOptions} {tree : Tree}
    (fits : ∀ visit ∈ keptNodes options tree, visit.1 * options.indent ≤ maxIndentation) :
    tree.print? options =
      some (String.ofList ((keptNodes options tree).flatMap fun visit =>
        entry options visit ++ ['\n'])) := by
  have narrow : ∀ stop ∈ Cursor.stops [] 0 tree, isKept options stop.2.focus.label = true →
      stop.1 * options.indent ≤ maxIndentation := by
    intro stop member kept
    refine fits (stop.1, stop.2.focus) (List.mem_filter.mpr ⟨?_, kept⟩)
    rw [← Cursor.stops_focus tree [] 0]
    exact List.mem_map_of_mem member
  rw [print?, traverse, Cursor.walk_zero]
  exact (visitAll_printNode options _ "" narrow fun stop => stop_field).trans
    (by rw [Cursor.stops_focus, String.empty_append, keptNodes])

theorem splitOn_terminated (entries : List Text) :
    (entries.flatMap (· ++ ['\n'])).splitOn '\n' = entries.flatMap (List.splitOn '\n') ++ [[]] := by
  induction entries with
  | nil => rfl
  | cons first rest ih =>
      rw [List.flatMap_cons, List.append_assoc, List.singleton_append,
        List.splitOn_append_cons_self, ih, List.flatMap_cons, List.append_assoc]

theorem feed_not_mem_piece {text piece : Text} (member : piece ∈ text.splitOn '\n') :
    '\n' ∉ piece := by
  induction text generalizing piece with
  | nil =>
      obtain rfl : piece = [] := by simpa using member
      simp
  | cons char rest ih =>
      rw [List.splitOn_eq_splitOnP,
        List.splitOnP_cons_eq_if_modifyHead, ← List.splitOn_eq_splitOnP] at member
      split at member
      next feed =>
        rcases List.mem_cons.mp member with rfl | later
        · simp
        · exact ih later
      next other =>
        have different : '\n' ≠ char := by
          rintro rfl
          exact other (by simp)
        cases pieces : rest.splitOn '\n' with
        | nil => simp [pieces] at member
        | cons first others =>
            rw [pieces] at ih member
            rcases List.mem_cons.mp member with rfl | later
            · simpa [different] using ih (List.mem_cons_self ..)
            · exact ih (List.mem_cons_of_mem _ later)

theorem splitOn_terminated_iff (entries : List Text) :
    (entries.flatMap (· ++ ['\n'])).splitOn '\n' = entries ++ [[]] ↔
      ∀ entry ∈ entries, '\n' ∉ entry := by
  constructor
  · intro same entry member
    have piece : entry ∈ (entries.flatMap (· ++ ['\n'])).splitOn '\n' := by
      rw [same]
      exact List.mem_append_left _ member
    exact feed_not_mem_piece piece
  · intro whole
    have single : ∀ entry ∈ entries, entry.splitOn '\n' = [entry] := by
      intro entry member
      rw [List.splitOn_eq_splitOnP]
      apply List.splitOnP_eq_singleton
      intro char inside
      have different : char ≠ '\n' := by
        rintro rfl
        exact whole entry member inside
      simpa using different
    rw [splitOn_terminated, List.flatMap_congr single, List.flatMap_singleton']

/-- Every tree whose kept nodes are not indented too far is printed, as the entries of these nodes
in preorder with a line feed behind each. The entries are the lines of what is printed exactly when
none of them has a line feed of its own. -/
theorem print_gives_entries {options : PrintOptions} {tree : Tree}
    (fits : ∀ visit ∈ tree.preorder 0, visit.1 * options.indent ≤ maxIndentation) :
    ∃ printed, tree.print? options = some printed ∧
      printed.toList = (keptNodes options tree).flatMap
        (fun visit => entry options visit ++ ['\n']) ∧
      (printed.toList.splitOn '\n' = (keptNodes options tree).map (entry options) ++ [[]] ↔
        ∀ visit ∈ keptNodes options tree, OnOneLine visit) := by
  have narrow : ∀ visit ∈ keptNodes options tree, visit.1 * options.indent ≤ maxIndentation :=
    fun visit member => fits visit (List.mem_of_mem_filter member)
  refine ⟨_, print?_eq narrow, String.toList_ofList, ?_⟩
  have lines := splitOn_terminated_iff ((keptNodes options tree).map (entry options))
  rw [List.flatMap_map, List.forall_mem_map] at lines
  rw [String.toList_ofList, lines]
  exact forall₂_congr fun visit _ => feed_not_mem_entry_iff options visit

def conditionalLabel (kind : String) (named : Bool) (field : Option String) (span : Span)
    (start stop : Point) : NodeLabel :=
  ⟨kind, named, false, false, field, span, start, stop⟩

def conditionalTree (lineBreak : String) : Tree :=
  .node (conditionalLabel "translation_unit" true none ⟨0, 12⟩ ⟨0, 0⟩ ⟨1, 6⟩)
    [.node (conditionalLabel "preproc_if" true none ⟨0, 12⟩ ⟨0, 0⟩ ⟨1, 6⟩)
      [.node (conditionalLabel "#if" false none ⟨0, 3⟩ ⟨0, 0⟩ ⟨0, 3⟩) [],
        .node (conditionalLabel "identifier" true (some "condition") ⟨4, 5⟩ ⟨0, 4⟩ ⟨0, 5⟩) [],
        .node (conditionalLabel lineBreak false none ⟨5, 6⟩ ⟨0, 5⟩ ⟨1, 0⟩) [],
        .node (conditionalLabel "#endif" false none ⟨6, 12⟩ ⟨1, 0⟩ ⟨1, 6⟩) []]]

theorem print_gives_entries_carriage_return :
    (∀ visit ∈ (conditionalTree "\r").preorder 0, visit.1 * 4 ≤ maxIndentation) ∧
      ∃ printed, (conditionalTree "\r").print? ⟨false, 4⟩ = some printed ∧
        printed.toList.splitOn '\n' =
          (keptNodes ⟨false, 4⟩ (conditionalTree "\r")).map (entry ⟨false, 4⟩) ++ [[]] := by
  have fits : ∀ visit ∈ (conditionalTree "\r").preorder 0, visit.1 * 4 ≤ maxIndentation := by
    decide +kernel
  have onLines : ∀ visit ∈ keptNodes ⟨false, 4⟩ (conditionalTree "\r"), OnOneLine visit := by
    decide +kernel
  obtain ⟨printed, shown, _, lines⟩ := @print_gives_entries ⟨false, 4⟩ _ fits
  exact ⟨fits, printed, shown, lines.mpr onLines⟩

/-- Six nodes give seven lines where the kind of one is a line feed. -/
theorem print_breaks_entry_of_line_feed :
    ∃ printed, (conditionalTree "\n").print? ⟨false, 4⟩ = some printed ∧
      (∀ visit ∈ (conditionalTree "\n").preorder 0, visit.1 * 4 ≤ maxIndentation) ∧
      (keptNodes ⟨false, 4⟩ (conditionalTree "\n")).length = 6 ∧
      (printed.toList.splitOn '\n').length = 7 + 1 ∧ printed.toList.splitOn '\n' ≠
        (keptNodes ⟨false, 4⟩ (conditionalTree "\n")).map (entry ⟨false, 4⟩) ++ [[]] := by
  have fits : ∀ visit ∈ (conditionalTree "\n").preorder 0, visit.1 * 4 ≤ maxIndentation := by
    decide +kernel
  have narrow :
      ∀ visit ∈ keptNodes ⟨false, 4⟩ (conditionalTree "\n"), visit.1 * 4 ≤ maxIndentation :=
    fun visit member => fits visit (List.mem_of_mem_filter member)
  have nodes : (keptNodes ⟨false, 4⟩ (conditionalTree "\n")).length = 6 := by decide +kernel
  have lines : (((keptNodes ⟨false, 4⟩ (conditionalTree "\n")).flatMap fun visit =>
      entry ⟨false, 4⟩ visit ++ ['\n']).splitOn '\n').length = 7 + 1 := by decide +kernel
  refine ⟨_, print?_eq narrow, fits, nodes, by rw [String.toList_ofList, lines], ?_⟩
  intro same
  rw [String.toList_ofList] at same
  rw [same, List.length_append, List.length_map, nodes] at lines
  exact absurd lines (by decide)

end Tree

end QueryWorkbench
