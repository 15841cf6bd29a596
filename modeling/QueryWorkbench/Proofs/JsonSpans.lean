import Mathlib.Data.List.Chain
import QueryWorkbench.Proofs.JsonAcceptance
import QueryWorkbench.Proofs.Slices

/-! Spans of a JSON tree. A node's span is where the text of that node alone stands, so that the
text cut out of the document reads back as the node itself; between the spans of neighbours stands
only what separates them. -/

namespace QueryWorkbench.Json

open Text

@[elab_as_elim] theorem Node.induct {motive : Node → Prop} (null : ∀ span, motive (.null span))
    (boolean : ∀ span value, motive (.boolean span value))
    (number : ∀ span numeral, motive (.number span numeral))
    (string : ∀ span value, motive (.string span value))
    (array : ∀ span elements, (∀ element ∈ elements, motive element) →
      motive (.array span elements))
    (object : ∀ span members, (∀ member ∈ members, motive member.value) →
      motive (.object span members))
    (node : Node) : motive node := by
  refine @Node.rec motive (fun elements => ∀ element ∈ elements, motive element)
    (fun members => ∀ member ∈ members, motive member.value) (fun member => motive member.value)
    null boolean number string array object ?_ ?_ ?_ ?_ ?_ node
  · intro element member
    cases member
  · intro first rest first_ih rest_ih
    exact List.forall_mem_cons.mpr ⟨first_ih, rest_ih⟩
  · intro property member
    cases member
  · intro first rest first_ih rest_ih
    exact List.forall_mem_cons.mpr ⟨first_ih, rest_ih⟩
  · intro keySpan key value ih
    exact ih

def movedSpan (move : Nat → Nat) (span : Span) : Span := ⟨move span.start, move span.stop⟩

mutual

def Node.moved (move : Nat → Nat) : Node → Node
  | .null span => .null (movedSpan move span)
  | .boolean span value => .boolean (movedSpan move span) value
  | .number span numeral => .number (movedSpan move span) numeral
  | .string span value => .string (movedSpan move span) value
  | .array span elements => .array (movedSpan move span) (Node.movedAll move elements)
  | .object span members => .object (movedSpan move span) (Member.movedAll move members)

def Node.movedAll (move : Nat → Nat) : List Node → List Node
  | [] => []
  | node :: rest => node.moved move :: Node.movedAll move rest

def Member.movedAll (move : Nat → Nat) : List (Member Node) → List (Member Node)
  | [] => []
  | ⟨keySpan, key, value⟩ :: rest =>
      ⟨movedSpan move keySpan, key, value.moved move⟩ :: Member.movedAll move rest

end

def Member.moved (move : Nat → Nat) (member : Member Node) : Member Node :=
  ⟨movedSpan move member.keySpan, member.key, member.value.moved move⟩

theorem Node.movedAll_eq_map (move : Nat → Nat) (nodes : List Node) :
    Node.movedAll move nodes = nodes.map (Node.moved move) := by
  induction nodes with
  | nil => rfl
  | cons node rest ih => rw [Node.movedAll, ih, List.map_cons]

theorem Member.movedAll_eq_map (move : Nat → Nat) (members : List (Member Node)) :
    Member.movedAll move members = members.map (Member.moved move) := by
  induction members with
  | nil => rfl
  | cons member rest ih =>
      rw [Member.movedAll, ih, List.map_cons]
      rfl

theorem Node.datum_moved (move : Nat → Nat) (node : Node) :
    (node.moved move).datum = node.datum := by
  induction node using Node.induct with
  | array span elements ih =>
      rw [Node.moved, Node.datum, Node.datum, Node.movedAll_eq_map, Node.data_eq_map,
        Node.data_eq_map, List.map_map]
      exact congrArg Datum.array (List.map_congr_left ih)
  | object span members ih =>
      rw [Node.moved, Node.datum, Node.datum, Member.movedAll_eq_map, Member.data_eq_map,
        Member.data_eq_map, List.map_map]
      refine congrArg Datum.object (List.map_congr_left ?_)
      intro member found
      exact congrArg (Prod.mk member.key) (ih member found)
  | _ => rfl

theorem movedSpan_spanAt {move : Nat → Nat} {offset target : Nat}
    (moves : ∀ more, move (offset + more) = target + more) (text : Text) :
    movedSpan move (spanAt offset text) = spanAt target text := by
  have start := moves 0
  rw [Nat.add_zero, Nat.add_zero] at start
  rw [movedSpan, spanAt, start, moves, spanAt]

section Spread

variable {α β : Type} {place : Text → Nat → α → Prop} {inner : Text} {offset : Nat}
  {values : List α}

theorem Spread.moved {other : Text → Nat → β → Prop} {change : α → β} (move : Nat → Nat)
    {target : Nat} (spread : Spread place inner offset values)
    (moves : ∀ more, move (offset + more) = target + more)
    (each : ∀ written offset target value, value ∈ values → (∀ more, move (offset + more) =
      target + more) → place written offset value → other written target (change value)) :
    Spread other inner target (values.map change) := by
  have later {offset target : Nat} (moves : ∀ more, move (offset + more) = target + more)
    (extra : Nat) :
      ∀ more, move (offset + extra + more) = target + extra + more := by
    intro more
    rw [Nat.add_assoc, moves, Nat.add_assoc]
  induction spread generalizing target with
  | last blanks placed behind =>
      exact .last blanks (each _ _ _ _ (by simp) (later moves _) placed) behind
  | more blanks placed behind _ ih =>
      refine .more blanks (each _ _ _ _ (by simp) (later moves _) placed) behind
        (ih (later moves _) ?_)
      intro written offset target value member
      exact each written offset target value (List.mem_cons_of_mem _ member)

end Spread

theorem Written.moved {text : Text} {offset target : Nat} {node : Node} {move : Nat → Nat}
    (written : Written text offset node) (moves : ∀ more, move (offset + more) = target + more) :
    Written text target (node.moved move) := by
  induction node using Node.induct generalizing text offset target with
  | null span =>
      cases written
      rw [Node.moved, movedSpan_spanAt moves]
      exact .null
  | boolean span value =>
      cases written with
      | true =>
          rw [Node.moved, movedSpan_spanAt moves]
          exact .true
      | false =>
          rw [Node.moved, movedSpan_spanAt moves]
          exact .false
  | number span numeral =>
      cases written with
      | number shape =>
          rw [Node.moved, movedSpan_spanAt moves]
          exact .number shape
  | string span value =>
      cases written with
      | string spelled =>
          rw [Node.moved, movedSpan_spanAt moves]
          exact .string spelled
  | array span elements ih =>
      cases written with
      | emptyArray blanks =>
          rw [Node.moved, movedSpan_spanAt moves]
          exact .emptyArray blanks
      | array spread =>
          rw [Node.moved, movedSpan_spanAt moves, Node.movedAll_eq_map]
          refine .array (spread.moved move ?_ ?_)
          · intro more
            rw [Nat.add_assoc, moves, Nat.add_assoc]
          · intro part offset target element member moves written
            exact ih element member written moves
  | object span members ih =>
      cases written with
      | emptyObject blanks =>
          rw [Node.moved, movedSpan_spanAt moves]
          exact .emptyObject blanks
      | object spread =>
          rw [Node.moved, movedSpan_spanAt moves, Member.movedAll_eq_map]
          refine .object (spread.moved move ?_ ?_)
          · intro more
            rw [Nat.add_assoc, moves, Nat.add_assoc]
          · rintro part offset target property member moves ⟨spelled, before, after, written⟩
            rw [Member.moved, movedSpan_spanAt moves]
            refine .mk spelled before after (ih _ member written ?_)
            intro more
            rw [Nat.add_assoc, moves, Nat.add_assoc]

theorem Written.unique {text : Text} {offset : Nat} {first second : Node}
    (one : Written text offset first) (other : Written text offset second) : first = second := by
  have reading {node : Node} (written : Written text offset node)
      (bound : node.datum.depth ≤ max first.datum.depth second.datum.depth) :
      Reads (Parser.value 0 (max first.datum.depth second.datum.depth))
        (tokensFrom offset ([] ++ (text ++ [])))
        node (tokensFrom (offset + byteLength [] + byteLength text) []) :=
    value_complete 0 _ offset [] text [] node (by simp [Blanks]) ⟨written, bound⟩ delimited_nil
  obtain ⟨_, reads⟩ := reading one (Nat.le_max_left ..)
  obtain ⟨_, again⟩ := reading other (Nat.le_max_right ..)
  rw [reads] at again
  simp only [Except.ok.injEq, Prod.mk.injEq] at again
  exact again.1

def Parted (source : Text) (mark : Char) (first second : Span) : Prop :=
  ∃ before after, Blanks before ∧ Blanks after ∧
    source.Holds ⟨first.stop, second.start⟩ (before ++ mark :: after)

/-- Spans strictly inside another, one behind the other with one comma between neighbours. -/
structure Listing (source : Text) (outer : Span) (spans : List Span) : Prop where
  inside : ∀ span ∈ spans, outer.start < span.start ∧ span.start ≤ span.stop ∧
    span.stop < outer.stop
  ordered : spans.Pairwise fun first second => first.stop < second.start
  parted : spans.IsChain (Parted source ',')

def Node.members : Node → List (Member Node)
  | .object _ members => members
  | _ => []

def Node.childSpans : Node → List Span
  | .array _ elements => elements.map Node.span
  | .object _ members => members.map Member.span
  | _ => []

/-- The node is a value of the tree, at any depth, or the key of a property in it. -/
inductive Node.OccursIn (node : Node) : Node → Prop
  | self : Node.OccursIn node node
  | element {span : Span} {elements : List Node} {element : Node} :
      element ∈ elements → Node.OccursIn node element → Node.OccursIn node (.array span elements)
  | key {span : Span} {members : List (Member Node)} {member : Member Node} :
      member ∈ members → Node.OccursIn node (.string member.keySpan member.key) →
      Node.OccursIn node (.object span members)
  | value {span : Span} {members : List (Member Node)} {member : Member Node} :
      member ∈ members → Node.OccursIn node member.value → Node.OccursIn node (.object span members)

theorem holds_behindComma {source before written after others : Text} {offset : Nat}
    (holds : source.Holds (spanAt offset (before ++ (written ++ (after ++ ',' :: others))))
      (before ++ (written ++ (after ++ ',' :: others)))) :
    source.Holds (spanAt (offset + byteLength (before ++ (written ++ (after ++ [','])))) others)
      others := by
  have split : before ++ (written ++ (after ++ ',' :: others)) =
      (before ++ (written ++ (after ++ [',']))) ++ (others ++ []) := by simp
  rw [split] at holds
  exact holds.part

section Spread

variable {α : Type} {place : Text → Nat → α → Prop} {source inner : Text} {offset : Nat}
  {values : List α} {span : α → Span}

theorem Spread.mem (spread : Spread place inner offset values)
    (holds : source.Holds (spanAt offset inner) inner) :
    ∀ value ∈ values, ∃ written start, source.Holds (spanAt start written) written ∧
      place written start value ∧
      offset ≤ start ∧ start + byteLength written ≤ offset + byteLength inner := by
  induction spread with
  | @last before written after offset value _ placed _ =>
      simp only [List.mem_singleton, forall_eq]
      refine ⟨written, offset + byteLength before, holds.part, placed, ?_⟩
      simp only [byteLength_append]
      omega
  | @more before written after others offset value values _ placed _ _ ih =>
      refine List.forall_mem_cons.mpr
        ⟨⟨written, offset + byteLength before, holds.part, placed, ?_⟩, ?_⟩
      · simp only [byteLength_append]
        omega
      · intro value member
        obtain ⟨part, start, stands, placed, above, below⟩ :=
          ih (holds_behindComma holds) value member
        refine ⟨part, start, stands, placed, ?_⟩
        simp only [byteLength_append, byteLength_cons, byteLength_nil] at above below ⊢
        omega

theorem Spread.first (spread : Spread place inner offset values) :
    ∃ value rest before written behind,
      values = value :: rest ∧ inner = before ++ (written ++ behind) ∧
      Blanks before ∧ place written (offset + byteLength before) value := by
  cases spread with
  | last blanks placed _ => exact ⟨_, _, _, _, _, rfl, rfl, blanks, placed⟩
  | more blanks placed _ _ => exact ⟨_, _, _, _, _, rfl, rfl, blanks, placed⟩

theorem Spread.ordered (spread : Spread place inner offset values)
    (spans : ∀ written offset value, place written offset value →
      span value = spanAt offset written)
    (holds : source.Holds (spanAt offset inner) inner) :
    (values.map span).Pairwise fun first second => first.stop < second.start := by
  induction spread with
  | last => simp
  | @more before written after others offset value values _ placed _ later ih =>
      rw [List.map_cons, List.pairwise_cons, List.forall_mem_map]
      refine ⟨?_, ih (holds_behindComma holds)⟩
      intro other member
      obtain ⟨part, start, _, found, above, _⟩ := later.mem (holds_behindComma holds) other member
      rw [spans _ _ _ placed, spans _ _ _ found]
      simp only [spanAt, byteLength_append, byteLength_cons, byteLength_nil] at above ⊢
      have comma : ','.utf8Size = 1 := by decide
      omega

theorem Spread.parted (spread : Spread place inner offset values)
    (spans : ∀ written offset value, place written offset value →
      span value = spanAt offset written)
    (holds : source.Holds (spanAt offset inner) inner) :
    (values.map span).IsChain (Parted source ',') := by
  induction spread with
  | last => simp
  | @more before written after others offset value values _ placed behind later ih =>
      have chained := ih (holds_behindComma holds)
      obtain ⟨next, rest, blanks, part, remains, rfl, rfl, empty, found⟩ := later.first
      simp only [List.map_cons] at chained ⊢
      refine List.isChain_cons_cons.mpr ⟨⟨after, blanks, behind, empty, ?_⟩, chained⟩
      rw [spans _ _ _ placed, spans _ _ _ found]
      have split : before ++ (written ++ (after ++ ',' :: (blanks ++ (part ++ remains)))) =
          (before ++ written) ++ ((after ++ ',' :: blanks) ++ (part ++ remains)) := by simp
      rw [split] at holds
      have between := holds.part
      simpa [spanAt, Nat.add_assoc] using between

end Spread

theorem Written.span_eq {text : Text} {offset : Nat} {node : Node}
    (written : Written text offset node) : node.span = spanAt offset text := by
  cases written <;> rfl

theorem PropertyAt.span_eq {text : Text} {offset : Nat} {member : Member Node}
    (placed : PropertyAt Written text offset member) : member.span = spanAt offset text := by
  obtain ⟨spelled, before, after, written⟩ := placed
  rw [Member.span, written.span_eq]
  simp [spanAt, Nat.add_assoc]

section Parts

variable {source text inner : Text} {offset : Nat} {node root : Node} {member : Member Node}

theorem holds_contents {opens closes : Char} {outer : Text}
    (holds : source.Holds (spanAt offset outer) (opens :: inner ++ [closes])) :
    source.Holds (spanAt (offset + byteLength [opens]) inner) inner := by
  rw [List.cons_append, ← List.singleton_append] at holds
  exact holds.part

theorem Spread.listing {α : Type} {place : Text → Nat → α → Prop} {values : List α}
    {span : α → Span} {opens closes : Char}
    (spread : Spread place inner (offset + byteLength [opens]) values)
    (spans : ∀ written offset value, place written offset value →
      span value = spanAt offset written)
    (holds : source.Holds (spanAt offset (opens :: inner ++ [closes]))
      (opens :: inner ++ [closes])) :
    Listing source (spanAt offset (opens :: inner ++ [closes])) (values.map span) := by
  have within := holds_contents holds
  refine ⟨?_, spread.ordered spans within, spread.parted spans within⟩
  rw [List.forall_mem_map]
  intro value member
  obtain ⟨written, start, _, placed, above, below⟩ := spread.mem within value member
  have opening := opens.utf8Size_pos
  have closing := closes.utf8Size_pos
  rw [spans _ _ _ placed]
  simp only [spanAt, List.cons_append, byteLength_cons, byteLength_append,
    byteLength_nil] at above below ⊢
  omega

theorem Written.listing (written : Written text offset node)
    (holds : source.Holds (spanAt offset text) text) :
    Listing source node.span node.childSpans := by
  have none {outer : Span} : Listing source outer [] := ⟨by simp, .nil, .nil⟩
  cases written with
  | array spread =>
      exact spread.listing (fun _ _ _ placed => placed.span_eq) holds
  | object spread =>
      exact spread.listing (fun _ _ _ placed => placed.span_eq) holds
  | _ => exact none

theorem PropertyAt.parted (placed : PropertyAt Written text offset member)
    (holds : source.Holds (spanAt offset text) text) :
    Parted source ':' member.keySpan member.value.span := by
  obtain @⟨spelled, before, after, written, name, _, value, _, blanks, behind, placed⟩ := placed
  refine ⟨before, after, blanks, behind, ?_⟩
  have split : '"' :: spelled ++ '"' :: (before ++ ':' :: (after ++ written)) =
      ('"' :: spelled ++ ['"']) ++ ((before ++ ':' :: after) ++ written) := by simp
  rw [split] at holds
  have between := holds.part
  rw [placed.span_eq]
  simpa [spanAt, Nat.add_assoc] using between

theorem PropertyAt.value (placed : PropertyAt Written text offset member)
    (holds : source.Holds (spanAt offset text) text) :
    ∃ written start,
      source.Holds (spanAt start written) written ∧ Written written start member.value := by
  obtain @⟨spelled, before, after, written, name, _, value, _, _, _, placed⟩ := placed
  refine ⟨written, _, ?_, placed⟩
  have split : '"' :: spelled ++ '"' :: (before ++ ':' :: (after ++ written)) =
      ('"' :: spelled ++ '"' :: (before ++ ':' :: after)) ++ (written ++ []) := by simp
  rw [split] at holds
  exact holds.part

theorem PropertyAt.key (placed : PropertyAt Written text offset member)
    (holds : source.Holds (spanAt offset text) text) :
    ∃ written start, source.Holds (spanAt start written) written ∧
      Written written start (.string member.keySpan member.key) := by
  obtain @⟨spelled, before, after, written, name, _, value, spelling, _, _, _⟩ := placed
  refine ⟨'"' :: spelled ++ ['"'], offset, ?_, .string spelling⟩
  have split : '"' :: spelled ++ '"' :: (before ++ ':' :: (after ++ written)) =
      [] ++ (('"' :: spelled ++ ['"']) ++ (before ++ ':' :: (after ++ written))) := by simp
  rw [split] at holds
  exact holds.part

theorem Written.occurs (written : Written text offset root)
    (holds : source.Holds (spanAt offset text) text) (occurs : node.OccursIn root) :
    ∃ part, source.Holds node.span part ∧ Written part node.span.start node := by
  induction occurs generalizing text offset with
  | self =>
      have spanEq := written.span_eq
      refine ⟨text, ?_, ?_⟩
      · rwa [spanEq]
      · rwa [spanEq]
  | element member _ ih =>
      cases written with
      | emptyArray => cases member
      | array spread =>
          obtain ⟨written, start, stands, placed, _⟩ := spread.mem (holds_contents holds) _ member
          exact ih placed stands
  | key member _ ih =>
      cases written with
      | emptyObject => cases member
      | object spread =>
          obtain ⟨written, start, stands, placed, _⟩ := spread.mem (holds_contents holds) _ member
          obtain ⟨name, start, stands, placed⟩ := placed.key stands
          exact ih placed stands
  | value member _ ih =>
      cases written with
      | emptyObject => cases member
      | object spread =>
          obtain ⟨written, start, stands, placed, _⟩ := spread.mem (holds_contents holds) _ member
          obtain ⟨name, start, stands, placed⟩ := placed.value stands
          exact ih placed stands

theorem Written.parted (written : Written text offset node)
    (holds : source.Holds (spanAt offset text) text) :
    ∀ member ∈ node.members, Parted source ':' member.keySpan member.value.span := by
  cases written with
  | object spread =>
      intro member found
      obtain ⟨written, start, stands, placed, _⟩ := spread.mem (holds_contents holds) member found
      exact placed.parted stands
  | _ => simp [Node.members]

end Parts

end QueryWorkbench.Json
