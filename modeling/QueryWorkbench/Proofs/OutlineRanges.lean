import Mathlib.Data.List.Forall2
import QueryWorkbench.Proofs.PlainNames
import QueryWorkbench.Proofs.PositionScan

/-! Ranges of an outline. Read back as offsets they are the spans of the elements and of their
`type` properties, and like those they lie one inside the other and one behind the other. -/

namespace QueryWorkbench

open Text

structure LeadsBack (text : Text) (range : Range) (span : Span) : Prop where
  start : (LineIndex.ofText text).offset? range.start = some span.start
  stop : (LineIndex.ofText text).offset? range.stop = some span.stop

namespace Text.Holds

variable {text stretch : Text} {span : Span}

theorem boundaries (holds : text.Holds span stretch) :
    text.Boundary span.start ∧ text.Boundary span.stop := by
  obtain ⟨before, after, rfl, rfl⟩ := holds
  exact ⟨⟨before, stretch ++ after, rfl, rfl⟩, before ++ stretch, after, by simp, by simp⟩

theorem start_whole {first : Char} (holds : text.Holds span stretch)
    (opens : stretch.head? = some first) (notFeed : first ≠ '\n') :
    ¬ text.SplitsBreak span.start := by
  obtain ⟨before, after, rfl, rfl⟩ := holds
  intro splits
  have feed := (ends_of_splitsBreak splits).2
  rw [List.head?_append, opens, Option.some_or, Option.some.injEq] at feed
  exact notFeed feed

theorem stop_whole {last : Char} (holds : text.Holds span stretch)
    (closes : stretch.getLast? = some last) (notCarriage : last ≠ '\r') :
    ¬ text.SplitsBreak span.stop := by
  obtain ⟨before, after, rfl, rfl⟩ := holds
  intro splits
  rw [← List.append_assoc, ← byteLength_append] at splits
  have carriage := (ends_of_splitsBreak splits).1
  rw [List.getLast?_append, closes, Option.some_or, Option.some.injEq] at carriage
  exact notCarriage carriage

theorem leadsBack {first last : Char} (holds : text.Holds span stretch)
    (opens : stretch.head? = some first) (notFeed : first ≠ '\n')
    (closes : stretch.getLast? = some last) (notCarriage : last ≠ '\r') :
    LeadsBack text ((LineIndex.ofText text).range span) span where
  start := LineIndex.offset?_boundary holds.boundaries.1 (holds.start_whole opens notFeed)
  stop := LineIndex.offset?_boundary holds.boundaries.2 (holds.stop_whole closes notCarriage)

end Text.Holds

namespace NodeTypes

open Json

/-- A symbol of the outline and what it stands for: the ranges lead back to the element and to its
`type` property, whose own texts stand there. -/
structure Outlines (text : Text) (descriptor : Descriptor) (symbol : Symbol) : Prop where
  name : symbol.name = descriptor.name.value
  named : symbol.named = descriptor.named.value
  range : LeadsBack text symbol.range descriptor.span
  element : Declares (Text.slice descriptor.span text) descriptor.span.start descriptor
  selection : LeadsBack text symbol.selectionRange descriptor.name.span
  property : Property Denotes (Text.slice descriptor.name.span text)
    ("type".toList, .string descriptor.name.value)
  within : symbol.range.start ≤ symbol.selectionRange.start ∧
    symbol.selectionRange.stop ≤ symbol.range.stop

theorem Declares.name_inside {source text : Text} {offset : Nat} {descriptor : Descriptor}
    (declares : Declares text offset descriptor) (holds : source.Holds (spanAt offset text) text) :
    descriptor.span.start ≤ descriptor.name.span.start ∧
    descriptor.name.span.stop ≤ descriptor.span.stop := by
  obtain @⟨inner, name, _, flag, members, type, named, nameSpan, flagSpan, spread, firstType,
      isString, _, _⟩ :=
    declares
  obtain ⟨written, start, _, placed, above, below⟩ :=
    spread.mem (holds_contents holds) type firstType.mem
  have spanEq := placed.span_eq
  rw [Member.span, isString] at spanEq
  obtain ⟨startEq, stopEq⟩ := Span.mk.inj spanEq
  simp only [Node.span] at stopEq
  simp only [spanAt, byteLength_cons, byteLength_append, byteLength_nil] at above below ⊢
  omega

theorem Declares.enclosed {text : Text} {offset : Nat} {descriptor : Descriptor}
    (declares : Declares text offset descriptor) :
    text.head? = some '\x7b' ∧ text.getLast? = some '\x7d' := by
  obtain ⟨_⟩ := declares
  exact ⟨rfl, List.getLast?_concat⟩

theorem enclosed_of_property {text key value : Text}
    (property : Property Denotes text (key, .string value)) :
    text.head? = some '"' ∧ text.getLast? = some '"' := by
  obtain @⟨spelled, before, after, written, _, _, _, _, _, denoted⟩ := property
  cases denoted with
  | @string literal _ _ =>
      have split :
          '"' :: spelled ++ '"' :: (before ++ ':' :: (after ++ ('"' :: literal ++ ['"']))) =
          ('"' :: spelled ++ '"' :: (before ++ ':' :: (after ++ '"' :: literal))) ++ ['"'] := by
        simp
      rw [split]
      exact ⟨rfl, List.getLast?_concat⟩

theorem outlines_of_mem {text : Text} {found : List Descriptor} {descriptor : Descriptor}
    (short : byteLength text < offsetLimit) (read : descriptors text = .ok found)
    (member : descriptor ∈ found) :
    Outlines text descriptor (Symbol.ofDescriptor (LineIndex.ofText text) descriptor) := by
  obtain ⟨element, holds, declares⟩ := declares_of_mem short read member
  obtain ⟨⟨written, stands, property⟩, _⟩ := properties_of_mem short read member
  obtain ⟨opens, closes⟩ := declares.enclosed
  obtain ⟨opensName, closesName⟩ := enclosed_of_property property
  have inside := declares.name_inside (declares.span_eq ▸ holds)
  exact {
    name := rfl
    named := rfl
    range := holds.leadsBack opens (by decide) closes (by decide)
    element := by rwa [holds.slice]
    selection := stands.leadsBack opensName (by decide) closesName (by decide)
    property := by rwa [stands.slice]
    within :=
      ⟨LineIndex.position_monotone text inside.1, LineIndex.position_monotone text inside.2⟩ }

theorem elements_ordered {text : Text} {found : List Descriptor}
    (short : byteLength text < offsetLimit) (read : descriptors text = .ok found) :
    found.Pairwise fun first second => first.span.stop < second.span.start := by
  obtain ⟨span, elements, parsed, _, rfl⟩ := descriptors_eq_ok.mp read
  obtain ⟨before, whole, after, rfl, _, placed, _⟩ := (parse_eq_ok short).mp parsed
  have listing := placed.listing ⟨before, after, rfl, rfl⟩
  have ordered := List.pairwise_map.mp listing.ordered
  rw [List.pairwise_filterMap]
  refine ordered.imp ?_
  intro first second apart one declared other otherDeclared
  rwa [ofElement?_span declared, ofElement?_span otherDeclared]

theorem symbols_ordered {text : Text} {found : List Descriptor}
    (short : byteLength text < offsetLimit) (read : descriptors text = .ok found) :
    (symbols text found).Pairwise fun first second => first.range.stop < second.range.start := by
  rw [symbols, List.pairwise_map]
  refine (elements_ordered short read).imp_of_mem ?_
  intro first second member otherMember apart
  obtain ⟨_, holds, _⟩ := declares_of_mem short read member
  obtain ⟨_, otherHolds, _⟩ := declares_of_mem short read otherMember
  exact LineIndex.position_strictMonoOn text holds.boundaries.2 otherHolds.boundaries.1 apart

/-- The outline of a document that is short enough for its offsets, whatever the navigator has done
before, has a symbol for each descriptor in their order. The symbol's ranges lead back to exactly
the element and its `type` property, the one range lies in the other, and each symbol ends before
the next one starts. -/
theorem outline_follows_elements (capacity : Nat) (uses : List Use) {text : Text}
    (short : byteLength text < offsetLimit) :
    (∀ error, descriptors text = .error error →
      ((Session.run capacity uses).navigator.outline text).1 = []) ∧
    ∀ found, descriptors text = .ok found →
      List.Forall₂ (Outlines text) found ((Session.run capacity uses).navigator.outline text).1 ∧
      ((Session.run capacity uses).navigator.outline text).1.Pairwise
        fun first second => first.range.stop < second.range.start := by
  obtain ⟨ledger, faithful⟩ := Session.faithful_run capacity uses
  rw [faithful.navigator.outline]
  constructor
  · intro error unreadable
    rw [unreadable]
    rfl
  · intro found read
    rw [read]
    refine ⟨?_, symbols_ordered short read⟩
    change List.Forall₂ (Outlines text) found
      (found.map (Symbol.ofDescriptor (LineIndex.ofText text)))
    rw [List.forall₂_map_right_iff, List.forall₂_same]
    exact fun descriptor member => outlines_of_mem short read member

def brokenLines : Text :=
  "[\x7b\"type\":\r\n\"é\",\"named\":true\x7d,1,\r\x7b\"named\":false,\"type\":\"é\"\x7d]".toList

def brokenFirst : Descriptor := ⟨⟨['é'], ⟨2, 15⟩⟩, ⟨true, ⟨16, 28⟩⟩, ⟨1, 29⟩⟩

def brokenLast : Descriptor := ⟨⟨['é'], ⟨48, 59⟩⟩, ⟨false, ⟨34, 47⟩⟩, ⟨33, 60⟩⟩

theorem outline_follows_elements_broken :
    byteLength brokenLines < offsetLimit ∧
      descriptors brokenLines = .ok [brokenFirst, brokenLast] ∧
      (∃ first last,
        ((Session.run 1 [.outline ['1']]).navigator.outline brokenLines).1 = [first, last] ∧
        Outlines brokenLines brokenFirst first ∧ Outlines brokenLines brokenLast last ∧
        first.range.stop < last.range.start) ∧
      descriptors ['1'] = .error .rootNotArray ∧
      ((Session.run 1 []).navigator.outline ['1']).1 = [] := by
  have read : descriptors brokenLines = .ok [brokenFirst, brokenLast] := by decide +kernel
  have unreadable : descriptors ['1'] = .error .rootNotArray := by decide +kernel
  have short : byteLength brokenLines < offsetLimit := by decide +kernel
  obtain ⟨outlined, ordered⟩ := (outline_follows_elements 1 [.outline ['1']] short).2 _ read
  have oneShort : byteLength ['1'] < offsetLimit := by decide
  refine ⟨short, read, ?_, unreadable, (outline_follows_elements 1 [] oneShort).1 _ unreadable⟩
  obtain ⟨first, others, one, more, symbols⟩ := List.forall₂_cons_left_iff.mp outlined
  obtain ⟨last, none, other, empty, rest⟩ := List.forall₂_cons_left_iff.mp more
  obtain rfl := List.forall₂_nil_left_iff.mp empty
  subst rest
  rw [symbols] at ordered
  exact ⟨first, last, symbols, one, other, (List.pairwise_cons.mp ordered).1 last (by simp)⟩

end NodeTypes

end QueryWorkbench
