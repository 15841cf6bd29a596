import QueryWorkbench.NodeTypes.Descriptor
import QueryWorkbench.Proofs.JsonSpans

/-! Node-types documents, element by element. What an element declares can be read off its own text,
and the descriptors of an array are those of its elements, each where its element stands. -/

namespace QueryWorkbench.NodeTypes

open Text Json

def FirstNamed (members : List (Member Node)) (key : Text) (member : Member Node) : Prop :=
  member.key = key ∧ ∃ earlier later, members = earlier ++ member :: later ∧
    ∀ other ∈ earlier, other.key ≠ key

/-- What an element declares that stands at an offset. It is an object, its first `type` is a string
and its first `named` a boolean; each property reaches from the opening quote of its key to the end
of its value. -/
inductive Declares : Text → Nat → Descriptor → Prop
  | mk {inner name : Text} {offset : Nat} {flag : Bool} {members : List (Member Node)}
      {type named : Member Node} {nameSpan flagSpan : Span} :
      Spread (PropertyAt Written) inner (offset + byteLength ['\x7b']) members →
      FirstNamed members "type".toList type → type.value = .string nameSpan name →
      FirstNamed members "named".toList named → named.value = .boolean flagSpan flag →
      Declares ('\x7b' :: inner ++ ['\x7d']) offset
        { name := ⟨name, ⟨type.keySpan.start, nameSpan.stop⟩⟩
          named := ⟨flag, ⟨named.keySpan.start, flagSpan.stop⟩⟩
          span := spanAt offset ('\x7b' :: inner ++ ['\x7d']) }

theorem Declares.written {text : Text} {offset : Nat} {descriptor : Descriptor}
    (declares : Declares text offset descriptor) : ∃ node, Written text offset node := by
  obtain ⟨spread, _⟩ := declares
  exact ⟨_, .object spread⟩

theorem Declares.span_eq {text : Text} {offset : Nat} {descriptor : Descriptor}
    (declares : Declares text offset descriptor) : descriptor.span = spanAt offset text := by
  obtain ⟨_⟩ := declares
  rfl

theorem find?_firstNamed {members : List (Member Node)} {key : Text} {member : Member Node} :
    members.find? (fun other => other.key == key) = some member ↔
      FirstNamed members key member := by
  simp only [List.find?_eq_some_iff_append, beq_iff_eq, FirstNamed, Bool.not_eq_true',
    beq_eq_false_iff_ne]

theorem member?_eq_some {node : Node} {key : Text} {member : Member Node} :
    node.member? key = some member ↔ ∃ span members, node = .object span members ∧
      FirstNamed members key member := by
  cases node with
  | object span members =>
      rw [Node.member?, find?_firstNamed]
      simp
  | _ => simp [Node.member?]

theorem string?_eq_some {node : Node} {value : Text} :
    node.string? = some value ↔ ∃ span, node = .string span value := by
  cases node <;> simp [Node.string?]

theorem boolean?_eq_some {node : Node} {value : Bool} :
    node.boolean? = some value ↔ ∃ span, node = .boolean span value := by
  cases node <;> simp [Node.boolean?]

theorem ofElement?_iff {text : Text} {offset : Nat} {node : Node} {descriptor : Descriptor}
    (written : Written text offset node) :
    Descriptor.ofElement? node = some descriptor ↔ Declares text offset descriptor := by
  simp only [Descriptor.ofElement?, Option.bind_eq_bind, Option.bind_eq_some_iff, member?_eq_some,
    string?_eq_some, boolean?_eq_some, Option.some.injEq]
  constructor
  · rintro ⟨type, ⟨span, members, rfl, firstType⟩, named, ⟨_, _, same, firstNamed⟩, name,
      ⟨nameSpan, isString⟩, flag, ⟨flagSpan, isBoolean⟩, rfl⟩
    cases same
    cases written with
    | emptyObject =>
        obtain ⟨_, earlier, later, none, _⟩ := firstType
        simp at none
    | object spread =>
        rw [Member.span, Member.span, isString, isBoolean]
        exact .mk spread firstType isString firstNamed isBoolean
  · rintro @⟨inner, name, _, flag, members, type, named, nameSpan, flagSpan, spread, firstType,
      isString, firstNamed, isBoolean⟩
    obtain rfl := written.unique (.object spread)
    refine ⟨type, ⟨_, _, rfl, firstType⟩, named, ⟨_, _, rfl, firstNamed⟩, name,
      ⟨nameSpan, isString⟩, flag, ⟨flagSpan, isBoolean⟩, ?_⟩
    rw [Member.span, Member.span, isString, isBoolean]
    rfl

theorem descriptors_eq_ok {text : Text} {found : List Descriptor} :
    descriptors text = .ok found ↔ ∃ span elements, parse text = .ok (.array span elements) ∧
      elements ≠ [] ∧ found = elements.filterMap Descriptor.ofElement? := by
  unfold descriptors
  constructor
  · intro read
    split at read
    · cases read
    · cases read
    · next span elements nonempty parsed =>
        exact ⟨span, elements, parsed, nonempty, by simpa using read.symm⟩
    · cases read
  · rintro ⟨span, elements, parsed, nonempty, rfl⟩
    obtain ⟨first, rest, rfl⟩ := List.exists_cons_of_ne_nil nonempty
    rw [parsed]

theorem ofElement?_span {element : Node} {descriptor : Descriptor}
    (declared : Descriptor.ofElement? element = some descriptor) :
    descriptor.span = element.span := by
  simp only [Descriptor.ofElement?, Option.bind_eq_bind, Option.bind_eq_some_iff,
    Option.some.injEq] at declared
  obtain ⟨_, _, _, _, _, _, _, _, rfl⟩ := declared
  rfl

theorem declares_of_mem {text : Text} {found : List Descriptor} {descriptor : Descriptor}
    (short : byteLength text < offsetLimit) (read : descriptors text = .ok found)
    (member : descriptor ∈ found) :
    ∃ written,
      text.Holds descriptor.span written ∧ Declares written descriptor.span.start descriptor := by
  obtain ⟨span, elements, parsed, _, rfl⟩ := descriptors_eq_ok.mp read
  obtain ⟨before, whole, after, rfl, _, placed, _⟩ := (parse_eq_ok short).mp parsed
  obtain ⟨element, listed, declared⟩ := List.mem_filterMap.mp member
  obtain ⟨part, holds, written⟩ := placed.occurs ⟨before, after, rfl, rfl⟩ (.element listed .self)
  rw [ofElement?_span declared]
  exact ⟨part, holds, (ofElement?_iff written).mp declared⟩

theorem FirstNamed.mem {members : List (Member Node)} {key : Text} {member : Member Node}
    (first : FirstNamed members key member) : member ∈ members := by
  obtain ⟨_, earlier, later, rfl, _⟩ := first
  simp

theorem Declares.properties {source text : Text} {offset : Nat} {descriptor : Descriptor}
    (declares : Declares text offset descriptor) (holds : source.Holds (spanAt offset text) text) :
    (∃ written, source.Holds descriptor.name.span written ∧
      Property Denotes written ("type".toList, .string descriptor.name.value)) ∧
    ∃ written, source.Holds descriptor.named.span written ∧
      Property Denotes written ("named".toList, .boolean descriptor.named.value) := by
  obtain @⟨inner, name, _, flag, members, type, named, nameSpan, flagSpan, spread, firstType,
    isString, firstNamed, isBoolean⟩ := declares
  have property {member : Member Node} (listed : member ∈ members) :
      ∃ written, source.Holds member.span written ∧ Property Denotes written member.datum := by
    obtain ⟨written, start, stands, placed, _⟩ := spread.mem (holds_contents holds) member listed
    refine ⟨written, ?_, placed.property fun _ _ value => value.denotes⟩
    rwa [placed.span_eq]
  constructor
  · have found := property firstType.mem
    rwa [Member.span, Member.datum, firstType.1, isString] at found
  · have found := property firstNamed.mem
    rwa [Member.span, Member.datum, firstNamed.1, isBoolean] at found

theorem properties_of_mem {text : Text} {found : List Descriptor} {descriptor : Descriptor}
    (short : byteLength text < offsetLimit) (read : descriptors text = .ok found)
    (member : descriptor ∈ found) :
    (∃ written, text.Holds descriptor.name.span written ∧
      Property Denotes written ("type".toList, .string descriptor.name.value)) ∧
    ∃ written, text.Holds descriptor.named.span written ∧
      Property Denotes written ("named".toList, .boolean descriptor.named.value) := by
  obtain ⟨element, holds, declares⟩ := declares_of_mem short read member
  rw [declares.span_eq] at holds
  exact declares.properties holds

def Descriptor.moved (move : Nat → Nat) (descriptor : Descriptor) : Descriptor :=
  { name := ⟨descriptor.name.value, movedSpan move descriptor.name.span⟩
    named := ⟨descriptor.named.value, movedSpan move descriptor.named.span⟩
    span := movedSpan move descriptor.span }

theorem span_moved (move : Nat → Nat) (node : Node) :
    (node.moved move).span = movedSpan move node.span := by
  cases node <;> rfl

theorem string?_moved (move : Nat → Nat) (node : Node) :
    (node.moved move).string? = node.string? := by
  cases node <;> rfl

theorem boolean?_moved (move : Nat → Nat) (node : Node) :
    (node.moved move).boolean? = node.boolean? := by
  cases node <;> rfl

theorem member?_moved (move : Nat → Nat) (node : Node) (key : Text) :
    (node.moved move).member? key = (node.member? key).map (Member.moved move) := by
  cases node with
  | object span members =>
      rw [Node.moved, Member.movedAll_eq_map, Node.member?, Node.member?, List.find?_map]
      rfl
  | _ => rfl

theorem member_span_moved (move : Nat → Nat) (member : Member Node) :
    (member.moved move).span = movedSpan move member.span := by
  rw [Member.span, Member.moved, span_moved]
  rfl

theorem ofElement?_moved (move : Nat → Nat) (node : Node) :
    Descriptor.ofElement? (node.moved move) =
      (Descriptor.ofElement? node).map (Descriptor.moved move) := by
  have value (member : Member Node) : (member.moved move).value = member.value.moved move := rfl
  simp only [Descriptor.ofElement?, member?_moved, Option.bind_eq_bind, Option.bind_map,
    Option.map_bind, Function.comp_def, Option.map_some, value, string?_moved, boolean?_moved,
    member_span_moved, span_moved]
  rfl

/-! Arrays of elements. -/

/-- An element of an array with the white space around it. An element may nest one level less than a
document. -/
structure Slot where
  before : Text
  element : Text
  after : Text
  blankBefore : Blanks before
  blankAfter : Blanks after
  accepted : ∃ node, parse element = .ok node ∧ node.datum.depth ≤ 255

instance (element : Text) : Decidable (∃ node, parse element = .ok node ∧ node.datum.depth ≤ 255) :=
  match parse element with
  | .ok node => decidable_of_iff (node.datum.depth ≤ 255) (by simp)
  | .error _ => isFalse (by simp)

namespace Slot

def text (slot : Slot) : Text := slot.before ++ (slot.element ++ slot.after)

def root (slot : Slot) : Node := (parse slot.element).toOption.getD (.null ⟨0, 0⟩)

theorem parse_root (slot : Slot) :
    parse slot.element = .ok slot.root ∧ slot.root.datum.depth ≤ 255 := by
  obtain ⟨node, parsed, shallow⟩ := slot.accepted
  rw [root, parsed]
  exact ⟨rfl, shallow⟩

end Slot

def arrayText (slots : List Slot) : Text := '[' :: [','].intercalate (slots.map Slot.text) ++ [']']

def placed (offset : Nat) : List Slot → List (Nat × Slot)
  | [] => []
  | slot :: rest => (offset + byteLength slot.before, slot) :: placed
      (offset + byteLength (slot.text ++ [','])) rest

theorem element_le {slots : List Slot} {slot : Slot} (member : slot ∈ slots) :
    byteLength ('[' :: slot.element ++ [']']) ≤ byteLength (arrayText slots) := by
  have inside : byteLength slot.element ≤ byteLength ([','].intercalate (slots.map Slot.text)) := by
    induction slots with
    | nil => cases member
    | cons first rest ih =>
        by_cases alone : rest = []
        · subst alone
          obtain rfl := List.mem_singleton.mp member
          simp only [List.map_cons, List.map_nil, List.intercalate_singleton, Slot.text,
            byteLength_append]
          omega
        · rw [List.map_cons, List.intercalate_cons_of_ne_nil (by simpa using alone)]
          simp only [Slot.text, byteLength_append]
          rcases List.mem_cons.mp member with rfl | later
          · omega
          · have behind := ih later
            omega
  simp only [arrayText, List.cons_append, byteLength_cons, byteLength_append]
  omega

theorem spread_slots {slots : List Slot} (nonempty : slots ≠ [])
    (short : ∀ slot ∈ slots, byteLength slot.element < offsetLimit) (offset : Nat) :
    Spread Written ([','].intercalate (slots.map Slot.text)) offset
      ((placed offset slots).map fun entry => entry.2.root.moved (· + entry.1)) := by
  induction slots generalizing offset with
  | nil => exact (nonempty rfl).elim
  | cons slot rest ih =>
      obtain ⟨shortFirst, shortRest⟩ := List.forall_mem_cons.mp short
      obtain ⟨front, written, back, split, blanks, stands, behind, _⟩ :=
        (parse_eq_ok shortFirst).mp slot.parse_root.1
      have first := slot.blankBefore.append blanks
      have last := behind.append slot.blankAfter
      have moved : Written written (offset + byteLength (slot.before ++ front))
          (slot.root.moved (· + (offset + byteLength slot.before))) := by
        apply stands.moved
        intro more
        rw [byteLength_append]
        omega
      have text : slot.text = (slot.before ++ front) ++ (written ++ (back ++ slot.after)) := by
        rw [Slot.text, split]
        simp
      by_cases alone : rest = []
      · subst alone
        have spread := Spread.last first moved last
        rw [← text] at spread
        simpa [placed] using spread
      · have others := ih alone shortRest (offset + byteLength (slot.text ++ [',']))
        have comma : slot.text ++ [','] =
            (slot.before ++ front) ++ (written ++ ((back ++ slot.after) ++ [','])) := by
          rw [text]
          simp
        rw [comma] at others
        have spread := Spread.more first moved last others
        rw [List.map_cons, List.intercalate_cons_of_ne_nil (by simpa using alone), placed, comma]
        simpa using spread

theorem mem_of_placed {offset : Nat} {slots : List Slot} {entry : Nat × Slot}
    (member : entry ∈ placed offset slots) : entry.2 ∈ slots := by
  induction slots generalizing offset with
  | nil => cases member
  | cons slot rest ih =>
      rcases List.mem_cons.mp member with rfl | later
      · exact List.mem_cons_self ..
      · exact List.mem_cons_of_mem slot (ih later)

theorem placed_ne_nil {offset : Nat} {slots : List Slot} (nonempty : slots ≠ []) :
    placed offset slots ≠ [] := by
  obtain ⟨slot, rest, rfl⟩ := List.exists_cons_of_ne_nil nonempty
  simp [placed]

theorem descriptors_arrayText {slots : List Slot} (nonempty : slots ≠ [])
    (short : byteLength (arrayText slots) < offsetLimit) :
    descriptors (arrayText slots) = .ok ((placed 1 slots).flatMap fun entry =>
      ((Descriptor.ofElement? entry.2.root).map (Descriptor.moved (· + entry.1))).toList) := by
  have elements : ∀ slot ∈ slots, byteLength slot.element < offsetLimit := by
    intro slot member
    have inside := element_le member
    simp only [List.cons_append, byteLength_cons, byteLength_append] at inside
    omega
  have array : Written (arrayText slots) 0 (.array (spanAt 0 (arrayText slots))
      ((placed 1 slots).map fun entry => entry.2.root.moved (· + entry.1))) :=
    .array (spread_slots nonempty elements 1)
  have bound : (Node.array (spanAt 0 (arrayText slots))
      ((placed 1 slots).map fun entry => entry.2.root.moved (· + entry.1))).datum.depth ≤
        maxDepth := by
    rw [maxDepth, Node.depth_array_le, List.forall_mem_map]
    intro entry _
    rw [Node.datum_moved]
    exact entry.2.parse_root.2
  have parsed : parse (arrayText slots) = .ok _ :=
    (parse_eq_ok short).mpr ⟨[], arrayText slots, [], by simp, blanks_nil, array, blanks_nil, bound⟩
  refine descriptors_eq_ok.mpr ⟨_, _, parsed, by simpa using placed_ne_nil nonempty, ?_⟩
  rw [List.filterMap_eq_flatMap_toList, List.flatMap_map]
  simp only [ofElement?_moved]

theorem holds_placed {source : Text} {slots : List Slot} {offset : Nat}
    (holds : source.Holds (spanAt offset ([','].intercalate (slots.map Slot.text)))
      ([','].intercalate (slots.map Slot.text))) :
    ∀ entry ∈ placed offset slots,
      source.Holds (spanAt entry.1 entry.2.element) entry.2.element := by
  induction slots generalizing offset with
  | nil => simp [placed]
  | cons slot rest ih =>
      by_cases alone : rest = []
      · subst alone
        simp only [List.map_cons, List.map_nil, List.intercalate_singleton] at holds
        simp only [placed, List.mem_singleton, forall_eq]
        exact holds.part
      · rw [List.map_cons, List.intercalate_cons_of_ne_nil (by simpa using alone)] at holds
        refine List.forall_mem_cons.mpr ⟨?_, ih ?_⟩
        · rw [Slot.text, List.append_assoc, List.append_assoc, List.append_assoc] at holds
          exact holds.part
        · rw [← List.append_nil ([','].intercalate (rest.map Slot.text))] at holds
          exact holds.part

/-- What an element declares that starts at an offset. White space around its value does not
count. -/
def DeclaredIn (element : Text) (offset : Nat) (descriptor : Descriptor) : Prop :=
  ∃ front written back, element = front ++ (written ++ back) ∧ Blanks front ∧ Blanks back ∧
    Declares written (offset + byteLength front) descriptor

theorem declaredIn_iff {element : Text} {offset : Nat} {root : Node} {descriptor : Descriptor}
    (short : byteLength element < offsetLimit) (parsed : parse element = .ok root) :
    DeclaredIn element offset descriptor ↔
      Descriptor.ofElement? (root.moved (· + offset)) = some descriptor := by
  obtain ⟨before, text, after, rfl, blanks, stands, behind, _⟩ := (parse_eq_ok short).mp parsed
  constructor
  · rintro ⟨front, written, back, same, clear, trailing, declares⟩
    obtain ⟨node, placed⟩ := declares.written
    -- Read from its own start, the value declared is the one that was parsed.
    have again : Written written (byteLength front) (node.moved (· - offset)) := by
      apply placed.moved
      intro more
      omega
    have root_eq := stands.unique_between same blanks behind clear trailing again
    have returned : Written written (offset + byteLength front) (root.moved (· + offset)) := by
      rw [root_eq]
      apply again.moved
      intro more
      omega
    exact (ofElement?_iff returned).mpr declares
  · intro found
    have moved : Written text (offset + byteLength before) (root.moved (· + offset)) := by
      apply stands.moved
      intro more
      omega
    exact ⟨before, text, after, rfl, blanks, behind, (ofElement?_iff moved).mp found⟩

def Contributes (element : Text) (offset : Nat) (contribution : List Descriptor) : Prop :=
  (∃ descriptor, contribution = [descriptor] ∧ DeclaredIn element offset descriptor) ∨
    contribution = [] ∧ ∀ descriptor, ¬ DeclaredIn element offset descriptor

def Descriptor.placedAt (place : Nat) : Descriptor → Descriptor :=
  Descriptor.moved fun offset => offset - 1 + place

namespace Slot

def contribution (slot : Slot) : List Descriptor :=
  (Descriptor.ofElement? (slot.root.moved (· + 1))).toList

theorem contributes {slot : Slot} (short : byteLength slot.element < offsetLimit) :
    Contributes slot.element 1 slot.contribution := by
  rw [contribution]
  cases found : Descriptor.ofElement? (slot.root.moved (· + 1)) with
  | some descriptor =>
      exact .inl ⟨descriptor, rfl, (declaredIn_iff short slot.parse_root.1).mpr found⟩
  | none =>
      refine .inr ⟨rfl, ?_⟩
      intro descriptor declared
      rw [declaredIn_iff short slot.parse_root.1, found] at declared
      cases declared

theorem descriptors_alone {slot : Slot}
    (short : byteLength ('[' :: slot.element ++ [']']) < offsetLimit) :
    descriptors ('[' :: slot.element ++ [']']) = .ok slot.contribution := by
  have read := descriptors_arrayText
    (List.cons_ne_nil ⟨[], slot.element, [], blanks_nil, blanks_nil, slot.accepted⟩ [])
    (by simpa [arrayText, text] using short)
  simpa [arrayText, text, placed, contribution, root, ofElement?_moved] using read

theorem contribution_placedAt (slot : Slot) (place : Nat) :
    slot.contribution.map (Descriptor.placedAt place) =
      ((Descriptor.ofElement? slot.root).map (Descriptor.moved (· + place))).toList := by
  rw [contribution, ofElement?_moved]
  cases Descriptor.ofElement? slot.root <;> simp [Descriptor.placedAt, Descriptor.moved, movedSpan]

end Slot

theorem Declares.moved {text : Text} {offset target : Nat} {descriptor : Descriptor}
    {move : Nat → Nat} (declares : Declares text offset descriptor)
    (moving : ∀ more, move (offset + more) = target + more) :
    Declares text target (descriptor.moved move) := by
  obtain ⟨node, placed⟩ := declares.written
  rw [← ofElement?_iff (placed.moved moving), ofElement?_moved,
    (ofElement?_iff placed).mpr declares]
  rfl

theorem DeclaredIn.placedAt {element : Text} {descriptor : Descriptor}
    (declared : DeclaredIn element 1 descriptor) (place : Nat) :
    DeclaredIn element place (descriptor.placedAt place) := by
  obtain ⟨front, written, back, split, blanks, behind, declares⟩ := declared
  refine ⟨front, written, back, split, blanks, behind, declares.moved ?_⟩
  intro more
  omega

theorem Contributes.declaredIn {element : Text} {offset : Nat} {contribution : List Descriptor}
    {descriptor : Descriptor} (contributes : Contributes element offset contribution)
    (member : descriptor ∈ contribution) : DeclaredIn element offset descriptor := by
  rcases contributes with ⟨other, rfl, declared⟩ | ⟨rfl, _⟩
  · rwa [List.mem_singleton.mp member]
  · cases member

/-- The descriptors of an array are what its elements contribute alone, in their order and each
moved to the place of its element; one that is malformed takes nothing from the others. Each
descriptor stands where it says, and its span is its element without the white space around the
braces. -/
theorem descriptors_elementwise {slots : List Slot} (nonempty : slots ≠ [])
    (short : byteLength (arrayText slots) < offsetLimit) :
    ∃ (alone : Slot → List Descriptor) (found : List Descriptor),
      (∀ slot ∈ slots, descriptors ('[' :: slot.element ++ [']']) = .ok (alone slot) ∧
        Contributes slot.element 1 (alone slot)) ∧
      descriptors (arrayText slots) = .ok found ∧
      found = (placed 1 slots).flatMap
        (fun entry => (alone entry.2).map (Descriptor.placedAt entry.1)) ∧
      (∀ entry ∈ placed 1 slots,
        (arrayText slots).Holds (spanAt entry.1 entry.2.element) entry.2.element ∧
        ∀ descriptor ∈ (alone entry.2).map (Descriptor.placedAt entry.1), ∃ front written back,
          entry.2.element = front ++ (written ++ back) ∧ Blanks front ∧ Blanks back ∧
          Declares written (entry.1 + byteLength front) descriptor ∧
          descriptor.span = spanAt (entry.1 + byteLength front) written) ∧
      ∀ descriptor ∈ found,
        (∃ written, (arrayText slots).Holds descriptor.span written ∧
          Declares written descriptor.span.start descriptor) ∧
        (∃ written, (arrayText slots).Holds descriptor.name.span written ∧
          Property Denotes written ("type".toList, .string descriptor.name.value)) ∧
        ∃ written, (arrayText slots).Holds descriptor.named.span written ∧
          Property Denotes written ("named".toList, .boolean descriptor.named.value) := by
  have read := descriptors_arrayText nonempty short
  simp only [← Slot.contribution_placedAt] at read
  have whole : (arrayText slots).Holds (spanAt 0 (arrayText slots)) (arrayText slots) :=
    ⟨[], [], by simp, rfl⟩
  have single {slot : Slot} (member : slot ∈ slots) :
      byteLength ('[' :: slot.element ++ [']']) < offsetLimit :=
        Nat.lt_of_le_of_lt (element_le member) short
  have element {slot : Slot} (member : slot ∈ slots) : byteLength slot.element < offsetLimit := by
    have bound := single member
    simp only [List.cons_append, byteLength_cons, byteLength_append] at bound
    omega
  refine ⟨Slot.contribution, _, ?_, read, rfl, ?_, ?_⟩
  · intro slot member
    exact ⟨Slot.descriptors_alone (single member), Slot.contributes (element member)⟩
  · intro entry member
    refine ⟨holds_placed (holds_contents whole) entry member, ?_⟩
    intro descriptor listed
    obtain ⟨one, contributed, rfl⟩ := List.mem_map.mp listed
    have declared := (Slot.contributes (element (mem_of_placed member))).declaredIn contributed
    obtain ⟨front, written, back, split, blanks, behind, declares⟩ := declared.placedAt entry.1
    exact ⟨front, written, back, split, blanks, behind, declares, declares.span_eq⟩
  · intro descriptor member
    exact ⟨declares_of_mem short read member, properties_of_mem short read member⟩

def mixedSlots : List Slot :=
  [⟨[' '], ['1'], [], by decide, by decide, by decide +kernel⟩,
    ⟨[], "\x7b\"type\":\"é\",\"named\":true\x7d".toList,
      ['\n'], by decide, by decide, by decide +kernel⟩]

theorem descriptors_elementwise_mixed :
    (mixedSlots ≠ [] ∧ byteLength (arrayText mixedSlots) < offsetLimit) ∧
      descriptors (arrayText mixedSlots) = .ok [⟨⟨['é'], ⟨5, 16⟩⟩, ⟨true, ⟨17, 29⟩⟩, ⟨4, 30⟩⟩] ∧
      ∃ written, (arrayText mixedSlots).Holds ⟨5, 16⟩ written ∧
        Property Denotes written ("type".toList, .string ['é']) := by
  have nonempty : mixedSlots ≠ [] := by simp [mixedSlots]
  have short : byteLength (arrayText mixedSlots) < offsetLimit := by decide +kernel
  have evaluated :
      descriptors (arrayText mixedSlots) = .ok [⟨⟨['é'], ⟨5, 16⟩⟩, ⟨true, ⟨17, 29⟩⟩, ⟨4, 30⟩⟩] := by
    decide +kernel
  obtain ⟨_, found, _, read, _, _, each⟩ := descriptors_elementwise nonempty short
  rw [evaluated, Except.ok.injEq] at read
  subst read
  obtain ⟨_, type, _⟩ := each _ (List.mem_singleton.mpr rfl)
  exact ⟨⟨nonempty, short⟩, evaluated, type⟩

def spacedSlot : Slot :=
  ⟨[], " \x7b\"type\":\"a\",\"named\":true\x7d".toList, [], by decide, by decide, by decide +kernel⟩

/-- A descriptor need not span all of its element. -/
theorem element_span_leaves_space :
    placed 1 [spacedSlot] = [(1, spacedSlot)] ∧
      ∃ descriptor, descriptors (arrayText [spacedSlot]) = .ok [descriptor] ∧
        descriptor.span = ⟨2, 27⟩ ∧ descriptor.span ≠ spanAt 1 spacedSlot.element := by
  have evaluated : descriptors (arrayText [spacedSlot]) =
      .ok [⟨⟨['a'], ⟨3, 13⟩⟩, ⟨true, ⟨14, 26⟩⟩, ⟨2, 27⟩⟩] := by
    decide +kernel
  exact ⟨rfl, _, evaluated, rfl, by decide +kernel⟩

end QueryWorkbench.NodeTypes
