import QueryWorkbench.Proofs.JsonGrammar

/-! The grammar with places: which text, standing at which offset, a node with its spans was read
from. Leaving the places out gives the grammar over characters, and a text of that grammar has a
node wherever it stands. -/

namespace QueryWorkbench.Json

open Text

def spanAt (offset : Nat) (text : Text) : Span := ⟨offset, offset + byteLength text⟩

/-- One or more items with commas between them and white space around them, from an offset on. -/
inductive Spread {α : Type} (place : Text → Nat → α → Prop) : Text → Nat → List α → Prop
  | last {before written after : Text} {offset : Nat} {value : α} :
      Blanks before → place written (offset + byteLength before) value → Blanks after →
      Spread place (before ++ (written ++ after)) offset [value]
  | more {before written after others : Text} {offset : Nat} {value : α} {values : List α} :
      Blanks before → place written (offset + byteLength before) value → Blanks after →
      Spread place others (offset + byteLength (before ++ (written ++ (after ++ [','])))) values →
      Spread place (before ++ (written ++ (after ++ ',' :: others))) offset (value :: values)

inductive PropertyAt (place : Text → Nat → Node → Prop) : Text → Nat → Member Node → Prop
  | mk {spelled before after written name : Text} {offset : Nat} {node : Node} :
      Spelled spelled name → Blanks before → Blanks after →
      place written (offset + byteLength ('"' :: spelled ++ '"' :: (before ++ ':' :: after))) node →
      PropertyAt place ('"' :: spelled ++ '"' :: (before ++ ':' :: (after ++ written))) offset
        ⟨spanAt offset ('"' :: spelled ++ ['"']), name, node⟩

inductive Written : Text → Nat → Node → Prop
  | null {offset : Nat} : Written "null".toList offset (.null (spanAt offset "null".toList))
  | true {offset : Nat} : Written "true".toList offset (.boolean (spanAt offset "true".toList) true)
  | false {offset : Nat} : Written "false".toList offset
      (.boolean (spanAt offset "false".toList) false)
  | number {numeral : Text} {offset : Nat} :
      Numeral numeral → Written numeral offset (.number (spanAt offset numeral) numeral)
  | string {spelled value : Text} {offset : Nat} :
      Spelled spelled value →
      Written ('"' :: spelled ++ ['"']) offset
        (.string (spanAt offset ('"' :: spelled ++ ['"'])) value)
  | emptyArray {inner : Text} {offset : Nat} :
      Blanks inner → Written ('[' :: inner ++ [']']) offset
        (.array (spanAt offset ('[' :: inner ++ [']'])) [])
  | array {inner : Text} {offset : Nat} {elements : List Node} :
      Spread Written inner (offset + byteLength ['[']) elements →
      Written ('[' :: inner ++ [']']) offset
        (.array (spanAt offset ('[' :: inner ++ [']'])) elements)
  | emptyObject {inner : Text} {offset : Nat} :
      Blanks inner →
      Written ('\x7b' :: inner ++ ['\x7d']) offset
        (.object (spanAt offset ('\x7b' :: inner ++ ['\x7d'])) [])
  | object {inner : Text} {offset : Nat} {members : List (Member Node)} :
      Spread (PropertyAt Written) inner (offset + byteLength ['\x7b']) members →
      Written ('\x7b' :: inner ++ ['\x7d']) offset
        (.object (spanAt offset ('\x7b' :: inner ++ ['\x7d'])) members)

section Spread

variable {α β : Type} {place : Text → Nat → α → Prop} {inner : Text} {offset : Nat}
  {values : List α}

theorem Spread.imp {other : Text → Nat → α → Prop} (spread : Spread place inner offset values)
    (each : ∀ written offset value, value ∈ values → place written offset value →
      other written offset value) :
    Spread other inner offset values := by
  induction spread with
  | last blanks item after => exact .last blanks (each _ _ _ (by simp) item) after
  | more blanks item after _ ih =>
      refine .more blanks (each _ _ _ (by simp) item) after (ih ?_)
      intro written offset value member
      exact each written offset value (List.mem_cons_of_mem _ member)

theorem Spread.all {property : α → Prop} (spread : Spread place inner offset values)
    (each : ∀ written offset value, place written offset value → property value) :
    ∀ value ∈ values, property value := by
  induction spread with
  | last _ item _ => simpa using each _ _ _ item
  | more _ item _ _ ih => exact List.forall_mem_cons.mpr ⟨each _ _ _ item, ih⟩

theorem Spread.separated {item : Text → β → Prop} {erase : α → β}
    (spread : Spread place inner offset values)
    (each : ∀ written offset value, value ∈ values → place written offset value →
      item written (erase value)) :
    Separated item inner (values.map erase) := by
  induction spread with
  | last blanks found after => exact .last blanks (each _ _ _ (by simp) found) after
  | more blanks found after _ ih =>
      refine .more blanks (each _ _ _ (by simp) found) after (ih ?_)
      intro written offset value member
      exact each written offset value (List.mem_cons_of_mem _ member)

theorem Separated.spread {item : Text → β → Prop} {erase : α → β} {data : List β}
    (separated : Separated item inner data)
    (each : ∀ written datum, datum ∈ data → item written datum → ∀ offset,
      ∃ value, place written offset value ∧ erase value = datum) (offset : Nat) :
    ∃ values, Spread place inner offset values ∧ values.map erase = data := by
  induction separated generalizing offset with
  | @last before written after datum blanks found behind =>
      obtain ⟨value, placed, rfl⟩ := each written datum (by simp) found (offset + byteLength before)
      exact ⟨[value], .last blanks placed behind, rfl⟩
  | @more before written after others datum data blanks found behind _ ih =>
      obtain ⟨value, placed, rfl⟩ := each written datum (by simp) found (offset + byteLength before)
      have later : ∀ written datum, datum ∈ data → item written datum → ∀ offset,
          ∃ value, place written offset value ∧ erase value = datum := by
        intro written datum member
        exact each written datum (List.mem_cons_of_mem _ member)
      obtain ⟨values, spread, rfl⟩ :=
        ih later (offset + byteLength (before ++ (written ++ (after ++ [',']))))
      exact ⟨value :: values, .more blanks placed behind spread, rfl⟩

end Spread

theorem PropertyAt.property {place : Text → Nat → Node → Prop} {denotes : Text → Datum → Prop}
    {text : Text} {offset : Nat} {member : Member Node}
    (placed : PropertyAt place text offset member)
    (each : ∀ written offset, place written offset member.value →
      denotes written member.value.datum) :
    Property denotes text member.datum := by
  obtain ⟨spelled, blanks, behind, found⟩ := placed
  exact .mk spelled blanks behind (each _ _ found)

theorem Property.placed {place : Text → Nat → Node → Prop} {denotes : Text → Datum → Prop}
    {text : Text} {named : Text × Datum} (property : Property denotes text named)
    (each : ∀ written, denotes written named.2 → ∀ offset, ∃ node, place written offset node ∧
      node.datum = named.2)
    (offset : Nat) : ∃ member, PropertyAt place text offset member ∧ member.datum = named := by
  obtain @⟨spelled, before, after, written, name, datum, spelling, blanks, behind, found⟩ :=
    property
  obtain ⟨node, placed, rfl⟩ := each written found
    (offset + byteLength ('"' :: spelled ++ '"' :: (before ++ ':' :: after)))
  exact ⟨_, .mk spelling blanks behind placed, rfl⟩

/-! An item is nested less deep than the container around it, so both directions go by the depth. -/

theorem Written.denotes {text : Text} {offset : Nat} {node : Node}
    (written : Written text offset node) : Denotes text node.datum := by
  induction depth : node.datum.depth using Nat.strongRecOn generalizing text offset node with
  | ind bound ih =>
      subst depth
      cases written with
      | null => exact .null
      | true => exact .true
      | false => exact .false
      | number numeral => exact .number numeral
      | string spelled => exact .string spelled
      | emptyArray blanks => exact .emptyArray blanks
      | emptyObject blanks => exact .emptyObject blanks
      | array spread =>
          rw [Node.datum, Node.data_eq_map] at ih ⊢
          apply Denotes.array
          apply spread.separated
          intro written offset element member found
          have less := Datum.depth_lt_array (List.mem_map_of_mem (f := Node.datum) member)
          exact ih _ less found rfl
      | object spread =>
          rw [Node.datum, Member.data_eq_map] at ih ⊢
          apply Denotes.object
          apply spread.separated
          intro written offset property member found
          have less := Datum.depth_lt_object (List.mem_map_of_mem (f := Member.datum) member)
          apply found.property
          intro written offset found
          exact ih _ less found rfl

theorem Denotes.written {text : Text} {datum : Datum} (denotes : Denotes text datum)
    (offset : Nat) : ∃ node, Written text offset node ∧ node.datum = datum := by
  induction depth : datum.depth using Nat.strongRecOn generalizing text offset datum with
  | ind bound ih =>
      subst depth
      cases denotes with
      | null => exact ⟨_, .null, rfl⟩
      | true => exact ⟨_, .true, rfl⟩
      | false => exact ⟨_, .false, rfl⟩
      | number numeral => exact ⟨_, .number numeral, rfl⟩
      | string spelled => exact ⟨_, .string spelled, rfl⟩
      | emptyArray blanks => exact ⟨_, .emptyArray blanks, rfl⟩
      | emptyObject blanks => exact ⟨_, .emptyObject blanks, rfl⟩
      | @array inner data separated =>
          have each : ∀ written datum, datum ∈ data → Denotes written datum → ∀ offset,
              ∃ node, Written written offset node ∧ node.datum = datum := by
            intro written datum member found offset
            exact ih _ (Datum.depth_lt_array member) found offset rfl
          obtain ⟨elements, spread, rfl⟩ := separated.spread each (offset + byteLength ['['])
          refine ⟨_, .array spread, ?_⟩
          rw [Node.datum, Node.data_eq_map]
      | @object inner data separated =>
          have each : ∀ written named, named ∈ data → Property Denotes written named → ∀ offset,
              ∃ member, PropertyAt Written written offset member ∧ member.datum = named := by
            intro written named member found
            apply found.placed
            intro written found offset
            exact ih _ (Datum.depth_lt_object member) found offset rfl
          obtain ⟨members, spread, rfl⟩ := separated.spread each (offset + byteLength ['\x7b'])
          refine ⟨_, .object spread, ?_⟩
          rw [Node.datum, Member.data_eq_map]

end QueryWorkbench.Json
