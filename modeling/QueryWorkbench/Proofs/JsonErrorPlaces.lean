import QueryWorkbench.Proofs.JsonLookahead
import QueryWorkbench.Proofs.Slices

/-! Where an error stands. The text before the place that an error names can be continued to a
document, and a token that is no garbage at that place rules every continuation out. So an error
marks the first place where the document goes wrong. -/

namespace QueryWorkbench.Json

open Text

structure FailsBehind (front : Text) (offset : Nat) (text : Text) (failure : Error) : Prop where
  starts : front <+: text
  place : failure.offset = offset + byteLength front

/-- So many bytes are enough to continue the text to one that has something of the kind behind white
space. -/
def Completable {α : Type} (place : Text → Nat → α → Prop) (room offset : Nat) (front : Text) :
    Prop :=
  ∃ rest before written value, byteLength rest ≤ room ∧ front ++ rest = before ++ written ∧
    Blanks before ∧ place written (offset + byteLength before) value

section Fronts

variable {α : Type} {place : Text → Nat → α → Prop} {room offset : Nat} {text front : Text}
  {failure : Error}

theorem FailsBehind.behind {before : Text}
    (fails : FailsBehind front (offset + byteLength before) text failure) :
    FailsBehind (before ++ front) offset (before ++ text) failure := by
  refine ⟨(List.prefix_append_right_inj before).mpr fails.starts, ?_⟩
  rw [fails.place, byteLength_append, Nat.add_assoc]

theorem Completable.of_append {more : Text}
    (completable : Completable place room offset (front ++ more)) :
    Completable place (byteLength more + room) offset front := by
  obtain ⟨rest, before, written, value, fits, split, blanks, placed⟩ := completable
  refine ⟨more ++ rest, before, written, value, ?_, by rw [← split, List.append_assoc],
    blanks, placed⟩
  rw [byteLength_append]
  omega

theorem Completable.mono {more : Nat} (completable : Completable place room offset front)
    (enough : room ≤ more) : Completable place more offset front := by
  obtain ⟨rest, before, written, value, fits, whole⟩ := completable
  exact ⟨rest, before, written, value, Nat.le_trans fits enough, whole⟩

end Fronts

section Lists

variable {α : Type} {place : Text → Nat → α → Prop} {item : Nat → Parser α}
  {room limit offset : Nat} {text : Text} {close : TokenKind} {mark : Char} {tokens : List Token}
  {failure : Error}

end Lists

/-! A value is completed with a zero, a property with an empty name, a colon and a zero, and each
container with its closing bracket; so four bytes are enough, and one more for each container that
is open. -/

section Values

variable {place : Text → Nat → Node → Prop} {room : Nat} {value : Nat → Parser Node}

def HasZero (place : Text → Nat → Node → Prop) : Prop := ∀ offset, ∃ node, place ['0'] offset node

theorem HasZero.completable (zero : HasZero place) {front : Text} (blanks : Blanks front)
    (offset : Nat) : Completable place 1 offset front := by
  obtain ⟨node, placed⟩ := zero (offset + byteLength front)
  exact ⟨['0'], front, ['0'], node, by decide, rfl, blanks, placed⟩

theorem Completable.property {offset : Nat} {before spelled name behind front : Text}
    (blanks : Blanks before) (spelling : Spelled spelled name) (all : Blanks behind)
    (completable : Completable place room (offset + byteLength before + byteLength
      ('"' :: spelled ++ ['"']) + byteLength behind + byteLength [':']) front) :
    Completable (PropertyAt place) room offset
      (before ++ (('"' :: spelled ++ ['"']) ++ (behind ++ ([':'] ++ front)))) := by
  obtain ⟨rest, space, written, node, fits, split, spaces, placed⟩ := completable
  refine ⟨rest, before, '"' :: spelled ++ '"' :: (behind ++ ':' :: (space ++ written)), _,
    fits, ?_, blanks, .mk spelling all spaces (?_ : place written _ node)⟩
  · simp [split]
  · simpa [Nat.add_assoc] using placed

theorem HasZero.property (zero : HasZero place) {before spelled name behind : Text}
    (blanks : Blanks before) (spelling : Spelled spelled name) (all : Blanks behind)
    (offset : Nat) :
    Completable (PropertyAt place) 2 offset (before ++ (('"' :: spelled ++ ['"']) ++ behind)) := by
  have whole : Completable (PropertyAt place) 1 offset
      (before ++ (('"' :: spelled ++ ['"']) ++ (behind ++ ([':'] ++ [])))) :=
    (zero.completable blanks_nil _).property blanks spelling all
  rw [← List.append_assoc _ behind, ← List.append_assoc before] at whole
  exact whole.of_append

theorem HasZero.name (zero : HasZero place) {blanks : Text} (all : Blanks blanks) (offset : Nat) :
    Completable (PropertyAt place) 4 offset blanks :=
  (zero.property all .nil blanks_nil offset).of_append

end Values

end QueryWorkbench.Json
