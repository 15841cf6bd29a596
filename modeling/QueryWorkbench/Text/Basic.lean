/-! Texts and the byte offsets that point into them. A text is its list of characters; offsets and
lengths count the bytes of its UTF-8 form. -/

namespace QueryWorkbench

abbrev Text := List Char

structure Span where
  start : Nat
  stop : Nat
deriving Repr, DecidableEq

/-- Offsets are kept in 32 bits, so one that is not below this limit comes back to the front. -/
def offsetLimit : Nat := 0x100000000

namespace Span

def length (span : Span) : Nat := span.stop - span.start

def narrowed (span : Span) : Span := ⟨span.start % offsetLimit, span.stop % offsetLimit⟩

theorem narrowed_eq {span : Span} (start : span.start < offsetLimit)
    (stop : span.stop < offsetLimit) : span.narrowed = span := by
  rw [narrowed, Nat.mod_eq_of_lt start, Nat.mod_eq_of_lt stop]

end Span

namespace Text

def byteLength : Text → Nat
  | [] => 0
  | char :: rest => char.utf8Size + byteLength rest

/-- What follows the first `offset` bytes. An offset inside a character drops that character too. -/
def dropBytes : Nat → Text → Text
  | 0, text => text
  | _ + 1, [] => []
  | offset + 1, char :: rest => dropBytes (offset + 1 - char.utf8Size) rest

def takeBytes : Nat → Text → Text
  | 0, _ => []
  | _ + 1, [] => []
  | count + 1, char :: rest => char :: takeBytes (count + 1 - char.utf8Size) rest

def slice (span : Span) (text : Text) : Text :=
  takeBytes span.length (dropBytes span.start text)

/-- The text before and after a character boundary; nothing for any other offset. -/
def splitAt? : Nat → Text → Option (Text × Text)
  | 0, text => some ([], text)
  | _ + 1, [] => none
  | offset + 1, char :: rest =>
      if char.utf8Size ≤ offset + 1 then
        (splitAt? (offset + 1 - char.utf8Size) rest).map fun (before, after) =>
          (char :: before, after)
      else none

@[simp] theorem byteLength_nil : byteLength [] = 0 := rfl

@[simp] theorem byteLength_cons (char : Char) (rest : Text) :
    byteLength (char :: rest) = char.utf8Size + byteLength rest := rfl

@[simp] theorem byteLength_append (first second : Text) :
    byteLength (first ++ second) = byteLength first + byteLength second := by
  induction first with
  | nil => simp
  | cons char rest ih => simp [ih, Nat.add_assoc]

end Text

/-- What a reader leaves of its input: strictly less than it was given. -/
abbrev Remainder {α : Type} (whole : List α) := { rest : List α // rest.length < whole.length }

namespace Remainder

def trans {α : Type} {whole : List α} (middle : Remainder whole) (last : Remainder middle.val) :
    Remainder whole :=
  ⟨last.val, Nat.lt_trans last.property middle.property⟩

def tail {α : Type} (head : α) (rest : List α) : Remainder (head :: rest) :=
  ⟨rest, by simp⟩

end Remainder

end QueryWorkbench
