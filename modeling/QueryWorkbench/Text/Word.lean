import QueryWorkbench.Text.Basic
import QueryWorkbench.Text.Alphanumeric

/-! The word at a cursor. A word is a run of alphanumeric characters and underscores that the cursor
stands in or touches. -/

namespace QueryWorkbench

def isWordChar (char : Char) : Bool := isAlphanumeric char || char == '_'

structure Word where
  start : Nat
  text : Text
deriving Repr, DecidableEq

/-- The word at an offset. There is none unless the offset is a character boundary. -/
def wordAt? (text : Text) (offset : Nat) : Option Word := do
  let (before, after) ← Text.splitAt? offset text
  let left := (before.reverse.takeWhile isWordChar).reverse
  match left ++ after.takeWhile isWordChar with
  | [] => none
  | word => some ⟨offset - Text.byteLength left, word⟩

end QueryWorkbench
