import QueryWorkbench.Proofs.JsonContinuations
import QueryWorkbench.Proofs.Slices

/-! String literals. Every spelling of a string is one token when it stands between quotes and
decodes to that string, and a string token decodes to nothing else. -/

namespace QueryWorkbench.Json

open Text

def LiteralOf (value literal : Text) : Prop :=
  ∃ spelled, literal = '"' :: spelled ++ ['"'] ∧ Spelled spelled value

theorem LiteralOf.shape {value literal : Text} (isLiteral : LiteralOf value literal) :
    Shape .string literal := by
  obtain ⟨spelled, rfl, spelling⟩ := isLiteral
  exact .string spelling.quotable

end QueryWorkbench.Json
