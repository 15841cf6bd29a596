import QueryWorkbench.LineIndex

/-! Diagnostics: what is wrong in a document, and where. -/

namespace QueryWorkbench

structure Diagnostic where
  span : Span
  range : Range
  message : String
deriving Repr, DecidableEq

namespace Diagnostic

def severity (_ : Diagnostic) : String := "error"

def error (index : LineIndex) (span : Span) (message : String) : Diagnostic :=
  ⟨span.narrowed, index.range span.narrowed, message⟩

theorem error_eq {index : LineIndex} {span : Span} (message : String)
    (start : span.start < offsetLimit) (stop : span.stop < offsetLimit) :
    error index span message = ⟨span, index.range span, message⟩ := by
  rw [error, Span.narrowed_eq start stop]

def toLineEnd (index : LineIndex) (start : Nat) (message : String) : Diagnostic :=
  let start := min start index.length
  error index ⟨start, max (index.lineEndOf start) start⟩ message

def summary (diagnostic : Diagnostic) : String :=
  let start := diagnostic.range.start
  s!"{diagnostic.severity} at {start.line + 1}:{start.character + 1}: {diagnostic.message}"

end Diagnostic

end QueryWorkbench
