import QueryWorkbench.Diagnostic.Basic
import QueryWorkbench.Diagnostic.Excerpt

/-! Printed diagnostics: one line each, or one source excerpt each where the source is at hand. -/

namespace QueryWorkbench.Report

def brief (path : Option String) (diagnostics : List Diagnostic) : String :=
  let label := (path.map (· ++ ": ")).getD ""
  "\n".intercalate (diagnostics.map fun diagnostic => label ++ diagnostic.summary)

def full (colored : Bool) (path : Option String) (source : Text) (diagnostics : List Diagnostic) :
    String :=
  "\n".intercalate (diagnostics.map fun diagnostic =>
    Excerpt.render colored path source diagnostic.span diagnostic.message)

end QueryWorkbench.Report
