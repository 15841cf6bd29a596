import QueryWorkbench.Json.Printer
import QueryWorkbench.Diagnostic.Basic
import QueryWorkbench.NodeTypes.Navigator

/-! Results of commands as JSON values. -/

namespace QueryWorkbench

open Json (Value)

namespace Position

def toJson (position : Position) : Value :=
  .object [("line", .number position.line), ("character", .number position.character)]

end Position

namespace Range

def toJson (range : Range) : Value :=
  .object [("start", range.start.toJson), ("end", range.stop.toJson)]

end Range

namespace Span

def toJson (span : Span) : Value :=
  .object [("start", .number span.start), ("end", .number span.stop)]

end Span

namespace Diagnostic

def toJson (diagnostic : Diagnostic) : Value :=
  .object [("span", diagnostic.span.toJson), ("range", diagnostic.range.toJson),
    ("message", .string diagnostic.message), ("severity", .string diagnostic.severity)]

end Diagnostic

namespace NodeTypes

namespace Symbol

def toJson (symbol : Symbol) : Value :=
  .object [("name", .string (String.ofList symbol.name)), ("detail", .string symbol.detail),
    ("range", symbol.range.toJson), ("selection_range", symbol.selectionRange.toJson)]

end Symbol

namespace Location

def toJson (location : Location) : Value :=
  .object [("span", location.span.toJson), ("range", location.range.toJson)]

end Location

end NodeTypes

end QueryWorkbench
