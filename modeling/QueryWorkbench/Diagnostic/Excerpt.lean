import QueryWorkbench.Text.Blank
import QueryWorkbench.Text.Width

/-! Source excerpts. An excerpt shows the lines of a text that a span touches, with line numbers in
a gutter, and marks the span below them or, over several lines, along their left side. -/

namespace QueryWorkbench.Excerpt

inductive Style where
  | plain
  | strong
  | gutter
  | alarm
deriving Repr, DecidableEq

structure Segment where
  style : Style
  text : String
deriving Repr, DecidableEq

abbrev Row := List Segment

namespace Style

def codes : Style → String
  | .plain => ""
  | .strong => "\x1b[1m"
  | .gutter => "\x1b[1m\x1b[94m"
  | .alarm => "\x1b[1m\x1b[91m"

end Style

namespace Segment

def render (colored : Bool) (segment : Segment) : String :=
  if colored && segment.style != .plain then segment.style.codes ++ segment.text ++ "\x1b[0m"
  else segment.text

end Segment

def plain (text : String) : Segment := ⟨.plain, text⟩

def alarm (text : String) : Segment := ⟨.alarm, text⟩

def gutter (text : String) : Segment := ⟨.gutter, text⟩

def repeated (count : Nat) (char : Char) : String := String.ofList (List.replicate count char)

def renderRow (colored : Bool) (row : Row) : String :=
  String.join (row.map (Segment.render colored))

/-- The lines of a text, each with its line feed. A final line feed starts no further line. -/
def splitLines : Text → List Text
  | [] => []
  | char :: rest =>
      if char = '\n' then [char] :: splitLines rest
      else
        match splitLines rest with
        | [] => [[char]]
        | line :: others => (char :: line) :: others

def linesOf (text : Text) : List Text :=
  match splitLines text with
  | [] => [[]]
  | lines => lines

def content (line : Text) : Text :=
  match line.reverse with
  | '\n' :: '\r' :: rest => rest.reverse
  | '\n' :: rest => rest.reverse
  | _ => line

/-- The line and the column of a character, both counted from zero. The end of the text is on the
last line. -/
def place : Nat → List Text → Nat × Nat
  | index, [] => (0, index)
  | index, [_] => (0, index)
  | index, line :: rest =>
      if index < line.length then (0, index)
      else
        let (number, column) := place (index - line.length) rest
        (number + 1, column)

def width : Text → Nat
  | [] => 0
  | char :: rest => displayWidth char + width rest

def shown (text : Text) : String :=
  String.ofList (text.flatMap fun char => if char = '\t' then [' ', ' ', ' ', ' '] else [char])

/-- The span that is marked: within the text, and one byte wide if there is nothing to mark. -/
def marked (span : Span) (limit : Nat) : Span :=
  let start := min span.start limit
  let stop := min span.stop limit
  if start = stop then ⟨start, min (start + 1) limit⟩ else ⟨start, stop⟩

def apart (segment : Segment) : Row :=
  if segment.text.isEmpty then [] else [plain " ", segment]

structure Layout where
  lines : List Text
  start : Nat × Nat
  stop : Nat × Nat

namespace Layout

def ofSpan (text : Text) (span : Span) : Layout :=
  let lines := linesOf text
  let span := marked span (Text.byteLength text)
  { lines
    start := place (Text.takeBytes span.start text).length lines
    stop := place (Text.takeBytes span.stop text).length lines }

def contentAt (layout : Layout) (line : Nat) : Text := content (layout.lines.getD line [])

def gutterWidth (layout : Layout) : Nat := (toString (layout.stop.1 + 1)).length

def bare (layout : Layout) (row : Row) : Row :=
  plain (repeated (layout.gutterWidth + 1) ' ') :: gutter "|" :: row

def numbered (layout : Layout) (line : Nat) (row : Row) : Row :=
  let number := toString (line + 1)
  gutter number :: plain (repeated (layout.gutterWidth + 1 - number.length) ' ') :: gutter "|" ::
    row

def single (layout : Layout) (message : String) : List Row :=
  let source := layout.contentAt layout.start.1
  let before := source.take layout.start.2
  let inside := (source.drop layout.start.2).take (layout.stop.2 - layout.start.2)
  [ layout.numbered layout.start.1 (apart (plain (shown source))),
    layout.bare (plain (repeated (width before + 1) ' ')
      :: alarm (repeated (max 1 (width inside)) '^') :: apart (alarm message)) ]

def opening (layout : Layout) : List Row :=
  let source := layout.contentAt layout.start.1
  let before := source.take layout.start.2
  if before.all isWhiteSpace then
    [layout.numbered layout.start.1 (plain " " :: alarm "/" :: apart (plain (shown source)))]
  else
    [ layout.numbered layout.start.1 [plain "   ", plain (shown source)],
      layout.bare [plain "  ", alarm (repeated (width before + 1) '_' ++ "^")] ]

/-- The columns before the end of a span over several lines; a line break that it covers counts
one. -/
def closingWidth (layout : Layout) : Nat :=
  let source := layout.contentAt layout.stop.1
  width (source.take layout.stop.2) + if source.length < layout.stop.2 then 1 else 0

def several (layout : Layout) (message : String) : List Row :=
  let later := (List.range (layout.stop.1 - layout.start.1)).map (layout.start.1 + 1 + ·)
  layout.opening
    ++ later.map (fun line =>
      layout.numbered line
        (plain " " :: alarm "|" :: apart (plain (shown (layout.contentAt line)))))
    ++ [layout.bare (plain " " :: alarm ("|" ++ repeated (max 1 layout.closingWidth) '_' ++ "^")
      :: apart (alarm message))]

def heading (layout : Layout) : Nat × Nat := (layout.start.1 + 1, layout.start.2 + 1)

def pathRow (layout : Layout) (path : String) : Row :=
  [plain (repeated layout.gutterWidth ' '), gutter "--> ",
    plain s!"{path}:{layout.heading.1}:{layout.heading.2}"]

end Layout

def rows (path : Option String) (text : Text) (span : Span) (message : String) : List Row :=
  let layout := Layout.ofSpan text span
  [[alarm "error", ⟨.strong, ": " ++ message⟩]]
    ++ (path.map layout.pathRow).toList
    ++ [layout.bare []]
    ++ if layout.start.1 = layout.stop.1 then layout.single message else layout.several message

def render (colored : Bool) (path : Option String) (text : Text) (span : Span) (message : String) :
    String :=
  "\n".intercalate ((rows path text span message).map (renderRow colored))

end QueryWorkbench.Excerpt
