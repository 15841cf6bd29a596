import QueryWorkbench.Search
import QueryWorkbench.Text.Basic

/-! Byte offsets and editor positions. An editor counts lines from zero and measures a column in
UTF-16 units; the index keeps where each line starts and ends and which characters are not ASCII,
and looks them up by halving. -/

namespace QueryWorkbench

structure Position where
  line : Nat
  character : Nat
deriving Repr, DecidableEq

structure Range where
  start : Position
  stop : Position
deriving Repr, DecidableEq

def utf16Size (char : Char) : Nat :=
  if char.toNat < 0x10000 then 1 else 2

/-- A character whose UTF-8 and UTF-16 sizes differ. -/
structure WideChar where
  offset : Nat
  bytes : Nat
  units : Nat
deriving Repr, DecidableEq

/-- The line breaks of a text that starts at `offset`: a line feed, a carriage return, or both. -/
def lineBreaks (offset : Nat) : Text → List Span
  | [] => []
  | '\r' :: '\n' :: rest => ⟨offset, offset + 2⟩ :: lineBreaks (offset + 2) rest
  | char :: rest =>
      if char = '\n' || char = '\r' then ⟨offset, offset + 1⟩ :: lineBreaks (offset + 1) rest
      else lineBreaks (offset + char.utf8Size) rest

def wideChars (offset : Nat) : Text → List WideChar
  | [] => []
  | char :: rest =>
      if char.toNat < 128 then wideChars (offset + char.utf8Size) rest
      else ⟨offset, char.utf8Size, utf16Size char⟩ :: wideChars (offset + char.utf8Size) rest

structure LineIndex where
  lineStarts : Array Nat
  lineEnds : Array Nat
  wideChars : Array WideChar
  length : Nat
deriving Repr, DecidableEq

namespace LineIndex

def ofText (text : Text) : LineIndex :=
  let breaks := lineBreaks 0 text
  let length := Text.byteLength text
  { lineStarts := (0 :: breaks.map Span.stop).toArray
    lineEnds := (breaks.map Span.start ++ [length]).toArray
    wideChars := (QueryWorkbench.wideChars 0 text).toArray
    length }

def lineCount (index : LineIndex) : Nat := index.lineStarts.size

/-- The line of an offset; an offset past the end is on the last line. -/
def lineOf (index : LineIndex) (offset : Nat) : Nat :=
  leading (· ≤ min offset index.length) index.lineStarts - 1

def lineStart? (index : LineIndex) (line : Nat) : Option Nat := index.lineStarts[line]?

def lineEnd? (index : LineIndex) (line : Nat) : Option Nat := index.lineEnds[line]?

def lineEndOf (index : LineIndex) (offset : Nat) : Nat :=
  (index.lineEnd? (index.lineOf offset)).getD index.length

def wideWithin (index : LineIndex) (start stop : Nat) : List WideChar :=
  let before (offset : Nat) := leading (fun wide => decide (wide.offset < offset)) index.wideChars
  (index.wideChars.extract (before start) (before stop)).toList

/-- Corrects a column, so far counted in bytes, for one wide character before `offset`. A character
that the offset only enters counts nothing. -/
def widen (offset character : Nat) (wide : WideChar) : Nat :=
  let consumed := min (offset - wide.offset) wide.bytes
  if consumed = wide.bytes then character - consumed + wide.units else character - consumed

def position (index : LineIndex) (offset : Nat) : Position :=
  let offset := min offset index.length
  let line := index.lineOf offset
  let start := (index.lineStart? line).getD 0
  ⟨line, (index.wideWithin start offset).foldl (widen offset) (offset - start)⟩

def range (index : LineIndex) (span : Span) : Range :=
  ⟨index.position span.start, index.position span.stop⟩

def endPosition (index : LineIndex) : Position := index.position index.length

/-- Goes `units` columns on from `cursor` over the wide characters ahead, and not beyond `limit`. A
column inside a character leads to its start. -/
def advance (limit cursor units : Nat) : List WideChar → Nat
  | [] => min (cursor + units) limit
  | wide :: rest =>
      let gap := wide.offset - cursor
      if units ≤ gap then cursor + units
      else if units - gap < wide.units then wide.offset
      else advance limit (wide.offset + wide.bytes) (units - gap - wide.units) rest

/-- The offset of a position. There is none on a line past the end, and a column past the end of its
line leads to that end. -/
def offset? (index : LineIndex) (position : Position) : Option Nat := do
  let start ← index.lineStart? position.line
  let stop ← index.lineEnd? position.line
  some (advance stop start position.character (index.wideWithin start stop))

end LineIndex

end QueryWorkbench
