import QueryWorkbench.Text.Basic
import QueryWorkbench.Text.Digit

/-! Compiler messages. A compiler may state an offset at the end of a sentence (` at offset 12`) or
break off with an ellipsis; neither is shown, since the diagnostic itself says where the error
is. -/

namespace QueryWorkbench.Message

def offsetMark : Text := [' ', 'a', 't', ' ', 'o', 'f', 'f', 's', 'e', 't', ' ']

def offsetDigits? (text : Text) : Option Text :=
  if offsetMark.isPrefixOf text then
    match (text.drop offsetMark.length).takeWhile isDecimalDigit with
    | [] => none
    | digits => some digits
  else none

/-- Removes every stated offset, in one pass from the left. -/
def dropOffsets : Text → Text
  | [] => []
  | char :: rest =>
      match offsetDigits? (char :: rest) with
      | some digits => dropOffsets (rest.drop (offsetMark.length - 1 + digits.length))
      | none => char :: dropOffsets rest
termination_by text => text.length
decreasing_by
  · simp only [List.length_drop, List.length_cons]
    omega
  · simp

def dropEllipsis (text : Text) : Text :=
  if ['.', '.', '.'].isSuffixOf text then text.take (text.length - 3) else text

def sanitize (message : String) : String :=
  String.ofList (dropEllipsis (dropOffsets message.toList))

def readOffset? (digits : Text) : Option Nat :=
  let value := digits.foldl (fun value digit => value * 10 + (digit.toNat - '0'.toNat)) 0
  if digits.all Char.isDigit && value < 0x10000000000000000 then some value else none

/-- The first stated offset. One that cannot be read hides the later ones. -/
def statedOffset? : Text → Option Nat
  | [] => none
  | char :: rest =>
      match offsetDigits? (char :: rest) with
      | some digits => readOffset? digits
      | none => statedOffset? rest

end QueryWorkbench.Message
