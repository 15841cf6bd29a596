import QueryWorkbench.Text.Basic

/-! Decoding of JSON strings. A character is written as itself, as a two-character escape, or as one
or two `\u` escapes that spell its UTF-16 form. -/

namespace QueryWorkbench.Json.Quoted

def hexDigit? (char : Char) : Option Nat :=
  if '0' ≤ char ∧ char ≤ '9' then some (char.toNat - '0'.toNat)
  else if 'a' ≤ char ∧ char ≤ 'f' then some (char.toNat - 'a'.toNat + 10)
  else if 'A' ≤ char ∧ char ≤ 'F' then some (char.toNat - 'A'.toNat + 10)
  else none

def unit? : (text : Text) → Option (Nat × Remainder text)
  | a :: b :: c :: d :: rest => do
      let first ← hexDigit? a
      let second ← hexDigit? b
      let third ← hexDigit? c
      let fourth ← hexDigit? d
      some (((first * 16 + second) * 16 + third) * 16 + fourth, ⟨rest, by simp; omega⟩)
  | _ => none

def isHighSurrogate (unit : Nat) : Bool := 0xD800 ≤ unit && unit < 0xDC00

def isLowSurrogate (unit : Nat) : Bool := 0xDC00 ≤ unit && unit < 0xE000

def scalar? (code : Nat) : Option Char :=
  if code.isValidChar then some (Char.ofNat code) else none

def lowUnit? : (text : Text) → Option (Nat × Remainder text)
  | '\\' :: 'u' :: rest => do
      let (low, after) ← unit? rest
      if isLowSurrogate low then
        some (low, ⟨after.val, by have := after.property; simp; omega⟩)
      else none
  | _ => none

/-- The character written by `\u` escapes, the first `\u` already read. -/
def unicodeEscape? (text : Text) : Option (Char × Remainder text) := do
  let (high, after) ← unit? text
  if isHighSurrogate high then
    let (low, last) ← lowUnit? after.val
    let char ← scalar? (0x10000 + (high - 0xD800) * 0x400 + (low - 0xDC00))
    some (char, after.trans last)
  else
    let char ← scalar? high
    some (char, after)

def shortEscape? : Char → Option Char
  | '"' => some '"'
  | '\\' => some '\\'
  | '/' => some '/'
  | 'b' => some '\x08'
  | 'f' => some '\x0c'
  | 'n' => some '\n'
  | 'r' => some '\r'
  | 't' => some '\t'
  | _ => none

def escape? : (text : Text) → Option (Char × Remainder text)
  | [] => none
  | 'u' :: rest =>
      (unicodeEscape? rest).map fun (char, after) => (char, (Remainder.tail 'u' rest).trans after)
  | char :: rest => (shortEscape? char).map fun decoded => (decoded, Remainder.tail char rest)

def decodePart? : Text → Option Text
  | [] => some []
  | char :: rest =>
      if char = '\\' then
        match escape? rest with
        | none => none
        | some (decoded, after) => (decodePart? after.val).map (decoded :: ·)
      else (decodePart? rest).map (char :: ·)
termination_by text => text.length
decreasing_by
  · have := after.property
    simp only [List.length_cons]
    omega
  · simp

/-- Decodes a string with its quotes. Fails on an unknown escape and on a surrogate without its
partner. -/
def decode? : Text → Option Text
  | '"' :: rest => if rest.getLast? = some '"' then decodePart? rest.dropLast else none
  | _ => none

end QueryWorkbench.Json.Quoted
