import QueryWorkbench.Text.Basic

/-! Lower case, as far as an ASCII text can tell. Besides `A` to `Z` only the Kelvin sign and the
dotted capital I have an ASCII letter in their lower case, and only the latter becomes two
characters; every other capital is left alone, since it becomes one character that no ASCII text
holds. -/

namespace QueryWorkbench

def lowerChar (char : Char) : Text :=
  if char = '\u212a' then ['k']
  else if char = '\u0130' then ['i', '\u0307']
  else [char.toLower]

def lowercase (text : Text) : Text := text.flatMap lowerChar

end QueryWorkbench
