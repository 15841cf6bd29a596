import QueryWorkbench.Proofs.JsonAcceptance

/-! Texts that begin alike. A token that another token follows is cut out the same way whatever
stands behind the two, so a text keeps its tokens up to the last one that it shares with another. -/

namespace QueryWorkbench.Json

open Text

/-- The tokens that the parser does not tell apart, except for where they stand: of one kind, and
strings with one text. -/
structure Token.Alike (token other : Token) : Prop where
  kind : other.kind = token.kind
  text : token.kind = .string → other.text = token.text

def Clean (tokens : List Token) : Prop := ∀ token ∈ tokens, token.kind ≠ .garbage

theorem numeral_kind {char : Char} {taken : Text} (shape : Numeral (char :: taken))
    (following : Text) : (numeral char (taken ++ following)).kind = .number := by
  cases shape with
  | positive unsigned =>
      obtain ⟨first, others, same, digit⟩ := unsigned.starts
      obtain ⟨rfl, rfl⟩ := List.cons.inj same
      rw [Json.numeral, if_neg digit.ne_minus]
  | negative unsigned =>
      obtain ⟨first, others, rfl, digit⟩ := unsigned.starts
      have some := unsignedPart_ne_nil (others ++ following) digit
      rw [Json.numeral, if_pos rfl, List.cons_append]
      split
      · next none => exact absurd none some
      · rfl

theorem Token.Alike.narrowed {token other : Token} (alike : token.Alike other)
    (start : other.start = token.start) (short : token.stop < offsetLimit) (text : Text) :
    token.Alike (other.narrowed text) where
  kind := (Token.narrowed_kind text other).trans alike.kind
  text := by
    intro isString
    have same := alike.text isString
    have stop : other.stop < offsetLimit := by rwa [Token.stop, start, same]
    rw [Token.narrowed_eq stop, same]

end QueryWorkbench.Json
