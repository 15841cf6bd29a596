import QueryWorkbench.Proofs.JsonContinuations
import QueryWorkbench.Proofs.JsonRefusals

/-! How far the parser looks. A reader decides by the tokens that it takes and by the one that it
stops at: it takes the same tokens whatever follows them, and it also refuses any token like the one
it stopped at. This passes from a reader of items to one of lists, properties and values. -/

namespace QueryWorkbench.Json

section Lookahead

variable {α β : Type}

structure Takes (parser : Nat → Parser α) (taken : List Token) (value : α) : Prop where
  clean : Clean taken
  reads : ∀ limit rest, Reads (parser limit) (taken ++ rest) value rest

/-- The reader cannot get past the end of the tokens, or past a token in them. It cannot get past
one that is alike either, with any limit and whatever follows. -/
def Halts (parser : Nat → Parser α) (limit : Nat) (tokens : List Token) (failure : Error) : Prop :=
  failure = ⟨.unexpectedEnd, limit⟩ ∨
    ∃ taken bad more, tokens = taken ++ bad :: more ∧ Clean taken ∧
      failure.offset = bad.start ∧ failure.kind ≠ .unexpectedEnd ∧
      ∀ other, bad.Alike other →
        ∀ limit rest, ∃ failure, Refuses (parser limit) (taken ++ other :: rest) failure

variable {parser : Nat → Parser α} {inner : Nat → Parser β} {limit : Nat} {tokens : List Token}
  {failure : Error}

theorem Clean.append {front tokens : List Token} (first : Clean front) (second : Clean tokens) :
    Clean (front ++ tokens) := by
  intro token member
  rcases List.mem_append.mp member with early | late
  · exact first token early
  · exact second token late

theorem Clean.cons {token : Token} (known : token.kind ≠ .garbage) (later : Clean tokens) :
    Clean (token :: tokens) :=
  List.forall_mem_cons.mpr ⟨known, later⟩

theorem Halts.behind {front : List Token} (clean : Clean front)
    (passes : ∀ limit rest failure, Refuses (inner limit) rest failure →
      Refuses (parser limit) (front ++ rest) failure)
    (halts : Halts inner limit tokens failure) : Halts parser limit (front ++ tokens) failure := by
  rcases halts with ended | ⟨taken, bad, more, rfl, before, start, kind, alike⟩
  · exact .inl ended
  · refine .inr ⟨front ++ taken, bad, more, by simp, clean.append before, start, kind, ?_⟩
    intro other same limit rest
    obtain ⟨failure, refused⟩ := alike other same limit rest
    rw [List.append_assoc]
    exact ⟨failure, passes _ _ _ refused⟩

end Lookahead

namespace Parser

variable {α : Type} {limit : Nat} {tokens left : List Token} {failure : Error}

section Items

variable {close : TokenKind} {mark : Char} {item : Nat → Parser α}

end Items

section Values

variable {item : Option (Nat → Parser Node)}

end Values

end Parser

end QueryWorkbench.Json
