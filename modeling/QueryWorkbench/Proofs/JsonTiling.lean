import Mathlib.Data.List.Nodup
import QueryWorkbench.Proofs.JsonLexing
import QueryWorkbench.Proofs.Slices

/-! How tokens lie in the text that they are cut from: each where its own text stands, in their
order and apart. In a text that is short enough for its offsets they keep these places when they are
narrowed. -/

namespace QueryWorkbench.Json

open Text

/-- The lexemes stand one after the other in the text, none is empty, and they are all of it. -/
inductive Tiles : List Lexeme → Text → Prop
  | nil : Tiles [] []
  | cons {lexeme : Lexeme} {pieces : List Lexeme} {rest : Text} :
      lexeme.text ≠ [] → Tiles pieces rest → Tiles (lexeme :: pieces) (lexeme.text ++ rest)

theorem lexemes_tile (text : Text) : Tiles (lexemes text) text := by
  induction size : text.length using Nat.strongRecOn generalizing text with
  | ind count ih =>
      cases text with
      | nil =>
          rw [lexemes]
          exact .nil
      | cons char rest =>
          obtain ⟨left, cut⟩ := cut_lexemeAt char rest
          have shorter : left.length < count := by
            have lengths := congrArg List.length cut.split
            have positive := List.length_pos_iff.mpr cut.nonempty
            rw [List.length_append] at lengths
            omega
          rw [lexemes_cut cut, cut.split]
          exact .cons cut.nonempty (ih left.length shorter left rfl)

theorem Tiles.joinGarbage {pieces : List Lexeme} {text : Text} (tiles : Tiles pieces text) :
    Tiles (joinGarbage pieces) text := by
  induction tiles with
  | nil => exact .nil
  | @cons first pieces rest nonempty _ ih =>
      rw [Json.joinGarbage]
      split
      · next none =>
          rw [none] at ih
          exact .cons nonempty ih
      · next second others some =>
          rw [some] at ih
          split
          · cases ih with
            | cons _ later =>
                rw [← List.append_assoc]
                exact @Tiles.cons ⟨.garbage, first.text ++ second.text⟩ _ _
                  (by simp [nonempty]) later
          · exact .cons nonempty ih

theorem byteLength_pos {text : Text} (nonempty : text ≠ []) : 0 < byteLength text := by
  obtain ⟨char, rest, rfl⟩ := List.exists_cons_of_ne_nil nonempty
  rw [byteLength_cons]
  exact Nat.add_pos_left char.utf8Size_pos _

theorem Tiles.located {pieces : List Lexeme} {text : Text} (tiles : Tiles pieces text)
    (offset : Nat) :
    (located offset pieces).Pairwise (fun first second => first.stop ≤ second.start) ∧
      ∀ token ∈ located offset pieces,
        offset ≤ token.start ∧ token.start < token.stop ∧
        token.stop ≤ offset + byteLength text := by
  induction tiles generalizing offset with
  | nil => simp [Json.located]
  | @cons lexeme pieces rest nonempty _ ih =>
      obtain ⟨ordered, within⟩ := ih (offset + byteLength lexeme.text)
      have positive := byteLength_pos nonempty
      have later : ∀ token ∈ Json.located (offset + byteLength lexeme.text) pieces,
          offset ≤ token.start ∧ token.start < token.stop ∧
            token.stop ≤ offset + byteLength (lexeme.text ++ rest) := by
        intro token member
        obtain ⟨start, proper, stop⟩ := within token member
        rw [byteLength_append]
        omega
      rw [Json.located]
      split
      · exact ⟨ordered, later⟩
      · refine ⟨List.pairwise_cons.mpr ⟨fun token member => (within token member).1, ordered⟩, ?_⟩
        refine List.forall_mem_cons.mpr ⟨?_, later⟩
        simp only [Token.stop, byteLength_append]
        omega

theorem Tiles.stands {pieces : List Lexeme} {text : Text} (tiles : Tiles pieces text) {offset : Nat}
    {token : Token} (member : token ∈ Json.located offset pieces) :
    ∃ before after,
      text = before ++ (token.text ++ after) ∧ token.start = offset + byteLength before := by
  induction tiles generalizing offset with
  | nil => simp [Json.located] at member
  | @cons lexeme pieces rest _ _ ih =>
      have later (found : token ∈ Json.located (offset + byteLength lexeme.text) pieces) :
          ∃ before after, lexeme.text ++ rest = before ++ (token.text ++ after) ∧
            token.start = offset + byteLength before := by
        obtain ⟨before, after, split, start⟩ := ih found
        refine ⟨lexeme.text ++ before, after, by rw [split, List.append_assoc], ?_⟩
        rw [start, byteLength_append]
        omega
      rw [Json.located] at member
      split at member
      · exact later member
      · rcases List.mem_cons.mp member with here | found
        · subst here
          exact ⟨[], rest, rfl, rfl⟩
        · exact later found

theorem holds_of_mem {source : Text} {token : Token} (member : token ∈ tokensFrom 0 source) :
    source.Holds token.span token.text := by
  obtain ⟨before, after, split, start⟩ := (lexemes_tile source).joinGarbage.stands member
  refine ⟨before, after, split, ?_⟩
  rw [Token.span, Token.stop, start, Nat.zero_add]

theorem tokensFrom_ordered (source : Text) :
    (tokensFrom 0 source).Pairwise (fun first second => first.stop ≤ second.start) ∧
      ∀ token ∈ tokensFrom 0 source, token.start < token.stop ∧ token.stop ≤ byteLength source := by
  obtain ⟨ordered, within⟩ := (lexemes_tile source).joinGarbage.located 0
  refine ⟨ordered, ?_⟩
  intro token member
  obtain ⟨_, proper, stop⟩ := within token member
  exact ⟨proper, by rwa [Nat.zero_add] at stop⟩

theorem Token.narrowed_eq {source : Text} {token : Token} (short : token.stop < offsetLimit) :
    token.narrowed source = token := by
  rw [narrowed, if_pos short]

theorem Token.narrowed_kind (source : Text) (token : Token) :
    (token.narrowed source).kind = token.kind := by
  rw [narrowed]
  split <;> rfl

/-- A token has the text that stands at its narrowed place. -/
theorem narrowed_of_mem {source : Text} {token : Token} (member : token ∈ tokensFrom 0 source) :
    token.narrowed source = ⟨token.kind, token.span.narrowed.start,
      slice token.span.narrowed source⟩ := by
  rw [Token.narrowed]
  split
  · next short =>
      have proper := ((tokensFrom_ordered source).2 token member).1
      have kept : token.span.narrowed = token.span :=
        Span.narrowed_eq (Nat.lt_trans proper short) short
      rw [kept, (holds_of_mem member).slice]
      rfl
  · rfl

theorem tokens_eq {source : Text} (short : byteLength source < offsetLimit) :
    tokens source = tokensFrom 0 source := by
  obtain ⟨_, within⟩ := tokensFrom_ordered source
  have kept : ∀ token ∈ tokensFrom 0 source, token.narrowed source = token := fun token member =>
    Token.narrowed_eq (Nat.lt_of_le_of_lt (within token member).2 short)
  rw [tokens, List.map_congr_left kept, List.map_id']

end QueryWorkbench.Json
