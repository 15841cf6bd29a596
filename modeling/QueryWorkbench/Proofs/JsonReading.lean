import QueryWorkbench.Json.Parser

/-! What the parser reads from a list of tokens. For each reader one equivalence says which tokens
it takes, what it makes of them, and what it leaves. -/

namespace QueryWorkbench.Json

def Reads {α : Type} (parser : Parser α) (tokens : List Token) (value : α) (left : List Token) :
    Prop :=
  ∃ remains, parser tokens = .ok (value, ⟨left, remains⟩)

theorem bind_eq_ok {α β : Type} {first : Except Error α} {second : α → Except Error β}
    {result : β} :
    (first >>= second) = .ok result ↔ ∃ value, first = .ok value ∧ second value = .ok result := by
  cases first with
  | error failure => simp [bind, Except.bind]
  | ok value => simp [bind, Except.bind]

inductive Listed {α : Type} (close : TokenKind) (read : List Token → α → List Token → Prop) :
    List Token → List α → Token → List Token → Prop
  | last {tokens left : List Token} {value : α} {separator : Token} :
      read tokens value (separator :: left) → separator.kind = close →
      Listed close read tokens [value] separator left
  | more {tokens after left : List Token} {value : α} {values : List α} {separator final : Token} :
      read tokens value (separator :: after) → separator.kind = .comma →
      Listed close read after values final left →
      Listed close read tokens (value :: values) final left

namespace Parser

variable {limit : Nat} {tokens left : List Token}

theorem reads_next {token : Token} :
    Reads (next limit) tokens token left ↔ tokens = token :: left := by
  cases tokens with
  | nil => simp [Reads, next]
  | cons first rest =>
      constructor
      · rintro ⟨remains, found⟩
        simp only [next, Remainder.tail, Except.ok.injEq, Prod.mk.injEq, Subtype.mk.injEq] at found
        rw [found.1, found.2]
      · intro same
        obtain ⟨rfl, rfl⟩ := List.cons.inj same
        exact ⟨by simp, rfl⟩

theorem reads_expect {kind : TokenKind} {otherwise : ErrorKind} {token : Token} :
    Reads (expect limit kind otherwise) tokens token left ↔
      tokens = token :: left ∧ token.kind = kind := by
  constructor
  · rintro ⟨remains, found⟩
    obtain ⟨⟨first, rest, shorter⟩, taken, found⟩ := bind_eq_ok.mp found
    dsimp only at found
    split at found
    · next same =>
        simp only [Except.ok.injEq, Prod.mk.injEq, Subtype.mk.injEq] at found
        obtain ⟨rfl, rfl⟩ := found
        exact ⟨reads_next.mp ⟨_, taken⟩, same⟩
    · cases found
  · rintro ⟨rfl, rfl⟩
    refine ⟨by simp, ?_⟩
    simp [expect, next, bind, Except.bind, Remainder.tail]

theorem decoded_eq_ok {token : Token} {text : Text} :
    decoded token = .ok text ↔ Quoted.decode? token.text = some text := by
  rw [decoded]
  split
  · next found => simp [found]
  · next none => simp [none]

section Items

variable {α : Type} {close : TokenKind} {mark : Char} {item : Parser α}

theorem listed_of_items {values : List α} {final : Token}
    (reads : Reads (items limit close mark item) tokens (values, final) left) :
    Listed close (Reads item) tokens values final left := by
  obtain ⟨remains, found⟩ := reads
  induction size : tokens.length using Nat.strongRecOn generalizing tokens values with
  | ind count ih =>
      rw [items] at found
      obtain ⟨⟨first, rest, shorter⟩, taken, found⟩ := bind_eq_ok.mp found
      obtain ⟨⟨separator, after, less⟩, nextTaken, found⟩ := bind_eq_ok.mp found
      obtain rfl : rest = separator :: after := reads_next.mp ⟨_, nextTaken⟩
      dsimp only at found
      split at found
      · next comma =>
          obtain ⟨⟨⟨others, last⟩, behind, fewer⟩, moreTaken, found⟩ := bind_eq_ok.mp found
          simp only [Except.ok.injEq, Prod.mk.injEq, Remainder.trans, Subtype.mk.injEq] at found
          obtain ⟨⟨rfl, rfl⟩, rfl⟩ := found
          have bound : after.length < count := by
            rw [← size]
            exact Nat.lt_of_succ_lt shorter
          exact .more ⟨_, taken⟩ comma (ih after.length bound fewer moreTaken rfl)
      · split at found
        · next closes =>
            simp only [Except.ok.injEq, Prod.mk.injEq, Remainder.trans, Subtype.mk.injEq] at found
            obtain ⟨⟨rfl, rfl⟩, rfl⟩ := found
            exact .last ⟨_, taken⟩ closes
        · cases found

theorem items_of_listed {values : List α} {final : Token} (notComma : close ≠ .comma)
    (listed : Listed close (Reads item) tokens values final left) :
    Reads (items limit close mark item) tokens (values, final) left := by
  induction listed with
  | last reads closes =>
      obtain ⟨remains, taken⟩ := reads
      refine ⟨by simp at remains; omega, ?_⟩
      rw [items, taken]
      simp [bind, Except.bind, next, Remainder.tail, Remainder.trans, closes, notComma]
  | more reads comma _ ih =>
      obtain ⟨remains, taken⟩ := reads
      obtain ⟨fewer, moreTaken⟩ := ih
      refine ⟨by simp at remains; omega, ?_⟩
      rw [items, taken]
      simp [bind, Except.bind, next, Remainder.tail, Remainder.trans, comma, moreTaken]

theorem reads_contents {values : List α} {final : Token} (notComma : close ≠ .comma) :
    Reads (contents limit close mark item) tokens (values, final) left ↔
      (tokens = final :: left ∧ final.kind = close ∧ values = []) ∨
        (∀ first, tokens.head? = some first → first.kind ≠ close) ∧
          Listed close (Reads item) tokens values final left := by
  cases tokens with
  | nil =>
      constructor
      · intro reads
        exact .inr ⟨by simp, listed_of_items reads⟩
      · rintro (⟨none, _⟩ | ⟨_, listed⟩)
        · cases none
        · exact items_of_listed notComma listed
  | cons first rest =>
      by_cases closes : first.kind = close
      · constructor
        · rintro ⟨remains, found⟩
          rw [contents, if_pos closes] at found
          simp only [Except.ok.injEq, Prod.mk.injEq, Remainder.tail, Subtype.mk.injEq] at found
          obtain ⟨⟨rfl, rfl⟩, rfl⟩ := found
          exact .inl ⟨rfl, closes, rfl⟩
        · rintro (⟨same, _, rfl⟩ | ⟨unclosed, _⟩)
          · obtain ⟨rfl, rfl⟩ := List.cons.inj same
            refine ⟨by simp, ?_⟩
            rw [contents, if_pos closes]
            rfl
          · exact absurd closes (unclosed first rfl)
      · have same : Reads (contents limit close mark item) (first :: rest) (values, final) left ↔
            Reads (items limit close mark item) (first :: rest) (values, final) left := by
          simp only [Reads, contents, if_neg closes]
        rw [same]
        constructor
        · intro reads
          exact .inr ⟨by simpa using closes, listed_of_items reads⟩
        · rintro (⟨same, isClose, _⟩ | ⟨_, listed⟩)
          · obtain ⟨rfl, rfl⟩ := List.cons.inj same
            exact absurd isClose closes
          · exact items_of_listed notComma listed

end Items

theorem reads_member {value : Parser Node} {property : Member Node} :
    Reads (member limit value) tokens property left ↔
      ∃ name colon rest, tokens = name :: colon :: rest ∧ name.kind = .string ∧
        colon.kind = .colon ∧
        property.keySpan = name.span ∧ Quoted.decode? name.text = some property.key ∧
        Reads value rest property.value left := by
  constructor
  · rintro ⟨remains, found⟩
    obtain ⟨⟨name, rest, shorter⟩, nameTaken, found⟩ := bind_eq_ok.mp found
    obtain ⟨key, keyDecoded, found⟩ := bind_eq_ok.mp found
    obtain ⟨⟨colon, after, less⟩, colonTaken, found⟩ := bind_eq_ok.mp found
    obtain ⟨⟨node, last, fewer⟩, valueTaken, found⟩ := bind_eq_ok.mp found
    simp only [Except.ok.injEq, Prod.mk.injEq, Remainder.trans, Subtype.mk.injEq] at found
    obtain ⟨rfl, rfl⟩ := found
    obtain ⟨rfl, isColon⟩ := reads_expect.mp ⟨_, colonTaken⟩
    obtain ⟨rfl, isName⟩ := reads_expect.mp ⟨_, nameTaken⟩
    exact ⟨name, colon, after, rfl, isName, isColon, rfl, decoded_eq_ok.mp keyDecoded,
      ⟨_, valueTaken⟩⟩
  · rintro ⟨name, colon, rest, rfl, isName, isColon, spanEq, keyDecoded, ⟨remains, valueTaken⟩⟩
    obtain ⟨keySpan, key, node⟩ := property
    obtain rfl : keySpan = name.span := spanEq
    refine ⟨by simp; omega, ?_⟩
    rw [← decoded_eq_ok] at keyDecoded
    simp [member, expect, next, bind, Except.bind, Remainder.tail, Remainder.trans, isName,
      isColon, keyDecoded, valueTaken]

/-- A value over tokens. Its own items, if it may have any, are read by `item`. -/
inductive Valued (limit : Nat) (item : Option (Parser Node)) : List Token → Node → List Token → Prop
  | null {token : Token} {left : List Token} :
      token.kind = .nullLiteral → Valued limit item (token :: left) (.null token.span) left
  | true {token : Token} {left : List Token} :
      token.kind = .trueLiteral → Valued limit item (token :: left) (.boolean token.span true) left
  | false {token : Token} {left : List Token} :
      token.kind = .falseLiteral →
      Valued limit item (token :: left) (.boolean token.span false) left
  | number {token : Token} {left : List Token} :
      token.kind = .number → Valued limit item (token :: left) (.number token.span token.text) left
  | string {token : Token} {left : List Token} {text : Text} :
      token.kind = .string → Quoted.decode? token.text = some text →
      Valued limit item (token :: left) (.string token.span text) left
  | array {opening final : Token} {rest left : List Token} {value : Parser Node}
      {elements : List Node} :
      opening.kind = .bracketOpen → item = some value →
      Reads (contents limit .bracketClose ']' value) rest (elements, final) left →
      Valued limit item (opening :: rest) (.array ⟨opening.start, final.stop⟩ elements) left
  | object {opening final : Token} {rest left : List Token} {value : Parser Node}
      {members : List (Member Node)} :
      opening.kind = .braceOpen → item = some value →
      Reads (contents limit .braceClose '\x7d' (member limit value)) rest (members, final) left →
      Valued limit item (opening :: rest) (.object ⟨opening.start, final.stop⟩ members) left

theorem inside_eq_ok {α : Type} {opening : Token} {item : Option (Parser α)} {value : Parser α} :
    inside opening item = .ok value ↔ item = some value := by
  cases item with
  | none => simp [inside]
  | some found => simp [inside]

theorem reads_valueOver {item : Option (Parser Node)} {node : Node} :
    Reads (valueOver limit item) tokens node left ↔ Valued limit item tokens node left := by
  constructor
  · rintro ⟨remains, found⟩
    obtain ⟨⟨token, rest, shorter⟩, taken, found⟩ := bind_eq_ok.mp found
    obtain rfl : tokens = token :: rest := reads_next.mp ⟨_, taken⟩
    dsimp only at found
    split at found
    · next kind =>
        obtain ⟨value, allowed, found⟩ := bind_eq_ok.mp found
        obtain ⟨⟨⟨members, final⟩, last, fewer⟩, inner, found⟩ := bind_eq_ok.mp found
        simp only [Except.ok.injEq, Prod.mk.injEq, Remainder.trans, Subtype.mk.injEq] at found
        obtain ⟨rfl, rfl⟩ := found
        exact .object kind (inside_eq_ok.mp allowed) ⟨_, inner⟩
    · next kind =>
        obtain ⟨value, allowed, found⟩ := bind_eq_ok.mp found
        obtain ⟨⟨⟨elements, final⟩, last, fewer⟩, inner, found⟩ := bind_eq_ok.mp found
        simp only [Except.ok.injEq, Prod.mk.injEq, Remainder.trans, Subtype.mk.injEq] at found
        obtain ⟨rfl, rfl⟩ := found
        exact .array kind (inside_eq_ok.mp allowed) ⟨_, inner⟩
    · next kind =>
        obtain ⟨text, textDecoded, found⟩ := bind_eq_ok.mp found
        simp only [Except.ok.injEq, Prod.mk.injEq, Subtype.mk.injEq] at found
        obtain ⟨rfl, rfl⟩ := found
        exact .string kind (decoded_eq_ok.mp textDecoded)
    · next kind =>
        simp only [Except.ok.injEq, Prod.mk.injEq, Subtype.mk.injEq] at found
        obtain ⟨rfl, rfl⟩ := found
        exact .number kind
    · next kind =>
        simp only [Except.ok.injEq, Prod.mk.injEq, Subtype.mk.injEq] at found
        obtain ⟨rfl, rfl⟩ := found
        exact .true kind
    · next kind =>
        simp only [Except.ok.injEq, Prod.mk.injEq, Subtype.mk.injEq] at found
        obtain ⟨rfl, rfl⟩ := found
        exact .false kind
    · next kind =>
        simp only [Except.ok.injEq, Prod.mk.injEq, Subtype.mk.injEq] at found
        obtain ⟨rfl, rfl⟩ := found
        exact .null kind
    · cases found
  · intro valued
    cases valued with
    | string kind textDecoded =>
        rw [← decoded_eq_ok] at textDecoded
        exact ⟨by simp, by simp [valueOver, next, bind, Except.bind, Remainder.tail,
          kind, textDecoded]⟩
    | array kind allowed reads =>
        obtain ⟨remains, inner⟩ := reads
        refine ⟨by simp; omega, ?_⟩
        simp [valueOver, next, bind, Except.bind, Remainder.tail, Remainder.trans, kind,
          inside_eq_ok.mpr allowed, inner]
    | object kind allowed reads =>
        obtain ⟨remains, inner⟩ := reads
        refine ⟨by simp; omega, ?_⟩
        simp [valueOver, next, bind, Except.bind, Remainder.tail, Remainder.trans, kind,
          inside_eq_ok.mpr allowed, inner]
    | _ kind => exact ⟨by simp, by simp [valueOver, next, bind, Except.bind, Remainder.tail, kind]⟩

theorem Valued.starts {item : Option (Parser Node)} {node : Node}
    (valued : Valued limit item tokens node left) :
    ∃ first rest,
      tokens = first :: rest ∧ first.kind ≠ .bracketClose ∧ first.kind ≠ .braceClose := by
  cases valued <;> exact ⟨_, _, rfl, by simp_all, by simp_all⟩

end Parser

end QueryWorkbench.Json
