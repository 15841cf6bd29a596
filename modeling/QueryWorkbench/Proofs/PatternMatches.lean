import Mathlib.Data.List.Nodup
import QueryWorkbench.Language.Answers
import QueryWorkbench.Proofs.TreeWalk

/-! What it means for a pattern to match, and what the grammar library promises of a query that it
runs: every match of the patterns whose text the query is, and each of them once. The library of
listed answers keeps this promise. -/

namespace QueryWorkbench

namespace Query

mutual

inductive Pattern.Fits : Pattern → List Nat → Tree → List Capture → Prop
  | node {kind : String} {items : List Item} {name : Option String} {address : List Nat}
      {tree : Tree} {captures : List Capture} :
      tree.label.named = true → tree.label.kind = kind →
      FitItems items address 0 false tree.children captures →
      Pattern.Fits (.node kind items name) address tree (name.toList.map (⟨·, address⟩) ++ captures)

/-- The items match the children of the node with the address, the first of which has the number. -/
inductive FitItems : List Item → List Nat → Nat → Bool → List Tree → List Capture → Prop
  | done {address : List Nat} {number : Nat} {anchored : Bool} {children : List Tree} :
      (anchored = true → ∀ child ∈ children, child.label.named = false) →
      FitItems [] address number anchored children []
  | anchor {items : List Item} {address : List Nat} {number : Nat} {anchored : Bool}
      {children : List Tree} {captures : List Capture} :
      FitItems items address number true children captures →
      FitItems (.anchor :: items) address number anchored children captures
  | predicate {predicate : Predicate} {items : List Item} {address : List Nat} {number : Nat}
      {anchored : Bool} {children : List Tree} {captures : List Capture} :
      FitItems items address number anchored children captures →
      FitItems (.predicate predicate :: items) address number anchored children captures
  | child {field : Option String} {pattern : Pattern} {items : List Item} {address : List Nat}
      {number : Nat} {anchored : Bool} {before after : List Tree} {child : Tree}
      {first rest : List Capture} :
      (anchored = true → ∀ other ∈ before, other.label.named = false) →
      (∀ role, field = some role → child.label.field = some role) →
      Pattern.Fits pattern (address ++ [number + before.length]) child first →
      FitItems items address (number + before.length + 1) false after rest →
      FitItems (.child field pattern :: items) address number anchored (before ++ child :: after)
        (first ++ rest)

end

def Pattern.Matches (pattern : Pattern) (text : Text) (tree : Tree) (captures : List Capture) :
    Prop :=
  (∃ address node, tree.descend? address = some node ∧ pattern.Fits address node captures) ∧
    ∀ predicate ∈ pattern.predicates, predicate.Holds text tree captures

/-! What patterns fit, by the form of the pattern. -/

section Forms

variable {address : List Nat} {tree : Tree} {captures : List Capture} {number : Nat}
  {anchored : Bool} {children : List Tree} {items : List Item}

theorem fits_node {kind : String} {name : Option String} :
    (Pattern.node kind items name).Fits address tree captures ↔
      tree.label.named = true ∧ tree.label.kind = kind ∧
        ∃ inner, FitItems items address 0 false tree.children inner ∧
          captures = name.toList.map (⟨·, address⟩) ++ inner := by
  constructor
  · rintro ⟨named, kindEq, fits⟩
    exact ⟨named, kindEq, _, fits, rfl⟩
  · rintro ⟨named, kindEq, inner, fits, rfl⟩
    exact .node named kindEq fits

theorem fitItems_nil :
    FitItems [] address number anchored children captures ↔
      (anchored = true → ∀ child ∈ children, child.label.named = false) ∧ captures = [] := by
  constructor
  · rintro ⟨clear⟩
    exact ⟨clear, rfl⟩
  · rintro ⟨clear, rfl⟩
    exact .done clear

theorem fitItems_anchor :
    FitItems (.anchor :: items) address number anchored children captures ↔
      FitItems items address number true children captures := by
  constructor
  · rintro ⟨⟩
    assumption
  · exact .anchor

theorem fitItems_predicate {predicate : Predicate} :
    FitItems (.predicate predicate :: items) address number anchored children captures ↔
      FitItems items address number anchored children captures := by
  constructor
  · rintro ⟨⟩
    assumption
  · exact .predicate

theorem fitItems_child {field : Option String} {pattern : Pattern} :
    FitItems (.child field pattern :: items) address number anchored children captures ↔
      ∃ before child after, children = before ++ child :: after ∧
        (anchored = true → ∀ other ∈ before, other.label.named = false) ∧
        (∀ role, field = some role → child.label.field = some role) ∧
        ∃ first, pattern.Fits (address ++ [number + before.length]) child first ∧
          ∃ rest, FitItems items address (number + before.length + 1) false after rest ∧
            captures = first ++ rest := by
  constructor
  · intro fits
    cases fits with
    | child clear role first rest => exact ⟨_, _, _, rfl, clear, role, _, first, _, rest, rfl⟩
  · rintro ⟨before, child, after, rfl, clear, role, first, fits, rest, later, rfl⟩
    exact .child clear role fits later

end Forms

theorem mem_cuts {children before after : List Tree} {child : Tree} :
    (before, child, after) ∈ cuts children ↔ children = before ++ child :: after := by
  induction children generalizing before with
  | nil => simp [cuts]
  | cons first rest ih =>
      cases before with
      | nil => simp [cuts, @eq_comm _ child, @eq_comm _ after]
      | cons other before =>
          simp only [cuts, List.mem_cons, Prod.mk.injEq, reduceCtorEq, false_and,
            List.mem_map, Prod.exists, List.cons.injEq, false_or, List.cons_append]
          constructor
          · rintro ⟨_, _, _, member, ⟨rfl, rfl⟩, rfl, rfl⟩
            exact ⟨rfl, ih.mp member⟩
          · rintro ⟨rfl, split⟩
            exact ⟨before, child, after, ih.mpr split, ⟨rfl, rfl⟩, rfl, rfl⟩

mutual

theorem Pattern.mem_ways (pattern : Pattern) (address : List Nat) (tree : Tree)
    (captures : List Capture) :
    captures ∈ pattern.ways address tree ↔ pattern.Fits address tree captures := by
  cases pattern with
  | node kind items name =>
      rw [Pattern.ways, fits_node]
      constructor
      · intro found
        split at found
        · next here =>
            obtain ⟨inner, member, rfl⟩ := List.mem_map.mp found
            simp only [Bool.and_eq_true, beq_iff_eq] at here
            have fits := (mem_waysOfItems items address 0 false tree.children inner).mp member
            exact ⟨here.1, here.2, inner, fits, rfl⟩
        · cases found
      · rintro ⟨named, kindEq, inner, fits, rfl⟩
        rw [if_pos (by simp [named, kindEq])]
        have member := (mem_waysOfItems items address 0 false tree.children inner).mpr fits
        exact List.mem_map.mpr ⟨inner, member, rfl⟩

theorem mem_waysOfItems (items : List Item) (address : List Nat) (number : Nat) (anchored : Bool)
    (children : List Tree) (captures : List Capture) :
    captures ∈ waysOfItems items address number anchored children ↔
      FitItems items address number anchored children captures := by
  match items with
  | [] =>
      rw [waysOfItems, fitItems_nil]
      split
      · next named => simpa using fun clear => absurd named (by simpa using clear)
      · next clear => simpa using fun _ => by simpa using clear
  | .anchor :: items =>
      rw [waysOfItems, mem_waysOfItems items address number true children captures,
        fitItems_anchor]
  | .predicate _ :: items =>
      rw [waysOfItems, mem_waysOfItems items address number anchored children captures,
        fitItems_predicate]
  | .child field pattern :: items =>
      rw [waysOfItems, List.mem_flatMap, fitItems_child]
      constructor
      · rintro ⟨⟨before, child, after⟩, cut, found⟩
        dsimp only at found
        split at found
        · cases found
        · next allowed =>
            obtain ⟨first, member, found⟩ := List.mem_flatMap.mp found
            obtain ⟨rest, later, rfl⟩ := List.mem_map.mp found
            simp only [Bool.or_eq_true, Bool.and_eq_true, not_or, not_and] at allowed
            have fits := (Pattern.mem_ways pattern _ child first).mp member
            have others := (mem_waysOfItems items address _ false after rest).mp later
            refine ⟨before, child, after, mem_cuts.mp cut, ?_, ?_, first, fits, rest, others, rfl⟩
            · simpa using allowed.1
            · rintro role rfl
              simpa using allowed.2
      · rintro ⟨before, child, after, split, clear, role, first, fits, rest, others, rfl⟩
        refine ⟨(before, child, after), mem_cuts.mpr split, ?_⟩
        have allowed : ¬ (anchored && before.any (·.label.named) ||
            field.isSome && child.label.field != field) = true := by
          cases field with
          | none => simpa using clear
          | some wanted => simpa [role] using clear
        have member := (Pattern.mem_ways pattern _ child first).mpr fits
        have later := (mem_waysOfItems items address _ false after rest).mpr others
        dsimp only
        rw [if_neg allowed]
        exact List.mem_flatMap.mpr ⟨first, member, List.mem_map.mpr ⟨rest, later, rfl⟩⟩

end

theorem Pattern.mem_find {pattern : Pattern} {text : Text} {tree : Tree} {captures : List Capture} :
    captures ∈ pattern.find text tree ↔ pattern.Matches text tree captures := by
  simp only [Pattern.find, List.mem_filter, List.mem_flatMap, Tree.mem_addresses, List.all_eq_true,
    decide_eq_true_eq, Pattern.Matches]
  refine and_congr_left' ?_
  constructor
  · rintro ⟨address, ⟨node, reached⟩, found⟩
    rw [reached] at found
    exact ⟨address, node, reached, (pattern.mem_ways address node captures).mp found⟩
  · rintro ⟨address, node, reached, fits⟩
    refine ⟨address, ⟨node, reached⟩, ?_⟩
    rw [reached]
    exact (pattern.mem_ways address node captures).mpr fits

section Insert

variable {α : Type} [BEq α] [LawfulBEq α]

theorem mem_foldr_insert {values : List α} {value : α} :
    value ∈ values.foldr List.insert [] ↔ value ∈ values := by
  rw [← List.union_def, List.mem_union_iff, or_iff_left List.not_mem_nil]

theorem nodup_foldr_insert (values : List α) : (values.foldr List.insert []).Nodup :=
  List.nodup_nil.union values

end Insert

theorem mem_find {patterns : List Pattern} {text : Text} {tree : Tree} {found : Match} :
    found ∈ find patterns text tree ↔
      ∃ pattern,
        patterns[found.pattern]? = some pattern ∧ pattern.Matches text tree found.captures := by
  obtain ⟨number, captures⟩ := found
  simp only [find, List.mem_flatMap, Prod.exists, List.mem_zipIdx_iff_getElem?, List.mem_map,
    Match.mk.injEq]
  simp only [mem_foldr_insert, Pattern.mem_find]
  constructor
  · rintro ⟨pattern, _, listed, _, matched, rfl, rfl⟩
    exact ⟨pattern, listed, matched⟩
  · rintro ⟨pattern, listed, matched⟩
    exact ⟨pattern, number, listed, captures, matched, rfl, rfl⟩

theorem nodup_find (patterns : List Pattern) (text : Text) (tree : Tree) :
    (find patterns text tree).Nodup := by
  rw [find, List.nodup_flatMap]
  constructor
  · rintro ⟨pattern, number⟩ _
    exact (nodup_foldr_insert _).map fun first second same => (Match.mk.inj same).2
  · have numbers : (patterns.zipIdx.map Prod.snd).Nodup := by
      rw [List.zipIdx_map_snd]
      exact List.nodup_range'
    refine (List.pairwise_map.mp numbers).imp ?_
    rintro ⟨first, number⟩ ⟨second, other⟩ different found inFirst inSecond
    obtain ⟨_, _, rfl⟩ := List.mem_map.mp inFirst
    obtain ⟨_, _, same⟩ := List.mem_map.mp inSecond
    exact different (Match.mk.inj same).1.symm

end Query

/-- What the library promises of the query with the patterns: in the tree of a text it finds every
match of them and nothing else, each match once. -/
structure GrammarLibrary.Runs (library : GrammarLibrary) (patterns : List Query.Pattern)
    (host : Language) (text : Text) (tree : Tree) : Prop where
  once : (library.search host (Query.render patterns).toList text tree).Nodup
  complete : ∀ found, found ∈ library.search host (Query.render patterns).toList text tree ↔
    ∃ pattern, patterns[found.pattern]? = some pattern ∧ pattern.Matches text tree found.captures

theorem GrammarLibrary.ofAnswers_runs (parses : List Answers.Parse)
    (compilations : List Answers.Compilation) (host : Language) (text : Text) (tree : Tree) :
    (ofAnswers parses compilations).Runs Query.hostPatterns host text tree := by
  have searched : (ofAnswers parses compilations).search host
    (Query.render Query.hostPatterns).toList text tree =
      Query.find Query.hostPatterns text tree := by
    simp only [ofAnswers, Query.hostQuery, if_true]
  constructor
  · rw [searched]
    exact Query.nodup_find ..
  · intro found
    rw [searched]
    exact Query.mem_find

end QueryWorkbench
