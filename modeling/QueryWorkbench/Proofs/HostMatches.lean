import QueryWorkbench.Proofs.PatternMatches

/-! Calls that the host query matches. Its two patterns come down to one description of such calls,
in which the parts of a call have their order; where no two children share a role, a call is matched
in one way at most. -/

namespace QueryWorkbench

def hostRoles : List String := ["function", "object", "property", "arguments"]

namespace Tree

/-- Two children in their order, with what stands around them. -/
structure Pair (tree : Tree) where
  before : List Tree
  first : Tree
  between : List Tree
  second : Tree
  after : List Tree
  children : tree.children = before ++ first :: (between ++ second :: after)

namespace Pair

variable {tree : Tree}

def firstNumber (pair : tree.Pair) : Nat := pair.before.length

def secondNumber (pair : tree.Pair) : Nat := pair.before.length + 1 + pair.between.length

theorem firstNumber_get? (pair : tree.Pair) :
    tree.children[pair.firstNumber]? = some pair.first := by
  simp [pair.children, firstNumber]

theorem secondNumber_get? (pair : tree.Pair) :
    tree.children[pair.secondNumber]? = some pair.second := by
  have later : pair.secondNumber = (pair.before ++ pair.first :: pair.between).length := by
    simp [secondNumber, Nat.add_right_comm, Nat.add_assoc]
  have split :
      tree.children = (pair.before ++ pair.first :: pair.between) ++ pair.second :: pair.after := by
    simp [pair.children]
  rw [split, later]
  simp

end Pair

structure StandsAs (tree : Tree) (field kind : String) : Prop where
  named : tree.label.named = true
  field : tree.label.field = some field
  kind : tree.label.kind = kind

def SharesRole (first second : Tree) : Prop :=
  ∃ field ∈ hostRoles, first.label.field = some field ∧ second.label.field = some field

/-- No two children stand in the same role of the host query. -/
def DistinctRoles (tree : Tree) : Prop :=
  tree.children.Pairwise fun first second => ¬ SharesRole first second

theorem cut_unique {field : String} {before after front back : List Tree} {child other : Tree}
    (distinct : (before ++ child :: after).Pairwise fun first second => ¬ SharesRole first second)
    (role : field ∈ hostRoles) (same : before ++ child :: after = front ++ other :: back)
    (isOne : child.label.field = some field) (isOther : other.label.field = some field) :
    before = front ∧ child = other ∧ after = back := by
  induction before generalizing front with
  | nil =>
      cases front with
      | nil => simpa using same
      | cons first front =>
          obtain ⟨rfl, rfl⟩ := List.cons.inj same
          exact absurd ⟨field, role, isOne, isOther⟩
            ((List.pairwise_cons.mp distinct).1 other (by simp))
  | cons first before ih =>
      obtain ⟨apart, distinct⟩ := List.pairwise_cons.mp distinct
      cases front with
      | nil =>
          obtain ⟨rfl, rfl⟩ := List.cons.inj same
          exact absurd ⟨field, role, isOther, isOne⟩ (apart child (by simp))
      | cons second front =>
          obtain ⟨rfl, rest⟩ := List.cons.inj same
          obtain ⟨rfl, equal⟩ := ih distinct rest
          exact ⟨rfl, equal⟩

theorem DistinctRoles.pair_unique {tree : Tree} {first second : String}
    (distinct : tree.DistinctRoles) (role : first ∈ hostRoles) (otherRole : second ∈ hostRoles)
    {one other : tree.Pair} (oneFirst : one.first.label.field = some first)
    (oneSecond : one.second.label.field = some second)
    (otherFirst : other.first.label.field = some first)
    (otherSecond : other.second.label.field = some second) : one = other := by
  obtain ⟨before, child, between, last, after, children⟩ := one
  obtain ⟨front, other, middle, final, back, again⟩ := other
  rw [DistinctRoles, children] at distinct
  obtain ⟨rfl, rfl, rest⟩ :=
    cut_unique distinct role (children.symm.trans again) oneFirst otherFirst
  have later := (List.pairwise_cons.mp (List.pairwise_append.mp distinct).2.1).2
  obtain ⟨rfl, rfl, rfl⟩ := cut_unique later otherRole rest oneSecond otherSecond
  rfl

theorem descend?_append {tree node : Tree} {address : List Nat}
    (reached : tree.descend? address = some node) (way : List Nat) :
    tree.descend? (address ++ way) = node.descend? way := by
  induction address generalizing tree with
  | nil =>
      obtain rfl : tree = node := by simpa [descend?] using reached
      rfl
  | cons number rest ih =>
      rw [descend?] at reached
      split at reached
      · next child here =>
          rw [List.cons_append, descend?, here]
          exact ih reached
      · cases reached

end Tree

namespace Query

open QueryWorkbench.Tree

structure Targets (text : Text) (callee : Tree) (name : callee.Pair) : Prop where
  callee : callee.StandsAs "function" "member_expression"
  object : name.first.StandsAs "object" "identifier"
  spelled : Text.slice name.first.label.span text = "treeSitterQuery".toList
  property : name.second.StandsAs "property" "property_identifier"

/-- The arguments are a template string themselves, or have one as their only named node. -/
def Quotes (arguments template : Tree) : Prop :=
  arguments.StandsAs "arguments" "template_string" ∧ template = arguments ∨
    arguments.StandsAs "arguments" "arguments" ∧
      arguments.children.filter (fun child => child.label.named) = [template] ∧
      template.label.kind = "template_string"

/-- The host query matches the call, for a language and a template string. -/
structure HostMatch (text : Text) (call : Tree) (language : Language) (template : Tree) : Prop where
  named : call.label.named = true
  kind : call.label.kind = "call_expression"
  parts : ∃ (parts : call.Pair) (name : parts.first.Pair), Targets text parts.first name ∧
    Text.slice name.second.label.span text = language.name.toList ∧ Quotes parts.second template

/-- Where the two patterns of the host query, by their numbers, find the template string: the child
numbers on the way down from the arguments. -/
inductive LiteralAt (arguments : Tree) : Nat → List Nat → Tree → Prop
  | sole {before after : List Tree} {template : Tree} :
      arguments.label.named = true → arguments.label.kind = "arguments" →
      arguments.children = before ++ template :: after →
      (∀ other ∈ before, other.label.named = false) → (∀ other ∈ after, other.label.named = false) →
      template.label.named = true → template.label.kind = "template_string" →
      LiteralAt arguments 0 [before.length] template
  | tagged : arguments.label.named = true → arguments.label.kind = "template_string" →
      LiteralAt arguments 1 [] arguments

def hostCaptures {call : Tree} (address : List Nat) (parts : call.Pair) (name : parts.first.Pair)
    (way : List Nat) : List Capture :=
  [⟨callName, address⟩, ⟨identifierName, address ++ [parts.firstNumber, name.firstNumber]⟩,
    ⟨targetName, address ++ [parts.firstNumber, name.secondNumber]⟩,
    ⟨literalName, address ++ parts.secondNumber :: way⟩]

section Places

variable {address : List Nat} {tree call : Tree} {captures : List Capture}

theorem fits_leaf {kind name : String} :
    (Pattern.node kind [] (some name)).Fits address tree captures ↔ tree.label.named = true ∧
      tree.label.kind = kind ∧ captures = [⟨name, address⟩] := by
  simp [fits_node, fitItems_nil]

theorem fitItems_pair {first second : Pattern} {field other : String}
    (predicates : List Predicate) :
    FitItems (.child (some field) first ::
      (predicates.map Item.predicate ++ [.child (some other) second])) address 0
        false tree.children captures ↔
      ∃ pair : tree.Pair,
        pair.first.label.field = some field ∧ pair.second.label.field = some other ∧
        ∃ one, first.Fits (address ++ [pair.firstNumber]) pair.first one ∧
          ∃ rest, second.Fits (address ++ [pair.secondNumber]) pair.second rest ∧
            captures = one ++ rest := by
  have skip {items : List Item} {number : Nat} {children : List Tree} {found : List Capture} :
      FitItems (predicates.map Item.predicate ++ items) address number false children found ↔
        FitItems items address number false children found := by
    induction predicates with
    | nil => rfl
    | cons predicate rest ih => rw [List.map_cons, List.cons_append, fitItems_predicate, ih]
  constructor
  · intro fits
    obtain ⟨before, child, after, split, _, role, one, fitsFirst, rest, later, rfl⟩ :=
      fitItems_child.mp fits
    obtain ⟨between, last, behind, rfl, _, lastRole, found, lastFits, none, ended, rfl⟩ :=
      fitItems_child.mp (skip.mp later)
    obtain ⟨_, rfl⟩ := fitItems_nil.mp ended
    rw [Nat.zero_add] at fitsFirst lastFits
    refine ⟨⟨before, child, between, last, behind, split⟩, role _ rfl, lastRole _ rfl, one,
      fitsFirst, found, lastFits, ?_⟩
    rw [List.append_nil]
  · rintro ⟨pair, role, lastRole, one, fits, rest, lastFits, rfl⟩
    refine fitItems_child.mpr
      ⟨pair.before, pair.first, _, pair.children, by simp, by simpa using role, one, ?_, rest,
        skip.mpr (fitItems_child.mpr
          ⟨pair.between, pair.second, pair.after, rfl, by simp, by simpa using lastRole, rest,
            ?_, [], fitItems_nil.mpr ⟨by simp, rfl⟩, (List.append_nil _).symm⟩), rfl⟩
    · rwa [Nat.zero_add]
    · rwa [Nat.zero_add]

theorem fits_template :
    templatePattern.Fits address tree captures ↔ tree.label.named = true ∧
      tree.label.kind = "template_string" ∧ captures = [⟨literalName, address⟩] :=
  fits_leaf

theorem fits_sole :
    (Pattern.node "arguments" [.anchor, .child none templatePattern, .anchor] none).Fits address
      tree captures ↔
      ∃ way template,
        LiteralAt tree 0 way template ∧ captures = [⟨literalName, address ++ way⟩] := by
  simp only [fits_node, fitItems_anchor, fitItems_child, fitItems_nil, fits_template]
  constructor
  · rintro ⟨named, kind, _,
      ⟨before, template, after, split, clear, _, _, ⟨isNamed, isTemplate, rfl⟩, _, ⟨ended, rfl⟩,
      rfl⟩, rfl⟩
    exact ⟨_, template, .sole named kind split (clear trivial)
      (ended trivial) isNamed isTemplate, by simp⟩
  · rintro ⟨_, template, ⟨named, kind, split, clear, ended, isNamed, isTemplate⟩, rfl⟩
    exact ⟨named, kind, _, ⟨_, template, _, split, fun _ => clear, by simp, _,
      ⟨isNamed, isTemplate, rfl⟩, [], ⟨fun _ => ended, rfl⟩, rfl⟩, by simp⟩

theorem fits_tagged :
    templatePattern.Fits address tree captures ↔
      ∃ way template,
        LiteralAt tree 1 way template ∧ captures = [⟨literalName, address ++ way⟩] := by
  rw [fits_template]
  constructor
  · rintro ⟨named, kind, rfl⟩
    exact ⟨[], tree, .tagged named kind, by simp⟩
  · rintro ⟨_, _, found, rfl⟩
    cases found with
    | tagged named kind => exact ⟨named, kind, by simp⟩

/-- The parts of a call in which a pattern of the host query finds what it asks for, texts aside. -/
structure CallParts (call : Tree) (parts : call.Pair) (name : parts.first.Pair) : Prop where
  named : call.label.named = true
  kind : call.label.kind = "call_expression"
  callee : parts.first.StandsAs "function" "member_expression"
  object : name.first.StandsAs "object" "identifier"
  property : name.second.StandsAs "property" "property_identifier"
  arguments : parts.second.label.field = some "arguments"

theorem fits_callee :
    (Pattern.node "member_expression"
      [.child (some "object") (.node "identifier" [] (some identifierName)),
        .child (some "property") (.node "property_identifier" [] (some targetName))] none).Fits
          address tree captures ↔
      tree.label.named = true ∧ tree.label.kind = "member_expression" ∧
        ∃ name : tree.Pair, name.first.StandsAs "object" "identifier" ∧
          name.second.StandsAs "property" "property_identifier" ∧
          captures = [⟨identifierName, address ++ [name.firstNumber]⟩,
            ⟨targetName, address ++ [name.secondNumber]⟩] := by
  rw [fits_node]
  refine and_congr_right' (and_congr_right' ?_)
  constructor
  · rintro ⟨_, fits, rfl⟩
    obtain ⟨name, object, property, _, isObject, _, isProperty, rfl⟩ := (fitItems_pair []).mp fits
    obtain ⟨named, kind, rfl⟩ := fits_leaf.mp isObject
    obtain ⟨propertyNamed, propertyKind, rfl⟩ := fits_leaf.mp isProperty
    exact ⟨name, ⟨named, object, kind⟩, ⟨propertyNamed, property, propertyKind⟩, rfl⟩
  · rintro ⟨name, object, property, rfl⟩
    refine ⟨_, (fitItems_pair []).mpr
      ⟨name, object.field, property.field, _, fits_leaf.mpr ⟨object.named, object.kind, rfl⟩, _,
        fits_leaf.mpr ⟨property.named, property.kind, rfl⟩, rfl⟩, rfl⟩

theorem fits_call {number : Nat} {arguments : Pattern}
    (literal : ∀ place found (captures : List Capture), arguments.Fits place found captures ↔
      ∃ way template,
        LiteralAt found number way template ∧ captures = [⟨literalName, place ++ way⟩]) :
    (callPattern arguments).Fits address call captures ↔
      ∃ (parts : call.Pair) (name : parts.first.Pair), CallParts call parts name ∧
        ∃ way template, LiteralAt parts.second number way template ∧
          captures = hostCaptures address parts name way := by
  have items : calleeItems ++ [.child (some "arguments") arguments] = .child (some "function") _ ::
      ([.equals identifierName siteIdentifier,
        .oneOf targetName (Language.all.map Language.name)].map Item.predicate ++
        [.child (some "arguments") arguments]) := rfl
  rw [callPattern, fits_node, items]
  simp only [fitItems_pair, fits_callee, literal]
  constructor
  · rintro ⟨named, kind, _,
      ⟨parts, field, argumentField, _, ⟨calleeNamed, calleeKind, name, object, property, rfl⟩, _,
      ⟨way, template, found, rfl⟩, rfl⟩, rfl⟩
    refine ⟨parts, name, ⟨named, kind, ⟨calleeNamed, field, calleeKind⟩, object, property,
      argumentField⟩, way, template, found, ?_⟩
    simp [hostCaptures]
  · rintro ⟨parts, name, fits, way, template, found, rfl⟩
    refine ⟨fits.named, fits.kind, _,
      ⟨parts, fits.callee.field, fits.arguments, _, ⟨fits.callee.named, fits.callee.kind, name,
        fits.object, fits.property, rfl⟩, _, ⟨way, template, found, rfl⟩, rfl⟩, ?_⟩
    simp [hostCaptures]

theorem fits_hostPatterns {number : Nat} :
    (∃ pattern, hostPatterns[number]? = some pattern ∧ pattern.Fits address call captures) ↔
      ∃ (parts : call.Pair) (name : parts.first.Pair), CallParts call parts name ∧
        ∃ way template, LiteralAt parts.second number way template ∧
          captures = hostCaptures address parts name way := by
  constructor
  · rintro ⟨pattern, listed, fits⟩
    match number, listed with
    | 0, rfl => exact (fits_call fun _ _ _ => fits_sole).mp fits
    | 1, rfl => exact (fits_call fun _ _ _ => fits_tagged).mp fits
  · intro found
    obtain ⟨_, _, _, _, _, literal, _⟩ := id found
    cases literal with
    | sole => exact ⟨_, rfl, (fits_call fun _ _ _ => fits_sole).mpr found⟩
    | tagged => exact ⟨_, rfl, (fits_call fun _ _ _ => fits_tagged).mpr found⟩

theorem predicates_hostPatterns {number : Nat} {pattern : Pattern}
    (listed : hostPatterns[number]? = some pattern) :
    pattern.predicates =
      [.equals identifierName siteIdentifier,
        .oneOf targetName (Language.all.map Language.name)] := by
  match number, listed with
  | 0, rfl => rfl
  | 1, rfl => rfl

end Places

/-! Matches and their sites. -/

def MatchesAt (text : Text) (call : Tree) (address : List Nat) (found : Match) : Prop :=
  ∃ (parts : call.Pair) (name : parts.first.Pair), CallParts call parts name ∧
    Text.slice name.first.label.span text = "treeSitterQuery".toList ∧
    (∃ language : Language, Text.slice name.second.label.span text = language.name.toList) ∧
    ∃ way template, LiteralAt parts.second found.pattern way template ∧
      found.captures = hostCaptures address parts name way

section Sites

variable {text : Text} {tree call template : Tree} {address : List Nat} {found : Match}
  {language : Language}

theorem descend?_first (reached : tree.descend? address = some call) (parts : call.Pair)
    (way : List Nat) :
    tree.descend? (address ++ parts.firstNumber :: way) = parts.first.descend? way := by
  rw [descend?_append reached, descend?, parts.firstNumber_get?]

theorem descend?_second (reached : tree.descend? address = some call) (parts : call.Pair)
    (way : List Nat) :
    tree.descend? (address ++ parts.secondNumber :: way) = parts.second.descend? way := by
  rw [descend?_append reached, descend?, parts.secondNumber_get?]

theorem descend?_property (reached : tree.descend? address = some call) (parts : call.Pair)
    (name : parts.first.Pair) :
    tree.descend? (address ++ [parts.firstNumber, name.secondNumber]) = some name.second := by
  rw [descend?_first reached, descend?, name.secondNumber_get?]
  rfl

theorem descend?_object (reached : tree.descend? address = some call) (parts : call.Pair)
    (name : parts.first.Pair) :
    tree.descend? (address ++ [parts.firstNumber, name.firstNumber]) = some name.first := by
  rw [descend?_first reached, descend?, name.firstNumber_get?]
  rfl

theorem LiteralAt.descend? {arguments : Tree} {number : Nat} {way : List Nat}
    (literal : LiteralAt arguments number way template) :
    arguments.descend? way = some template := by
  cases literal with
  | sole _ _ split => simp [Tree.descend?, split]
  | tagged => rfl

theorem holds_hostCaptures (reached : tree.descend? address = some call) (parts : call.Pair)
    (name : parts.first.Pair) (way : List Nat) :
    (∀ predicate ∈ [Predicate.equals identifierName siteIdentifier,
        .oneOf targetName (Language.all.map Language.name)],
      predicate.Holds text tree (hostCaptures address parts name way)) ↔
      Text.slice name.first.label.span text = "treeSitterQuery".toList ∧
        ∃ language : Language, Text.slice name.second.label.span text = language.name.toList := by
  have known (language : Language) : language ∈ Language.all := by cases language <;> decide
  have names :
      callName ≠ identifierName ∧ targetName ≠ identifierName ∧ literalName ≠ identifierName ∧
      callName ≠ targetName ∧ identifierName ≠ targetName ∧ literalName ≠ targetName := by decide
  simp [Predicate.Holds, hostCaptures, Capture.text?, descend?_object reached,
    descend?_property reached, names, known, siteIdentifier]

theorem mem_search {library : GrammarLibrary} {host : Language}
    (runs : library.Runs hostPatterns host text tree) :
    found ∈ library.search host hostQuery.toList text tree ↔
      ∃ address call, tree.descend? address = some call ∧ MatchesAt text call address found := by
  rw [hostQuery, runs.complete]
  constructor
  · rintro ⟨pattern, listed, ⟨address, call, reached, fits⟩, holds⟩
    obtain ⟨parts, name, shape, way, template, literal, captures⟩ :=
      fits_hostPatterns.mp ⟨pattern, listed, fits⟩
    rw [predicates_hostPatterns listed, captures, holds_hostCaptures reached] at holds
    exact ⟨address, call, reached, parts, name, shape, holds.1, holds.2, way, template,
      literal, captures⟩
  · rintro ⟨address, call, reached, parts, name, shape, spelled, language, way, template,
      literal, captures⟩
    obtain ⟨pattern, listed, fits⟩ :=
      fits_hostPatterns.mpr ⟨parts, name, shape, way, template, literal, captures⟩
    refine ⟨pattern, listed, ⟨address, call, reached, fits⟩, ?_⟩
    rw [predicates_hostPatterns listed, captures, holds_hostCaptures reached]
    exact ⟨spelled, language⟩

theorem ofMatch?_host (reached : tree.descend? address = some call) {parts : call.Pair}
    {name : parts.first.Pair} {way : List Nat}
    (literal : LiteralAt parts.second found.pattern way template)
    (captures : found.captures = hostCaptures address parts name way) :
    Site.ofMatch? tree found =
      some ⟨call.label.span, name.second.label.span, template.label.span⟩ := by
  have callee : found.node? tree callName = some call := by
    simpa [Match.node?, captures, hostCaptures, callName, identifierName, targetName,
      literalName] using reached
  have target : found.node? tree Query.targetName = some name.second := by
    simpa [Match.node?, captures, hostCaptures, callName, identifierName, targetName,
      literalName] using descend?_property reached parts name
  have quoted : found.node? tree literalName = some template := by
    simpa [Match.node?, captures, hostCaptures, callName, identifierName, targetName,
      literalName] using (descend?_second reached parts way).trans literal.descend?
  simp [Site.ofMatch?, callee, target, quoted]

theorem quotes_iff {arguments : Tree} (field : arguments.label.field = some "arguments") :
    Quotes arguments template ↔ ∃ number way, LiteralAt arguments number way template := by
  constructor
  · rintro (⟨stands, rfl⟩ | ⟨stands, only, kind⟩)
    · exact ⟨1, [], .tagged stands.named stands.kind⟩
    · obtain ⟨before, after, split, clear, named, ended⟩ := List.filter_eq_cons_iff.mp only
      simp only [Bool.not_eq_true] at clear
      simp only [List.filter_eq_nil_iff, Bool.not_eq_true] at ended
      exact ⟨0, _, .sole stands.named stands.kind split clear ended named kind⟩
  · rintro ⟨number, way, literal⟩
    cases literal with
    | tagged named kind => exact .inl ⟨⟨named, field, kind⟩, rfl⟩
    | sole named kind split clear ended isNamed isTemplate =>
        refine .inr ⟨⟨named, field, kind⟩,
          List.filter_eq_cons_iff.mpr ⟨_, _, split, ?_, isNamed, ?_⟩, isTemplate⟩
        · simpa using clear
        · simpa using ended

theorem ofName?_name (language : Language) : Language.ofName? language.name = some language := by
  cases language <;> decide +kernel

structure Tells (text : Text) (call template : Tree) (language : Language) (site : Site) :
    Prop where
  call : site.call = call.label.span
  language : site.language? text = some language
  literal : site.literal = template.label.span

theorem language?_host {site : Site} {property : Tree} (target : site.target = property.label.span)
    (named : Text.slice property.label.span text = language.name.toList) :
    site.language? text = some language := by
  rw [Site.language?, Site.targetName, target, named, String.ofList_toList, ofName?_name]

theorem HostMatch.matchesAt (matched : HostMatch text call language template)
    (reached : tree.descend? address = some call) :
    ∃ found site, MatchesAt text call address found ∧ Site.ofMatch? tree found = some site ∧
      Tells text call template language site := by
  obtain ⟨named, kind, parts, name, targets, spelled, quotes⟩ := matched
  have field : parts.second.label.field = some "arguments" := by
    rcases quotes with ⟨stands, _⟩ | ⟨stands, _⟩ <;> exact stands.field
  obtain ⟨number, way, literal⟩ := (quotes_iff field).mp quotes
  have shape : CallParts call parts name :=
    ⟨named, kind, targets.callee, targets.object, targets.property, field⟩
  refine ⟨⟨number, hostCaptures address parts name way⟩, _,
    ⟨parts, name, shape, targets.spelled, ⟨language, spelled⟩, way, template, literal, rfl⟩,
    ofMatch?_host reached literal rfl, rfl, language?_host rfl spelled, rfl⟩

theorem MatchesAt.hostMatch (matched : MatchesAt text call address found)
    (reached : tree.descend? address = some call) :
    ∃ site language template,
      Site.ofMatch? tree found = some site ∧ HostMatch text call language template ∧
      Tells text call template language site := by
  obtain ⟨parts, name, shape, spelled, ⟨language, named⟩, way, template, literal, captures⟩ :=
    matched
  have quotes := (quotes_iff shape.arguments).mpr ⟨_, way, literal⟩
  exact ⟨_, language, template, ofMatch?_host reached literal captures,
    ⟨shape.named, shape.kind, parts, name, ⟨shape.callee, shape.object, spelled, shape.property⟩,
      named, quotes⟩, rfl, language?_host rfl named, rfl⟩

theorem LiteralAt.unique {arguments other : Tree} {number second : Nat} {way back : List Nat}
    (literal : LiteralAt arguments number way template)
    (again : LiteralAt arguments second back other) : number = second ∧ way = back := by
  have leading {before after : List Tree} {child : Tree}
      (clear : ∀ other ∈ before, other.label.named = false) (named : child.label.named = true) :
      (before ++ child :: after).takeWhile (fun other => !other.label.named) = before := by
    rw [List.takeWhile_append_of_pos (by simpa using clear),
      List.takeWhile_cons_of_neg (by simp [named]), List.append_nil]
  cases literal with
  | sole _ kind split clear _ named _ =>
      cases again with
      | sole _ _ other otherClear _ otherNamed _ =>
          rw [← leading clear named, ← split, other, leading otherClear otherNamed]
          exact ⟨rfl, rfl⟩
      | tagged _ clash => simp [kind] at clash
  | tagged _ kind =>
      cases again with
      | sole _ clash => simp [kind] at clash
      | tagged => exact ⟨rfl, rfl⟩

/-- Where no two children share a role, a call is matched once. -/
theorem MatchesAt.unique {other : Match} (distinct : call.DistinctRoles)
    (below : ∀ child ∈ call.children, child.DistinctRoles)
    (matched : MatchesAt text call address found) (again : MatchesAt text call address other) :
    found = other := by
  obtain ⟨parts, name, shape, _, _, way, template, literal, captures⟩ := matched
  obtain ⟨parts', name', shape', _, _, way', template', literal', captures'⟩ := again
  obtain rfl : parts = parts' :=
    distinct.pair_unique (by decide) (by decide) shape.callee.field shape.arguments
    shape'.callee.field shape'.arguments
  have inner : parts.first.DistinctRoles := below _ (List.mem_of_getElem? parts.firstNumber_get?)
  obtain rfl : name = name' :=
    inner.pair_unique (by decide) (by decide) shape.object.field shape.property.field
    shape'.object.field shape'.property.field
  obtain ⟨number, rfl⟩ := literal.unique literal'
  cases found
  cases other
  simp_all

/-- The languages that sites name are those of the calls that the host query matches. -/
theorem exists_site_iff {library : GrammarLibrary} {host : Language}
    (runs : library.Runs hostPatterns host text tree) (language : Language) :
    (∃ site ∈ sites library host text tree, site.language? text = some language) ↔
      ∃ address call template,
        tree.descend? address = some call ∧ HostMatch text call language template := by
  simp only [sites, (List.mergeSort_perm ..).mem_iff, List.mem_filterMap]
  constructor
  · rintro ⟨site, ⟨found, member, read⟩, named⟩
    obtain ⟨address, call, reached, here⟩ := (mem_search runs).mp member
    obtain ⟨same, other, template, again, matched, tells⟩ := here.hostMatch reached
    obtain rfl : site = same := by simpa [read] using again
    obtain rfl : language = other := by simpa [named] using tells.language
    exact ⟨address, call, template, reached, matched⟩
  · rintro ⟨address, call, template, reached, matched⟩
    obtain ⟨found, site, here, read, tells⟩ := matched.matchesAt reached
    exact ⟨site, ⟨found, (mem_search runs).mpr ⟨address, call, reached, here⟩, read⟩,
      tells.language⟩

end Sites

def taggedText : Text := "treeSitterQuery.go`é(`".toList

def taggedObject : Tree :=
  .node ⟨"identifier", true, false, false, some "object", ⟨0, 15⟩, ⟨0, 0⟩, ⟨0, 15⟩⟩ []

def taggedProperty : Tree :=
  .node ⟨"property_identifier", true, false, false, some "property", ⟨16, 18⟩, ⟨0, 16⟩, ⟨0, 18⟩⟩ []

def taggedCallee : Tree :=
  .node ⟨"member_expression", true, false, false, some "function", ⟨0, 18⟩, ⟨0, 0⟩, ⟨0, 18⟩⟩
    [taggedObject, taggedProperty]

def taggedTemplate : Tree :=
  .node ⟨"template_string", true, false, false, some "arguments", ⟨18, 23⟩, ⟨0, 18⟩, ⟨0, 23⟩⟩ []

def taggedCall : Tree :=
  .node ⟨"call_expression", true, false, false, none, ⟨0, 23⟩, ⟨0, 0⟩, ⟨0, 23⟩⟩
    [taggedCallee, taggedTemplate]

theorem taggedCall_nodes {address : List Nat} {node : Tree}
    (reached : taggedCall.descend? address = some node) :
    node = taggedCall ∨ node = taggedCallee ∨ node = taggedObject ∨ node = taggedProperty ∨
    node = taggedTemplate := by
  have listed : some node ∈ taggedCall.addresses.map taggedCall.descend? :=
    List.mem_map.mpr ⟨address, Tree.mem_addresses.mpr ⟨node, reached⟩, reached⟩
  have all : taggedCall.addresses.map taggedCall.descend? =
      [some taggedCall, some taggedCallee, some taggedObject, some taggedProperty,
        some taggedTemplate] := rfl
  simpa [all] using listed

theorem hostMatch_taggedCall : HostMatch taggedText taggedCall .go taggedTemplate := by
  refine ⟨rfl, rfl, ⟨[], taggedCallee, [], taggedTemplate, [], rfl⟩,
    ⟨[], taggedObject, [], taggedProperty, [], rfl⟩,
    ⟨⟨rfl, rfl, rfl⟩, ⟨rfl, rfl, rfl⟩, ?_, ⟨rfl, rfl, rfl⟩⟩, ?_, .inl ⟨⟨rfl, rfl, rfl⟩, rfl⟩⟩
  · decide +kernel
  · decide +kernel

theorem language_of_taggedText {address : List Nat} {call template : Tree} {language : Language}
    (reached : taggedCall.descend? address = some call)
    (matched : HostMatch taggedText call language template) : language = .go := by
  obtain ⟨_, kind, parts, name, targets, spelled, _⟩ := matched
  have outer : parts.first ∈ call.children := List.mem_of_getElem? parts.firstNumber_get?
  have inner : name.second ∈ parts.first.children := List.mem_of_getElem? name.secondNumber_get?
  obtain rfl : call = taggedCall := by
    rcases taggedCall_nodes reached with rfl | rfl | rfl | rfl | rfl
    · rfl
    all_goals exact absurd kind (by decide)
  have callee : parts.first = taggedCallee := by
    have field := targets.callee.field
    rcases List.mem_pair.mp outer with first | second
    · exact first
    · rw [second] at field
      exact absurd field (by decide)
  have children : parts.first.children = [taggedObject, taggedProperty] := by rw [callee]; rfl
  have property : name.second = taggedProperty := by
    have field := targets.property.field
    rw [children] at inner
    rcases List.mem_pair.mp inner with first | second
    · rw [first] at field
      exact absurd field (by decide)
    · exact second
  rw [property] at spelled
  cases language <;> first | rfl | exact absurd spelled (by decide +kernel)

end Query

end QueryWorkbench
