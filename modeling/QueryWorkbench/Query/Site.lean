import QueryWorkbench.Language.Grammar

/-! Query literals embedded in a host source. A site is a call of a member of `treeSitterQuery` on
one template string, `treeSitterQuery.go(...)` or the tagged form; the member names the language.
The grammar library finds the calls by a query of its own language. -/

namespace QueryWorkbench.Query

def siteIdentifier : String := "treeSitterQuery"

def callName : String := "call_expression"

def identifierName : String := "identifier"

def targetName : String := "target_language"

def literalName : String := "query_src_with_quotes"

def calleeItems : List Item :=
  [.child (some "function") (.node "member_expression"
      [.child (some "object") (.node "identifier" [] (some identifierName)),
        .child (some "property") (.node "property_identifier" [] (some targetName))] none),
    .predicate (.equals identifierName siteIdentifier),
    .predicate (.oneOf targetName (Language.all.map Language.name))]

def templatePattern : Pattern := .node "template_string" [] (some literalName)

def callPattern (arguments : Pattern) : Pattern :=
  .node "call_expression" (calleeItems ++ [.child (some "arguments") arguments]) (some callName)

def hostPatterns : List Pattern :=
  [callPattern (.node "arguments" [.anchor, .child none templatePattern, .anchor] none),
    callPattern templatePattern]

/-- The query that finds sites, in the grammar library's own query language. -/
def hostQuery : String := render hostPatterns

structure Site where
  call : Span
  target : Span
  literal : Span
deriving Repr, DecidableEq

namespace Site

def targetName (text : Text) (site : Site) : Text := Text.slice site.target text

def language? (text : Text) (site : Site) : Option Language :=
  Language.ofName? (String.ofList (site.targetName text))

def contentOffset (site : Site) : Nat := site.literal.start + 1

/-- The query: the literal without its first and last character. -/
def querySource (text : Text) (site : Site) : Text := (Text.slice site.literal text).tail.dropLast

/-- The site of a match. A match that lacks one of the three nodes has none. -/
def ofMatch? (tree : Tree) (found : Match) : Option Site := do
  let call ← found.node? tree callName
  let target ← found.node? tree Query.targetName
  let literal ← found.node? tree literalName
  some ⟨call.label.span, target.label.span, literal.label.span⟩

/-- Earlier calls come first, and outer calls before those they contain. -/
def precedes (first second : Site) : Bool :=
  first.call.start < second.call.start
    || (first.call.start == second.call.start && second.call.stop ≤ first.call.stop)

end Site

def sites (library : GrammarLibrary) (host : Language) (text : Text) (tree : Tree) : List Site :=
  let found := library.search host hostQuery.toList text tree
  (found.filterMap (Site.ofMatch? tree)).mergeSort Site.precedes

end QueryWorkbench.Query
