import QueryWorkbench.Language.Basic
import QueryWorkbench.Query.Error
import QueryWorkbench.Query.Pattern

/-! Grammars. The grammar library parses documents, compiles queries and runs them over trees; it is
given, and its answers depend on what it is asked alone. A cache hands out one grammar per
language. -/

namespace QueryWorkbench

inductive GrammarError where
  | incompatible (reason : String)
  | noTree
deriving Repr, DecidableEq

namespace GrammarError

def message : GrammarError → String
  | .incompatible reason => "incompatible grammar: " ++ reason
  | .noTree => "parser produced no tree"

end GrammarError

structure GrammarLibrary where
  parse : Language → Text → Except GrammarError Tree
  fault? : Language → Text → Option Query.Fault
  /-- The matches of a query, given by its text, in the tree of a text. -/
  search : Language → (query : Text) → (text : Text) → Tree → List Query.Match

namespace GrammarLibrary

def compile (library : GrammarLibrary) (language : Language) (source : Text) :
    Except Query.CompileError Unit :=
  match library.fault? language source with
  | some fault => .error (.ofFault fault)
  | none => .ok ()

end GrammarLibrary

/-- A loaded grammar. Loading a language again would give another identity. -/
structure Grammar where
  identity : Nat
  language : Language
deriving Repr, DecidableEq

structure GrammarCache where
  grammars : List Grammar
deriving Repr, DecidableEq

namespace GrammarCache

def empty : GrammarCache := ⟨[]⟩

def get (cache : GrammarCache) (language : Language) : Grammar × GrammarCache :=
  match cache.grammars.find? fun grammar => grammar.language = language with
  | some grammar => (grammar, cache)
  | none =>
      let grammar := ⟨cache.grammars.length, language⟩
      (grammar, ⟨cache.grammars ++ [grammar]⟩)

def getByName (cache : GrammarCache) (name : String) :
    Except LanguageError Grammar × GrammarCache :=
  match Language.ofEditorId? name with
  | some language =>
      let (grammar, cache) := cache.get language
      (.ok grammar, cache)
  | none => (.error (.unsupported name), cache)

def isLoaded (cache : GrammarCache) (language : Language) : Bool :=
  cache.grammars.any fun grammar => grammar.language = language

def loaded (cache : GrammarCache) : List Language := Language.all.filter cache.isLoaded

end GrammarCache

end QueryWorkbench
