import QueryWorkbench.Query.Site
import QueryWorkbench.Query.Directive

/-! Checking documents. A check compiles every query of a document and places the errors. The engine
keeps the grammars it has loaded and remembers for which hosts the host query has compiled. -/

namespace QueryWorkbench

/-- A failure that ends a check: the document has no tree, or the host query does not compile for
the host. -/
inductive CheckError where
  | grammar (error : GrammarError)
  | hostQuery (host : Language) (cause : Query.CompileError)
deriving Repr, DecidableEq

namespace CheckError

def message : CheckError → String
  | .grammar error => error.message
  | .hostQuery host cause =>
      "embedded site query failed to compile for `" ++ host.name ++ "`: " ++ cause.message

end CheckError

structure Engine where
  grammars : GrammarCache
  hostQueries : List Language
deriving Repr, DecidableEq

namespace Engine

def ofGrammars (grammars : GrammarCache) : Engine := ⟨grammars, []⟩

def empty : Engine := ofGrammars GrammarCache.empty

def load (engine : Engine) (language : Language) : Engine :=
  { engine with grammars := (engine.grammars.get language).2 }

/-- Makes sure that the host query compiles. A failure is not remembered. -/
def prepareHost (library : GrammarLibrary) (engine : Engine) (host : Language) :
    Except CheckError Unit × Engine :=
  if host ∈ engine.hostQueries then (.ok (), engine)
  else
    let engine := engine.load host
    match library.compile host Query.hostQuery.toList with
    | .ok () => (.ok (), { engine with hostQueries := host :: engine.hostQueries })
    | .error cause => (.error (.hostQuery host cause), engine)

def siteDiagnostic? (library : GrammarLibrary) (index : LineIndex) (text : Text)
    (site : Query.Site) : Option Diagnostic :=
  match site.language? text with
  | none => none
  | some language =>
      match library.compile language (site.querySource text) with
      | .ok () => none
      | .error error =>
          let start := site.contentOffset + error.offset.getD 0
          some (.toLineEnd index start (Message.sanitize error.message))

def checkSites (library : GrammarLibrary) (engine : Engine) (text : Text)
    (sites : List Query.Site) : List Diagnostic × Engine :=
  (sites.filterMap (siteDiagnostic? library (LineIndex.ofText text) text),
    (sites.filterMap (Query.Site.language? text)).foldl load engine)

def checkEmbedded (library : GrammarLibrary) (engine : Engine) (host : Language) (text : Text) :
    Except CheckError (List Diagnostic) × Engine :=
  match prepareHost library engine host with
  | (.error error, engine) => (.error error, engine)
  | (.ok (), engine) =>
      let engine := engine.load host
      match library.parse host text with
      | .error error => (.error (.grammar error), engine)
      | .ok tree =>
          let (diagnostics, engine) :=
            checkSites library engine text (Query.sites library host text tree)
          (.ok diagnostics, engine)

/-- Checks a query file for the language that its directive names; without one there is nothing to
check. -/
def checkQueryFile (library : GrammarLibrary) (engine : Engine) (text : Text) :
    List Diagnostic × Engine :=
  match Query.directive? text >>= fun name => Language.ofName? (String.ofList name) with
  | none => ([], engine)
  | some language =>
      match library.compile language text with
      | .ok () => ([], engine.load language)
      | .error error => ([error.diagnostic (LineIndex.ofText text)], engine.load language)

def checkDocument (library : GrammarLibrary) (engine : Engine) (editorId : String) (text : Text) :
    Except CheckError (Option (List Diagnostic)) × Engine :=
  match DocumentKind.ofEditorId? editorId with
  | none => (.ok none, engine)
  | some (.host host) =>
      let (result, engine) := checkEmbedded library engine host text
      (result.map some, engine)
  | some .queryFile =>
      let (diagnostics, engine) := checkQueryFile library engine text
      (.ok (some diagnostics), engine)

end Engine

end QueryWorkbench
