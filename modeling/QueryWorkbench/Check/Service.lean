import Std.Data.HashMap
import QueryWorkbench.Check.Engine

/-! Diagnostics of open documents. Every edit takes a new version from one counter, and a check is
made under a ticket that names the version it started from; its result counts only while the
document is still at that version. -/

namespace QueryWorkbench

structure Document where
  editorId : String
  text : Text
  version : Nat
  published : Option (List Diagnostic)
deriving Repr

structure Ticket where
  uri : String
  version : Nat
deriving Repr, DecidableEq

abbrev CheckResult := Except CheckError (Option (List Diagnostic))

structure Service where
  engine : Engine
  documents : Std.HashMap String Document
  nextVersion : Nat

namespace Service

def empty (engine : Engine) : Service := ⟨engine, ∅, 0⟩

def document? (service : Service) (uri : String) : Option Document := service.documents[uri]?

def diagnostics? (service : Service) (uri : String) : Option (List Diagnostic) :=
  service.document? uri >>= Document.published

def version? (service : Service) (uri : String) : Option Nat :=
  (service.document? uri).map Document.version

def begin? (service : Service) (uri : String) : Option Ticket :=
  (service.document? uri).map fun document => ⟨uri, document.version⟩

/-- Checks the document that a ticket names, as it is now. -/
def compute (library : GrammarLibrary) (service : Service) (ticket : Ticket) :
    CheckResult × Service :=
  match service.document? ticket.uri with
  | none => (.ok none, service)
  | some document =>
      let (result, engine) :=
        Engine.checkDocument library service.engine document.editorId document.text
      (result, { service with engine })

/-- Stores a result if its document is still at the ticket's version. Answers whether it was
stored. -/
def publish (service : Service) (ticket : Ticket) (result : CheckResult) : Bool × Service :=
  match service.document? ticket.uri, result with
  | some document, .ok (some diagnostics) =>
      if document.version = ticket.version then
        (true, { service with
          documents :=
            service.documents.insert ticket.uri { document with published := some diagnostics } })
      else (false, service)
  | _, _ => (false, service)

def refresh (library : GrammarLibrary) (service : Service) (uri : String) : Service :=
  match service.begin? uri with
  | none => service
  | some ticket =>
      let (result, service) := service.compute library ticket
      (service.publish ticket result).2

/-- Opens a document; one that is open already starts afresh. -/
def openDocument (library : GrammarLibrary) (service : Service) (uri editorId : String)
    (text : Text) : Service :=
  let document := ⟨editorId, text, service.nextVersion, none⟩
  refresh library { service with
    documents := service.documents.insert uri document
    nextVersion := service.nextVersion + 1 } uri

def changeText (library : GrammarLibrary) (service : Service) (uri : String) (text : Text) :
    Service :=
  match service.document? uri with
  | none => service
  | some document =>
      refresh library { service with
        documents :=
          service.documents.insert uri { document with text, version := service.nextVersion }
        nextVersion := service.nextVersion + 1 } uri

def focusDocument (library : GrammarLibrary) (service : Service) (uri : String) : Service :=
  refresh library service uri

def closeDocument (service : Service) (uri : String) : Service :=
  { service with documents := service.documents.erase uri }

end Service

end QueryWorkbench
