import QueryWorkbench.Json.Binary64
import QueryWorkbench.Json.Parser
import QueryWorkbench.Query.Matching
import QueryWorkbench.Query.Site

/-! A grammar library read from a JSON document that lists its answers: under `parses` the trees of
texts, node by node in preorder, and under `queries` what is wrong with queries. Of queries it runs
the one that finds sites, by its patterns. -/

namespace QueryWorkbench

namespace Answers

def natural? : Json.Node → Option Nat
  | .number _ numeral => if numeral.all Char.isDigit then some (Json.digitsValue numeral) else none
  | _ => none

def flag? (node : Json.Node) : Option Bool := (natural? node).map (· != 0)

def label? (node : Json.Node) : Option String := node.string?.map String.ofList

def elements? : Json.Node → Option (List Json.Node)
  | .array _ elements => some elements
  | _ => none

def value? (node : Json.Node) (key : String) : Option Json.Node :=
  (node.member? key.toList).map Json.Member.value

def role? : Json.Node → Option (Option String)
  | .null _ => some none
  | node => (label? node).map some

def row? (node : Json.Node) : Option (Nat × NodeLabel) := do
  match ← elements? node with
  | [depth, kind, named, extra, missing, role, startByte, stopByte, startRow, startColumn, stopRow,
      stopColumn] =>
      some (← natural? depth,
        { kind := ← label? kind
          named := ← flag? named
          extra := ← flag? extra
          missing := ← flag? missing
          field := ← role? role
          span := ⟨← natural? startByte, ← natural? stopByte⟩
          start := ⟨← natural? startRow, ← natural? startColumn⟩
          stop := ⟨← natural? stopRow, ← natural? stopColumn⟩ })
  | _ => none

def language? (node : Json.Node) : Option Language := do
  Language.ofName? (← label? (← value? node "lang"))

structure Parse where
  language : Language
  text : Text
  tree : Tree

def parse? (node : Json.Node) : Option Parse := do
  let rows ← (← elements? (← value? node "nodes")).mapM row?
  some ⟨← language? node, ← (← value? node "text").string?, ← Tree.ofRows? rows⟩

def faultKind? : String → Option Query.FaultKind
  | "Syntax" => some .malformed
  | "NodeType" => some .nodeType
  | "Field" => some .field
  | "Capture" => some .capture
  | "Predicate" => some .predicate
  | "Structure" => some .impossible
  | "Language" => some .language
  | _ => none

/-- A query that compiles has null in place of a fault. -/
def fault? : Json.Node → Option (Option Query.Fault)
  | .null _ => some none
  | node => do
      let kind ← faultKind? (← label? (← value? node "kind"))
      some (some ⟨kind, ← natural? (← value? node "offset"), ← label? (← value? node "message")⟩)

structure Compilation where
  language : Language
  source : Text
  fault : Option Query.Fault

def compilation? (node : Json.Node) : Option Compilation := do
  some ⟨← language? node, ← (← value? node "source").string?, ← fault? (← value? node "error")⟩

def unlisted : Tree := .node ⟨"", false, false, false, none, ⟨0, 0⟩, ⟨0, 0⟩, ⟨0, 0⟩⟩ []

end Answers

namespace GrammarLibrary

/-- The library that gives listed answers. Queries that are not listed compile. -/
def ofAnswers (parses : List Answers.Parse) (compilations : List Answers.Compilation) :
    GrammarLibrary where
  parse language text :=
    .ok (((parses.find? fun entry => entry.language = language ∧ entry.text = text).map
      Answers.Parse.tree).getD Answers.unlisted)
  fault? language source :=
    (compilations.find? fun entry => entry.language = language ∧ entry.source = source).bind
      Answers.Compilation.fault
  search _ query text tree :=
    if query = Query.hostQuery.toList then Query.find Query.hostPatterns text tree else []

def listed? {α : Type} (root : Json.Node) (key : String) (read : Json.Node → Option α) :
    Option (List α) :=
  match Answers.value? root key with
  | none => some []
  | some node => Answers.elements? node >>= fun elements => elements.mapM read

def ofJson? (document : Text) : Option GrammarLibrary :=
  match Json.parse document with
  | .error _ => none
  | .ok root => do
      let parses ← listed? root "parses" Answers.parse?
      let compilations ← listed? root "queries" Answers.compilation?
      some (ofAnswers parses compilations)

end GrammarLibrary

end QueryWorkbench
