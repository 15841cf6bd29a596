import QueryWorkbench.Diagnostic.Basic
import QueryWorkbench.Diagnostic.Message

/-! Errors of query compilation. The grammar library reports a kind, an offset and a raw message;
what a reader sees is a sentence, and an offset unless the failure has no place in the query. -/

namespace QueryWorkbench.Query

inductive FaultKind where
  | malformed
  | nodeType
  | field
  | capture
  | predicate
  | impossible
  | language
deriving Repr, DecidableEq

structure Fault where
  kind : FaultKind
  offset : Nat
  message : String
deriving Repr, DecidableEq

namespace Fault

/-- The name in question, which the library puts between quotes. -/
def name (fault : Fault) : String :=
  let trimmed := fault.message.toList.dropWhile (· == '"')
  String.ofList (trimmed.reverse.dropWhile (· == '"')).reverse

def describe (fault : Fault) : String :=
  match fault.kind with
  | .malformed => "Invalid syntax"
  | .nodeType => "Invalid node type `" ++ fault.name ++ "`"
  | .field => "Invalid field name `" ++ fault.name ++ "`"
  | .capture => "Invalid capture name `" ++ fault.name ++ "`"
  | .predicate => "Invalid predicate: " ++ fault.message
  | .impossible => "Impossible pattern"
  | .language => fault.message

end Fault

structure CompileError where
  offset : Option Nat
  message : String
deriving Repr, DecidableEq

namespace CompileError

def ofFault (fault : Fault) : CompileError :=
  ⟨if fault.kind = .language then none else some fault.offset, fault.describe⟩

/-- Places an error in a query file: at its offset, else at the offset that its message states, else
over the whole file. -/
def diagnostic (error : CompileError) (index : LineIndex) : Diagnostic :=
  let message := Message.sanitize error.message
  match error.offset <|> Message.statedOffset? error.message.toList with
  | some start => Diagnostic.toLineEnd index start message
  | none =>
      Diagnostic.error index ⟨0, (index.lineEnd? (index.lineCount - 1)).getD index.length⟩ message

end CompileError

end QueryWorkbench.Query
