import QueryWorkbench.Check.Engine
import QueryWorkbench.CommandLine.Arguments
import QueryWorkbench.CommandLine.Output
import QueryWorkbench.CommandLine.Resolution
import QueryWorkbench.Diagnostic.Report

/-! Carrying out a command. What a command does depends on its arguments, the files it can read and
the grammar library, and comes down to an exit status and what is written to the two output
streams. -/

namespace QueryWorkbench.CommandLine

inductive ReadError where
  | notFound
  | notDirectory
  | isDirectory
  | notUtf8
  | other (message : String)
deriving Repr, DecidableEq

namespace ReadError

def message : ReadError → String
  | .notFound => "No such file or directory (os error 2)"
  | .notDirectory => "Not a directory (os error 20)"
  | .isDirectory => "Is a directory (os error 21)"
  | .notUtf8 => "stream did not contain valid UTF-8"
  | .other message => message

end ReadError

structure Surroundings where
  file : String → Except ReadError ByteArray
  standardInput : ByteArray
  terminal : Bool

structure Outcome where
  status : Nat
  output : String
  errors : String
deriving Repr, DecidableEq

namespace Outcome

def success (output : String) : Outcome := ⟨0, output, ""⟩

def failure (message : String) : Outcome := ⟨1, "", "error: " ++ message ++ "\n"⟩

def json (value : Json.Value) : String := value.pretty 0 ++ "\n"

end Outcome

def decodeUtf8 (bytes : ByteArray) : Except ReadError Text :=
  match String.fromUTF8? bytes with
  | some text => .ok text.toList
  | none => .error .notUtf8

def load (surroundings : Surroundings) (path : String) : Except String Text :=
  if isStandardInput path then
    (decodeUtf8 surroundings.standardInput).mapError fun error =>
      "failed to read stdin: " ++ error.message
  else
    (surroundings.file path >>= decodeUtf8).mapError fun error =>
      "failed to read '" ++ path ++ "': " ++ error.message

def concluded : Except String Outcome → Outcome
  | .ok outcome => outcome
  | .error message => Outcome.failure message

def endLine (text : String) : String :=
  if text.toList.getLast? = some '\n' then text else text ++ "\n"

def runCheck (library : GrammarLibrary) (surroundings : Surroundings) (path : String)
    (lang : Option String) (json : Bool) (color : ColorChoice) : Outcome :=
  concluded do
    let editorId ← (resolveDocument lang path).mapError ResolutionError.message
    let text ← load surroundings path
    let result ←
      (Engine.checkDocument library Engine.empty editorId text).1.mapError CheckError.message
    let diagnostics := result.getD []
    let status := if diagnostics.isEmpty then 0 else 1
    let colored := color.colorize surroundings.terminal
    if json then .ok ⟨status, Outcome.json (.array (diagnostics.map Diagnostic.toJson)), ""⟩
    else if diagnostics.isEmpty then .ok (Outcome.success "")
    else .ok ⟨status, "", endLine (Report.full colored (some (displayName path)) text diagnostics)⟩

def abortStatus : Nat := 101

def runTree (library : GrammarLibrary) (surroundings : Surroundings) (path : String)
    (lang : Option String) (raw : Bool) (indent : Nat) : Outcome :=
  concluded do
    let language ← (resolveLanguage lang path).mapError ResolutionError.message
    let text ← load surroundings path
    let tree ← (library.parse language text).mapError GrammarError.message
    match tree.print? ⟨!raw, indent⟩ with
    | some printed => .ok (Outcome.success printed)
    | none => .ok ⟨abortStatus, "", ""⟩

def runOutline (surroundings : Surroundings) (path : String) (json : Bool) : Outcome :=
  concluded do
    let text ← load surroundings path
    let descriptors ←
      (NodeTypes.descriptors text).mapError fun error => path ++ ": " ++ error.message
    let symbols := NodeTypes.symbols text descriptors
    if json then .ok (Outcome.success (Outcome.json (.array (symbols.map NodeTypes.Symbol.toJson))))
    else .ok (Outcome.success (NodeTypes.renderOutline symbols))

def runDefinition (surroundings : Surroundings) (path : String) (line column : Nat) (json : Bool) :
    Outcome :=
  concluded do
    let text ← load surroundings path
    match NodeTypes.find text ⟨line, column⟩ with
    | none => .error s!"no definition at {line}:{column}"
    | some location =>
        if json then .ok (Outcome.success (Outcome.json location.toJson))
        else .ok (Outcome.success (location.render ++ "\n"))

def runLangs (json : Bool) : Outcome :=
  let entry := fun (name, builtIn) =>
    Json.Value.object [("name", .string name), ("built_in", .boolean builtIn)]
  if json then Outcome.success (Outcome.json (.array (Language.entries.map entry)))
  else Outcome.success (Language.renderList Language.entries)

def versionText : String := "tsq 0.1.0\n"

def usage : String :=
  "Usage: tsq <COMMAND>

Commands:
  check <FILE> [-l <LANG>] [--format text|json] [--color auto|always|never]
  tree <FILE> [-l <LANG>] [--raw] [--indent <N>]
  outline <FILE> [--format text|json]
  definition <FILE> --line <LINE> --column <COLUMN> [--format text|json]
  langs [--format text|json]
"

def rejected : Rejection → Outcome
  | .helpRequested => Outcome.success usage
  | .versionRequested => Outcome.success versionText
  | _ => ⟨2, "", usage⟩

def runCommand (library : GrammarLibrary) (surroundings : Surroundings) : Command → Outcome
  | .check path lang json color => runCheck library surroundings path lang json color
  | .tree path lang raw indent => runTree library surroundings path lang raw indent
  | .outline path json => runOutline surroundings path json
  | .definition path line column json => runDefinition surroundings path line column json
  | .langs json => runLangs json

def run (library : GrammarLibrary) (surroundings : Surroundings) (arguments : List String) :
    Outcome :=
  match Command.parse arguments with
  | .ok command => runCommand library surroundings command
  | .error rejection => rejected rejection

end QueryWorkbench.CommandLine
