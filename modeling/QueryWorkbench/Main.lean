import QueryWorkbench.CommandLine.Run
import QueryWorkbench.Language.Answers

/-! The command line program. It reads the files a command asks for and writes what the command
says; the answers of the grammar library come from the document that the variable `QUERY_GRAMMARS`
names. -/

namespace QueryWorkbench.CommandLine

def readError : IO.Error → ReadError
  | .noFileOrDirectory .. => .notFound
  | .inappropriateType .. => .isDirectory
  | error => .other (toString error)

def readBytes (path : String) : IO (Except ReadError ByteArray) := do
  try return .ok (← IO.FS.readBinFile path)
  catch error => return .error (readError error)

def commandPath? : Command → Option String
  | .check path .. | .tree path .. | .outline path .. | .definition path .. => some path
  | .langs _ => none

/-- Reads the one input of a command, so that carrying it out needs no further reading. -/
def surroundings (command : Option Command) : IO Surroundings := do
  let terminal ← (← IO.getStderr).isTty
  match command.bind commandPath? with
  | none => return ⟨fun _ => .error .notFound, ByteArray.empty, terminal⟩
  | some path =>
      if isStandardInput path then
        return ⟨fun _ => .error .notFound, ← (← IO.getStdin).readBinToEnd, terminal⟩
      else
        let bytes ← readBytes path
        return ⟨fun _ => bytes, ByteArray.empty, terminal⟩

def grammarLibrary : IO GrammarLibrary := do
  match ← IO.getEnv "QUERY_GRAMMARS" with
  | none => return GrammarLibrary.ofAnswers [] []
  | some path =>
      let text ← IO.FS.readFile path
      return (GrammarLibrary.ofJson? text.toList).getD (GrammarLibrary.ofAnswers [] [])

end QueryWorkbench.CommandLine

open QueryWorkbench.CommandLine in
def main (arguments : List String) : IO UInt32 := do
  let outcome :=
    run (← grammarLibrary) (← surroundings (Command.parse arguments).toOption) arguments
  (← IO.getStdout).putStr outcome.output
  (← IO.getStderr).putStr outcome.errors
  return outcome.status.toUInt32
