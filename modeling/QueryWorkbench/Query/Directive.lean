import QueryWorkbench.Text.Blank

/-! The directive of a query file. Its first line that is not blank is `;;` and the name of the
language that the file is written for. -/

namespace QueryWorkbench.Query

def linesAtFeed : Text → List Text
  | [] => [[]]
  | char :: rest =>
      if char = '\n' then [] :: linesAtFeed rest
      else
        match linesAtFeed rest with
        | [] => [[char]]
        | line :: others => (char :: line) :: others

def directiveOfLine? (line : Text) : Option Text :=
  match line with
  | ';' :: ';' :: rest =>
      let name := Text.trim rest
      if name.isEmpty || name.any isWhiteSpace then none else some name
  | _ => none

def directive? (text : Text) : Option Text :=
  ((linesAtFeed text).map Text.trim).find? (fun line => !line.isEmpty) >>= directiveOfLine?

end QueryWorkbench.Query
