import QueryWorkbench.Tree.Printer

/-! The arguments of the command line. A command has options and at most one file; an option takes
its value from the same argument or from the next one. A value is judged when the next argument is
taken up, so an argument that is unknown is reported before a bad value that it follows. -/

namespace QueryWorkbench.CommandLine

inductive Rejection where
  | helpRequested
  | versionRequested
  | helpOnNothing
  | unknownCommand
  | unknownArgument
  | missingArgument
  | invalidValue
  | unreadableValue
  | repeatedArgument
  | unwantedValue
deriving Repr, DecidableEq

inductive ColorChoice where
  | auto
  | always
  | never
deriving Repr, DecidableEq

namespace ColorChoice

def colorize (terminal : Bool) : ColorChoice → Bool
  | .auto => terminal
  | .always => true
  | .never => false

end ColorChoice

inductive Argument where
  | file
  | lang
  | format
  | color
  | raw
  | indent
  | line
  | column
  | help
  | version
deriving Repr, DecidableEq

inductive Setting where
  | file (path : String)
  | lang (name : String)
  | format (json : Bool)
  | color (choice : ColorChoice)
  | raw
  | indent (width : Nat)
  | line (number : Nat)
  | column (number : Nat)
deriving Repr, DecidableEq

namespace Setting

def argument : Setting → Argument
  | .file _ => .file
  | .lang _ => .lang
  | .format _ => .format
  | .color _ => .color
  | .raw => .raw
  | .indent _ => .indent
  | .line _ => .line
  | .column _ => .column

end Setting

def digits? (text : Text) : Option Nat :=
  if text.isEmpty || !text.all Char.isDigit then none
  else some (text.foldl (fun value digit => value * 10 + (digit.toNat - '0'.toNat)) 0)

/-- A number of 64 bits, with or without a plus sign. -/
def unsigned? (text : Text) : Option Nat := do
  let value ← match text with
    | '+' :: rest => digits? rest
    | _ => digits? text
  if value < 0x10000000000000000 then some value else none

/-- A number of 32 bits, with or without a sign; of the negative numbers only zero counts. -/
def coordinate? (text : Text) : Option Nat := do
  let value ← match text with
    | '+' :: rest => digits? rest
    | '-' :: rest => (digits? rest).filter (· == 0)
    | _ => digits? text
  if value < 0x100000000 then some value else none

namespace Argument

def letter? : Argument → Option Char
  | .lang => some 'l'
  | .help => some 'h'
  | .version => some 'V'
  | _ => none

def name? : Argument → Option Text
  | .file => none
  | .lang => some ['l', 'a', 'n', 'g']
  | .format => some ['f', 'o', 'r', 'm', 'a', 't']
  | .color => some ['c', 'o', 'l', 'o', 'r']
  | .raw => some ['r', 'a', 'w']
  | .indent => some ['i', 'n', 'd', 'e', 'n', 't']
  | .line => some ['l', 'i', 'n', 'e']
  | .column => some ['c', 'o', 'l', 'u', 'm', 'n']
  | .help => some ['h', 'e', 'l', 'p']
  | .version => some ['v', 'e', 'r', 's', 'i', 'o', 'n']

def takesValue : Argument → Bool
  | .raw | .help | .version => false
  | _ => true

def orElse {α : Type} (rejection : Rejection) : Option α → Except Rejection α
  | some value => .ok value
  | none => .error rejection

def read (argument : Argument) (value : String) : Except Rejection Setting :=
  match argument with
  | .file => if value.isEmpty then .error .invalidValue else .ok (.file value)
  | .lang => .ok (.lang value)
  | .format =>
      match value with
      | "text" => .ok (.format false)
      | "json" => .ok (.format true)
      | _ => .error .invalidValue
  | .color =>
      match value with
      | "auto" => .ok (.color .auto)
      | "always" => .ok (.color .always)
      | "never" => .ok (.color .never)
      | _ => .error .invalidValue
  | .raw => .ok .raw
  | .indent => orElse .unreadableValue ((unsigned? value.toList).map .indent)
  | .line => orElse .unreadableValue ((coordinate? value.toList).map .line)
  | .column => orElse .unreadableValue ((coordinate? value.toList).map .column)
  | .help => .error .helpRequested
  | .version => .error .versionRequested

end Argument

structure Reading where
  settings : List Setting
  /-- An argument that is not settled yet, with its value if that has been seen. -/
  pending : Option (Argument × Option String)
  wantsFile : Bool
  onlyFiles : Bool

namespace Reading

def start (wantsFile : Bool) : Reading := ⟨[], none, wantsFile, false⟩

def add (reading : Reading) (argument : Argument) (value : String) : Except Rejection Reading :=
  if reading.settings.any fun setting => setting.argument = argument then .error .repeatedArgument
  else do
    let setting ← argument.read value
    .ok { reading with settings := reading.settings ++ [setting] }

def settle (reading : Reading) : Except Rejection Reading :=
  match reading.pending with
  | none => .ok reading
  | some (_, none) => .error .invalidValue
  | some (argument, some value) => { reading with pending := none }.add argument value

def takeOption (reading : Reading) (argument : Argument) (value : Option String) :
    Except Rejection Reading := do
  let reading ← reading.settle
  if argument.takesValue then
    match value with
    | some value => reading.add argument value
    | none => .ok { reading with pending := some (argument, none) }
  else reading.add argument ""

def takeNamed (known : List Argument) (reading : Reading) (text : Text) :
    Except Rejection Reading :=
  let name := text.takeWhile (· != '=')
  let value := match text.drop name.length with
    | _ :: rest => some (String.ofList rest)
    | [] => none
  match known.find? fun argument => argument.name? == some name with
  | none => .error .unknownArgument
  | some argument =>
      if argument.takesValue || value.isNone then reading.takeOption argument value
      else .error .unwantedValue

/-- Takes options by letter, after one dash. The rest after a letter that takes a value is the
value. -/
def takeLetters (known : List Argument) (reading : Reading) : Text → Except Rejection Reading
  | [] => .ok reading
  | letter :: rest =>
      match known.find? fun argument => argument.letter? == some letter with
      | none => .error .unknownArgument
      | some argument =>
          if argument.takesValue then
            match rest with
            | [] => reading.takeOption argument none
            | '=' :: value => reading.takeOption argument (some (String.ofList value))
            | value => reading.takeOption argument (some (String.ofList value))
          else do
            let reading ← reading.takeOption argument none
            takeLetters known reading rest

def takeFile (reading : Reading) (path : String) : Except Rejection Reading :=
  if reading.wantsFile then do
    let reading ← reading.settle
    .ok { reading with pending := some (.file, some path), wantsFile := false }
  else .error .unknownArgument

def takePlain (reading : Reading) (text : String) : Except Rejection Reading :=
  match reading.pending with
  | some (argument, none) => .ok { reading with pending := some (argument, some text) }
  | _ => reading.takeFile text

def take (known : List Argument) (reading : Reading) (text : String) : Except Rejection Reading :=
  if reading.onlyFiles then reading.takeFile text
  else
    match text.toList with
    | ['-', '-'] => .ok { reading with onlyFiles := true }
    | '-' :: '-' :: name => reading.takeNamed known name
    | ['-'] => reading.takePlain text
    | '-' :: letters => reading.takeLetters known letters
    | _ => reading.takePlain text

end Reading

inductive CommandName where
  | check
  | tree
  | outline
  | definition
  | langs
deriving Repr, DecidableEq

namespace CommandName

def ofText? : String → Option CommandName
  | "check" => some .check
  | "tree" => some .tree
  | "outline" => some .outline
  | "definition" => some .definition
  | "langs" => some .langs
  | _ => none

def takesFile (name : CommandName) : Bool := name != .langs

def options : CommandName → List Argument
  | .check => [.lang, .format, .color, .help]
  | .tree => [.lang, .raw, .indent, .help]
  | .outline => [.format, .help]
  | .definition => [.line, .column, .format, .help]
  | .langs => [.format, .help]

end CommandName

inductive Command where
  | check (path : String) (lang : Option String) (json : Bool) (color : ColorChoice)
  | tree (path : String) (lang : Option String) (raw : Bool) (indent : Nat)
  | outline (path : String) (json : Bool)
  | definition (path : String) (line column : Nat) (json : Bool)
  | langs (json : Bool)
deriving Repr, DecidableEq

namespace Command

def file? (settings : List Setting) : Option String :=
  settings.findSome? fun | .file path => some path | _ => none

def lang? (settings : List Setting) : Option String :=
  settings.findSome? fun | .lang name => some name | _ => none

def json (settings : List Setting) : Bool := settings.contains (.format true)

def color (settings : List Setting) : ColorChoice :=
  (settings.findSome? fun | .color choice => some choice | _ => none).getD .auto

def indent (settings : List Setting) : Nat :=
  (settings.findSome? fun | .indent width => some width | _ => none).getD Tree.defaultIndent

def line? (settings : List Setting) : Option Nat :=
  settings.findSome? fun | .line number => some number | _ => none

def column? (settings : List Setting) : Option Nat :=
  settings.findSome? fun | .column number => some number | _ => none

def ofSettings? (name : CommandName) (settings : List Setting) : Option Command :=
  match name with
  | .check => do
      some (.check (← file? settings) (lang? settings) (json settings) (color settings))
  | .tree => do
      some (.tree (← file? settings) (lang? settings) (settings.contains .raw) (indent settings))
  | .outline => do some (.outline (← file? settings) (json settings))
  | .definition => do
      some (.definition (← file? settings) (← line? settings) (← column? settings) (json settings))
  | .langs => some (.langs (json settings))

def ofArguments (name : CommandName) (arguments : List String) : Except Rejection Command := do
  let reading ← arguments.foldlM (Reading.take name.options) (Reading.start name.takesFile)
  let reading ← reading.settle
  Argument.orElse .missingArgument (ofSettings? name reading.settings)

def help : List String → Rejection
  | [] => .helpRequested
  | [name] =>
      if name = "help" || (CommandName.ofText? name).isSome then .helpRequested else .unknownCommand
  | _ => .unknownCommand

/-- Reads a whole command line. Before the name of a command only `--`, help and version may
stand. -/
def parse : List String → Except Rejection Command
  | [] => .error .helpOnNothing
  | first :: rest =>
      match CommandName.ofText? first with
      | some name => ofArguments name rest
      | none =>
          if first = "help" then .error (help rest)
          else if first = "--" then
            match rest with
            | [] => .error .helpOnNothing
            | next :: _ =>
                if next = "help" || (CommandName.ofText? next).isSome then .error .unknownArgument
                else .error .unknownCommand
          else if first = "-" || !first.startsWith "-" then .error .unknownCommand
          else
            match (Reading.start false).take [.help, .version] first with
            | .ok _ => .error .unknownArgument
            | .error rejection => .error rejection

end Command

end QueryWorkbench.CommandLine
