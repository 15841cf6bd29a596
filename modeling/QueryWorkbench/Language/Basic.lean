/-! The languages that a query can be written for. The set is closed; each language has one
canonical name and perhaps other names that editors use. -/

namespace QueryWorkbench

inductive Language where
  | python
  | javascript
  | typescript
  | tsx
  | go
  | ruby
  | csharp
  | cpp
  | java
  | rust
  | php
deriving Repr, DecidableEq, Hashable

namespace Language

def all : List Language :=
  [.python, .javascript, .typescript, .tsx, .go, .ruby, .csharp, .cpp, .java, .rust, .php]

theorem mem_all (language : Language) : language ∈ all := by
  cases language <;> decide

def name : Language → String
  | .python => "python"
  | .javascript => "javascript"
  | .typescript => "typescript"
  | .tsx => "tsx"
  | .go => "go"
  | .ruby => "ruby"
  | .csharp => "csharp"
  | .cpp => "cpp"
  | .java => "java"
  | .rust => "rust"
  | .php => "php"

def aliases : Language → List String
  | .python => ["py"]
  | .javascript => ["javascriptreact", "js", "jsx"]
  | .typescript => ["ts"]
  | .tsx => ["typescriptreact"]
  | .go => ["golang"]
  | .ruby => ["rb"]
  | .csharp => ["c#", "c_sharp", "cs"]
  | .cpp => ["c++"]
  | .java => []
  | .rust => ["rs"]
  | .php => []

/-- The language of a canonical name, ASCII letters in either case. -/
def ofName? (name : String) : Option Language :=
  all.find? fun language => language.name == name.toLower

def ofEditorId? (id : String) : Option Language :=
  all.find? fun language => language.name == id.toLower || language.aliases.contains id.toLower

def ofExtension? (extension : String) : Option Language :=
  match extension.toLower with
  | "py" | "pyi" => some .python
  | "js" | "mjs" | "cjs" | "jsx" => some .javascript
  | "ts" | "mts" | "cts" => some .typescript
  | "tsx" => some .tsx
  | "go" => some .go
  | "rb" => some .ruby
  | "cs" => some .csharp
  | "cc" | "cpp" | "cxx" | "hh" | "hpp" | "hxx" => some .cpp
  | "java" => some .java
  | "rs" => some .rust
  | "php" => some .php
  | _ => none

def renderList (entries : List (String × Bool)) : String :=
  let lines := entries.map fun (name, builtIn) =>
    "  " ++ name ++ (if builtIn then "" else "  (not built in)") ++ "\n"
  "Supported languages (" ++ toString entries.length ++ "):\n" ++ String.join lines

def entries : List (String × Bool) := all.map fun language => (language.name, true)

end Language

inductive LanguageError where
  | unsupported (name : String)
deriving Repr, DecidableEq

namespace LanguageError

def message : LanguageError → String
  | .unsupported name => "unsupported language `" ++ name ++ "`"

end LanguageError

inductive DocumentKind where
  | host (language : Language)
  | queryFile
deriving Repr, DecidableEq

namespace DocumentKind

def ofEditorId? (id : String) : Option DocumentKind :=
  match id.toLower with
  | "javascript" | "javascriptreact" => some (.host .javascript)
  | "typescript" => some (.host .typescript)
  | "typescriptreact" => some (.host .tsx)
  | "scm" | "query" => some .queryFile
  | _ => none

def editorIdOfExtension? (extension : String) : Option String :=
  match extension.toLower with
  | "scm" => some "scm"
  | "js" | "mjs" | "cjs" | "jsx" => some "javascript"
  | "ts" | "mts" | "cts" => some "typescript"
  | "tsx" => some "typescriptreact"
  | _ => none

end DocumentKind

end QueryWorkbench
