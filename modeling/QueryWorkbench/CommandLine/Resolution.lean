import QueryWorkbench.CommandLine.Path
import QueryWorkbench.Language.Suggestion

/-! What a file is: what the `--lang` option says, else what its extension tells. -/

namespace QueryWorkbench.CommandLine

inductive ResolutionError where
  | uncheckable (editorId : String)
  | standardInput
  | noDocumentExtension (path : String)
  | documentExtension (extension : String)
  | unknownLanguage (name : String)
  | noLanguageExtension (path : String)
  | languageExtension (extension : String)
deriving Repr, DecidableEq

namespace ResolutionError

def message : ResolutionError → String
  | .uncheckable editorId => "cannot check '" ++ editorId
      ++ "' documents; expected javascript, javascriptreact, typescript, typescriptreact or scm"
  | .standardInput => "-l/--lang is required (cannot infer from stdin)"
  | .noDocumentExtension path => "cannot infer document kind of '" ++ path ++ "', use -l/--lang"
  | .documentExtension extension =>
      "cannot infer document kind from extension '." ++ extension ++ "', use -l/--lang"
  | .unknownLanguage name =>
      let hint := match Language.suggest? name with
        | some language => "\n\nDid you mean '" ++ language.name ++ "'?"
        | none => ""
      "unknown language: '" ++ name ++ "'" ++ hint ++ "\n\nRun 'tsq langs' for the full list."
  | .noLanguageExtension path => "cannot infer language of '" ++ path ++ "', use -l/--lang"
  | .languageExtension extension =>
      "cannot infer language from extension '." ++ extension ++ "', use -l/--lang"

end ResolutionError

def resolveDocument (lang : Option String) (path : String) : Except ResolutionError String :=
  match lang with
  | some id => if (DocumentKind.ofEditorId? id).isSome then .ok id else .error (.uncheckable id)
  | none =>
      if isStandardInput path then .error .standardInput
      else
        match extension? path with
        | none => .error (.noDocumentExtension path)
        | some extension =>
            match DocumentKind.editorIdOfExtension? extension with
            | some id => .ok id
            | none => .error (.documentExtension extension)

def resolveLanguage (lang : Option String) (path : String) : Except ResolutionError Language :=
  match lang with
  | some name =>
      match Language.ofEditorId? name with
      | some language => .ok language
      | none => .error (.unknownLanguage name)
  | none =>
      if isStandardInput path then .error .standardInput
      else
        match extension? path with
        | none => .error (.noLanguageExtension path)
        | some extension =>
            match Language.ofExtension? extension with
            | some language => .ok language
            | none => .error (.languageExtension extension)

end QueryWorkbench.CommandLine
