import QueryWorkbench.Proofs.Directives
import QueryWorkbench.Proofs.EngineMemory
import QueryWorkbench.Proofs.HostMatches

/-! Runs of checks on one engine. However many checks an engine has made, and however they ended,
the next one answers as on a fresh engine; what the checks leave behind are the grammars of the
languages they needed. -/

namespace QueryWorkbench

namespace Language

theorem ofName?_eq_some {name : Text} {language : Language} :
    ofName? (String.ofList name) = some language ↔
      name.map Char.toLower = language.name.toList := by
  have lowered : (String.ofList name).toLower = String.ofList (name.map Char.toLower) := by
    rw [← String.toList_inj]
    change ((String.ofList name).map Char.toLower).toList = _
    simp
  rw [ofName?, lowered]
  constructor
  · intro found
    have same := List.find?_some found
    rw [beq_iff_eq] at same
    rw [same, String.toList_ofList]
  · intro same
    rw [same, String.ofList_toList]
    cases language <;> decide +kernel

end Language

namespace GrammarCache

theorem isLoaded_get {cache : GrammarCache} {language other : Language} :
    (cache.get language).2.isLoaded other = true ↔
      cache.isLoaded other = true ∨ other = language := by
  unfold get
  split
  · rename_i grammar found
    constructor
    · exact .inl
    · rintro (loaded | rfl)
      · exact loaded
      · have same := List.find?_some found
        exact List.any_eq_true.mpr ⟨grammar, List.mem_of_find?_eq_some found, same⟩
  · simp only [isLoaded, List.any_append, List.any_cons, List.any_nil, Bool.or_false,
      Bool.or_eq_true, decide_eq_true_eq, @eq_comm _ other language]

theorem mem_loaded {cache : GrammarCache} {language : Language} :
    language ∈ cache.loaded ↔ cache.isLoaded language = true := by
  simp [loaded, Language.mem_all]

theorem loaded_sublist (cache : GrammarCache) : cache.loaded.Sublist Language.all :=
  List.filter_sublist

theorem loaded_nodup (cache : GrammarCache) : cache.loaded.Nodup := by
  have distinct : Language.all.Nodup := by decide
  exact distinct.sublist cache.loaded_sublist

end GrammarCache

namespace Engine

inductive Check where
  | document (editorId : String) (text : Text)
  | embedded (host : Language) (text : Text)
  | queryFile (text : Text)

def perform (library : GrammarLibrary) (engine : Engine) : Check → Engine
  | .document editorId text => (checkDocument library engine editorId text).2
  | .embedded host text => (checkEmbedded library engine host text).2
  | .queryFile text => (checkQueryFile library engine text).2

def performAll (library : GrammarLibrary) (engine : Engine) (checks : List Check) : Engine :=
  checks.foldl (perform library) engine

/-! What a check needs, said of the documents alone. -/

def Check.host? : Check → Option (Language × Text)
  | .embedded host text => some (host, text)
  | .document editorId text =>
      match DocumentKind.ofEditorId? editorId with
      | some (.host host) => some (host, text)
      | _ => none
  | .queryFile _ => none

def Check.queryFile? : Check → Option Text
  | .queryFile text => some text
  | .document editorId text =>
      match DocumentKind.ofEditorId? editorId with
      | some .queryFile => some text
      | _ => none
  | .embedded _ _ => none

/-- The host query compiles and matches a call for the language in the tree of the text. -/
def HasSiteFor (library : GrammarLibrary) (host : Language) (text : Text) (language : Language) :
    Prop :=
  library.compile host Query.hostQuery.toList = .ok () ∧
    ∃ tree address call template,
      library.parse host text = .ok tree ∧ tree.descend? address = some call ∧
      Query.HostMatch text call language template

/-- The directive of a query file has the language's canonical name, letters in either case. -/
def DirectedTo (text : Text) (language : Language) : Prop :=
  ∃ name, Query.DirectiveFor text name ∧ name.map Char.toLower = language.name.toList

/-- The library keeps its promise of the host query wherever that query compiles. -/
def RunsHostQuery (library : GrammarLibrary) : Prop :=
  ∀ host text tree, library.compile host Query.hostQuery.toList = .ok () →
    library.parse host text = .ok tree → library.Runs Query.hostPatterns host text tree

def Check.Needs (library : GrammarLibrary) (check : Check) (language : Language) : Prop :=
  (∃ text, check.host? = some (language, text)) ∨
    (∃ host text, check.host? = some (host, text) ∧ HasSiteFor library host text language) ∨
    ∃ text, check.queryFile? = some text ∧ DirectedTo text language

variable {library : GrammarLibrary} {engine : Engine} {host language : Language} {text : Text}

def Has (engine : Engine) (language : Language) : Prop := engine.grammars.isLoaded language = true

theorem has_load {other : Language} :
    (engine.load other).Has language ↔ engine.Has language ∨ language = other :=
  GrammarCache.isLoaded_get

theorem has_foldl_load {languages : List Language} :
    (languages.foldl load engine).Has language ↔ engine.Has language ∨ language ∈ languages := by
  induction languages generalizing engine with
  | nil => simp
  | cons other rest ih => rw [List.foldl_cons, ih, has_load, List.mem_cons, or_assoc]

theorem has_prepareHost :
    (prepareHost library engine host).2.Has language ↔
      engine.Has language ∨ language = host ∧ host ∉ engine.hostQueries := by
  unfold prepareHost
  split
  · rename_i remembered
    simp [remembered]
  · rename_i unknown
    rw [and_iff_left unknown, ← has_load]
    split <;> rfl

theorem has_checkEmbedded (sound : Sound library engine) (runs : RunsHostQuery library) :
    (checkEmbedded library engine host text).2.Has language ↔
      engine.Has language ∨ language = host ∨ HasSiteFor library host text language := by
  have verdict := prepareHost_answer sound host
  have loads : (prepareHost library engine host).2.Has language ↔
      engine.Has language ∨ language = host ∧ host ∉ engine.hostQueries := has_prepareHost
  unfold checkEmbedded
  split
  · rename_i error next failed
    -- A host that is remembered has compiled, so a failure comes after its grammar was loaded.
    rw [failed] at verdict loads
    have refused : library.compile host Query.hostQuery.toList ≠ .ok () := by
      intro compiled
      rw [hostVerdict, compiled] at verdict
      cases verdict
    have unknown : host ∉ engine.hostQueries := fun remembered => refused (sound host remembered)
    simp only [loads, HasSiteFor, refused, unknown, not_false_eq_true, and_true,
      false_and, or_false]
  · rename_i next prepared
    rw [prepared] at verdict loads
    have compiled : library.compile host Query.hostQuery.toList = .ok () := by
      cases compiles : library.compile host Query.hostQuery.toList with
      | ok _ => rfl
      | error cause =>
          rw [hostVerdict, compiles] at verdict
          cases verdict
    have hostLoaded : (next.load host).Has language ↔ engine.Has language ∨ language = host := by
      rw [has_load, loads]
      grind
    cases parsed : library.parse host text with
    | error error => simp [hostLoaded, HasSiteFor, parsed]
    | ok tree =>
        have matched := Query.exists_site_iff (runs host text tree compiled parsed) language
        simp [checkSites, has_foldl_load, hostLoaded, List.mem_filterMap, HasSiteFor, compiled,
          parsed, matched, or_assoc]

theorem directedTo_iff :
    DirectedTo text language ↔
      (Query.directive? text >>= fun name => Language.ofName? (String.ofList name)) =
        some language := by
  have written (name : Text) : Query.DirectiveFor text name ↔ Query.directive? text = some name :=
    ⟨Query.DirectiveFor.read, Query.directiveFor_of_read⟩
  simp only [DirectedTo, written, Option.bind_eq_bind, Option.bind_eq_some_iff,
    Language.ofName?_eq_some]

theorem has_checkQueryFile :
    (checkQueryFile library engine text).2.Has language ↔
      engine.Has language ∨ DirectedTo text language := by
  rw [directedTo_iff]
  unfold checkQueryFile
  split
  · rename_i none
    simp [none]
  · rename_i target named
    have added : (engine.load target).Has language ↔
        engine.Has language ∨ some target = some language := by
      rw [has_load, Option.some.injEq, eq_comm]
    rw [named, ← added]
    split <;> rfl

theorem has_perform (sound : Sound library engine) (runs : RunsHostQuery library) (check : Check) :
    (perform library engine check).Has language ↔
      engine.Has language ∨ check.Needs library language := by
  cases check with
  | embedded host text =>
      rw [perform, has_checkEmbedded sound runs]
      simp [Check.Needs, Check.host?, Check.queryFile?, and_assoc, @eq_comm _ host]
  | queryFile text =>
      rw [perform, has_checkQueryFile]
      simp [Check.Needs, Check.host?, Check.queryFile?]
  | document editorId text =>
      rw [perform, checkDocument]
      split
      · rename_i unhandled
        simp [Check.Needs, Check.host?, Check.queryFile?, unhandled]
      · rename_i host kind
        simp [has_checkEmbedded sound runs, Check.Needs, Check.host?, Check.queryFile?,
          kind, and_assoc, @eq_comm _ host]
      · rename_i kind
        simp [has_checkQueryFile, Check.Needs, Check.host?, Check.queryFile?, kind]

theorem perform_sound (sound : Sound library engine) (check : Check) :
    Sound library (perform library engine check) := by
  cases check with
  | document editorId text => exact checkDocument_sound sound editorId text
  | embedded host text => exact checkEmbedded_sound sound host text
  | queryFile text => exact checkQueryFile_sound sound text

theorem performAll_sound (sound : Sound library engine) (checks : List Check) :
    Sound library (performAll library engine checks) := by
  induction checks generalizing engine with
  | nil => exact sound
  | cons check rest ih => exact ih (perform_sound sound check)

theorem has_performAll (sound : Sound library engine) (runs : RunsHostQuery library)
    (checks : List Check) :
    (performAll library engine checks).Has language ↔
      engine.Has language ∨ ∃ check ∈ checks, check.Needs library language := by
  induction checks generalizing engine with
  | nil => simp [performAll]
  | cons check rest ih =>
      have later := ih (perform_sound sound check)
      rw [has_perform sound runs check] at later
      rw [performAll, List.foldl_cons, ← performAll, later]
      simp [or_assoc]

/-- After any checks, failed ones included, the next check answers as on a fresh engine. Where the
library runs the host query, the loaded languages, in their fixed order and each once, are exactly
those that some check needed. A document of another kind and a query file without the name of a
language change nothing. -/
theorem checks_ignore_history (library : GrammarLibrary) (checks : List Check) :
    ((∀ editorId text, (checkDocument library (performAll library empty checks) editorId text).1 =
        (checkDocument library empty editorId text).1) ∧
      (∀ host text, (checkEmbedded library (performAll library empty checks) host text).1 =
        (checkEmbedded library empty host text).1) ∧
      ∀ text, (checkQueryFile library (performAll library empty checks) text).1 =
        (checkQueryFile library empty text).1) ∧
    ((performAll library empty checks).grammars.loaded.Sublist Language.all ∧
      (performAll library empty checks).grammars.loaded.Nodup ∧
      (RunsHostQuery library → ∀ language,
        language ∈ (performAll library empty checks).grammars.loaded ↔
        ∃ check ∈ checks, check.Needs library language)) ∧
    (∀ editorId text, DocumentKind.ofEditorId? editorId = none →
      (checkDocument library (performAll library empty checks) editorId text).2 =
        performAll library empty checks) ∧
    ∀ text, (∀ language, ¬ DirectedTo text language) →
      (checkQueryFile library (performAll library empty checks) text).2 =
        performAll library empty checks := by
  have fresh : Sound library empty := sound_ofGrammars library GrammarCache.empty
  have sound := performAll_sound fresh checks
  refine ⟨⟨?_, ?_, ?_⟩, ⟨GrammarCache.loaded_sublist _, GrammarCache.loaded_nodup _, ?_⟩, ?_, ?_⟩
  · intro editorId text
    exact checkDocument_answer sound editorId text
  · intro host text
    rw [checkEmbedded_answer sound, checkEmbedded_answer fresh]
  · intro text
    exact checkQueryFile_answer _ _ text
  · intro runs language
    have unloaded : ¬ empty.Has language := by
      simp [Has, empty, ofGrammars, GrammarCache.empty, GrammarCache.isLoaded]
    rw [GrammarCache.mem_loaded]
    exact (has_performAll fresh runs checks).trans (or_iff_right unloaded)
  · intro editorId text unhandled
    rw [checkDocument, unhandled]
  · intro text undirected
    simp only [directedTo_iff] at undirected
    rw [checkQueryFile, Option.eq_none_iff_forall_ne_some.mpr undirected]

def taggingLibrary : GrammarLibrary :=
  .ofAnswers [⟨.javascript, Query.taggedText, Query.taggedCall⟩]
    [⟨.php, Query.hostQuery.toList, some ⟨.malformed, 3, ""⟩⟩]

def mixedChecks : List Check :=
  [.document "SCM" ";; RUST".toList, .embedded .php [], .document "markdown" [],
    .document "javascript" Query.taggedText, .queryFile ";; klingon".toList]

theorem hasSiteFor_tagged :
    HasSiteFor taggingLibrary .javascript Query.taggedText language ↔ language = .go := by
  constructor
  · rintro ⟨_, _, address, call, template, parsed, reached, matched⟩
    cases parsed
    exact Query.language_of_taggedText reached matched
  · rintro rfl
    have compiled : taggingLibrary.compile .javascript Query.hostQuery.toList = .ok () := by
      simp [taggingLibrary, GrammarLibrary.ofAnswers, GrammarLibrary.compile]
    exact ⟨compiled, Query.taggedCall, [], Query.taggedCall, Query.taggedTemplate, rfl, rfl,
      Query.hostMatch_taggedCall⟩

theorem not_hasSiteFor_refused : ¬ HasSiteFor taggingLibrary .php text language := by
  have refused (query : Text) (fault : Query.Fault) (parses : List Answers.Parse) :
      (GrammarLibrary.ofAnswers parses [⟨.php, query, some fault⟩]).compile .php query =
        .error (.ofFault fault) := by
    simp [GrammarLibrary.ofAnswers, GrammarLibrary.compile]
  rintro ⟨compiled, _⟩
  rw [taggingLibrary, refused] at compiled
  cases compiled

theorem checks_ignore_history_mixed :
    RunsHostQuery taggingLibrary ∧
      (∀ language, language ∈ (performAll taggingLibrary empty mixedChecks).grammars.loaded ↔
        language ∈ [.javascript, .go, .rust, .php]) ∧
      (checkEmbedded taggingLibrary (performAll taggingLibrary empty mixedChecks) .php []).1 =
        (checkEmbedded taggingLibrary empty .php []).1 ∧
      (checkDocument taggingLibrary (performAll taggingLibrary empty mixedChecks) "markdown" []).2 =
        performAll taggingLibrary empty mixedChecks ∧
      (checkQueryFile taggingLibrary (performAll taggingLibrary empty mixedChecks)
        ";; klingon".toList).2 =
        performAll taggingLibrary empty mixedChecks := by
  obtain ⟨⟨_, embedded, _⟩, ⟨_, _, loaded⟩, unhandled, undirected⟩ :=
    checks_ignore_history taggingLibrary mixedChecks
  have runs : RunsHostQuery taggingLibrary :=
    fun host text tree _ _ => GrammarLibrary.ofAnswers_runs ..
  have queryFile : DocumentKind.ofEditorId? "SCM" = some .queryFile := by decide +kernel
  have prose : DocumentKind.ofEditorId? "markdown" = none := by decide +kernel
  have script : DocumentKind.ofEditorId? "javascript" = some (.host .javascript) := by
    decide +kernel
  have rust (language : Language) : DirectedTo ";; RUST".toList language ↔ language = .rust := by
    rw [directedTo_iff]
    cases language <;> decide +kernel
  have klingon (language : Language) : ¬ DirectedTo ";; klingon".toList language := by
    rw [directedTo_iff]
    cases language <;> decide +kernel
  refine ⟨runs, ?_, embedded .php [], unhandled "markdown" [] prose, undirected _ klingon⟩
  intro language
  rw [loaded runs]
  simp only [mixedChecks, List.mem_cons, List.not_mem_nil, or_false, exists_eq_or_imp,
    exists_eq_left, Check.Needs, Check.host?, Check.queryFile?, queryFile, prose, script,
    Option.some.injEq, Prod.mk.injEq, reduceCtorEq, false_and, exists_false, false_or, and_assoc,
    exists_and_left, exists_eq', and_true, exists_eq_left', rust, klingon, hasSiteFor_tagged,
    not_hasSiteFor_refused]
  grind

end Engine

end QueryWorkbench
