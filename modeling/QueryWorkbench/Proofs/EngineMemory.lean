import QueryWorkbench.Check.Engine

/-! What an engine remembers does not show in its answers. A host is remembered only after its host
query has compiled, so asking the memory and compiling once more come to the same. -/

namespace QueryWorkbench.Engine

variable {library : GrammarLibrary}

/-- Every remembered host has a host query that compiles. -/
def Sound (library : GrammarLibrary) (engine : Engine) : Prop :=
  ∀ host ∈ engine.hostQueries, library.compile host Query.hostQuery.toList = .ok ()

theorem sound_ofGrammars (library : GrammarLibrary) (grammars : GrammarCache) :
    Sound library (ofGrammars grammars) := by
  intro host remembered
  simp [ofGrammars] at remembered

@[simp] theorem hostQueries_load (engine : Engine) (language : Language) :
    (engine.load language).hostQueries = engine.hostQueries := rfl

theorem hostQueries_foldl_load (languages : List Language) (engine : Engine) :
    (languages.foldl load engine).hostQueries = engine.hostQueries := by
  induction languages generalizing engine with
  | nil => rfl
  | cons language rest ih => rw [List.foldl_cons, ih, hostQueries_load]

def hostVerdict (library : GrammarLibrary) (host : Language) : Except CheckError Unit :=
  (library.compile host Query.hostQuery.toList).mapError (.hostQuery host)

theorem prepareHost_answer {engine : Engine} (sound : Sound library engine) (host : Language) :
    (prepareHost library engine host).1 = hostVerdict library host := by
  unfold prepareHost hostVerdict
  split
  · rename_i remembered
    rw [sound host remembered]
    rfl
  · split
    · rename_i compiled
      rw [compiled]
      rfl
    · rename_i cause failed
      rw [failed]
      rfl

theorem prepareHost_sound {engine : Engine} (sound : Sound library engine) (host : Language) :
    Sound library (prepareHost library engine host).2 := by
  unfold prepareHost
  split
  · exact sound
  · split
    · rename_i compiled
      intro other remembered
      rcases List.mem_cons.mp remembered with same | older
      · rw [same]
        exact compiled
      · exact sound other older
    · exact sound

def embeddedAnswer (library : GrammarLibrary) (host : Language) (text : Text) :
    Except CheckError (List Diagnostic) :=
  match library.parse host text with
  | .error error => .error (.grammar error)
  | .ok tree =>
      .ok ((Query.sites library host text tree).filterMap
        (siteDiagnostic? library (LineIndex.ofText text) text))

theorem checkEmbedded_answer {engine : Engine} (sound : Sound library engine) (host : Language)
    (text : Text) :
    (checkEmbedded library engine host text).1 =
      hostVerdict library host >>= fun _ => embeddedAnswer library host text := by
  have prepared := prepareHost_answer sound host
  unfold checkEmbedded embeddedAnswer
  split
  · rename_i error next failed
    rw [failed] at prepared
    rw [← prepared]
    rfl
  · rename_i next compiled
    rw [compiled] at prepared
    rw [← prepared]
    cases parsed : library.parse host text with
    | error error => rfl
    | ok tree => rfl

theorem checkEmbedded_sound {engine : Engine} (sound : Sound library engine) (host : Language)
    (text : Text) : Sound library (checkEmbedded library engine host text).2 := by
  have kept := prepareHost_sound sound host
  unfold checkEmbedded
  split
  · rename_i error next failed
    rw [failed] at kept
    exact kept
  · rename_i next compiled
    rw [compiled] at kept
    cases parsed : library.parse host text with
    | error error => exact kept
    | ok tree =>
        intro other remembered
        simp only [checkSites, hostQueries_foldl_load, hostQueries_load] at remembered
        exact kept other remembered

theorem checkQueryFile_answer (engine other : Engine) (text : Text) :
    (checkQueryFile library engine text).1 = (checkQueryFile library other text).1 := by
  unfold checkQueryFile
  split
  · rfl
  · split <;> rfl

theorem checkQueryFile_sound {engine : Engine} (sound : Sound library engine) (text : Text) :
    Sound library (checkQueryFile library engine text).2 := by
  unfold checkQueryFile
  split
  · exact sound
  · split <;> exact sound

def freshAnswer (library : GrammarLibrary) (editorId : String) (text : Text) :
    Except CheckError (Option (List Diagnostic)) :=
  (checkDocument library empty editorId text).1

theorem checkDocument_answer {engine : Engine} (sound : Sound library engine) (editorId : String)
    (text : Text) :
    (checkDocument library engine editorId text).1 = freshAnswer library editorId text := by
  have fresh : Sound library empty := sound_ofGrammars library GrammarCache.empty
  unfold freshAnswer checkDocument
  split
  · rfl
  · rename_i host _
    simp only [checkEmbedded_answer sound, checkEmbedded_answer fresh]
  · simp only [checkQueryFile_answer engine empty text]

theorem checkDocument_sound {engine : Engine} (sound : Sound library engine) (editorId : String)
    (text : Text) : Sound library (checkDocument library engine editorId text).2 := by
  unfold checkDocument
  split
  · exact sound
  · exact checkEmbedded_sound sound _ text
  · exact checkQueryFile_sound sound text

theorem freshAnswer_unhandled {editorId : String} {text : Text}
    (unhandled : freshAnswer library editorId text = .ok none) (other : Text) :
    freshAnswer library editorId other = .ok none := by
  unfold freshAnswer checkDocument at unhandled ⊢
  cases kind : DocumentKind.ofEditorId? editorId with
  | none => rfl
  | some kind' =>
      exfalso
      cases kind' with
      | host host =>
          simp only [kind] at unhandled
          cases checked : (checkEmbedded library empty host text).1 with
          | error error => simp [checked, Except.map] at unhandled
          | ok diagnostics => simp [checked, Except.map] at unhandled
      | queryFile => simp [kind] at unhandled

end QueryWorkbench.Engine
