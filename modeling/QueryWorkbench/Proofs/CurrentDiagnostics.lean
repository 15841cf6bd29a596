import Mathlib.Data.List.Induction
import QueryWorkbench.Language.Answers
import QueryWorkbench.Proofs.ServiceRuns

/-! What is published for an open document, in every run whose published results were computed under
their own tickets. -/

namespace QueryWorkbench.Service

variable {library : GrammarLibrary}

/-- Every published result was computed under its ticket, and the ticket had been handed out
before. -/
def Honest (library : GrammarLibrary) (start : Service) (calls : List Call) : Prop :=
  ∀ before ticket result after, calls = before ++ .publish ticket result :: after →
    ∃ first second third,
      before = first ++ .beginPass ticket.uri :: second ++ .compute ticket :: third ∧
      (run library start first).begin? ticket.uri = some ticket ∧
      ((run library start (first ++ .beginPass ticket.uri :: second)).compute library ticket).1 =
        result

/-- What a call adds to what is known of a document: what its editor calls it, and its texts since
it was opened, the latest first. -/
def recorded (uri : String) (known : Option (String × List Text)) :
    Call → Option (String × List Text)
  | .openDocument target editorId text => if target = uri then some (editorId, [text]) else known
  | .changeText target text =>
      if target = uri then known.map fun (editorId, texts) => (editorId, text :: texts) else known
  | .closeDocument target => if target = uri then none else known
  | _ => known

def history (uri : String) (calls : List Call) : Option (String × List Text) :=
  calls.foldl (recorded uri) none

theorem history_snoc (uri : String) (calls : List Call) (call : Call) :
    history uri (calls ++ [call]) = recorded uri (history uri calls) call := by
  simp [history]

theorem honest_init {start : Service} {calls : List Call} {call : Call}
    (honest : Honest library start (calls ++ [call])) : Honest library start calls := by
  intro before ticket result after split
  apply honest before ticket result (after ++ [call])
  rw [split]
  simp

theorem fits_of_honest {start : Service} (consistent : Consistent library start) {calls : List Call}
    {ticket : Ticket} {result : CheckResult}
    (honest : Honest library start (calls ++ [.publish ticket result])) :
    Fits library (run library start calls) ticket result := by
  obtain ⟨first, second, third, split, begun, computed⟩ := honest calls ticket result [] rfl
  have firstConsistent := consistent.run first
  have middleConsistent := consistent.run (first ++ .beginPass ticket.uri :: second)
  have issued : ticket.version < (run library start first).nextVersion := by
    simp only [begin?, Option.map_eq_some_iff] at begun
    obtain ⟨document, opened, named⟩ := begun
    rw [← named]
    exact firstConsistent.numbered ticket.uri document opened
  have stillIssued : ticket.version <
      (run library start (first ++ .beginPass ticket.uri :: second)).nextVersion := by
    rw [run_append]
    exact Nat.lt_of_lt_of_le issued (nextVersion_run_le library _ _)
  -- The text may have changed since the ticket was handed out; then its version never comes back.
  have fits : Fits library (run library start (first ++ .beginPass ticket.uri :: second))
      ticket result := by
    refine ⟨stillIssued, ?_⟩
    intro document opened _
    rw [← compute_answer middleConsistent.sound ticket opened]
    exact computed
  have later := fits.run middleConsistent (.compute ticket :: third)
  rw [← run_append, ← split] at later
  exact later

/-- A document agrees with what is known of it: its latest text is the one it has, and the latest
text with an answer is the one whose diagnostics are published. -/
def Tracks (library : GrammarLibrary) : Option (String × List Text) → Option Document → Prop
  | none, document => document = none
  | some (editorId, texts), document =>
      ∃ opened earlier, document = some opened ∧ opened.editorId = editorId ∧
        texts = opened.text :: earlier ∧
        opened.published = texts.findSome? (found? library editorId)

theorem tracks_map_checked {known : Option (String × List Text)} {document : Option Document}
    (tracks : Tracks library known document) :
    Tracks library known (document.map (Document.checked library)) := by
  cases known with
  | none =>
      simp only [Tracks] at tracks ⊢
      simp [tracks]
  | some record =>
      obtain ⟨opened, earlier, rfl, editorId, texts, published⟩ := tracks
      refine ⟨opened.checked library, earlier, rfl, editorId, texts, ?_⟩
      simp only [Document.checked, published, texts, List.findSome?_cons, editorId]
      cases found? library record.1 opened.text <;> rfl

theorem tracks_change {known : Option (String × List Text)} {document : Option Document}
    (tracks : Tracks library known document) (text : Text) (next : Nat) :
    Tracks library (known.map fun (editorId, texts) => (editorId, text :: texts))
      (document.map fun old => Document.checked library { old with text, version := next }) := by
  cases known with
  | none =>
      simp only [Tracks] at tracks
      simp [Tracks, tracks]
  | some record =>
      obtain ⟨opened, earlier, rfl, editorId, texts, published⟩ := tracks
      refine ⟨_, record.2, rfl, editorId, rfl, ?_⟩
      simp only [Document.checked, published, List.findSome?_cons, editorId]
      cases found? library record.1 text <;> rfl

theorem tracks_received {known : Option (String × List Text)} {document : Option Document}
    (tracks : Tracks library known document) {version : Nat} {result : CheckResult}
    (current : ∀ opened, document = some opened → opened.version = version →
      Engine.freshAnswer library opened.editorId opened.text = result) :
    Tracks library known (document.map (Document.received version result)) := by
  cases known with
  | none =>
      simp only [Tracks] at tracks ⊢
      simp [tracks]
  | some record =>
      obtain ⟨opened, earlier, rfl, editorId, texts, published⟩ := tracks
      obtain ⟨sameId, sameText, _⟩ := Document.received_keeps version result opened
      refine ⟨opened.received version result, earlier, rfl, sameId.trans editorId, ?_, ?_⟩
      · rw [sameText]
        exact texts
      · unfold Document.received
        split
        · rename_i diagnostics
          split
          · rename_i atVersion
            have answer := current opened rfl atVersion
            rw [editorId] at answer
            simp [texts, found?, answer]
          · exact published
        · exact published

theorem tracks_step {service : Service} (sound : service.engine.Sound library) {uri : String}
    {known : Option (String × List Text)} {call : Call}
    (tracks : Tracks library known (service.document? uri))
    (fits : ∀ ticket result, call = .publish ticket result → Fits library service ticket result) :
    Tracks library (recorded uri known call) ((step library service call).document? uri) := by
  rw [document?_step sound]
  cases call with
  | openDocument target editorId text =>
      by_cases here : target = uri
      · simp only [recorded, effect, here, if_true]
        refine ⟨_, [], rfl, rfl, rfl, ?_⟩
        simp only [Document.checked, List.findSome?_cons, List.findSome?_nil]
        cases found? library editorId text <;> rfl
      · simpa only [recorded, effect, here, if_false] using tracks
  | changeText target text =>
      by_cases here : target = uri
      · simpa only [recorded, effect, here, if_true] using
          tracks_change tracks text service.nextVersion
      · simpa only [recorded, effect, here, if_false] using tracks
  | focusDocument target =>
      by_cases here : target = uri
      · simpa only [recorded, effect, here, if_true] using tracks_map_checked tracks
      · simpa only [recorded, effect, here, if_false] using tracks
  | closeDocument target =>
      by_cases here : target = uri
      · simp [recorded, effect, here, Tracks]
      · simpa only [recorded, effect, here, if_false] using tracks
  | beginPass target => exact tracks
  | compute ticket => exact tracks
  | publish ticket result =>
      by_cases here : ticket.uri = uri
      · have current := (fits ticket result rfl).current
        rw [here] at current
        simpa only [recorded, effect, here, if_true] using tracks_received tracks current
      · simpa only [recorded, effect, here, if_false] using tracks

theorem tracks_run {start : Service} (consistent : Consistent library start)
    (vacant : ∀ uri, start.document? uri = none) {calls : List Call}
    (honest : Honest library start calls) (uri : String) :
    Tracks library (history uri calls) ((run library start calls).document? uri) := by
  induction calls using List.reverseRecOn with
  | nil => exact vacant uri
  | append_singleton calls call ih =>
      rw [history_snoc, run_append]
      apply tracks_step (consistent.run calls).sound (ih (honest_init honest))
      rintro ticket result rfl
      exact fits_of_honest consistent honest

/-- In every run whose published results were computed under their own tickets, what is published
for an open document is what a fresh check of its present text answers; if that check fails, it is
the answer for the latest text since the document was opened that had one. -/
theorem diagnostics_follow_text (library : GrammarLibrary) (grammars : GrammarCache)
    (calls : List Call) (honest : Honest library (empty (Engine.ofGrammars grammars)) calls)
    (uri : String) (document : Document)
    (opened : (run library (empty (Engine.ofGrammars grammars)) calls).document? uri =
      some document) :
    ∃ earlier, history uri calls = some (document.editorId, document.text :: earlier) ∧
      match Engine.freshAnswer library document.editorId document.text with
      | .ok (some diagnostics) =>
          (run library (empty (Engine.ofGrammars grammars)) calls).diagnostics? uri =
            some diagnostics
      | .ok none => (run library (empty (Engine.ofGrammars grammars)) calls).diagnostics? uri = none
      | .error _ =>
          (run library (empty (Engine.ofGrammars grammars)) calls).diagnostics? uri =
            (document.text :: earlier).findSome? (found? library document.editorId) := by
  have tracks := tracks_run (consistent_empty library grammars)
    (fun other => by simp [empty, document?]) honest uri
  rw [opened] at tracks
  cases known : history uri calls with
  | none => simp [known, Tracks] at tracks
  | some record =>
      rw [known] at tracks
      obtain ⟨same, earlier, equal, editorId, texts, published⟩ := tracks
      cases equal
      have shown : (run library (empty (Engine.ofGrammars grammars)) calls).diagnostics? uri =
          document.published := by simp [diagnostics?, opened]
      rw [shown, published, texts, ← editorId]
      refine ⟨earlier, by rw [editorId, ← texts], ?_⟩
      cases answer : Engine.freshAnswer library document.editorId document.text with
      | error error => rfl
      | ok diagnostics =>
          cases diagnostics with
          | some diagnostics => simp [found?, answer]
          | none =>
              simp only [List.findSome?_eq_none_iff]
              intro text _
              simp [found?, Engine.freshAnswer_unhandled answer text]

def faultyQuery : Text := ";; rust\n(".toList

def strictLibrary : GrammarLibrary := .ofAnswers [] [⟨.rust, faultyQuery, some ⟨.malformed, 3, ""⟩⟩]

def delayedCalls : List Call :=
  [.openDocument "a" "scm" faultyQuery, .beginPass "a", .compute ⟨"a", 0⟩, .changeText "a" [],
    .publish ⟨"a", 0⟩ (Engine.freshAnswer strictLibrary "scm" faultyQuery)]

theorem honest_delayedCalls : Honest strictLibrary (empty Engine.empty) delayedCalls := by
  intro before ticket result after split
  have consistent := consistent_empty strictLibrary GrammarCache.empty
  have opened : (run strictLibrary (empty Engine.empty)
      [.openDocument "a" "scm" faultyQuery, .beginPass "a"]).document? "a" =
        some (Document.checked strictLibrary ⟨"scm", faultyQuery, 0, none⟩) :=
    document?_step consistent.sound (.openDocument "a" "scm" faultyQuery) "a"
  have final : before = delayedCalls.take 4 ∧ ticket = ⟨"a", 0⟩ ∧
      result = Engine.freshAnswer strictLibrary "scm" faultyQuery := by
    simp only [delayedCalls, List.cons_eq_append_iff] at split
    simp_all [delayedCalls]
  obtain ⟨rfl, rfl, rfl⟩ := final
  refine ⟨[.openDocument "a" "scm" faultyQuery], [], [.changeText "a" []], rfl, ?_, ?_⟩
  · exact congrArg (Option.map fun document => Ticket.mk "a" document.version) opened
  · exact compute_answer (consistent.run
      [.openDocument "a" "scm" faultyQuery, .beginPass "a"]).sound
      ⟨"a", 0⟩ opened

theorem diagnostics_follow_text_delayed :
    Honest strictLibrary (empty Engine.empty) delayedCalls ∧
      (∃ document,
        (run strictLibrary (empty Engine.empty) delayedCalls).document? "a" = some document ∧
        document.text = []) ∧
      (run strictLibrary (empty Engine.empty) delayedCalls).diagnostics? "a" = some [] := by
  have tracks := tracks_run (consistent_empty strictLibrary GrammarCache.empty)
    (fun other => by simp [empty, document?]) honest_delayedCalls "a"
  obtain ⟨document, earlier, opened, editorId, texts, _⟩ := tracks
  have text : document.text = [] := by
    simpa using (List.head_eq_of_cons_eq texts).symm
  obtain ⟨_, _, shown⟩ := diagnostics_follow_text strictLibrary GrammarCache.empty delayedCalls
    honest_delayedCalls "a" document opened
  have answer : Engine.freshAnswer strictLibrary "scm" [] = .ok (some []) := by decide +kernel
  rw [editorId, text, answer] at shown
  exact ⟨honest_delayedCalls, ⟨document, opened, text⟩, shown⟩

end QueryWorkbench.Service
