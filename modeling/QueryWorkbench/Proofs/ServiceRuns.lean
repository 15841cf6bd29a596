import QueryWorkbench.Check.Service
import QueryWorkbench.Proofs.EngineMemory

/-! Runs of the diagnostics service. Passes may be delayed, reordered, repeated or dropped; what is
published for a document still comes from the text it has now. -/

namespace QueryWorkbench

inductive Call where
  | openDocument (uri editorId : String) (text : Text)
  | changeText (uri : String) (text : Text)
  | focusDocument (uri : String)
  | closeDocument (uri : String)
  | beginPass (uri : String)
  | compute (ticket : Ticket)
  | publish (ticket : Ticket) (result : CheckResult)

def found? (library : GrammarLibrary) (editorId : String) (text : Text) :
    Option (List Diagnostic) :=
  match Engine.freshAnswer library editorId text with
  | .ok (some diagnostics) => some diagnostics
  | _ => none

namespace Document

def checked (library : GrammarLibrary) (document : Document) : Document :=
  { document with
    published := (found? library document.editorId document.text).or document.published }

def received (version : Nat) (result : CheckResult) (document : Document) : Document :=
  match result with
  | .ok (some diagnostics) =>
      if document.version = version then { document with published := some diagnostics }
      else document
  | _ => document

theorem received_keeps (version : Nat) (result : CheckResult) (document : Document) :
    (document.received version result).editorId = document.editorId ∧
      (document.received version result).text = document.text ∧
      (document.received version result).version = document.version := by
  unfold received
  split
  · split <;> exact ⟨rfl, rfl, rfl⟩
  · exact ⟨rfl, rfl, rfl⟩

end Document

namespace Service

variable {library : GrammarLibrary}

def step (library : GrammarLibrary) (service : Service) : Call → Service
  | .openDocument uri editorId text => service.openDocument library uri editorId text
  | .changeText uri text => service.changeText library uri text
  | .focusDocument uri => service.focusDocument library uri
  | .closeDocument uri => service.closeDocument uri
  | .beginPass _ => service
  | .compute ticket => (service.compute library ticket).2
  | .publish ticket result => (service.publish ticket result).2

def run (library : GrammarLibrary) (service : Service) (calls : List Call) : Service :=
  calls.foldl (step library) service

theorem run_append (service : Service) (first second : List Call) :
    run library service (first ++ second) = run library (run library service first) second :=
  List.foldl_append

theorem run_cons (service : Service) (call : Call) (calls : List Call) :
    run library service (call :: calls) = run library (step library service call) calls := rfl

/-! What each operation does to one document. -/

theorem document?_insert (service : Service) (uri other : String) (document : Document)
    (next : Nat) :
    document? { service with
      documents := service.documents.insert uri document, nextVersion := next } other =
      if uri = other then some document else service.document? other := by
  simp [document?, Std.HashMap.getElem?_insert]

theorem document?_compute (service : Service) (ticket : Ticket) (uri : String) :
    (service.compute library ticket).2.document? uri = service.document? uri := by
  unfold compute
  split <;> rfl

theorem nextVersion_compute (service : Service) (ticket : Ticket) :
    (service.compute library ticket).2.nextVersion = service.nextVersion := by
  unfold compute
  split <;> rfl

theorem compute_answer {service : Service} (sound : service.engine.Sound library) (ticket : Ticket)
    {document : Document} (opened : service.document? ticket.uri = some document) :
    (service.compute library ticket).1 =
      Engine.freshAnswer library document.editorId document.text := by
  simp only [compute, opened]
  exact Engine.checkDocument_answer sound document.editorId document.text

theorem compute_sound {service : Service} (sound : service.engine.Sound library) (ticket : Ticket) :
    (service.compute library ticket).2.engine.Sound library := by
  unfold compute
  split
  · exact sound
  · exact Engine.checkDocument_sound sound _ _

theorem publish_useless (service : Service) (ticket : Ticket) {result : CheckResult}
    (useless : ∀ diagnostics, result ≠ .ok (some diagnostics)) :
    (service.publish ticket result).2 = service ∧
      Document.received ticket.version result = fun document => document := by
  match result with
  | .error error => exact ⟨by simp [publish], rfl⟩
  | .ok none => exact ⟨by simp [publish], rfl⟩
  | .ok (some diagnostics) => exact (useless diagnostics rfl).elim

theorem document?_publish (service : Service) (ticket : Ticket) (result : CheckResult)
    (uri : String) :
    (service.publish ticket result).2.document? uri =
      if ticket.uri = uri then (service.document? uri).map (Document.received ticket.version result)
      else service.document? uri := by
  by_cases useful : ∃ diagnostics, result = .ok (some diagnostics)
  · obtain ⟨diagnostics, rfl⟩ := useful
    cases opened : service.document? ticket.uri with
    | none =>
        by_cases here : ticket.uri = uri
        · subst uri
          simp [publish, opened]
        · simp [publish, opened, here]
    | some document =>
        have stored := document?_insert service ticket.uri uri
          { document with published := some diagnostics } service.nextVersion
        by_cases current : document.version = ticket.version
        · by_cases here : ticket.uri = uri
          · subst uri
            simpa [publish, Document.received, opened, current] using stored
          · simpa [publish, opened, current, here] using stored
        · by_cases here : ticket.uri = uri
          · subst uri
            simp [publish, Document.received, opened, current]
          · simp [publish, opened, current, here]
  · obtain ⟨kept, same⟩ :=
      publish_useless service ticket fun diagnostics equal => useful ⟨diagnostics, equal⟩
    rw [kept, same]
    simp

theorem publish_frame (service : Service) (ticket : Ticket) (result : CheckResult) :
    (service.publish ticket result).2.engine = service.engine ∧
      (service.publish ticket result).2.nextVersion = service.nextVersion := by
  unfold publish
  split
  · split <;> exact ⟨rfl, rfl⟩
  · exact ⟨rfl, rfl⟩

theorem document?_refresh {service : Service} (sound : service.engine.Sound library)
    (uri other : String) :
    (service.refresh library uri).document? other =
      if uri = other then (service.document? other).map (Document.checked library)
      else service.document? other := by
  unfold refresh begin?
  cases opened : service.document? uri with
  | none =>
      by_cases here : uri = other
      · subst other
        simp [opened]
      · simp [here]
  | some document =>
      simp only [Option.map_some]
      rw [document?_publish, document?_compute, compute_answer sound _ opened]
      by_cases here : uri = other
      · subst other
        simp only [if_true, opened, Option.map_some, Option.some.injEq]
        unfold Document.received Document.checked found?
        split <;> simp_all
      · simp [here]

theorem refresh_sound {service : Service} (sound : service.engine.Sound library) (uri : String) :
    (service.refresh library uri).engine.Sound library := by
  unfold refresh
  split
  · exact sound
  · rename_i ticket begun
    simp only [(publish_frame _ _ _).1]
    exact compute_sound sound ticket

theorem nextVersion_refresh (service : Service) (uri : String) :
    (service.refresh library uri).nextVersion = service.nextVersion := by
  unfold refresh
  split
  · rfl
  · simp only [(publish_frame _ _ _).2, nextVersion_compute]

/-! What a call does to one document, all calls together. -/

def effect (library : GrammarLibrary) (uri : String) (next : Nat) :
    Call → Option Document → Option Document
  | .openDocument target editorId text, document =>
      if target = uri then some (Document.checked library ⟨editorId, text, next, none⟩)
      else document
  | .changeText target text, document =>
      if target = uri then
        document.map fun old => Document.checked library { old with text, version := next }
      else document
  | .focusDocument target, document =>
      if target = uri then document.map (Document.checked library) else document
  | .closeDocument target, document => if target = uri then none else document
  | .beginPass _, document => document
  | .compute _, document => document
  | .publish ticket result, document =>
      if ticket.uri = uri then document.map (Document.received ticket.version result) else document

theorem document?_step {service : Service} (sound : service.engine.Sound library) (call : Call)
    (uri : String) :
    (step library service call).document? uri =
      effect library uri service.nextVersion call (service.document? uri) := by
  cases call with
  | openDocument target editorId text =>
      simp only [step, openDocument]
      rw [document?_refresh, document?_insert]
      · by_cases here : target = uri
        · simp [effect, here]
        · simp [effect, here]
      · exact sound
  | changeText target text =>
      simp only [step, changeText]
      cases opened : service.document? target with
      | none =>
          by_cases here : target = uri
          · subst uri
            simp [effect, opened]
          · simp [effect, here]
      | some document =>
          simp only
          rw [document?_refresh, document?_insert]
          · by_cases here : target = uri
            · subst uri
              simp [effect, opened]
            · simp [effect, here]
          · exact sound
  | focusDocument target => exact document?_refresh sound target uri
  | closeDocument target =>
      simp [step, closeDocument, effect, document?, Std.HashMap.getElem?_erase]
  | beginPass target => rfl
  | compute ticket => exact document?_compute service ticket uri
  | publish ticket result => exact document?_publish service ticket result uri

theorem step_sound {service : Service} (sound : service.engine.Sound library) (call : Call) :
    (step library service call).engine.Sound library := by
  cases call with
  | openDocument target editorId text =>
      apply refresh_sound
      exact sound
  | changeText target text =>
      simp only [step, changeText]
      split
      · exact sound
      · apply refresh_sound
        exact sound
  | focusDocument target => exact refresh_sound sound target
  | closeDocument target => exact sound
  | beginPass target => exact sound
  | compute ticket => exact compute_sound sound ticket
  | publish ticket result =>
      simp only [step, (publish_frame _ _ _).1]
      exact sound

def versionsTaken (service : Service) : Call → Nat
  | .openDocument _ _ _ => 1
  | .changeText uri _ => if (service.document? uri).isSome then 1 else 0
  | _ => 0

theorem nextVersion_step (library : GrammarLibrary) (service : Service) (call : Call) :
    (step library service call).nextVersion = service.nextVersion + versionsTaken service call := by
  cases call with
  | openDocument uri editorId text => simp [step, openDocument, nextVersion_refresh, versionsTaken]
  | changeText uri text =>
      cases opened : service.document? uri with
      | none => simp [step, changeText, versionsTaken, opened]
      | some document => simp [step, changeText, nextVersion_refresh, versionsTaken, opened]
  | focusDocument uri => exact nextVersion_refresh service uri
  | closeDocument uri => rfl
  | beginPass uri => rfl
  | compute ticket => exact nextVersion_compute service ticket
  | publish ticket result => exact (publish_frame service ticket result).2

theorem nextVersion_run_le (library : GrammarLibrary) (service : Service) (calls : List Call) :
    service.nextVersion ≤ (run library service calls).nextVersion := by
  induction calls generalizing service with
  | nil => exact Nat.le_refl _
  | cons call rest ih =>
      have here := nextVersion_step library service call
      have later := ih (step library service call)
      rw [run_cons]
      omega

/-- A document after a call either is as it was, up to what is published for it, or has the version
that the call has just given out. -/
theorem step_cases {service : Service} (sound : service.engine.Sound library) {call : Call}
    {uri : String} {after : Document}
    (opened : (step library service call).document? uri = some after) :
    (∃ before, service.document? uri = some before ∧ after.editorId = before.editorId ∧
        after.text = before.text ∧ after.version = before.version) ∨
      (after.version = service.nextVersion ∧
        service.nextVersion < (step library service call).nextVersion) := by
  have bumped := nextVersion_step library service call
  rw [document?_step sound] at opened
  cases call with
  | openDocument target editorId text =>
      by_cases here : target = uri
      · simp only [effect, here, if_true, Option.some.injEq] at opened
        subst after
        exact .inr ⟨rfl, by simp only [versionsTaken] at bumped; omega⟩
      · simp only [effect, here, if_false] at opened
        exact .inl ⟨after, opened, rfl, rfl, rfl⟩
  | changeText target text =>
      by_cases here : target = uri
      · subst target
        simp only [effect, if_true, Option.map_eq_some_iff] at opened
        obtain ⟨before, was, rfl⟩ := opened
        refine .inr ⟨rfl, ?_⟩
        simp only [versionsTaken, was, Option.isSome_some, if_true] at bumped
        omega
      · simp only [effect, here, if_false] at opened
        exact .inl ⟨after, opened, rfl, rfl, rfl⟩
  | focusDocument target =>
      by_cases here : target = uri
      · simp only [effect, here, if_true, Option.map_eq_some_iff] at opened
        obtain ⟨before, was, rfl⟩ := opened
        exact .inl ⟨before, was, rfl, rfl, rfl⟩
      · simp only [effect, here, if_false] at opened
        exact .inl ⟨after, opened, rfl, rfl, rfl⟩
  | closeDocument target =>
      by_cases here : target = uri
      · simp [effect, here] at opened
      · simp only [effect, here, if_false] at opened
        exact .inl ⟨after, opened, rfl, rfl, rfl⟩
  | beginPass target => exact .inl ⟨after, opened, rfl, rfl, rfl⟩
  | compute ticket => exact .inl ⟨after, opened, rfl, rfl, rfl⟩
  | publish ticket result =>
      by_cases here : ticket.uri = uri
      · simp only [effect, here, if_true, Option.map_eq_some_iff] at opened
        obtain ⟨before, was, rfl⟩ := opened
        exact .inl ⟨before, was, Document.received_keeps _ _ _⟩
      · simp only [effect, here, if_false] at opened
        exact .inl ⟨after, opened, rfl, rfl, rfl⟩

structure Consistent (library : GrammarLibrary) (service : Service) : Prop where
  sound : service.engine.Sound library
  numbered : ∀ uri document, service.document? uri = some document →
    document.version < service.nextVersion

theorem consistent_empty (library : GrammarLibrary) (grammars : GrammarCache) :
    Consistent library (empty (Engine.ofGrammars grammars)) where
  sound := Engine.sound_ofGrammars library grammars
  numbered := by
    intro uri document opened
    simp [empty, document?] at opened

theorem Consistent.step {service : Service} (consistent : Consistent library service)
    (call : Call) : Consistent library (step library service call) where
  sound := step_sound consistent.sound call
  numbered := by
    intro uri after opened
    have bumped := nextVersion_step library service call
    rcases step_cases consistent.sound opened with ⟨before, was, _, _, version⟩ | ⟨version, grown⟩
    · have older := consistent.numbered uri before was
      omega
    · omega

/-- A result that fits its ticket: the ticket's version has been given out, and whenever the
document is at that version, the result is what a check of the document answers. -/
structure Fits (library : GrammarLibrary) (service : Service) (ticket : Ticket)
    (result : CheckResult) : Prop where
  issued : ticket.version < service.nextVersion
  current : ∀ document, service.document? ticket.uri = some document →
    document.version = ticket.version →
    Engine.freshAnswer library document.editorId document.text = result

theorem Fits.step {service : Service} (consistent : Consistent library service) {ticket : Ticket}
    {result : CheckResult} (fits : Fits library service ticket result) (call : Call) :
    Fits library (step library service call) ticket result where
  issued := by
    have bumped := nextVersion_step library service call
    have older := fits.issued
    omega
  current := by
    intro after opened version
    rcases step_cases consistent.sound opened with
      ⟨before, was, editorId, text, same⟩ | ⟨newest, _⟩
    · rw [editorId, text]
      exact fits.current before was (by omega)
    · have older := fits.issued
      omega

theorem Consistent.run {service : Service} (consistent : Consistent library service)
    (calls : List Call) : Consistent library (run library service calls) := by
  induction calls generalizing service with
  | nil => exact consistent
  | cons call rest ih => exact ih (consistent.step call)

theorem Fits.run {service : Service} (consistent : Consistent library service) {ticket : Ticket}
    {result : CheckResult} (fits : Fits library service ticket result) (calls : List Call) :
    Fits library (run library service calls) ticket result := by
  induction calls generalizing service with
  | nil => exact fits
  | cons call rest ih => exact ih (consistent.step call) (fits.step consistent call)

end Service

end QueryWorkbench
