import QueryWorkbench.Language.Answers
import QueryWorkbench.Proofs.ServiceRuns

/-! How long a ticket counts. A document has a version only from the call that opened or edited it
last, and no version is given out twice; so a ticket holds until its document is touched and never
again. -/

namespace QueryWorkbench

def Call.Touches (uri : String) : Call → Prop
  | .openDocument target _ _ => target = uri
  | .changeText target _ => target = uri
  | .closeDocument target => target = uri
  | _ => False

namespace Service

variable {library : GrammarLibrary}

theorem begin?_eq (service : Service) (uri : String) :
    service.begin? uri = (service.version? uri).map (Ticket.mk uri) := by
  rw [begin?, version?, Option.map_map]
  rfl

theorem version?_publish (service : Service) (ticket : Ticket) (result : CheckResult)
    (uri : String) : (service.publish ticket result).2.version? uri = service.version? uri := by
  simp only [version?, document?_publish]
  split
  · rw [Option.map_map]
    congr 1
    funext document
    exact (document.received_keeps ticket.version result).2.2
  · rfl

theorem version?_compute (service : Service) (ticket : Ticket) (uri : String) :
    (service.compute library ticket).2.version? uri = service.version? uri := by
  rw [version?, document?_compute, version?]

theorem version?_refresh (service : Service) (uri other : String) :
    (service.refresh library uri).version? other = service.version? other := by
  unfold refresh
  split
  · rfl
  · simp only [version?_publish, version?_compute]

theorem version?_insert (service : Service) (uri other : String) (document : Document)
    (next : Nat) :
    version? { service with
      documents := service.documents.insert uri document, nextVersion := next } other =
      if uri = other then some document.version else service.version? other := by
  rw [version?, document?_insert, version?]
  split <;> rfl

def versionAfter (uri : String) (next : Nat) : Call → Option Nat → Option Nat
  | .openDocument target _ _, version => if target = uri then some next else version
  | .changeText target _, version => if target = uri then version.map fun _ => next else version
  | .closeDocument target, version => if target = uri then none else version
  | _, version => version

theorem version?_step (service : Service) (call : Call) (uri : String) :
    (step library service call).version? uri =
      versionAfter uri service.nextVersion call (service.version? uri) := by
  cases call with
  | openDocument target editorId text =>
      simp only [step, openDocument, version?_refresh, version?_insert, versionAfter]
  | changeText target text =>
      cases opened : service.document? target with
      | none =>
          by_cases here : target = uri
          · subst uri
            simp [step, changeText, versionAfter, version?, opened]
          · simp [step, changeText, versionAfter, opened, here]
      | some document =>
          simp only [step, changeText, opened, version?_refresh, version?_insert, versionAfter]
          by_cases here : target = uri
          · subst uri
            simp [version?, opened]
          · simp [here]
  | focusDocument target => exact version?_refresh service target uri
  | closeDocument target =>
      simp only [step, closeDocument, versionAfter, version?, document?, Std.HashMap.getElem?_erase]
      by_cases here : target = uri <;> simp [here]
  | beginPass target => rfl
  | compute ticket => exact version?_compute service ticket uri
  | publish ticket result => exact version?_publish service ticket result uri

theorem version?_step_untouched {call : Call} {uri : String} (untouched : ¬ call.Touches uri)
    (service : Service) : (step library service call).version? uri = service.version? uri := by
  rw [version?_step]
  cases call <;> simp_all [Call.Touches, versionAfter]

theorem version?_step_touched {call : Call} {uri : String} (touched : call.Touches uri)
    {service : Service} {version : Nat}
    (used : (step library service call).version? uri = some version) :
    version = service.nextVersion ∧
    service.nextVersion < (step library service call).nextVersion := by
  have bumped := nextVersion_step library service call
  rw [version?_step] at used
  cases call with
  | openDocument target editorId text =>
      obtain rfl : target = uri := touched
      simp only [versionAfter, if_true, Option.some.injEq] at used
      simp only [versionsTaken] at bumped
      omega
  | changeText target text =>
      obtain rfl : target = uri := touched
      simp only [versionAfter, if_true, version?, Option.map_map, Option.map_eq_some_iff] at used
      obtain ⟨document, opened, newest⟩ := used
      simp only [versionsTaken, opened, Option.isSome_some, if_true] at bumped
      simp only [Function.comp_apply] at newest
      omega
  | closeDocument target =>
      obtain rfl : target = uri := touched
      simp [versionAfter] at used
  | _ => exact touched.elim

def Numbered (service : Service) : Prop :=
  ∀ uri version, service.version? uri = some version → version < service.nextVersion

theorem numbered_empty (engine : Engine) : Numbered (empty engine) := by
  intro uri version used
  simp [empty, version?, document?] at used

theorem Numbered.step {service : Service} (numbered : Numbered service) (call : Call) :
    Numbered (step library service call) := by
  intro uri version used
  by_cases touched : call.Touches uri
  · have newest := version?_step_touched touched used
    omega
  · rw [version?_step_untouched touched] at used
    have older := numbered uri version used
    have bumped := nextVersion_step library service call
    omega

theorem Numbered.run {service : Service} (numbered : Numbered service) (calls : List Call) :
    Numbered (run library service calls) := by
  induction calls generalizing service with
  | nil => exact numbered
  | cons call rest ih => exact ih (numbered.step call)

/-- The version that the ticket names was given out, and its document is not at it any more. -/
structure Expired (service : Service) (ticket : Ticket) : Prop where
  issued : ticket.version < service.nextVersion
  moved : service.version? ticket.uri ≠ some ticket.version

theorem expired_of_touched {service : Service} {ticket : Ticket} {call : Call}
    (issued : ticket.version < service.nextVersion) (touched : call.Touches ticket.uri) :
    Expired (step library service call) ticket where
  issued := by
    have bumped := nextVersion_step library service call
    omega
  moved := by
    intro used
    have newest := version?_step_touched touched used
    omega

theorem Expired.step {service : Service} {ticket : Ticket} (expired : Expired service ticket)
    (call : Call) : Expired (step library service call) ticket := by
  by_cases touched : call.Touches ticket.uri
  · exact expired_of_touched expired.issued touched
  · refine ⟨?_, ?_⟩
    · have bumped := nextVersion_step library service call
      have issued := expired.issued
      omega
    · rw [version?_step_untouched touched]
      exact expired.moved

theorem Expired.run {service : Service} {ticket : Ticket} (expired : Expired service ticket)
    (calls : List Call) : Expired (run library service calls) ticket := by
  induction calls generalizing service with
  | nil => exact expired
  | cons call rest ih => exact ih (expired.step call)

theorem version?_run_iff {service : Service} {uri : String} {version : Nat}
    (numbered : Numbered service) (current : service.version? uri = some version)
    (calls : List Call) :
    (run library service calls).version? uri = some version ↔
      ∀ call ∈ calls, ¬ call.Touches uri := by
  induction calls generalizing service with
  | nil => simpa [run] using current
  | cons call rest ih =>
      rw [run_cons, List.forall_mem_cons]
      by_cases touched : call.Touches uri
      · -- From here on the version lies below the counter, so no later call can give it out again.
        have expired : Expired (step library service call) ⟨uri, version⟩ :=
          expired_of_touched (numbered _ _ current) touched
        simp [touched, (expired.run rest).moved]
      · have kept : (step library service call).version? uri = service.version? uri :=
          version?_step_untouched touched service
        rw [and_iff_right touched]
        exact ih (numbered.step call) (kept.trans current)

theorem publish_answer {service : Service} {ticket : Ticket} {result : CheckResult} :
    (service.publish ticket result).1 = true ↔
      (∃ diagnostics, result = .ok (some diagnostics)) ∧
        service.version? ticket.uri = some ticket.version := by
  unfold publish
  split
  · rename_i document diagnostics opened
    split
    · rename_i current
      simp [version?, opened, current]
    · rename_i moved
      simp [version?, opened, moved]
  · rename_i useless
    simp only [Bool.false_eq_true, false_iff, not_and]
    rintro ⟨diagnostics, rfl⟩ current
    simp only [version?, Option.map_eq_some_iff] at current
    obtain ⟨document, opened, _⟩ := current
    exact useless document diagnostics opened rfl

theorem publish_discarded {service : Service} {ticket : Ticket} {result : CheckResult}
    (discarded : (service.publish ticket result).1 = false) :
    (service.publish ticket result).2 = service := by
  unfold publish at discarded ⊢
  split
  · split
    · simp_all
    · rfl
  · rfl

structure OnlyPublished (service after : Service) (uri : String) (diagnostics : List Diagnostic) :
    Prop where
  engine : after.engine = service.engine
  nextVersion : after.nextVersion = service.nextVersion
  others : ∀ other, other ≠ uri → after.document? other = service.document? other
  document : ∃ document, service.document? uri = some document ∧
    after.document? uri = some { document with published := some diagnostics }

theorem publish_stored {service : Service} {ticket : Ticket} {diagnostics : List Diagnostic}
    (current : service.version? ticket.uri = some ticket.version) :
    OnlyPublished service (service.publish ticket (.ok (some diagnostics))).2 ticket.uri
      diagnostics where
  engine := (publish_frame service ticket _).1
  nextVersion := (publish_frame service ticket _).2
  others := by
    intro other elsewhere
    rw [document?_publish, if_neg (Ne.symm elsewhere)]
  document := by
    simp only [version?, Option.map_eq_some_iff] at current
    obtain ⟨document, opened, atVersion⟩ := current
    refine ⟨document, opened, ?_⟩
    rw [document?_publish, if_pos rfl, opened, Option.map_some]
    simp only [Document.received, atVersion, if_true]

/-- A ticket that was handed out in a run is honoured later exactly while no call has opened, edited
or closed its document since, and only for a result that has diagnostics. Those are then published,
and nothing else changes; otherwise nothing changes at all. -/
theorem publish_honours_ticket (library : GrammarLibrary) (engine : Engine)
    (before between : List Call) (uri : String) (ticket : Ticket)
    (begun : (run library (empty engine) before).begin? uri = some ticket) (result : CheckResult) :
    let service := run library (empty engine) (before ++ .beginPass uri :: between)
    ((service.publish ticket result).1 = true ↔
      (∃ diagnostics, result = .ok (some diagnostics)) ∧ ∀ call ∈ between, ¬ call.Touches uri) ∧
    ((service.publish ticket result).1 = true → ∃ diagnostics, result = .ok (some diagnostics) ∧
      OnlyPublished service (service.publish ticket result).2 uri diagnostics) ∧
    ((service.publish ticket result).1 = false → (service.publish ticket result).2 = service) := by
  intro service
  have numbered : Numbered (run library (empty engine) before) := (numbered_empty engine).run before
  rw [begin?_eq, Option.map_eq_some_iff] at begun
  obtain ⟨version, current, rfl⟩ := begun
  have untouched : service.version? uri = some version ↔ ∀ call ∈ between, ¬ call.Touches uri := by
    have reached : service = run library (run library (empty engine) before) between :=
      run_append _ before _
    rw [reached]
    exact version?_run_iff numbered current between
  refine ⟨?_, ?_, publish_discarded⟩
  · rw [publish_answer, untouched]
  · intro stored
    obtain ⟨⟨diagnostics, rfl⟩, still⟩ := publish_answer.mp stored
    exact ⟨diagnostics, rfl, publish_stored still⟩

def openedNotes : List Call := [.openDocument "notes" "scm" []]

def callsBeside : List Call :=
  [.openDocument "other" "scm" [], .changeText "other" [' '], .focusDocument "notes",
    .closeDocument "other"]

def callsReopening : List Call := [.closeDocument "notes", .openDocument "notes" "scm" []]

def lenientLibrary : GrammarLibrary := .ofAnswers [] []

theorem publish_honours_ticket_reopened :
    (run lenientLibrary (empty Engine.empty) openedNotes).begin? "notes" = some ⟨"notes", 0⟩ ∧
      ((run lenientLibrary (empty Engine.empty)
        (openedNotes ++ .beginPass "notes" :: callsBeside)).publish
        ⟨"notes", 0⟩ (.ok (some []))).1 = true ∧
      ((run lenientLibrary (empty Engine.empty)
        (openedNotes ++ .beginPass "notes" :: callsReopening)).publish
        ⟨"notes", 0⟩ (.ok (some []))).1 = false := by
  have begun :
      (run lenientLibrary (empty Engine.empty) openedNotes).begin? "notes" = some ⟨"notes", 0⟩ := by
    simp [begin?_eq, run, openedNotes, version?_step, versionAfter, empty]
  refine ⟨begun, ?_, ?_⟩
  · rw [(publish_honours_ticket lenientLibrary Engine.empty openedNotes callsBeside
      "notes" _ begun _).1]
    simp [callsBeside, Call.Touches]
  · rw [Bool.eq_false_iff, Ne,
      (publish_honours_ticket lenientLibrary Engine.empty openedNotes callsReopening
        "notes" _ begun _).1]
    simp [callsReopening, Call.Touches]

end Service

end QueryWorkbench
