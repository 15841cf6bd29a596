import Mathlib.Order.Monotone.Basic
import QueryWorkbench.Proofs.EngineRuns
import QueryWorkbench.Proofs.TicketLifetimes

/-! Documents of one service do not influence each other. They share the engine and the counter of
versions; a run and the part of it that is about one document are compared step by step, and stay
alike up to an increasing renumbering of versions. -/

namespace QueryWorkbench

/-- A step of an editor. A ticket is named by the pass that it was handed out for; the passes of
each document are counted by themselves. -/
inductive Move where
  | openDocument (uri editorId : String) (text : Text)
  | changeText (uri : String) (text : Text)
  | focusDocument (uri : String)
  | closeDocument (uri : String)
  | beginPass (uri : String)
  | compute (uri : String) (pass : Nat)
  | publish (uri : String) (pass : Nat) (result : CheckResult)

def Move.uri : Move → String
  | .openDocument uri _ _ => uri
  | .changeText uri _ => uri
  | .focusDocument uri => uri
  | .closeDocument uri => uri
  | .beginPass uri => uri
  | .compute uri _ => uri
  | .publish uri _ _ => uri

inductive Answer where
  | done
  | begun (ticket : Option Ticket)
  | computed (result : CheckResult)
  | published (stored : Bool)
  | noTicket

/-- The service, and for each document the tickets of its passes so far; a pass over a closed
document has none. -/
structure Editor where
  service : Service
  tickets : String → List (Option Ticket)

namespace Editor

def start (engine : Engine) : Editor := ⟨.empty engine, fun _ => []⟩

def ticket? (editor : Editor) (uri : String) (pass : Nat) : Option Ticket :=
  (editor.tickets uri)[pass]?.join

def call? (editor : Editor) : Move → Option Call
  | .openDocument uri editorId text => some (.openDocument uri editorId text)
  | .changeText uri text => some (.changeText uri text)
  | .focusDocument uri => some (.focusDocument uri)
  | .closeDocument uri => some (.closeDocument uri)
  | .beginPass uri => some (.beginPass uri)
  | .compute uri pass => (editor.ticket? uri pass).map .compute
  | .publish uri pass result => (editor.ticket? uri pass).map (.publish · result)

def answer (library : GrammarLibrary) (editor : Editor) : Move → Answer
  | .beginPass uri => .begun (editor.service.begin? uri)
  | .compute uri pass =>
      (editor.ticket? uri pass).elim .noTicket fun ticket =>
        .computed (editor.service.compute library ticket).1
  | .publish uri pass result =>
      (editor.ticket? uri pass).elim .noTicket fun ticket =>
        .published (editor.service.publish ticket result).1
  | _ => .done

def noted (editor : Editor) (move : Move) (uri : String) : List (Option Ticket) :=
  match move with
  | .beginPass target =>
      if target = uri then editor.tickets uri ++ [editor.service.begin? uri] else editor.tickets uri
  | _ => editor.tickets uri

def step (library : GrammarLibrary) (editor : Editor) (move : Move) : Editor where
  service := (editor.call? move).elim editor.service (Service.step library editor.service)
  tickets := editor.noted move

def run (library : GrammarLibrary) (editor : Editor) (moves : List Move) : Editor :=
  moves.foldl (step library) editor

end Editor

structure Observation where
  answer : Answer
  version : Option Nat

def Editor.observe (library : GrammarLibrary) (uri : String) (editor : Editor) :
    List Move → List Observation
  | [] => []
  | move :: rest =>
      let next := editor.step library move
      if move.uri = uri then
        ⟨editor.answer library move, next.service.version? uri⟩ :: next.observe library uri rest
      else next.observe library uri rest

/-! Renumbering the versions. -/

def Document.renumbered (rename : Nat → Nat) (document : Document) : Document :=
  { document with version := rename document.version }

def Ticket.renumbered (rename : Nat → Nat) (ticket : Ticket) : Ticket :=
  { ticket with version := rename ticket.version }

def Call.renumbered (rename : Nat → Nat) : Call → Call
  | .compute ticket => .compute (ticket.renumbered rename)
  | .publish ticket result => .publish (ticket.renumbered rename) result
  | call => call

def Answer.renumbered (rename : Nat → Nat) : Answer → Answer
  | .begun ticket => .begun (ticket.map (Ticket.renumbered rename))
  | answer => answer

def Observation.renumbered (rename : Nat → Nat) (observation : Observation) : Observation :=
  ⟨observation.answer.renumbered rename, observation.version.map rename⟩

def Call.uri : Call → String
  | .openDocument uri _ _ => uri
  | .changeText uri _ => uri
  | .focusDocument uri => uri
  | .closeDocument uri => uri
  | .beginPass uri => uri
  | .compute ticket => ticket.uri
  | .publish ticket _ => ticket.uri

theorem Call.uri_renumbered (rename : Nat → Nat) (call : Call) :
    (call.renumbered rename).uri = call.uri := by
  cases call <;> rfl

namespace Service

variable {library : GrammarLibrary} {uri : String} {rename : Nat → Nat} {full own : Service}

theorem received_renumbered (injective : Function.Injective rename) (version : Nat)
    (result : CheckResult) (document : Document) :
    (document.renumbered rename).received (rename version) result =
      (document.received version result).renumbered rename := by
  unfold Document.received
  split
  · by_cases current : document.version = version
    · simp [Document.renumbered, current]
    · simp [Document.renumbered, current, injective.eq_iff]
  · rfl

theorem effect_renumbered (injective : Function.Injective rename) (next : Nat) (call : Call)
    (document : Option Document) :
    effect library uri (rename next) (call.renumbered rename)
      (document.map (Document.renumbered rename)) =
      (effect library uri next call document).map (Document.renumbered rename) := by
  cases call with
  | publish ticket result =>
      by_cases here : ticket.uri = uri
      · simp only [Call.renumbered, effect, Ticket.renumbered, here, if_true, Option.map_map]
        congr 1
        funext document
        exact received_renumbered injective ticket.version result document
      · simp [Call.renumbered, effect, Ticket.renumbered, here]
  | beginPass target => rfl
  | compute ticket => rfl
  | openDocument target editorId text =>
      by_cases here : target = uri
      · simp [Call.renumbered, effect, here, Document.checked, Document.renumbered]
      · simp [Call.renumbered, effect, here]
  | changeText target text =>
      by_cases here : target = uri
      · simp [Call.renumbered, effect, here, Document.checked, Document.renumbered,
          Function.comp_def]
      · simp [Call.renumbered, effect, here]
  | focusDocument target =>
      by_cases here : target = uri
      · simp [Call.renumbered, effect, here, Document.checked, Document.renumbered,
          Function.comp_def]
      · simp [Call.renumbered, effect, here]
  | closeDocument target =>
      by_cases here : target = uri <;> simp [Call.renumbered, effect, here]

theorem effect_elsewhere {call : Call} (elsewhere : call.uri ≠ uri) (next : Nat)
    (document : Option Document) :
    effect library uri next call document = document := by
  cases call <;> simp_all [Call.uri, effect]

/-- Two services that agree on one document up to a renumbering, which takes the versions that are
still to be given out in the one to those in the other. -/
structure Alike (library : GrammarLibrary) (uri : String) (rename : Nat → Nat)
    (full own : Service) : Prop where
  soundFull : full.engine.Sound library
  soundOwn : own.engine.Sound library
  increasing : StrictMono rename
  aligned : ∀ count, rename (own.nextVersion + count) = full.nextVersion + count
  document : full.document? uri = (own.document? uri).map (Document.renumbered rename)
  numbered : Numbered own

theorem Alike.version? (alike : Alike library uri rename full own) :
    full.version? uri = (own.version? uri).map rename := by
  simp only [Service.version?, alike.document, Option.map_map]
  rfl

theorem Alike.diagnostics? (alike : Alike library uri rename full own) :
    full.diagnostics? uri = own.diagnostics? uri := by
  rw [Service.diagnostics?, Service.diagnostics?, alike.document]
  cases own.document? uri <;> rfl

theorem Alike.begin? (alike : Alike library uri rename full own) :
    full.begin? uri = (own.begin? uri).map (Ticket.renumbered rename) := by
  rw [begin?_eq, begin?_eq, alike.version?, Option.map_map, Option.map_map]
  rfl

theorem Alike.compute (alike : Alike library uri rename full own) {ticket : Ticket}
    (about : ticket.uri = uri) :
    (full.compute library (ticket.renumbered rename)).1 = (own.compute library ticket).1 := by
  subst about
  cases opened : own.document? ticket.uri with
  | none =>
      have closed : full.document? ticket.uri = none := by
        rw [alike.document, opened, Option.map_none]
      simp [Service.compute, Ticket.renumbered, opened, closed]
  | some document =>
      have mirrored : full.document? ticket.uri = some (document.renumbered rename) := by
        rw [alike.document, opened, Option.map_some]
      rw [compute_answer alike.soundOwn ticket opened,
        compute_answer alike.soundFull (ticket.renumbered rename) mirrored]
      rfl

theorem Alike.publish (alike : Alike library uri rename full own) {ticket : Ticket}
    (about : ticket.uri = uri) (result : CheckResult) :
    (full.publish (ticket.renumbered rename) result).1 = (own.publish ticket result).1 := by
  have current : full.version? uri = some (rename ticket.version) ↔
      own.version? uri = some ticket.version := by
    rw [alike.version?, ← Option.map_some, (Option.map_injective alike.increasing.injective).eq_iff]
  rw [Bool.eq_iff_iff, publish_answer, publish_answer, about]
  exact and_congr_right' (about ▸ current)

theorem Alike.versionsTaken (alike : Alike library uri rename full own) {call : Call}
    (about : call.uri = uri) :
    versionsTaken full (call.renumbered rename) = versionsTaken own call := by
  cases call with
  | changeText target text =>
      obtain rfl : target = uri := about
      simp [Call.renumbered, Service.versionsTaken, alike.document]
  | _ => rfl

theorem Alike.call (alike : Alike library uri rename full own) {call : Call}
    (about : call.uri = uri) :
    Alike library uri rename (step library full (call.renumbered rename))
      (step library own call) where
  soundFull := step_sound alike.soundFull _
  soundOwn := step_sound alike.soundOwn call
  increasing := alike.increasing
  aligned := by
    intro count
    rw [nextVersion_step, nextVersion_step, alike.versionsTaken about, Nat.add_assoc, Nat.add_assoc]
    exact alike.aligned _
  document := by
    have next : rename own.nextVersion = full.nextVersion := alike.aligned 0
    rw [document?_step alike.soundFull, document?_step alike.soundOwn, ← next, alike.document]
    exact effect_renumbered alike.increasing.injective _ call _
  numbered := alike.numbered.step call

def shifted (rename : Nat → Nat) (next taken : Nat) (version : Nat) : Nat :=
  if version < next then rename version else rename version + taken

theorem shifted_below {next taken version : Nat} (below : version < next) :
    shifted rename next taken version = rename version := if_pos below

theorem shifted_increasing (increasing : StrictMono rename) (next taken : Nat) :
    StrictMono (shifted rename next taken) := by
  intro first second less
  have before := increasing less
  unfold shifted
  split <;> split <;> omega

theorem Alike.elsewhere (alike : Alike library uri rename full own) {call : Call}
    (elsewhere : call.uri ≠ uri) :
    Alike library uri (shifted rename own.nextVersion (Service.versionsTaken full call))
      (step library full call)
      own where
  soundFull := step_sound alike.soundFull call
  soundOwn := alike.soundOwn
  increasing := shifted_increasing alike.increasing _ _
  aligned := by
    intro count
    have ahead := alike.aligned count
    rw [nextVersion_step, shifted, if_neg (by omega), ahead]
    omega
  document := by
    rw [document?_step alike.soundFull, effect_elsewhere elsewhere, alike.document]
    apply Option.map_congr
    intro document opened
    have below : document.version < own.nextVersion := by
      apply alike.numbered uri
      rw [Service.version?, opened, Option.map_some]
    rw [Document.renumbered, Document.renumbered, shifted_below below]
  numbered := alike.numbered

end Service

/-! Whole runs. -/

namespace Editor

variable {library : GrammarLibrary} {uri : String} {rename : Nat → Nat} {full own : Editor}

structure Mirrors (library : GrammarLibrary) (uri : String) (rename : Nat → Nat)
    (full own : Editor) : Prop where
  alike : Service.Alike library uri rename full.service own.service
  tickets : full.tickets uri = (own.tickets uri).map (Option.map (Ticket.renumbered rename))
  addressed : ∀ other ticket, some ticket ∈ full.tickets other → ticket.uri = other
  issued : ∀ ticket, some ticket ∈ own.tickets uri → ticket.version < own.service.nextVersion

theorem mem_of_ticket? {editor : Editor} {pass : Nat} {ticket : Ticket}
    (named : editor.ticket? uri pass = some ticket) : some ticket ∈ editor.tickets uri := by
  rw [ticket?, Option.join_eq_some_iff] at named
  exact List.mem_of_getElem? named

theorem addressed_noted
    (addressed : ∀ other ticket, some ticket ∈ full.tickets other → ticket.uri = other)
    (move : Move) : ∀ other ticket, some ticket ∈ full.noted move other → ticket.uri = other := by
  intro other ticket member
  cases move with
  | beginPass target =>
      by_cases here : target = other
      · simp only [noted, here, if_true, List.mem_append, List.mem_singleton] at member
        rcases member with earlier | begun
        · exact addressed other ticket earlier
        · rw [Service.begin?_eq, eq_comm, Option.map_eq_some_iff] at begun
          obtain ⟨version, _, rfl⟩ := begun
          rfl
      · simp only [noted, here, if_false] at member
        exact addressed other ticket member
  | _ => exact addressed other ticket member

theorem uri_of_call?
    (addressed : ∀ other ticket, some ticket ∈ full.tickets other → ticket.uri = other)
    {move : Move} {call : Call} (called : full.call? move = some call) : call.uri = move.uri := by
  cases move with
  | compute target pass =>
      obtain ⟨ticket, named, rfl⟩ := Option.map_eq_some_iff.mp called
      exact addressed target ticket (mem_of_ticket? named)
  | publish target pass result =>
      obtain ⟨ticket, named, rfl⟩ := Option.map_eq_some_iff.mp called
      exact addressed target ticket (mem_of_ticket? named)
  | _ =>
      obtain rfl := Option.some.inj called
      rfl

theorem Mirrors.ticket? (mirrors : Mirrors library uri rename full own) (pass : Nat) :
    full.ticket? uri pass = (own.ticket? uri pass).map (Ticket.renumbered rename) := by
  rw [Editor.ticket?, Editor.ticket?, mirrors.tickets, List.getElem?_map]
  cases (own.tickets uri)[pass]? <;> rfl

theorem Mirrors.ownAddressed (mirrors : Mirrors library uri rename full own) {pass : Nat}
    {ticket : Ticket} (named : own.ticket? uri pass = some ticket) : ticket.uri = uri := by
  have mirrored : full.ticket? uri pass = some (ticket.renumbered rename) := by
    rw [mirrors.ticket?, named, Option.map_some]
  have addressed := mirrors.addressed uri _ (mem_of_ticket? mirrored)
  exact addressed

theorem Mirrors.call? (mirrors : Mirrors library uri rename full own) {move : Move}
    (about : move.uri = uri) : full.call? move = (own.call? move).map (Call.renumbered rename) := by
  cases move with
  | compute target pass =>
      obtain rfl : target = uri := about
      simp only [Editor.call?, mirrors.ticket?, Option.map_map]
      rfl
  | publish target pass result =>
      obtain rfl : target = uri := about
      simp only [Editor.call?, mirrors.ticket?, Option.map_map]
      rfl
  | _ => rfl

theorem Mirrors.answer (mirrors : Mirrors library uri rename full own) {move : Move}
    (about : move.uri = uri) :
    full.answer library move = (own.answer library move).renumbered rename := by
  cases move with
  | beginPass target =>
      obtain rfl : target = uri := about
      simp only [Editor.answer, Answer.renumbered, mirrors.alike.begin?]
  | compute target pass =>
      obtain rfl : target = uri := about
      simp only [Editor.answer, mirrors.ticket?]
      cases named : own.ticket? target pass with
      | none => rfl
      | some ticket => simp [Answer.renumbered, mirrors.alike.compute (mirrors.ownAddressed named)]
  | publish target pass result =>
      obtain rfl : target = uri := about
      simp only [Editor.answer, mirrors.ticket?]
      cases named : own.ticket? target pass with
      | none => rfl
      | some ticket => simp [Answer.renumbered, mirrors.alike.publish (mirrors.ownAddressed named)]
  | _ => rfl

theorem nextVersion_le_step (editor : Editor) (move : Move) :
    editor.service.nextVersion ≤ (editor.step library move).service.nextVersion := by
  simp only [step]
  cases editor.call? move with
  | none => exact Nat.le_refl _
  | some call =>
      have bumped := Service.nextVersion_step library editor.service call
      simp only [Option.elim_some]
      omega

theorem Mirrors.begun (mirrors : Mirrors library uri rename full own) {ticket : Ticket}
    (begun : own.service.begin? uri = some ticket) : ticket.version < own.service.nextVersion := by
  rw [Service.begin?_eq, Option.map_eq_some_iff] at begun
  obtain ⟨version, used, rfl⟩ := begun
  exact mirrors.alike.numbered uri version used

theorem Mirrors.together (mirrors : Mirrors library uri rename full own) {move : Move}
    (about : move.uri = uri) :
    Mirrors library uri rename (full.step library move) (own.step library move) where
  alike := by
    have called := mirrors.call? about
    simp only [step, called]
    cases ownCalled : own.call? move with
    | none => exact mirrors.alike
    | some call =>
        rw [ownCalled, Option.map_some] at called
        have target := uri_of_call? mirrors.addressed called
        rw [Call.uri_renumbered, about] at target
        exact mirrors.alike.call target
  tickets := by
    cases move with
    | beginPass target =>
        obtain rfl : target = uri := about
        simp [step, noted, mirrors.tickets, mirrors.alike.begin?]
    | _ => exact mirrors.tickets
  addressed := addressed_noted mirrors.addressed move
  issued := by
    intro ticket member
    have grown : own.service.nextVersion ≤ (own.step library move).service.nextVersion :=
      nextVersion_le_step own move
    apply Nat.lt_of_lt_of_le _ grown
    cases move with
    | beginPass target =>
        obtain rfl : target = uri := about
        simp only [step, noted, if_true, List.mem_append, List.mem_singleton] at member
        rcases member with earlier | begun
        · exact mirrors.issued ticket earlier
        · exact mirrors.begun begun.symm
    | _ => exact mirrors.issued ticket member

theorem Mirrors.apart (mirrors : Mirrors library uri rename full own) {move : Move}
    (elsewhere : move.uri ≠ uri) :
    ∃ later : Nat → Nat, (∀ version < own.service.nextVersion, later version = rename version) ∧
      Mirrors library uri later (full.step library move) own := by
  have kept : (full.step library move).tickets uri = full.tickets uri := by
    cases move with
    | beginPass target =>
        have other : target ≠ uri := elsewhere
        simp only [step, noted, other, if_false]
    | _ => rfl
  cases called : full.call? move with
  | none =>
      refine ⟨rename, fun _ _ => rfl, ?_, kept.trans mirrors.tickets,
        addressed_noted mirrors.addressed move, mirrors.issued⟩
      simp only [step, called]
      exact mirrors.alike
  | some call =>
      have target := uri_of_call? mirrors.addressed called
      rw [← target] at elsewhere
      refine
        ⟨Service.shifted rename own.service.nextVersion (Service.versionsTaken full.service call),
          fun version below => Service.shifted_below below, ?_, ?_,
          addressed_noted mirrors.addressed move, mirrors.issued⟩
      · simp only [step, called]
        exact mirrors.alike.elsewhere elsewhere
      · -- The document's tickets are older than the versions that are renumbered anew.
        rw [kept, mirrors.tickets]
        apply List.map_congr_left
        intro ticket member
        apply Option.map_congr
        rintro _ rfl
        rw [Ticket.renumbered, Ticket.renumbered, Service.shifted_below (mirrors.issued _ member)]

theorem mirrors_start (uri : String) {engine : Engine} (sound : engine.Sound library) :
    Mirrors library uri id (start engine) (start engine) where
  alike := {
    soundFull := sound
    soundOwn := sound
    increasing := strictMono_id
    aligned := fun _ => rfl
    document := by simp [start, Service.empty, Service.document?]
    numbered := Service.numbered_empty engine }
  tickets := by simp [start]
  addressed := by simp [start]
  issued := by simp [start]

theorem Mirrors.observation (mirrors : Mirrors library uri rename full own) {move : Move}
    (about : move.uri = uri) {later : Nat → Nat}
    (same : ∀ version < (own.step library move).service.nextVersion,
      later version = rename version) :
    (⟨full.answer library move, (full.step library move).service.version? uri⟩ : Observation) =
      Observation.renumbered later
        ⟨own.answer library move, (own.step library move).service.version? uri⟩ := by
  have stepped : Mirrors library uri rename (full.step library move) (own.step library move) :=
    mirrors.together about
  have version : ((own.step library move).service.version? uri).map later =
      ((own.step library move).service.version? uri).map rename := by
    apply Option.map_congr
    intro version used
    exact same version (stepped.alike.numbered uri version used)
  have answer :
      (own.answer library move).renumbered later = (own.answer library move).renumbered rename := by
    cases move with
    | beginPass target =>
        obtain rfl : target = uri := about
        simp only [Editor.answer, Answer.renumbered, Answer.begun.injEq]
        apply Option.map_congr
        intro ticket begun
        rw [Ticket.renumbered, Ticket.renumbered, same]
        exact Nat.lt_of_lt_of_le (mirrors.begun begun) (nextVersion_le_step own _)
    | compute target pass =>
        cases named : own.ticket? target pass <;> simp [Editor.answer, named, Answer.renumbered]
    | publish target pass result =>
        cases named : own.ticket? target pass <;> simp [Editor.answer, named, Answer.renumbered]
    | _ => rfl
  rw [Observation.renumbered, answer, version, mirrors.answer about, stepped.alike.version?]

theorem Mirrors.run (mirrors : Mirrors library uri rename full own) (moves : List Move) :
    ∃ later : Nat → Nat, (∀ version < own.service.nextVersion, later version = rename version) ∧
      Mirrors library uri later (full.run library moves)
        (own.run library (moves.filter fun move => move.uri = uri)) ∧
      full.observe library uri moves =
        (own.observe library uri (moves.filter fun move => move.uri = uri)).map
          (Observation.renumbered later) := by
  induction moves generalizing full own rename with
  | nil => exact ⟨rename, fun _ _ => rfl, mirrors, rfl⟩
  | cons move rest ih =>
      by_cases about : move.uri = uri
      · obtain ⟨later, same, final, observed⟩ := ih (mirrors.together about)
        refine ⟨later, ?_, ?_, ?_⟩
        · intro version below
          exact same version (Nat.lt_of_lt_of_le below (nextVersion_le_step own move))
        · simpa only [Editor.run, List.filter_cons, about, decide_true, if_true,
            List.foldl_cons] using final
        · simp only [observe, List.filter_cons, about, decide_true, if_true,
            List.map_cons, observed, mirrors.observation about same]
      · obtain ⟨next, agrees, apart⟩ := mirrors.apart about
        obtain ⟨later, same, final, observed⟩ := ih apart
        refine ⟨later, ?_, ?_, ?_⟩
        · intro version below
          rw [same version below, agrees version below]
        · simpa [Editor.run, List.filter_cons, about] using final
        · simpa [observe, List.filter_cons, about] using observed

/-- To drop the steps about other documents from a run changes nothing for a document: whether it is
open, its language, text and diagnostics, and what every step about it answers. Only its versions
are others, and these compare with each other as before. -/
theorem documents_are_independent (library : GrammarLibrary) (grammars : GrammarCache)
    (checks : List Engine.Check) (moves : List Move) (uri : String) :
    let editor := start (Engine.performAll library (Engine.ofGrammars grammars) checks)
    let ownMoves := moves.filter fun move => move.uri = uri
    ∃ rename : Nat → Nat, StrictMono rename ∧
      (editor.run library moves).service.document? uri =
        ((editor.run library ownMoves).service.document? uri).map (Document.renumbered rename) ∧
      (editor.run library moves).service.diagnostics? uri =
        (editor.run library ownMoves).service.diagnostics? uri ∧
      editor.observe library uri moves =
        (editor.observe library uri ownMoves).map (Observation.renumbered rename) := by
  intro editor ownMoves
  have sound := Engine.performAll_sound (Engine.sound_ofGrammars library grammars) checks
  obtain ⟨rename, _, mirrors, observed⟩ := (mirrors_start uri sound).run moves
  exact ⟨rename, mirrors.alike.increasing, mirrors.alike.document,
    mirrors.alike.diagnostics?, observed⟩

end Editor

end QueryWorkbench
