import Mathlib.Data.List.Induction
import QueryWorkbench.NodeTypes.Navigator

/-! Runs of a navigator. Listings are kept, given up and read again underneath the definition table,
which tells them apart by identity alone; no answer depends on it. -/

namespace QueryWorkbench.NodeTypes

def lastNamed? (descriptors : List Descriptor) (name : Text) : Option Descriptor :=
  (descriptors.filter fun descriptor => descriptor.name.value = name).getLast?

theorem derive_get? (descriptors : List Descriptor) (name : Text) :
    (DefinitionTable.derive descriptors)[String.ofList name]? = lastNamed? descriptors name := by
  induction descriptors using List.reverseRecOn with
  | nil => simp [DefinitionTable.derive, lastNamed?]
  | append_singleton descriptors last ih =>
      have inserted : DefinitionTable.derive (descriptors ++ [last]) =
          (DefinitionTable.derive descriptors).insert (String.ofList last.name.value) last := by
        simp [DefinitionTable.derive]
      rw [inserted, Std.HashMap.getElem?_insert, ih]
      by_cases same : last.name.value = name
      · simp [lastNamed?, same]
      · have different : String.ofList last.name.value ≠ String.ofList name := by
          intro equal
          exact same (String.ofList_injective equal)
        simp [lastNamed?, same, different]

/-! Readings. The ledger lists what was read under each identity, in the order of reading. -/

structure Entered (ledger : List (List Descriptor)) (text : Text) (listing : Listing) : Prop where
  content : descriptors text = .ok listing.descriptors
  identified : ledger[listing.identity]? = some listing.descriptors

def Agrees (ledger : List (List Descriptor)) (text : Text) : Outcome → Prop
  | .ok listing => Entered ledger text listing
  | .error error => descriptors text = .error error

structure Index.Faithful (ledger : List (List Descriptor)) (index : Index) : Prop where
  counted : index.readings = ledger.length
  entries : ∀ entry ∈ index.entries, Agrees ledger entry.text entry.outcome

theorem Entered.extend {ledger : List (List Descriptor)} {text : Text} {listing : Listing}
    (entered : Entered ledger text listing) (more : List (List Descriptor)) :
    Entered (ledger ++ more) text listing where
  content := entered.content
  identified := by
    obtain ⟨bound, _⟩ := List.getElem?_eq_some_iff.mp entered.identified
    rw [List.getElem?_append_left bound]
    exact entered.identified

theorem Agrees.extend {ledger : List (List Descriptor)} {text : Text} {outcome : Outcome}
    (agrees : Agrees ledger text outcome) (more : List (List Descriptor)) :
    Agrees (ledger ++ more) text outcome := by
  cases outcome with
  | ok listing => exact Entered.extend agrees more
  | error error => exact agrees

theorem Index.faithful_empty (capacity : Nat) : Index.Faithful [] (Index.empty capacity) where
  counted := rfl
  entries := by
    intro entry member
    simp [Index.empty] at member

theorem Index.Faithful.read {ledger : List (List Descriptor)} {index : Index}
    (faithful : index.Faithful ledger) (text : Text) :
    ∃ more, (index.read text).2.Faithful (ledger ++ more) ∧
      Agrees (ledger ++ more) text (index.read text).1 ∧
      (index.read text).2.entries = index.entries := by
  unfold Index.read
  cases found : descriptors text with
  | error error =>
      refine ⟨[], ?_, found, rfl⟩
      rw [List.append_nil]
      exact faithful
  | ok descriptors =>
      refine ⟨[descriptors], ⟨?_, ?_⟩, ⟨found, ?_⟩, rfl⟩
      · simp [faithful.counted]
      · intro entry member
        exact (faithful.entries entry member).extend [descriptors]
      · simp [faithful.counted]

theorem Index.Faithful.fetch {ledger : List (List Descriptor)} {index : Index}
    (faithful : index.Faithful ledger) (text : Text) :
    ∃ more, (index.fetch text).2.Faithful (ledger ++ more) ∧
      Agrees (ledger ++ more) text (index.fetch text).1 := by
  unfold Index.fetch
  split
  · rename_i entry found
    have member := List.mem_of_find?_eq_some found
    have named : entry.text = text := by simpa using List.find?_some found
    refine ⟨[], ?_, ?_⟩
    · rw [List.append_nil]
      refine ⟨faithful.counted, ?_⟩
      intro other kept
      rcases List.mem_cons.mp kept with same | older
      · rw [same]
        exact faithful.entries entry member
      · exact faithful.entries other ((List.mem_filter.mp older).1)
    · rw [List.append_nil, ← named]
      exact faithful.entries entry member
  · obtain ⟨more, kept, agrees, same⟩ := faithful.read text
    refine ⟨more, ⟨kept.counted, ?_⟩, agrees⟩
    intro other member
    rcases List.mem_cons.mp (List.mem_of_mem_take member) with new | older
    · rw [new]
      exact agrees
    · exact kept.entries other older

theorem Index.Faithful.clear {ledger : List (List Descriptor)} {index : Index}
    (faithful : index.Faithful ledger) : index.clear.Faithful ledger where
  counted := faithful.counted
  entries := by
    intro entry member
    simp [Index.clear] at member

def DefinitionTable.Reflects (ledger : List (List Descriptor)) (table : DefinitionTable) :
    Option Text → Prop
  | none => table.source = none ∧ table.byName = ∅
  | some text =>
      ∃ listing, Entered ledger text listing ∧ table.source = some listing.identity ∧
        table.byName = derive listing.descriptors

theorem DefinitionTable.Reflects.extend {ledger : List (List Descriptor)} {table : DefinitionTable}
    {latest : Option Text} (reflects : table.Reflects ledger latest)
    (more : List (List Descriptor)) : table.Reflects (ledger ++ more) latest := by
  cases latest with
  | none => exact reflects
  | some text =>
      obtain ⟨listing, entered, source, table⟩ := reflects
      exact ⟨listing, entered.extend more, source, table⟩

/-- Equal identities have equal descriptors, so a table that is not derived again is still right. -/
theorem DefinitionTable.Reflects.refresh {ledger : List (List Descriptor)} {table : DefinitionTable}
    {latest : Option Text} (reflects : table.Reflects ledger latest) {text : Text}
    {listing : Listing} (entered : Entered ledger text listing) :
    (table.refresh listing).Reflects ledger (some text) := by
  unfold DefinitionTable.refresh isStale
  by_cases same : table.source = some listing.identity
  · simp only [same, bne_self_eq_false, Bool.false_eq_true, if_false]
    cases latest with
    | none => simp [reflects.1] at same
    | some older =>
        obtain ⟨known, knownEntered, source, derived⟩ := reflects
        rw [source, Option.some.injEq] at same
        have identified := knownEntered.identified
        rw [same, entered.identified, Option.some.injEq] at identified
        refine ⟨listing, entered, ?_, ?_⟩
        · rw [source, same]
        · rw [derived, identified]
  · have stale : (table.source != some listing.identity) = true := by simpa using same
    simp only [stale, if_true]
    exact ⟨listing, entered, rfl, rfl⟩

theorem DefinitionTable.Reflects.get? {ledger : List (List Descriptor)} {table : DefinitionTable}
    {latest : Option Text} (reflects : table.Reflects ledger latest) (name : Text) :
    table.get? name = latest.bind fun text =>
      (descriptors text).toOption.bind fun declared => lastNamed? declared name := by
  unfold DefinitionTable.get?
  cases latest with
  | none => simp [reflects.2]
  | some text =>
      obtain ⟨listing, entered, _, derived⟩ := reflects
      rw [derived, derive_get?, Option.bind_some, entered.content]
      rfl

theorem Navigator.definition_word {navigator : Navigator} {text : Text} {offset : Nat} {word : Word}
    (touched : wordAt? text offset = some word) :
    (navigator.definition text offset).2 = (navigator.refresh text).2 := by
  simp only [definition, touched]
  split <;> simp_all

structure Navigator.Faithful (ledger : List (List Descriptor)) (latest : Option Text)
    (navigator : Navigator) : Prop where
  index : navigator.index.Faithful ledger
  table : navigator.table.Reflects ledger latest

theorem Navigator.faithful_empty (capacity : Nat) :
    (Navigator.empty capacity).Faithful [] none where
  index := Index.faithful_empty capacity
  table := ⟨rfl, rfl⟩

def handedOver (latest : Option Text) (text : Text) : Option Text :=
  match descriptors text with
  | .ok _ => some text
  | .error _ => latest

theorem Navigator.Faithful.refresh {ledger : List (List Descriptor)} {latest : Option Text}
    {navigator : Navigator} (faithful : navigator.Faithful ledger latest) (text : Text) :
    ∃ more, (navigator.refresh text).2.Faithful (ledger ++ more) (handedOver latest text) ∧
      Agrees (ledger ++ more) text (navigator.index.fetch text).1 := by
  obtain ⟨more, index, agrees⟩ := faithful.index.fetch text
  refine ⟨more, ?_, agrees⟩
  unfold Navigator.refresh
  split
  · rename_i error next fetched
    rw [fetched] at index agrees
    have unreadable : descriptors text = .error error := agrees
    simp only [handedOver, unreadable]
    exact ⟨index, faithful.table.extend more⟩
  · rename_i listing next fetched
    rw [fetched] at index agrees
    have entered : Entered (ledger ++ more) text listing := agrees
    simp only [handedOver, entered.content]
    exact ⟨index, (faithful.table.extend more).refresh entered⟩

def declared? (text : Text) (offset : Nat) : Option Location :=
  (wordAt? text offset).bind fun word =>
    (descriptors text).toOption.bind fun declared =>
      (lastNamed? declared word.text).map fun descriptor =>
        ⟨descriptor.span, (LineIndex.ofText text).range descriptor.span⟩

theorem Navigator.Faithful.definition {ledger : List (List Descriptor)} {latest : Option Text}
    {navigator : Navigator} (faithful : navigator.Faithful ledger latest) (text : Text)
    (offset : Nat) : (navigator.definition text offset).1 = declared? text offset := by
  unfold Navigator.definition declared?
  cases touched : wordAt? text offset with
  | none => rfl
  | some word =>
      obtain ⟨more, refreshed, agrees⟩ := faithful.refresh text
      have table := refreshed.table.get? word.text
      simp only [Option.bind_some]
      unfold Navigator.refresh at table ⊢
      cases fetched : navigator.index.fetch text with
      | mk outcome index =>
          rw [fetched] at agrees
          cases outcome with
          | error error =>
              have unreadable : descriptors text = .error error := agrees
              simp [unreadable, Except.toOption]
          | ok listing =>
              have entered : Entered (ledger ++ more) text listing := agrees
              simp only [fetched, handedOver, entered.content, Option.bind_some] at table ⊢
              rw [table]
              rfl

theorem Navigator.Faithful.outline {ledger : List (List Descriptor)} {latest : Option Text}
    {navigator : Navigator} (faithful : navigator.Faithful ledger latest) (text : Text) :
    (navigator.outline text).1 = ((descriptors text).toOption.map (symbols text)).getD [] := by
  obtain ⟨more, _, agrees⟩ := faithful.index.fetch text
  unfold Navigator.outline
  cases fetched : navigator.index.fetch text with
  | mk outcome index =>
      rw [fetched] at agrees
      cases outcome with
      | error error =>
          have unreadable : descriptors text = .error error := agrees
          simp [unreadable, Except.toOption]
      | ok listing =>
          have entered : Entered (ledger ++ more) text listing := agrees
          simp [entered.content, Except.toOption]

inductive Use where
  | definition (text : Text) (offset : Nat)
  | outline (text : Text)
  | refresh (text : Text)
  /-- Hands the table a listing that a refresh has fetched before, counted back from the latest. -/
  | refreshAgain (back : Nat)
  | get (name : Text)
  | clear

/-- A navigator and the listings that were fetched to refresh its table, the latest first. -/
structure Session where
  navigator : Navigator
  held : List (Text × Listing)

namespace Session

def start (capacity : Nat) : Session := ⟨Navigator.empty capacity, []⟩

def step (session : Session) : Use → Session
  | .definition text offset =>
      { session with navigator := (session.navigator.definition text offset).2 }
  | .outline text => { session with navigator := (session.navigator.outline text).2 }
  | .refresh text =>
      { navigator := (session.navigator.refresh text).2
        held :=
          match (session.navigator.index.fetch text).1 with
          | .ok listing => (text, listing) :: session.held
          | .error _ => session.held }
  | .refreshAgain back =>
      match session.held[back]? with
      | none => session
      | some (_, listing) =>
          { session with navigator :=
              { session.navigator with table := session.navigator.table.refresh listing } }
  | .get _ => session
  | .clear => { session with navigator := session.navigator.clear }

def run (capacity : Nat) (uses : List Use) : Session := uses.foldl step (start capacity)

end Session

structure Handed where
  latest : Option Text
  fetched : List Text

namespace Handed

def step (handed : Handed) : Use → Handed
  | .definition text offset =>
      if (wordAt? text offset).isSome then { handed with latest := handedOver handed.latest text }
      else handed
  | .refresh text =>
      match descriptors text with
      | .ok _ => ⟨some text, text :: handed.fetched⟩
      | .error _ => handed
  | .refreshAgain back =>
      match handed.fetched[back]? with
      | some text => { handed with latest := some text }
      | none => handed
  | _ => handed

def after (uses : List Use) : Handed := uses.foldl step ⟨none, []⟩

end Handed

structure Session.Faithful (ledger : List (List Descriptor)) (handed : Handed) (session : Session) :
    Prop where
  navigator : session.navigator.Faithful ledger handed.latest
  texts : session.held.map Prod.fst = handed.fetched
  held : ∀ text listing, (text, listing) ∈ session.held → Entered ledger text listing

theorem Session.Faithful.step {ledger : List (List Descriptor)} {handed : Handed}
    {session : Session} (faithful : session.Faithful ledger handed) (use : Use) :
    ∃ more, (session.step use).Faithful (ledger ++ more) (handed.step use) := by
  have lasting : ∀ more text listing, (text, listing) ∈ session.held →
      Entered (ledger ++ more) text listing :=
    fun more text listing member => (faithful.held text listing member).extend more
  cases use with
  | definition text offset =>
      simp only [Session.step, Handed.step]
      cases touched : wordAt? text offset with
      | none =>
          refine ⟨[], ?_, faithful.texts, lasting []⟩
          simpa [Navigator.definition, touched] using faithful.navigator
      | some word =>
          obtain ⟨more, refreshed, _⟩ := faithful.navigator.refresh text
          refine ⟨more, ?_, faithful.texts, lasting more⟩
          simpa [Navigator.definition_word touched] using refreshed
  | outline text =>
      obtain ⟨more, index, _⟩ := faithful.navigator.index.fetch text
      refine ⟨more, ⟨?_, ?_⟩, faithful.texts, lasting more⟩
      · simp only [Session.step, Navigator.outline]
        split <;> simp_all
      · have table := faithful.navigator.table.extend more
        simp only [Session.step, Navigator.outline]
        split <;> exact table
  | refresh text =>
      obtain ⟨more, refreshed, agrees⟩ := faithful.navigator.refresh text
      refine ⟨more, ?_⟩
      simp only [Session.step, Handed.step]
      cases fetched : (session.navigator.index.fetch text).1 with
      | error error =>
          rw [fetched] at agrees
          have unreadable : descriptors text = .error error := agrees
          simp only [handedOver, unreadable] at refreshed ⊢
          exact ⟨refreshed, faithful.texts, lasting more⟩
      | ok listing =>
          rw [fetched] at agrees
          have entered : Entered (ledger ++ more) text listing := agrees
          simp only [handedOver, entered.content] at refreshed ⊢
          refine ⟨refreshed, by simp [faithful.texts], ?_⟩
          intro other known member
          rcases List.mem_cons.mp member with new | older
          · cases new
            exact entered
          · exact lasting more other known older
  | refreshAgain back =>
      refine ⟨[], ?_⟩
      rw [List.append_nil]
      have text : handed.fetched[back]? = session.held[back]?.map Prod.fst := by
        rw [← faithful.texts, List.getElem?_map]
      simp only [Session.step, Handed.step]
      cases found : session.held[back]? with
      | none =>
          rw [found] at text
          simp only [text, Option.map_none]
          exact faithful
      | some pair =>
          rw [found] at text
          simp only [text, Option.map_some]
          have entered := faithful.held pair.1 pair.2 (List.mem_of_getElem? found)
          exact ⟨⟨faithful.navigator.index, faithful.navigator.table.refresh entered⟩,
            faithful.texts, faithful.held⟩
  | get name => exact ⟨[], by simpa [Session.step, Handed.step] using faithful⟩
  | clear =>
      refine ⟨[], ?_⟩
      rw [List.append_nil]
      exact ⟨⟨faithful.navigator.index.clear, faithful.navigator.table⟩, faithful.texts,
        faithful.held⟩

theorem Session.faithful_run (capacity : Nat) (uses : List Use) :
    ∃ ledger, (run capacity uses).Faithful ledger (Handed.after uses) := by
  induction uses using List.reverseRecOn with
  | nil => exact ⟨[], Navigator.faithful_empty capacity, rfl, by simp [run, start]⟩
  | append_singleton uses use ih =>
      obtain ⟨ledger, faithful⟩ := ih
      obtain ⟨more, next⟩ := faithful.step use
      refine ⟨ledger ++ more, ?_⟩
      simpa only [run, Handed.after, List.foldl_append, List.foldl_cons, List.foldl_nil] using next

/-- After any uses of a navigator, whatever its index has kept, given up or read again, definitions
and outlines are those of a new navigator, and the table holds the last declaration of each name in
the text that was handed to it last. -/
theorem answers_ignore_history (capacity : Nat) (uses : List Use) :
    (∀ text offset newCapacity, ((Session.run capacity uses).navigator.definition text offset).1 =
        ((Navigator.empty newCapacity).definition text offset).1) ∧
      (∀ text newCapacity, ((Session.run capacity uses).navigator.outline text).1 =
        ((Navigator.empty newCapacity).outline text).1) ∧
      ∀ name, (Session.run capacity uses).navigator.table.get? name =
        (Handed.after uses).latest.bind fun text =>
          (descriptors text).toOption.bind fun declared => lastNamed? declared name := by
  obtain ⟨ledger, faithful⟩ := Session.faithful_run capacity uses
  refine ⟨?_, ?_, ?_⟩
  · intro text offset newCapacity
    rw [faithful.navigator.definition, (Navigator.faithful_empty newCapacity).definition]
  · intro text newCapacity
    rw [faithful.navigator.outline, (Navigator.faithful_empty newCapacity).outline]
  · intro name
    exact faithful.navigator.table.get? name

end QueryWorkbench.NodeTypes
