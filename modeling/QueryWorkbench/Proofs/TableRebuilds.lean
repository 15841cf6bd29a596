import Mathlib.Data.Finset.Card
import QueryWorkbench.Proofs.PlainNames
import QueryWorkbench.Proofs.RecentListings

/-! When the definition table is derived again. A refresh spares it exactly if the listing it was
derived from last is of the same text and the index has kept it since, which the fetches in between
decide. -/

namespace QueryWorkbench.NodeTypes

namespace Index

theorem eraseDups_length (texts : List Text) : texts.eraseDups.length = texts.toFinset.card := by
  rw [← List.toFinset_card_of_nodup (eraseDups_nodup texts)]
  congr 1
  ext text
  simp

theorem mem_take_iff {room : Nat} {text : Text} {recent : List Text} (older : List Text)
    (since : text ∉ recent) :
    text ∈ (recent ++ text :: older).eraseDups.take room ↔ recent.toFinset.card < room := by
  have apart : (recent ++ text :: older).eraseDups =
      recent.eraseDups ++ text :: ((older.removeAll recent).eraseDups.filter fun other =>
        other != text) := by
    rw [List.eraseDups_append, List.removeAll, List.filter_cons_of_pos (by simpa using since),
      eraseDups_latest]
    rfl
  rw [apart, ← eraseDups_length]
  constructor
  · intro kept
    apply Nat.lt_of_not_le
    intro full
    rw [List.take_append_of_le_length full] at kept
    exact since (List.mem_eraseDups.mp (List.mem_of_mem_take kept))
  · intro less
    obtain ⟨more, rfl⟩ := Nat.exists_eq_add_of_lt less
    rw [Nat.add_assoc, List.take_length_add_append, List.take_succ_cons]
    simp

def Access.text? : Access → Option Text
  | .fetch text => some text
  | .contains _ => none
  | .clear => none

def texts (accesses : List Access) : List Text := accesses.filterMap Access.text?

theorem fetched_append (accesses : List Access) {more : List Access} (uncleared : .clear ∉ more) :
    fetched (accesses ++ more) = (texts more).reverse ++ fetched accesses := by
  induction more using List.reverseRecOn with
  | nil => simp [texts]
  | append_singleton more access ih =>
      rw [List.mem_append, not_or] at uncleared
      have noted :
          fetched (accesses ++ (more ++ [access])) = note (fetched (accesses ++ more)) access := by
        simp [fetched]
      rw [noted, ih uncleared.1]
      cases access with
      | fetch text => simp [note, texts, Access.text?]
      | contains text => simp [note, texts, Access.text?]
      | clear => simp at uncleared

section Stay

variable {capacity : Nat} {accesses between : List Access} {text : Text}

/-- Only the texts fetched since the text itself was fetched last count against it. -/
theorem mem_resident_iff {before others : List Text} (uncleared : .clear ∉ between)
    (latest : text :: texts between = before ++ text :: others) (since : text ∉ others) :
    text ∈ (run capacity (accesses ++ .fetch text :: between)).resident ↔
      others.toFinset.card < max capacity 1 := by
  have kept : .clear ∉ Access.fetch text :: between := by simpa using uncleared
  have fetches : texts (.fetch text :: between) = text :: texts between := rfl
  have behind : (before ++ text :: others).reverse ++ fetched accesses =
      others.reverse ++ text :: (before.reverse ++ fetched accesses) := by simp
  rw [(ranked_run capacity _).resident, fetched_append accesses kept, fetches, latest, behind,
    mem_take_iff _ (by simpa using since), List.toFinset_reverse]

/-- What may happen between two fetches of a text for the index to keep its listing: nothing is
cleared, and from each fetch of the text to its next one fewer other texts than there is room for
are fetched. -/
structure Lasts (room : Nat) (text : Text) (between : List Access) : Prop where
  uncleared : .clear ∉ between
  spaced : ∀ before others after,
    text :: texts between ++ [text] = before ++ text :: (others ++ text :: after) →
    text ∉ others → others.toFinset.card < room

theorem uncleared_of_stays
    (stays : ∀ early, early <+: between →
      text ∈ (run capacity (accesses ++ .fetch text :: early)).resident) :
    .clear ∉ between := by
  intro cleared
  obtain ⟨early, late, rfl⟩ := List.append_of_mem cleared
  have kept := stays (early ++ [.clear]) ⟨late, by simp⟩
  rw [run_snoc] at kept
  cases kept

theorem stays_iff_lasts (accesses : List Access) :
    (∀ early,
      early <+: between → text ∈ (run capacity (accesses ++ .fetch text :: early)).resident) ↔
      Lasts (max capacity 1) text between := by
  constructor
  · intro stays
    have uncleared := uncleared_of_stays stays
    refine ⟨uncleared, ?_⟩
    intro before others after split since
    -- the index just before the second of the two fetches
    have front : before ++ text :: others <+: text :: texts between := by
      have whole : before ++ text :: others <+: text :: texts between ++ [text] :=
        ⟨text :: after, by simp [split]⟩
      have longer := congrArg List.length split
      refine List.prefix_of_prefix_length_le whole (List.prefix_append ..) ?_
      simp only [List.length_append, List.length_cons, List.length_nil] at longer ⊢
      omega
    obtain ⟨early, short, latest⟩ :
        ∃ early, early <+: between ∧ text :: texts early = before ++ text :: others := by
      rcases List.prefix_cons_iff.mp front with empty | ⟨rest, whole, inside⟩
      · simp at empty
      · obtain ⟨early, short, rfl⟩ := List.prefix_filterMap_iff.mp inside
        exact ⟨early, short, whole.symm⟩
    have still : .clear ∉ early := fun cleared => uncleared (short.subset cleared)
    exact (mem_resident_iff still latest since).mp (stays early short)
  · intro lasts early short
    obtain ⟨late, rfl⟩ := short
    have uncleared : .clear ∉ early :=
      fun cleared => lasts.uncleared (List.mem_append_left _ cleared)
    obtain ⟨_, rfl, before, others, latest, since⟩ :=
      exists_lastWith (List.mem_cons_self : text ∈ text :: texts early) (rfl : text = text)
    have absent : text ∉ others := fun member => since text member rfl
    rw [mem_resident_iff uncleared latest absent]
    -- the fetch that follows may lie behind the moment looked at
    obtain ⟨gap, after, next, none⟩ :=
      List.eq_append_cons_of_mem (List.mem_append_right (texts late) (List.mem_singleton_self text))
    have split : text :: texts (early ++ late) ++ [text] =
        before ++ text :: ((others ++ gap) ++ text :: after) := by
      rw [texts, List.filterMap_append, ← List.cons_append, List.append_assoc]
      change (text :: texts early) ++ (texts late ++ [text]) = _
      rw [latest, next]
      simp
    have few := lasts.spaced before (others ++ gap) after split (by simp [absent, none])
    refine Nat.lt_of_le_of_lt (Finset.card_le_card ?_) few
    rw [List.toFinset_append]
    exact Finset.subset_union_left

end Stay

end Index

namespace DefinitionTable

theorem refresh_source (table : DefinitionTable) (listing : Listing) :
    (table.refresh listing).source = some listing.identity := by
  unfold refresh isStale
  by_cases same : table.source = some listing.identity
  · simp [same]
  · simp [same]

theorem refresh_generation (table : DefinitionTable) (listing : Listing) :
    (table.refresh listing).generation =
      table.generation + if table.isStale listing then 1 else 0 := by
  unfold refresh
  split <;> rfl

end DefinitionTable

namespace Navigator

variable {navigator : Navigator} {text : Text}

theorem refresh_read {listing : Listing} (read : (navigator.index.fetch text).1 = .ok listing) :
    navigator.refresh text = (.ok (navigator.table.isStale listing),
      ⟨(navigator.index.fetch text).2, navigator.table.refresh listing⟩) := by
  unfold refresh
  split <;> simp_all

theorem refresh_failed {error : SchemaError}
    (failed : (navigator.index.fetch text).1 = .error error) :
    navigator.refresh text = (.error error,
      { navigator with index := (navigator.index.fetch text).2 }) := by
  unfold refresh
  split <;> simp_all

theorem refresh_index : (navigator.refresh text).2.index = (navigator.index.fetch text).2 := by
  cases outcome : (navigator.index.fetch text).1 with
  | ok listing => rw [refresh_read outcome]
  | error error => rw [refresh_failed outcome]

theorem outline_kept :
    (navigator.outline text).2 = { navigator with index := (navigator.index.fetch text).2 } := by
  unfold outline
  split <;> simp_all

theorem definition_untouched {offset : Nat} (untouched : wordAt? text offset = none) :
    navigator.definition text offset = (none, navigator) := by
  simp only [definition, untouched]

end Navigator

/-! What one use does. -/

theorem handedOver_eq_some {text given : Text} : handedOver none text = some given ↔
    text = given ∧ ∃ found, descriptors text = .ok found := by
  unfold handedOver
  split <;> simp_all

namespace Use

def access? : Use → Option Index.Access
  | .definition text offset => (wordAt? text offset).map fun _ => .fetch text
  | .outline text => some (.fetch text)
  | .refresh text => some (.fetch text)
  | .refreshAgain _ => none
  | .get _ => none
  | .clear => some .clear

def handed? : Use → Option Text
  | .definition text offset => (wordAt? text offset).bind fun _ => handedOver none text
  | .outline _ => none
  | .refresh text => handedOver none text
  | .refreshAgain _ => none
  | .get _ => none
  | .clear => none

theorem access?_of_handed? {use : Use} {text : Text} (handed : use.handed? = some text) :
    use.access? = some (.fetch text) := by
  cases use with
  | definition given offset =>
      obtain ⟨word, touched, given⟩ := Option.bind_eq_some_iff.mp handed
      obtain ⟨rfl, _⟩ := handedOver_eq_some.mp given
      simp [access?, touched]
  | refresh given =>
      obtain ⟨rfl, _⟩ := handedOver_eq_some.mp handed
      rfl
  | outline _ | refreshAgain _ | get _ | clear => cases handed

end Use

namespace Session

theorem step_index (session : Session) (use : Use) : (session.step use).navigator.index =
    use.access?.elim session.navigator.index session.navigator.index.step := by
  cases use with
  | definition text offset =>
      rw [step]
      cases touched : wordAt? text offset with
      | none => simp [Navigator.definition_untouched touched, Use.access?, touched]
      | some word =>
          simp [Navigator.definition_word touched, Navigator.refresh_index, Use.access?,
            touched, Index.step]
  | outline text => simp [step, Navigator.outline_kept, Use.access?, Index.step]
  | refresh text => simp [step, Navigator.refresh_index, Use.access?, Index.step]
  | refreshAgain back =>
      rw [step]
      split <;> rfl
  | get name => rfl
  | clear => rfl

variable (capacity : Nat) (uses : List Use)

theorem run_concat (use : Use) : run capacity (uses ++ [use]) = (run capacity uses).step use := by
  simp [run]

theorem run_index :
    (run capacity uses).navigator.index = Index.run capacity (uses.filterMap Use.access?) := by
  induction uses using List.reverseRecOn with
  | nil => rfl
  | append_singleton uses use ih =>
      rw [run_concat, step_index, ih, List.filterMap_append]
      cases accessed : use.access? with
      | none => simp [accessed]
      | some access => simp [accessed, Index.run_concat]

theorem fetch_ok_iff (text : Text) :
    (∃ listing, ((run capacity uses).navigator.index.fetch text).1 = .ok listing) ↔
      ∃ found, descriptors text = .ok found := by
  have content := Index.fetch_content capacity (uses.filterMap Use.access?) text
  rw [← run_index] at content
  rw [← content]
  cases ((run capacity uses).navigator.index.fetch text).1 with
  | ok listing => simp [Except.map]
  | error error => simp [Except.map]

theorem refresh_cases (text : Text) :
    (handedOver none text = none ∧
      ((run capacity uses).navigator.refresh text).2.table = (run capacity uses).navigator.table) ∨
    ∃ listing, handedOver none text = some text ∧
      ((run capacity uses).navigator.index.fetch text).1 = .ok listing ∧
      ((run capacity uses).navigator.refresh text).2.table =
        (run capacity uses).navigator.table.refresh listing := by
  have readable := fetch_ok_iff capacity uses text
  cases read : descriptors text with
  | ok found =>
      obtain ⟨listing, fetched⟩ := readable.mpr ⟨found, read⟩
      refine .inr ⟨listing, handedOver_eq_some.mpr ⟨rfl, found, read⟩, fetched, ?_⟩
      rw [Navigator.refresh_read fetched]
  | error error =>
      refine .inl ⟨by simp [handedOver, read], ?_⟩
      cases fetched : ((run capacity uses).navigator.index.fetch text).1 with
      | ok listing =>
          obtain ⟨found, other⟩ := readable.mp ⟨listing, fetched⟩
          simp [read] at other
      | error error => rw [Navigator.refresh_failed fetched]

theorem definition_unreadable {text : Text} {error : SchemaError}
    (failed : descriptors text = .error error) (offset : Nat) :
    ((run capacity uses).navigator.definition text offset).2.table =
      (run capacity uses).navigator.table := by
  cases touched : wordAt? text offset with
  | none => rw [Navigator.definition_untouched touched]
  | some word =>
      rw [Navigator.definition_word touched]
      rcases refresh_cases capacity uses text with ⟨_, same⟩ | ⟨_, handed, _⟩
      · exact same
      · obtain ⟨_, found, read⟩ := handedOver_eq_some.mp handed
        rw [failed] at read
        cases read

/-- Unless a listing from before is used again, a table is left alone or handed what was fetched
just then. -/
theorem table_cases {use : Use} (direct : ∀ back, use ≠ .refreshAgain back) :
    (use.handed? = none ∧
      (run capacity (uses ++ [use])).navigator.table = (run capacity uses).navigator.table) ∨
    ∃ text listing, use.handed? = some text ∧
      ((run capacity uses).navigator.index.fetch text).1 = .ok listing ∧
      (run capacity (uses ++ [use])).navigator.table =
        (run capacity uses).navigator.table.refresh listing := by
  rw [run_concat]
  cases use with
  | definition text offset =>
      rw [step, Use.handed?]
      cases touched : wordAt? text offset with
      | none => exact .inl ⟨rfl, by rw [Navigator.definition_untouched touched]⟩
      | some word =>
          rw [Navigator.definition_word touched]
          rcases refresh_cases capacity uses text with left | ⟨listing, given⟩
          · exact .inl left
          · exact .inr ⟨text, listing, given⟩
  | refresh text =>
      rcases refresh_cases capacity uses text with left | ⟨listing, given⟩
      · exact .inl left
      · exact .inr ⟨text, listing, given⟩
  | outline text => exact .inl ⟨rfl, by rw [step, Navigator.outline_kept]⟩
  | refreshAgain back => exact absurd rfl (direct back)
  | get name => exact .inl ⟨rfl, rfl⟩
  | clear => exact .inl ⟨rfl, rfl⟩

end Session

structure LastHanding (text : Text) (uses earlier : List Use) (use : Use) (later : List Use) :
    Prop where
  split : uses = earlier ++ use :: later
  handed : use.handed? = some text
  idle : ∀ other ∈ later, other.handed? = none

theorem exists_lastHanding {uses : List Use} {use : Use} (member : use ∈ uses) {text : Text}
    (handed : use.handed? = some text) :
    ∃ text earlier use later, LastHanding text uses earlier use later := by
  obtain ⟨use, given, earlier, later, split, none⟩ :=
    @exists_lastWith Use (fun use => use.handed?.isSome) uses use member (by simp [handed])
  obtain ⟨text, handed⟩ := Option.isSome_iff_exists.mp given
  exact ⟨text, earlier, use, later, split, handed, by simpa using none⟩

theorem LastHanding.accesses {text : Text} {uses earlier later : List Use} {use : Use}
    (last : LastHanding text uses earlier use later) :
    uses.filterMap Use.access? = earlier.filterMap Use.access? ++ .fetch text ::
      later.filterMap Use.access? := by
  rw [last.split, List.filterMap_append,
    List.filterMap_cons_some (Use.access?_of_handed? last.handed)]

section Direct

variable {capacity : Nat} {text : Text} {uses earlier later : List Use} {use : Use}

theorem Session.table_idle (direct : ∀ back, .refreshAgain back ∉ later)
    (idle : ∀ other ∈ later, other.handed? = none) :
    (run capacity (earlier ++ later)).navigator.table = (run capacity earlier).navigator.table := by
  induction later using List.reverseRecOn with
  | nil => rw [List.append_nil]
  | append_singleton later use ih =>
      obtain ⟨idleBefore, idleHere⟩ := List.forall_mem_append.mp idle
      have before := ih (fun back member => direct back (List.mem_append_left _ member)) idleBefore
      have here : ∀ back, use ≠ .refreshAgain back := by
        rintro back rfl
        exact direct back (by simp)
      rw [← List.append_assoc, ← before]
      rcases table_cases capacity (earlier ++ later) here with ⟨_, same⟩ | ⟨text, _, handed, _⟩
      · exact same
      · rw [idleHere use (List.mem_singleton_self use)] at handed
        cases handed

theorem Session.source_idle (direct : ∀ back, .refreshAgain back ∉ uses)
    (idle : ∀ other ∈ uses, other.handed? = none) :
    (run capacity uses).navigator.table.source = none := by
  have same : (run capacity ([] ++ uses)).navigator.table = (run capacity []).navigator.table :=
    table_idle direct idle
  rw [List.nil_append] at same
  rw [same]
  rfl

theorem LastHanding.source (last : LastHanding text uses earlier use later)
    (direct : ∀ back, .refreshAgain back ∉ uses) (capacity : Nat) :
    ∃ listing, ((Session.run capacity earlier).navigator.index.fetch text).1 = .ok listing ∧
      (Session.run capacity uses).navigator.table.source = some listing.identity := by
  obtain ⟨rfl, handed, idle⟩ := last
  have fetches : ∀ back, use ≠ .refreshAgain back := by
    rintro back rfl
    exact direct back (by simp)
  have after : ∀ back, .refreshAgain back ∉ later :=
    fun back member => direct back (by simp [member])
  rw [List.append_cons, Session.table_idle after idle]
  rcases Session.table_cases capacity earlier fetches with ⟨none, _⟩
    | ⟨given, listing, same, fetched, table⟩
  · rw [none] at handed
    cases handed
  · rw [handed, Option.some.injEq] at same
    exact ⟨listing, same ▸ fetched, by rw [table, DefinitionTable.refresh_source]⟩

/-- The same listing is fetched again exactly if the index has had the text all along. -/
theorem LastHanding.stale_iff {given : Text} (last : LastHanding given uses earlier use later)
    (direct : ∀ back, .refreshAgain back ∉ uses) {listing : Listing}
    (fetched : ((Session.run capacity uses).navigator.index.fetch text).1 = .ok listing) :
    (Session.run capacity uses).navigator.table.isStale listing = false ↔
      given = text ∧ Index.Lasts (max capacity 1) given (later.filterMap Use.access?) := by
  obtain ⟨kept, first, source⟩ := last.source direct capacity
  rw [Session.run_index] at first fetched
  rw [last.accesses] at fetched
  have identities := Index.same_identity_iff first fetched
  simp only [Index.contains_iff, Index.stays_iff_lasts] at identities
  rw [DefinitionTable.isStale, bne_eq_false_iff_eq, source, Option.some.injEq]
  exact identities

theorem Session.stale_iff (direct : ∀ back, .refreshAgain back ∉ uses) {listing : Listing}
    (fetched : ((run capacity uses).navigator.index.fetch text).1 = .ok listing) :
    (run capacity uses).navigator.table.isStale listing = false ↔
      ∃ earlier use later, LastHanding text uses earlier use later ∧
        Index.Lasts (max capacity 1) text (later.filterMap Use.access?) := by
  constructor
  · intro fresh
    by_cases idle : ∀ use ∈ uses, use.handed? = none
    · rw [DefinitionTable.isStale, source_idle direct idle] at fresh
      cases fresh
    · simp only [not_forall, ← ne_eq, Option.ne_none_iff_exists'] at idle
      obtain ⟨use, member, given, handed⟩ := idle
      obtain ⟨given, earlier, use, later, last⟩ := exists_lastHanding member handed
      obtain ⟨rfl, lasts⟩ := (last.stale_iff direct fetched).mp fresh
      exact ⟨earlier, use, later, last, lasts⟩
  · rintro ⟨earlier, use, later, last, lasts⟩
    exact (last.stale_iff direct fetched).mpr ⟨rfl, lasts⟩

theorem Session.stays_iff_lasts (fetches : use.access? = some (.fetch text)) :
    (∀ early, early <+: later →
      (run capacity (earlier ++ use :: early)).navigator.index.contains text = true) ↔
      Index.Lasts (max capacity 1) text (later.filterMap Use.access?) := by
  rw [← Index.stays_iff_lasts (earlier.filterMap Use.access?)]
  have index : ∀ early, (run capacity (earlier ++ use :: early)).navigator.index =
      Index.run capacity (earlier.filterMap Use.access? ++ .fetch text ::
        early.filterMap Use.access?) := by
    intro early
    rw [run_index, List.filterMap_append, List.filterMap_cons_some fetches]
  simp only [index, Index.contains_iff]
  constructor
  · rintro stays _ inside
    obtain ⟨early, short, rfl⟩ := List.prefix_filterMap_iff.mp inside
    exact stays early short
  · intro stays early short
    exact stays _ (short.filterMap Use.access?)

end Direct

/-- After any uses of a navigator that hand the table only what they fetch, refreshing it with a
text's listing leaves it alone exactly if it was handed a listing of the same text last and the
index has kept that since. This is so exactly if the index was not cleared since and fewer other
texts than it has room for were fetched from each fetch of the text to its next one. Else the table
is derived once more. -/
theorem rebuilds_only_for_new_readings (capacity : Nat) (uses : List Use)
    (direct : ∀ back, .refreshAgain back ∉ uses) :
    (∀ text found, descriptors text = .ok found → ∃ rebuilt,
      ((Session.run capacity uses).navigator.refresh text).1 = .ok rebuilt ∧
      ((Session.run capacity uses).navigator.refresh text).2.table.generation =
        (Session.run capacity uses).navigator.table.generation + (if rebuilt then 1 else 0) ∧
      (rebuilt = false ↔ ∃ earlier use later, LastHanding text uses earlier use later ∧
        ∀ early, early <+: later →
          (Session.run capacity (earlier ++ use :: early)).navigator.index.contains text = true) ∧
      (rebuilt = false ↔ ∃ earlier use later, LastHanding text uses earlier use later ∧
        Index.Lasts (max capacity 1) text (later.filterMap Use.access?))) ∧
      (∀ text offset, wordAt? text offset = none →
        (Session.run capacity uses).navigator.definition text offset =
          (none, (Session.run capacity uses).navigator)) ∧
      (∀ text offset error, descriptors text = .error error →
        ((Session.run capacity uses).navigator.definition text offset).2.table =
          (Session.run capacity uses).navigator.table) ∧
      ∀ text offset word, wordAt? text offset = some word →
        ((Session.run capacity uses).navigator.definition text offset).2 =
          ((Session.run capacity uses).navigator.refresh text).2 := by
  refine ⟨?_, ?_, ?_, ?_⟩
  · intro text found read
    obtain ⟨listing, fetched⟩ := (Session.fetch_ok_iff capacity uses text).mpr ⟨found, read⟩
    have refreshed := Navigator.refresh_read fetched
    have stale := Session.stale_iff direct fetched
    refine ⟨(Session.run capacity uses).navigator.table.isStale listing, by rw [refreshed],
      ?_, ?_, stale⟩
    · rw [refreshed, DefinitionTable.refresh_generation]
    · rw [stale]
      refine exists₃_congr fun earlier use later => and_congr_right fun last => ?_
      exact (Session.stays_iff_lasts (Use.access?_of_handed? last.handed)).symm
  · intro text offset untouched
    exact Navigator.definition_untouched untouched
  · intro text offset error failed
    exact Session.definition_unreadable capacity uses failed offset
  · intro text offset word touched
    exact Navigator.definition_word touched

open Index (oneText twoText)

theorem rebuilds_only_for_new_readings_evicted :
    ((Session.run 1 [.refresh oneText, .outline oneText]).navigator.refresh oneText).1 = .ok false ∧
      ((Session.run 1 [.refresh oneText, .outline twoText]).navigator.refresh oneText).1 =
        .ok true ∧
      ((Session.run 1 [.refresh oneText, .outline twoText]).navigator.refresh
        oneText).2.table.generation = 2 := by
  have read : descriptors oneText = .ok [] := by decide +kernel
  have handed : Use.handed? (.refresh oneText) = some oneText := by decide +kernel
  have again : ((Session.run 1 [.refresh oneText, .outline twoText]).navigator.refresh oneText).1 =
      .ok true := by
    decide +kernel
  refine ⟨?_, again, ?_⟩
  · obtain ⟨kept, _⟩ :=
      rebuilds_only_for_new_readings 1 [.refresh oneText, .outline oneText] (by simp)
    obtain ⟨rebuilt, answer, _, spared, _⟩ := kept oneText [] read
    have last : LastHanding oneText [.refresh oneText, .outline oneText] [] (.refresh oneText)
        [.outline oneText] :=
      ⟨rfl, handed, by simp [Use.handed?]⟩
    rw [answer, spared.mpr ⟨_, _, _, last, ?_⟩]
    intro early short
    rcases List.prefix_cons_iff.mp short with rfl | ⟨rest, rfl, shorter⟩
    · decide +kernel
    · rw [List.prefix_nil.mp shorter]
      decide +kernel
  · obtain ⟨evicted, _⟩ :=
      rebuilds_only_for_new_readings 1 [.refresh oneText, .outline twoText] (by simp)
    obtain ⟨rebuilt, answer, generation, _⟩ := evicted oneText [] read
    have first :
        (Session.run 1 [.refresh oneText, .outline twoText]).navigator.table.generation = 1 := by
      decide +kernel
    rw [generation, first, Except.ok.inj (answer.symm.trans again)]
    rfl

end QueryWorkbench.NodeTypes
