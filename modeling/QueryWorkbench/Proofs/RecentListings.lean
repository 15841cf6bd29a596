import Mathlib.Data.List.Nodup
import QueryWorkbench.Proofs.NavigatorRuns

/-! Which listings an index keeps. After any accesses it holds the texts fetched most recently, as
many as it has room for, and a listing keeps its identity exactly as long as its text stays. -/

namespace QueryWorkbench.NodeTypes.Index

/-! Lists of texts without repetitions, where the latest text comes first. -/

theorem eraseDups_filter (passes : Text → Bool) (texts : List Text) :
    (texts.filter passes).eraseDups = texts.eraseDups.filter passes := by
  induction size : texts.length using Nat.strongRecOn generalizing texts with
  | ind count ih =>
      cases texts with
      | nil => simp
      | cons text rest =>
          have less : (rest.filter fun other => !other == text).length < count := by
            have bound := List.length_filter_le (fun other => !other == text) rest
            rw [List.length_cons] at size
            omega
          rw [List.eraseDups_cons, List.filter_cons, List.filter_cons, ← ih _ less _ rfl,
            List.filter_filter]
          split
          · rw [List.eraseDups_cons, List.filter_filter]
            simp only [Bool.and_comm]
          · next fails =>
              congr 1
              apply List.filter_congr
              intro other _
              by_cases same : other = text
              · simp [same, fails]
              · simp [same]

theorem eraseDups_latest (text : Text) (texts : List Text) :
    (text :: texts).eraseDups = text :: texts.eraseDups.filter (fun other => other != text) := by
  rw [List.eraseDups_cons, eraseDups_filter]
  rfl

theorem eraseDups_nodup (texts : List Text) : texts.eraseDups.Nodup := by
  induction texts with
  | nil => simp
  | cons text rest ih =>
      rw [eraseDups_latest, List.nodup_cons]
      exact ⟨by simp, ih.filter _⟩

section Room

variable {room : Nat} {text : Text} {recent : List Text}

theorem take_promoted (unique : recent.Nodup) (kept : text ∈ recent.take room) :
    text :: (recent.take room).filter (fun other => other != text) =
      (text :: recent.filter (fun other => other != text)).take room := by
  obtain ⟨before, after, rfl⟩ := List.append_of_mem (List.mem_of_mem_take kept)
  obtain ⟨_, tail, apart⟩ := List.nodup_append.mp unique
  have notBefore : ∀ other ∈ before, (other != text) = true := by
    intro other member
    simpa using apart other member text (List.mem_cons_self ..)
  have notAfter : ∀ other ∈ after, (other != text) = true := by
    intro other member
    have different : other ≠ text := by
      rintro rfl
      exact (List.nodup_cons.mp tail).1 member
    simpa using different
  have inside : before.length < room := by
    apply Nat.lt_of_not_le
    intro full
    rw [List.take_append_of_le_length full] at kept
    exact apart text (List.mem_of_mem_take kept) text (List.mem_cons_self ..) rfl
  obtain ⟨more, rfl⟩ := Nat.exists_eq_add_of_lt inside
  have whole : (before ++ text :: after).take (before.length + more + 1) =
      before ++ text :: after.take more := by
    rw [Nat.add_assoc, List.take_length_add_append, List.take_succ_cons]
  have keptAfter : ∀ other ∈ after.take more, (other != text) = true :=
    fun other member => notAfter other (List.mem_of_mem_take member)
  rw [whole, List.take_succ_cons]
  simp only [List.filter_append, List.filter_cons, bne_self_eq_false, Bool.false_eq_true, if_false,
    List.filter_eq_self.mpr notBefore, List.filter_eq_self.mpr notAfter,
    List.filter_eq_self.mpr keptAfter]
  rw [List.take_length_add_append]

theorem take_inserted (some : 0 < room) (absent : text ∉ recent.take room) :
    (text :: recent.take room).take room =
      (text :: recent.filter (fun other => other != text)).take room := by
  obtain ⟨less, rfl⟩ := Nat.exists_eq_add_one.mpr some
  have front : ∀ other ∈ recent.take (less + 1), (other != text) = true := by
    intro other member
    have different : other ≠ text := by
      rintro rfl
      exact absent member
    simpa using different
  have split : recent.filter (fun other => other != text) =
      recent.take (less + 1) ++ (recent.drop (less + 1)).filter (fun other => other != text) := by
    conv_lhs => rw [← List.take_append_drop (less + 1) recent, List.filter_append,
      List.filter_eq_self.mpr front]
  rw [List.take_succ_cons, List.take_succ_cons, split]
  congr 1
  by_cases enough : less ≤ (recent.take (less + 1)).length
  · rw [List.take_append_of_le_length enough]
  · have short : recent.length ≤ less + 1 := by
      rw [List.length_take] at enough
      omega
    rw [List.drop_eq_nil_of_le short, List.filter_nil, List.append_nil]

end Room

inductive Access where
  | fetch (text : Text)
  | contains (text : Text)
  | clear

def step (index : Index) : Access → Index
  | .fetch text => (index.fetch text).2
  | .contains _ => index
  | .clear => index.clear

def resident (index : Index) : List Text := index.entries.map Entry.text

theorem mem_resident {index : Index} {text : Text} :
    text ∈ index.resident ↔ ∃ entry ∈ index.entries, entry.text = text := by
  rw [resident, List.mem_map]

theorem contains_iff {index : Index} {text : Text} :
    index.contains text = true ↔ text ∈ index.resident := by
  simp [contains, mem_resident]

theorem fetch_cases (index : Index) (text : Text) :
    (∃ entry ∈ index.entries, entry.text = text ∧
      index.fetch text = (entry.outcome, { index with
        entries := entry :: index.entries.filter (fun other => other.text != text)
        hits := index.hits + 1 })) ∨
      text ∉ index.resident ∧ ∃ outcome readings, index.readings ≤ readings ∧
        (∀ listing, outcome = .ok listing → listing.identity = index.readings ∧
          index.readings < readings) ∧
        index.fetch text = (outcome, { index with
          entries := (⟨text, outcome⟩ :: index.entries).take index.capacity
          misses := index.misses + 1
          readings }) := by
  unfold fetch
  split
  · next entry found =>
      exact .inl ⟨entry, List.mem_of_find?_eq_some found, by simpa using List.find?_some found, rfl⟩
  · next missing =>
      have absent : text ∉ index.resident := by
        rintro member
        obtain ⟨entry, kept, named⟩ := mem_resident.mp member
        exact List.find?_eq_none.mp missing entry kept (by simpa using named)
      unfold read
      cases descriptors text with
      | ok found =>
          refine .inr ⟨absent, .ok ⟨index.readings, found⟩, index.readings + 1, by omega, ?_, rfl⟩
          rintro listing ⟨⟩
          exact ⟨rfl, by simp⟩
      | error error =>
          refine .inr ⟨absent, .error error, index.readings, by omega, ?_, rfl⟩
          rintro listing ⟨⟩

theorem counts_fetch (index : Index) (text : Text) :
    ((index.fetch text).2.hits, (index.fetch text).2.misses) =
      if index.contains text then (index.hits + 1, index.misses)
        else (index.hits, index.misses + 1) := by
  rcases fetch_cases index text with ⟨entry, kept, named, fetched⟩
    | ⟨absent, outcome, readings, _, _, fetched⟩
  · have found := contains_iff.mpr (mem_resident.mpr ⟨entry, kept, named⟩)
    rw [fetched, if_pos found]
  · rw [fetched, if_neg (contains_iff.not.mpr absent)]

/-- The index has the latest of the texts, as many as it has room for, and has counted every
fetch. -/
structure Ranked (room : Nat) (texts : List Text) (index : Index) : Prop where
  capacity : index.capacity = room
  resident : index.resident = texts.eraseDups.take room
  counted : index.hits + index.misses = texts.length

theorem Ranked.nodup {room : Nat} {texts : List Text} {index : Index}
    (ranked : index.Ranked room texts) : index.resident.Nodup := by
  rw [ranked.resident]
  exact (List.take_sublist _ _).nodup (eraseDups_nodup texts)

theorem Ranked.fetch {room : Nat} {texts : List Text} {index : Index} (some : 0 < room)
    (ranked : index.Ranked room texts) (text : Text) :
    (index.fetch text).2.Ranked room (text :: texts) := by
  have counted := ranked.counted
  rcases fetch_cases index text with ⟨entry, kept, named, fetched⟩
    | ⟨absent, outcome, readings, _, _, fetched⟩
  · have present := mem_resident.mpr ⟨entry, kept, named⟩
    rw [ranked.resident] at present
    rw [fetched]
    refine ⟨ranked.capacity, ?_, ?_⟩
    · have others : (index.entries.filter fun other => other.text != text).map Entry.text =
          index.resident.filter (fun other => other != text) := by
        rw [Index.resident, List.filter_map]
        rfl
      rw [eraseDups_latest, ← take_promoted (eraseDups_nodup texts) present, ← ranked.resident,
        ← others, ← named]
      rfl
    · rw [List.length_cons]
      dsimp only
      omega
  · rw [fetched]
    refine ⟨ranked.capacity, ?_, ?_⟩
    · rw [ranked.resident] at absent
      rw [eraseDups_latest, ← take_inserted some absent, ← ranked.resident, ← ranked.capacity]
      simp [Index.resident, List.map_take]
    · rw [List.length_cons]
      dsimp only
      omega

structure Belongs (index : Index) (text : Text) (identity : Nat) : Prop where
  past : identity < index.readings
  only : ∀ entry ∈ index.entries, ∀ listing, entry.outcome = .ok listing →
    listing.identity = identity → entry.text = text

def Separate (index : Index) : Prop :=
  ∀ entry ∈ index.entries, ∀ listing, entry.outcome = .ok listing →
    index.Belongs entry.text listing.identity

structure Gone (index : Index) (identity : Nat) : Prop where
  past : identity < index.readings
  none : ∀ entry ∈ index.entries, ∀ listing, entry.outcome = .ok listing →
    listing.identity ≠ identity

theorem readings_step (index : Index) (access : Access) :
    index.readings ≤ (index.step access).readings := by
  cases access with
  | fetch text =>
      rw [step]
      rcases fetch_cases index text with ⟨_, _, _, fetched⟩
        | ⟨_, outcome, readings, more, _, fetched⟩
      · simp [fetched]
      · simpa [fetched] using more
  | contains text => exact Nat.le_refl _
  | clear => exact Nat.le_refl _

theorem mem_step {index : Index} {access : Access} {entry : Entry}
    (member : entry ∈ (index.step access).entries) :
    entry ∈ index.entries ∨
      access = .fetch entry.text ∧ entry.text ∉ index.resident ∧
        ∀ listing, entry.outcome = .ok listing →
          listing.identity = index.readings ∧ index.readings < (index.step access).readings := by
  cases access with
  | fetch text =>
      rw [step] at member ⊢
      rcases fetch_cases index text with
        ⟨found, kept, _, fetched⟩ | ⟨absent, outcome, readings, _, fresh, fetched⟩
      · rw [fetched] at member
        rcases List.mem_cons.mp member with rfl | older
        · exact .inl kept
        · exact .inl (List.mem_filter.mp older).1
      · rw [fetched] at member ⊢
        rcases List.mem_cons.mp (List.mem_of_mem_take member) with rfl | older
        · exact .inr ⟨rfl, absent, fresh⟩
        · exact .inl older
  | contains text => exact .inl member
  | clear => cases member

theorem Belongs.step {index : Index} {text : Text} {identity : Nat}
    (belongs : index.Belongs text identity) (access : Access) :
    (index.step access).Belongs text identity where
  past := Nat.lt_of_lt_of_le belongs.past (readings_step index access)
  only := by
    intro entry member listing ok same
    rcases mem_step member with older | ⟨_, _, fresh⟩
    · exact belongs.only entry older listing ok same
    · have past := belongs.past
      have new := (fresh listing ok).1
      omega

theorem Gone.step {index : Index} {identity : Nat} (gone : index.Gone identity) (access : Access) :
    (index.step access).Gone identity where
  past := Nat.lt_of_lt_of_le gone.past (readings_step index access)
  none := by
    intro entry member listing ok
    rcases mem_step member with older | ⟨_, _, fresh⟩
    · exact gone.none entry older listing ok
    · have past := gone.past
      have new := (fresh listing ok).1
      omega

theorem Separate.step {index : Index} (separate : index.Separate) (access : Access) :
    (index.step access).Separate := by
  intro entry member listing ok
  rcases mem_step member with older | ⟨fetched, _, fresh⟩
  · exact (separate entry older listing ok).step access
  · obtain ⟨new, past⟩ := fresh listing ok
    refine ⟨by omega, ?_⟩
    intro other otherMember otherListing otherOk same
    rcases mem_step otherMember with older | ⟨otherFetched, _, _⟩
    · have before := (separate other older otherListing otherOk).past
      omega
    · rw [otherFetched] at fetched
      exact Access.fetch.inj fetched

theorem Belongs.gone {index : Index} {text : Text} {identity : Nat}
    (belongs : index.Belongs text identity) (absent : text ∉ index.resident) :
    index.Gone identity where
  past := belongs.past
  none := by
    intro entry member listing ok same
    exact absent (mem_resident.mpr ⟨entry, member, belongs.only entry member listing ok same⟩)

theorem eq_of_text {index : Index} (unique : index.resident.Nodup) {first second : Entry}
    (one : first ∈ index.entries) (other : second ∈ index.entries)
    (same : first.text = second.text) : first = second :=
  List.inj_on_of_nodup_map unique one other same

theorem entry_step {index : Index} {access : Access} {entry : Entry} (unique : index.resident.Nodup)
    (member : entry ∈ index.entries) (stays : entry.text ∈ (index.step access).resident) :
    entry ∈ (index.step access).entries := by
  obtain ⟨later, kept, same⟩ := mem_resident.mp stays
  rcases mem_step kept with older | ⟨_, absent, _⟩
  · rwa [← eq_of_text unique older member same]
  · exact absurd (mem_resident.mpr ⟨entry, member, same.symm⟩) absent

theorem mem_fetch {index : Index} (some : 0 < index.capacity) (text : Text) :
    ⟨text, (index.fetch text).1⟩ ∈ (index.fetch text).2.entries := by
  rcases fetch_cases index text with ⟨entry, _, rfl, fetched⟩
    | ⟨_, outcome, readings, _, _, fetched⟩
  · rw [fetched]
    exact List.mem_cons_self ..
  · obtain ⟨less, room⟩ := Nat.exists_eq_add_one.mpr some
    rw [fetched]
    dsimp only
    rw [room, List.take_succ_cons]
    exact List.mem_cons_self ..

theorem fetch_kept {index : Index} {entry : Entry} (unique : index.resident.Nodup)
    (member : entry ∈ index.entries) : (index.fetch entry.text).1 = entry.outcome := by
  rcases fetch_cases index entry.text with ⟨found, kept, named, fetched⟩ | ⟨absent, _⟩
  · rw [fetched, eq_of_text unique kept member named]
  · exact absurd (mem_resident.mpr ⟨entry, member, rfl⟩) absent

theorem fetch_listing {index : Index} {text : Text} {listing : Listing}
    (fetched : (index.fetch text).1 = .ok listing) :
    ⟨text, .ok listing⟩ ∈ index.entries ∨ listing.identity = index.readings := by
  rcases fetch_cases index text with ⟨entry, kept, rfl, found⟩
    | ⟨_, outcome, readings, _, fresh, found⟩
  · rw [found] at fetched
    rw [← show entry.outcome = .ok listing from fetched]
    exact .inl kept
  · rw [found] at fetched
    exact .inr (fresh listing fetched).1

def run (capacity : Nat) (accesses : List Access) : Index := accesses.foldl step (empty capacity)

def note (texts : List Text) : Access → List Text
  | .fetch text => text :: texts
  | .contains _ => texts
  | .clear => []

def fetched (accesses : List Access) : List Text := accesses.foldl note []

variable (capacity : Nat) (accesses : List Access)

theorem run_concat (access : Access) :
    run capacity (accesses ++ [access]) = (run capacity accesses).step access := by
  simp [run]

theorem ranked_run : (run capacity accesses).Ranked (max capacity 1) (fetched accesses) := by
  induction accesses using List.reverseRecOn with
  | nil => exact ⟨rfl, by simp [run, resident, empty, fetched], rfl⟩
  | append_singleton accesses access ih =>
      have noted : fetched (accesses ++ [access]) = note (fetched accesses) access := by
        simp [fetched]
      rw [run_concat, noted]
      cases access with
      | fetch text => exact ih.fetch (by omega) text
      | contains text => exact ih
      | clear => exact ⟨ih.capacity, by simp [step, clear, resident, note], rfl⟩

theorem separate_run : (run capacity accesses).Separate := by
  induction accesses using List.reverseRecOn with
  | nil =>
      intro entry member
      cases member
  | append_singleton accesses access ih =>
      rw [run_concat]
      exact ih.step access

theorem faithful_run : ∃ ledger, (run capacity accesses).Faithful ledger := by
  induction accesses using List.reverseRecOn with
  | nil => exact ⟨[], faithful_empty capacity⟩
  | append_singleton accesses access ih =>
      obtain ⟨ledger, faithful⟩ := ih
      rw [run_concat]
      cases access with
      | fetch text =>
          obtain ⟨more, next, _⟩ := faithful.fetch text
          exact ⟨ledger ++ more, next⟩
      | contains text => exact ⟨ledger, faithful⟩
      | clear => exact ⟨ledger, faithful.clear⟩

theorem fetch_content (text : Text) :
    ((run capacity accesses).fetch text).1.map Listing.descriptors = descriptors text := by
  obtain ⟨ledger, faithful⟩ := faithful_run capacity accesses
  obtain ⟨more, _, agrees⟩ := faithful.fetch text
  cases outcome : ((run capacity accesses).fetch text).1 with
  | ok listing =>
      rw [outcome] at agrees
      exact (Entered.content agrees).symm
  | error error =>
      rw [outcome] at agrees
      exact Eq.symm agrees

section Between

variable {capacity accesses} {text : Text} {listing : Listing} {between : List Access}

theorem run_snoc (access : Access) :
    run capacity (accesses ++ .fetch text :: (between ++ [access])) =
      (run capacity (accesses ++ .fetch text :: between)).step access := by
  rw [← run_concat]
  simp

theorem belongs_between (ok : ((run capacity accesses).fetch text).1 = .ok listing) :
    (run capacity (accesses ++ .fetch text :: between)).Belongs text listing.identity := by
  induction between using List.reverseRecOn with
  | nil =>
      rw [run_concat]
      have room : 0 < (run capacity accesses).capacity := by
        rw [(ranked_run capacity accesses).capacity]
        omega
      have kept := mem_fetch room text
      rw [ok] at kept
      exact (separate_run capacity accesses).step (.fetch text) _ kept listing rfl
  | append_singleton between access ih =>
      rw [run_snoc]
      exact ih.step access

theorem kept_between (ok : ((run capacity accesses).fetch text).1 = .ok listing)
    (stays : ∀ early, early <+: between →
      text ∈ (run capacity (accesses ++ .fetch text :: early)).resident) :
    ⟨text, .ok listing⟩ ∈ (run capacity (accesses ++ .fetch text :: between)).entries := by
  induction between using List.reverseRecOn with
  | nil =>
      rw [run_concat, ← ok]
      apply mem_fetch
      rw [(ranked_run capacity accesses).capacity]
      omega
  | append_singleton between access ih =>
      have before := ih fun early short => stays early (short.trans (List.prefix_append ..))
      have here := stays _ (List.prefix_refl _)
      rw [run_snoc] at here ⊢
      exact entry_step (ranked_run capacity _).nodup before here

theorem gone_between (ok : ((run capacity accesses).fetch text).1 = .ok listing)
    {early : List Access} (short : early <+: between)
    (absent : text ∉ (run capacity (accesses ++ .fetch text :: early)).resident) :
    (run capacity (accesses ++ .fetch text :: between)).Gone listing.identity := by
  induction between using List.reverseRecOn with
  | nil =>
      rw [List.prefix_nil.mp short] at absent
      exact (belongs_between ok).gone absent
  | append_singleton between access ih =>
      rcases List.prefix_concat_iff.mp short with rfl | shorter
      · exact (belongs_between ok).gone absent
      · rw [run_snoc]
        exact (ih shorter).step access

theorem same_identity_iff {other : Text} {later : Listing}
    (ok : ((run capacity accesses).fetch text).1 = .ok listing)
    (laterOk : ((run capacity (accesses ++ .fetch text :: between)).fetch other).1 = .ok later) :
    listing.identity = later.identity ↔ text = other ∧
      ∀ early, early <+: between →
        (run capacity (accesses ++ .fetch text :: early)).contains text = true := by
  have belongs :
      (run capacity (accesses ++ .fetch text :: between)).Belongs text listing.identity :=
    belongs_between ok
  constructor
  · intro same
    rcases fetch_listing laterOk with kept | fresh
    · refine ⟨(belongs.only _ kept later rfl same.symm).symm, ?_⟩
      intro early short
      rw [contains_iff]
      apply Decidable.byContradiction
      intro absent
      exact (gone_between ok short absent).none _ kept later rfl same.symm
    · have past := belongs.past
      omega
  · rintro ⟨rfl, stays⟩
    have kept := kept_between ok fun early short => contains_iff.mp (stays early short)
    rw [fetch_kept (ranked_run capacity _).nodup kept] at laterOk
    rw [Except.ok.inj laterOk]

end Between

/-- After any accesses an index holds the texts fetched most recently since it was cleared, as many
as it has room for and at least one. A fetch hits exactly if its text is among them and answers what
the text itself lists, and two fetches share a listing exactly if they are of one text that stayed
in between. -/
theorem keeps_most_recent :
    (run capacity accesses).resident = (fetched accesses).eraseDups.take (max capacity 1) ∧
      (∀ text, (run capacity accesses).contains text = true ↔
        text ∈ (fetched accesses).eraseDups.take (max capacity 1)) ∧
      (∀ text, (((run capacity accesses).fetch text).2.hits,
        ((run capacity accesses).fetch text).2.misses) =
        if (run capacity accesses).contains text
        then ((run capacity accesses).hits + 1, (run capacity accesses).misses)
        else ((run capacity accesses).hits, (run capacity accesses).misses + 1)) ∧
      (run capacity accesses).hits + (run capacity accesses).misses = (fetched accesses).length ∧
      (∀ text, ((run capacity accesses).fetch text).1.map Listing.descriptors = descriptors text) ∧
      ∀ text listing between other later, ((run capacity accesses).fetch text).1 = .ok listing →
        ((run capacity (accesses ++ .fetch text :: between)).fetch other).1 = .ok later →
        (listing.identity = later.identity ↔ text = other ∧
          ∀ early, early <+: between →
            (run capacity (accesses ++ .fetch text :: early)).contains text = true) := by
  have ranked := ranked_run capacity accesses
  refine ⟨ranked.resident, ?_, ?_, ranked.counted, ?_, ?_⟩
  · intro text
    rw [contains_iff, ranked.resident]
  · intro text
    exact counts_fetch (run capacity accesses) text
  · intro text
    exact fetch_content capacity accesses text
  · intro text listing between other later ok laterOk
    exact same_identity_iff ok laterOk

def oneText : Text := ['[', '1', ']']

def twoText : Text := ['[', '2', ']']

theorem keeps_most_recent_evicted :
    ((run 1 []).fetch oneText).1 = .ok ⟨0, []⟩ ∧
      ((run 1 [.fetch oneText, .fetch twoText]).fetch oneText).1 = .ok ⟨2, []⟩ ∧
      ¬ ∀ early,
        early <+: [.fetch twoText] → (run 1 (.fetch oneText :: early)).contains oneText = true := by
  obtain ⟨_, _, _, _, _, identities⟩ := keeps_most_recent 1 []
  have first : ((run 1 []).fetch oneText).1 = .ok ⟨0, []⟩ := by decide +kernel
  have again : ((run 1 [.fetch oneText, .fetch twoText]).fetch oneText).1 = .ok ⟨2, []⟩ := by
    decide +kernel
  refine ⟨first, again, ?_⟩
  intro stays
  have same :=
    (identities oneText ⟨0, []⟩ [.fetch twoText] oneText ⟨2, []⟩ first again).mpr ⟨rfl, stays⟩
  cases same

end QueryWorkbench.NodeTypes.Index
