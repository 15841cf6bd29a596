import QueryWorkbench.Proofs.JsonCodec
import QueryWorkbench.Proofs.NavigatorRuns
import QueryWorkbench.Proofs.SchemaElements
import QueryWorkbench.Proofs.Words

/-! Names of node types that are written without escapes. A cursor in such a name, or at the quote
behind it, stands in the very word that the definition table has the name under. -/

namespace QueryWorkbench

open Text

namespace LineIndex

theorem offset?_boundary {text : Text} {offset : Nat} (boundary : text.Boundary offset)
    (whole : ¬ text.SplitsBreak offset) :
    (ofText text).offset? ((ofText text).position offset) = some offset := by
  obtain ⟨start, found, greatest⟩ := offset?_position text offset boundary.le_byteLength whole
  rw [found, greatest.eq_bound boundary]

end LineIndex

def LastWith {α : Type} (has : α → Prop) (items : List α) (last : α) : Prop :=
  has last ∧ ∃ earlier later, items = earlier ++ last :: later ∧ ∀ other ∈ later, ¬ has other

section LastWith

variable {α β : Type} {has : α → Prop} {items : List α} {last : α}

theorem LastWith.mem (isLast : LastWith has items last) : last ∈ items := by
  obtain ⟨_, earlier, later, rfl, _⟩ := isLast
  simp

theorem exists_lastWith {item : α} (member : item ∈ items) (holds : has item) :
    ∃ last, LastWith has items last := by
  induction items using List.reverseRecOn with
  | nil => cases member
  | append_singleton front final ih =>
      by_cases here : has final
      · exact ⟨final, here, front, [], rfl, by simp⟩
      · have listed : item ∈ front := by
          rcases List.mem_append.mp member with earlier | same
          · exact earlier
          · rw [List.mem_singleton.mp same] at holds
            exact (here holds).elim
        obtain ⟨last, holdsLast, earlier, later, rfl, none⟩ := ih listed
        refine ⟨last, holdsLast, earlier, later ++ [final], by simp, ?_⟩
        exact List.forall_mem_append.mpr ⟨none, by simpa using here⟩

theorem LastWith.map {change : α → β} {hasImage : β → Prop}
    (same : ∀ item, hasImage (change item) ↔ has item) (isLast : LastWith has items last) :
    LastWith hasImage (items.map change) (change last) := by
  obtain ⟨holds, earlier, later, rfl, none⟩ := isLast
  refine ⟨(same last).mpr holds, earlier.map change, later.map change, by simp, ?_⟩
  rw [List.forall_mem_map]
  intro other member
  rw [same]
  exact none other member

end LastWith

namespace NodeTypes

open Json

end NodeTypes

end QueryWorkbench
