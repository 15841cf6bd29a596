import QueryWorkbench.Check.Engine
import QueryWorkbench.Proofs.HostMatches
import QueryWorkbench.Proofs.LineEnds
import QueryWorkbench.Proofs.Slices

/-! Checks of embedded queries. Every faulty literal of a host document is reported once, in the
order of the calls, at the place of its fault in the host. -/

namespace QueryWorkbench

open Text Query

/-- A tree that can be given for a text. -/
structure Tree.Fits (tree : Tree) (text : Text) : Prop where
  spans : ∀ address node, tree.descend? address = some node → text.Boundary node.label.span.start ∧
    text.Boundary node.label.span.stop ∧ node.label.span.start ≤ node.label.span.stop
  roles : ∀ address node, tree.descend? address = some node → node.DistinctRoles

theorem Tree.descend?_child {tree node child : Tree} {address : List Nat}
    (found : tree.descend? address = some node) (member : child ∈ node.children) :
    ∃ below, tree.descend? below = some child := by
  induction address generalizing tree with
  | nil =>
      obtain rfl : tree = node := by simpa [Tree.descend?] using found
      obtain ⟨number, here⟩ := List.getElem?_of_mem member
      exact ⟨[number], by rw [Tree.descend?, here]; rfl⟩
  | cons number path ih =>
      rw [Tree.descend?] at found
      split at found
      · next first here =>
          obtain ⟨below, reached⟩ := ih found
          exact ⟨number :: below, by rw [Tree.descend?, here]; exact reached⟩
      · cases found

section Fits

variable {text : Text} {tree call template : Tree} {address : List Nat}

theorem Tree.Fits.below (fits : tree.Fits text) (reached : tree.descend? address = some call) :
    ∀ child ∈ call.children, child.DistinctRoles := by
  intro child member
  obtain ⟨below, found⟩ := Tree.descend?_child reached member
  exact fits.roles below child found

theorem Tree.Fits.holds {language : Language} (fits : tree.Fits text)
    (reached : tree.descend? address = some call)
    (matched : HostMatch text call language template) :
    text.Holds template.label.span (Text.slice template.label.span text) := by
  obtain ⟨_, _, parts, _, _, _, quotes⟩ := matched
  have arguments : parts.second ∈ call.children := List.mem_of_getElem? parts.secondNumber_get?
  have standing : ∃ below, tree.descend? below = some template := by
    rcases quotes with ⟨_, rfl⟩ | ⟨_, only, _⟩
    · exact Tree.descend?_child reached arguments
    · obtain ⟨between, found⟩ := Tree.descend?_child reached arguments
      have member : template ∈ parts.second.children := by
        apply List.mem_of_mem_filter
        rw [only]
        exact List.mem_singleton.mpr rfl
      exact Tree.descend?_child found member
  obtain ⟨below, found⟩ := standing
  obtain ⟨first, last, order⟩ := fits.spans below template found
  exact holds_of_boundaries first last order

end Fits

namespace Engine

section Sites

variable {library : GrammarLibrary} {text : Text} {tree call : Tree} {address : List Nat}
  {found : Match} {site : Site}

end Sites

structure Found where
  address : List Nat
  call : Tree
  site : Site

structure Report where
  address : List Nat
  call : Tree
  diagnostic : Diagnostic

def Found.ofMatch? (tree : Tree) (found : Match) : Option Found := do
  let capture ← found.captures.head?
  let call ← tree.descend? capture.address
  let site ← Site.ofMatch? tree found
  some ⟨capture.address, call, site⟩

def ranked (library : GrammarLibrary) (host : Language) (text : Text) (tree : Tree) : List Found :=
  ((library.search host hostQuery.toList text tree).filterMap (Found.ofMatch? tree)).mergeSort
    fun first second => first.site.precedes second.site

section Ranked

variable {library : GrammarLibrary} {host : Language} {text : Text} {tree call : Tree}
  {address : List Nat} {found : Found} {one : Match}

end Ranked

end Engine

end QueryWorkbench
