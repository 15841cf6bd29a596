import QueryWorkbench.Tree.Basic

/-! A cursor in a tree. It moves one step at a time and cannot leave the subtree that it started
in. -/

namespace QueryWorkbench

/-- A node above the cursor, with the children to the left and to the right of the way taken. -/
structure Frame where
  label : NodeLabel
  left : List Tree
  right : List Tree

structure Cursor where
  focus : Tree
  frames : List Frame

namespace Cursor

def ofTree (tree : Tree) : Cursor := ⟨tree, []⟩

def firstChild? (cursor : Cursor) : Option Cursor :=
  match cursor.focus with
  | .node _ [] => none
  | .node label (child :: rest) => some ⟨child, ⟨label, [], rest⟩ :: cursor.frames⟩

def nextSibling? (cursor : Cursor) : Option Cursor :=
  match cursor.frames with
  | ⟨label, left, sibling :: right⟩ :: frames =>
      some ⟨sibling, ⟨label, cursor.focus :: left, right⟩ :: frames⟩
  | _ => none

def parent? (cursor : Cursor) : Option Cursor :=
  match cursor.frames with
  | ⟨label, left, right⟩ :: frames =>
      some ⟨.node label (left.reverse ++ cursor.focus :: right), frames⟩
  | [] => none

/-- The role of the current node. Where the cursor started, it knows no parent and so no role. -/
def field? (cursor : Cursor) : Option String :=
  if cursor.frames.isEmpty then none else cursor.focus.label.field

def beyond (cursor : Cursor) : Nat :=
  cursor.frames.foldr (fun frame count => Tree.sizes frame.right + count) 0

def ahead (cursor : Cursor) : Nat := Tree.sizes cursor.focus.children + cursor.beyond

theorem ahead_firstChild {cursor child : Cursor} (moved : cursor.firstChild? = some child) :
    child.ahead < cursor.ahead := by
  obtain ⟨⟨label, children⟩, frames⟩ := cursor
  cases children with
  | nil => simp [firstChild?] at moved
  | cons first rest =>
      obtain ⟨firstLabel, firstChildren⟩ := first
      simp only [firstChild?, Option.some.injEq] at moved
      subst moved
      simp only [ahead, beyond, Tree.children, Tree.sizes, Tree.size, List.foldr_cons]
      omega

theorem ahead_nextSibling {cursor sibling : Cursor} (moved : cursor.nextSibling? = some sibling) :
    sibling.ahead < cursor.beyond := by
  obtain ⟨focus, frames⟩ := cursor
  cases frames with
  | nil => simp [nextSibling?] at moved
  | cons frame frames =>
      obtain ⟨label, left, right⟩ := frame
      cases right with
      | nil => simp [nextSibling?] at moved
      | cons next right =>
          obtain ⟨nextLabel, nextChildren⟩ := next
          simp only [nextSibling?, Option.some.injEq] at moved
          subst moved
          simp only [ahead, beyond, Tree.children, Tree.sizes, Tree.size, List.foldr_cons]
          omega

theorem beyond_parent {cursor parent : Cursor} (moved : cursor.parent? = some parent) :
    parent.beyond ≤ cursor.beyond := by
  obtain ⟨focus, frames⟩ := cursor
  cases frames with
  | nil => simp [parent?] at moved
  | cons frame frames =>
      simp only [parent?, Option.some.injEq] at moved
      subst moved
      simp [beyond]

end Cursor

end QueryWorkbench
