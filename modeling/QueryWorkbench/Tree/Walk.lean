import QueryWorkbench.Tree.Cursor

/-! The walk over a tree in preorder. It drives one cursor and counts the depth, so that it needs no
stack however deep the tree is. -/

namespace QueryWorkbench

namespace Cursor

/-- The next node outside the current subtree: the next sibling of the current node or of the
nearest node above it that has one, but none at depth zero. -/
def climb (cursor : Cursor) : Nat → Option (Cursor × Nat)
  | 0 => none
  | depth + 1 =>
      match cursor.nextSibling? with
      | some sibling => some (sibling, depth + 1)
      | none => (cursor.parent?.getD cursor).climb depth

theorem ahead_climb {cursor next : Cursor} {depth nextDepth : Nat}
    (moved : cursor.climb depth = some (next, nextDepth)) : next.ahead < cursor.beyond := by
  induction depth generalizing cursor with
  | zero => simp [climb] at moved
  | succ depth ih =>
      rw [climb] at moved
      split at moved
      · rename_i sibling found
        simp only [Option.some.injEq, Prod.mk.injEq] at moved
        exact moved.1 ▸ ahead_nextSibling found
      · have below := ih moved
        cases up : cursor.parent? with
        | none => simpa [up] using below
        | some parent =>
            rw [up, Option.getD_some] at below
            exact Nat.lt_of_lt_of_le below (beyond_parent up)

def walk {σ : Type} (visit : σ → Cursor → Nat → σ) (state : σ) (cursor : Cursor) (depth : Nat) :
    σ :=
  match _ : cursor.firstChild? with
  | some child => walk visit (visit state cursor depth) child (depth + 1)
  | none =>
      match _ : cursor.climb depth with
      | some (next, nextDepth) => walk visit (visit state cursor depth) next nextDepth
      | none => visit state cursor depth
termination_by cursor.ahead
decreasing_by
  · rename_i moved
    exact ahead_firstChild moved
  · rename_i moved
    exact Nat.lt_of_lt_of_le (ahead_climb moved) (Nat.le_add_left ..)

end Cursor

namespace Tree

def traverse {σ : Type} (visit : σ → Cursor → Nat → σ) (state : σ) (tree : Tree) : σ :=
  (Cursor.ofTree tree).walk visit state 0

def visits (tree : Tree) : List (Nat × Tree) :=
  (tree.traverse (fun seen cursor depth => (depth, cursor.focus) :: seen) []).reverse

end Tree

end QueryWorkbench
