import Mathlib.Data.List.Forall2
import QueryWorkbench.Tree.Walk

/-! The walk over a tree, and the recursive preorder. The walk keeps no stack; what it has still to
visit is what stands to the right of the cursor and of every node above it, and the depth says how
far up it may look. -/

namespace QueryWorkbench

namespace Tree

@[elab_as_elim] theorem induct {motive : Tree → Prop}
    (node : ∀ label children, (∀ child ∈ children, motive child) → motive (.node label children))
    (tree : Tree) : motive tree := by
  refine @Tree.rec motive (fun children => ∀ child ∈ children, motive child) node ?_ ?_ tree
  · intro child member
    cases member
  · intro first rest first_ih rest_ih
    exact List.forall_mem_cons.mpr ⟨first_ih, rest_ih⟩

/-! Addresses. A node is found by the child numbers on the way to it, and the order of two nodes can
be read off their addresses. -/

/-- The first address leads to a node above the second, or turns off to the left of it. -/
def Precedes (first second : List Nat) : Prop :=
  (∃ number path, second = first ++ number :: path) ∨
    ∃ common left right before after, left < right ∧ first = common ++ left :: before ∧
      second = common ++ right :: after

theorem Precedes.cons {first second : List Nat} (precedes : Precedes first second) (number : Nat) :
    Precedes (number :: first) (number :: second) := by
  rcases precedes with ⟨next, path, rfl⟩ | ⟨common, left, right, before, after, order, rfl, rfl⟩
  · exact .inl ⟨next, path, rfl⟩
  · exact .inr ⟨number :: common, left, right, before, after, order, rfl, rfl⟩

theorem Precedes.ne {first second : List Nat} (precedes : Precedes first second) :
    first ≠ second := by
  rcases precedes with ⟨next, path, rfl⟩ | ⟨common, left, right, before, after, order, rfl, rfl⟩
  · simp
  · simp [Nat.ne_of_lt order]

theorem mem_addressesFrom {number : Nat} {trees : List Tree} {address : List Nat} :
    address ∈ addressesFrom number trees ↔
      ∃ place tree path, trees[place]? = some tree ∧ path ∈ tree.addresses ∧
        address = (number + place) :: path := by
  induction trees generalizing number with
  | nil => simp [addressesFrom]
  | cons first rest ih =>
      rw [addressesFrom, List.mem_append, List.mem_map, ih]
      constructor
      · rintro (⟨path, member, rfl⟩ | ⟨place, tree, path, found, member, rfl⟩)
        · exact ⟨0, first, path, rfl, member, rfl⟩
        · exact ⟨place + 1, tree, path, found, member, by rw [Nat.add_right_comm, Nat.add_assoc]⟩
      · rintro ⟨place, tree, path, found, member, rfl⟩
        cases place with
        | zero =>
            obtain rfl : first = tree := by simpa using found
            exact .inl ⟨path, member, rfl⟩
        | succ place =>
            exact .inr ⟨place, tree, path, by simpa using found,
              member, by rw [Nat.add_right_comm, Nat.add_assoc]⟩

theorem mem_addresses {tree : Tree} {address : List Nat} :
    address ∈ tree.addresses ↔ ∃ node, tree.descend? address = some node := by
  induction tree using Tree.induct generalizing address with
  | node label children ih =>
      rw [addresses, List.mem_cons, mem_addressesFrom]
      cases address with
      | nil => simp [descend?]
      | cons number path =>
          simp only [descend?, Tree.children, reduceCtorEq, false_or]
          constructor
          · rintro ⟨place, child, below, found, member, same⟩
            obtain ⟨rfl, rfl⟩ : number = place ∧ path = below := by simpa using same
            rw [found]
            exact (ih child (List.mem_of_getElem? found)).mp member
          · rintro ⟨node, reached⟩
            cases found : children[number]? with
            | none => simp [found] at reached
            | some child =>
                rw [found] at reached
                exact ⟨number, child, path, found,
                  (ih child (List.mem_of_getElem? found)).mpr ⟨node, reached⟩, by rw [Nat.zero_add]⟩

theorem addressesFrom_ordered {trees : List Tree} (number : Nat)
    (each : ∀ tree ∈ trees, tree.addresses.Pairwise Precedes) :
    (addressesFrom number trees).Pairwise Precedes := by
  induction trees generalizing number with
  | nil => exact List.Pairwise.nil
  | cons first rest ih =>
      obtain ⟨head, tail⟩ := List.forall_mem_cons.mp each
      rw [addressesFrom, List.pairwise_append]
      refine ⟨?_, ih (number + 1) tail, ?_⟩
      · rw [List.pairwise_map]
        exact head.imp fun precedes => precedes.cons number
      · intro early inFirst late inRest
        obtain ⟨before, _, rfl⟩ := List.mem_map.mp inFirst
        obtain ⟨place, tree, after, _, _, rfl⟩ := mem_addressesFrom.mp inRest
        exact .inr ⟨[], number, number + 1 + place, before, after, by omega, rfl, rfl⟩

theorem addresses_ordered (tree : Tree) : tree.addresses.Pairwise Precedes := by
  induction tree using Tree.induct with
  | node label children ih =>
      rw [addresses, List.pairwise_cons]
      refine ⟨?_, addressesFrom_ordered 0 ih⟩
      intro address member
      obtain ⟨place, tree, path, _, _, rfl⟩ := mem_addressesFrom.mp member
      exact .inl ⟨0 + place, path, rfl⟩

theorem addresses_nodup (tree : Tree) : tree.addresses.Nodup :=
  tree.addresses_ordered.imp Precedes.ne

end Tree

namespace Cursor

mutual

def stops (frames : List Frame) (depth : Nat) : Tree → List (Nat × Cursor)
  | .node label children =>
      (depth, ⟨.node label children, frames⟩) :: stopsFrom label [] frames (depth + 1) children

def stopsFrom (label : NodeLabel) (left : List Tree) (frames : List Frame) (depth : Nat) :
    List Tree → List (Nat × Cursor)
  | [] => []
  | tree :: right =>
      stops (⟨label, left, right⟩ :: frames) depth tree ++ stopsFrom label
        (tree :: left) frames depth right

end

def address (cursor : Cursor) : List Nat :=
  (cursor.frames.map fun frame => frame.left.length).reverse

structure Reached (start : Cursor) (path : List Nat) (cursor : Cursor) : Prop where
  focus : start.focus.descend? path = some cursor.focus
  address : cursor.address = start.address ++ path

def StopAt (start : Cursor) (depth : Nat) (path : List Nat) (stop : Nat × Cursor) : Prop :=
  stop.1 = depth + path.length ∧ Reached start path stop.2

theorem StopAt.parent {label : NodeLabel} {left right : List Tree} {child : Tree}
    {frames : List Frame} {depth : Nat} {path : List Nat} {stop : Nat × Cursor}
    (below : StopAt ⟨child, ⟨label, left, right⟩ :: frames⟩ (depth + 1) path stop) :
    StopAt ⟨.node label (left.reverse ++ child :: right), frames⟩ depth
      (left.length :: path) stop := by
  obtain ⟨depthEq, found, addressEq⟩ := below
  refine ⟨?_, ?_, ?_⟩
  · rw [depthEq, List.length_cons]
    omega
  · simpa [Tree.descend?, Tree.children] using found
  · simpa [address] using addressEq

theorem stopsFrom_addressed {trees : List Tree} (label : NodeLabel) (frames : List Frame)
    (depth : Nat)
    (each : ∀ tree ∈ trees, ∀ frames depth,
      List.Forall₂ (StopAt ⟨tree, frames⟩ depth) tree.addresses (stops frames depth tree))
    (left : List Tree) :
    List.Forall₂ (StopAt ⟨.node label (left.reverse ++ trees), frames⟩ depth)
      (Tree.addressesFrom left.length trees) (stopsFrom label left frames (depth + 1) trees) := by
  induction trees generalizing left with
  | nil => exact .nil
  | cons first right ih =>
      obtain ⟨here, later⟩ := List.forall_mem_cons.mp each
      rw [Tree.addressesFrom, stopsFrom]
      apply List.rel_append
      · rw [List.forall₂_map_left_iff]
        exact (here _ _).imp fun _ _ below => below.parent
      · simpa using ih later (first :: left)

theorem stops_addressed (tree : Tree) (frames : List Frame) (depth : Nat) :
    List.Forall₂ (StopAt ⟨tree, frames⟩ depth) tree.addresses (stops frames depth tree) := by
  induction tree using Tree.induct generalizing frames depth with
  | node label children ih =>
      rw [Tree.addresses, stops]
      refine .cons ⟨rfl, rfl, ?_⟩ (stopsFrom_addressed label frames depth ih [])
      rw [List.append_nil]

theorem stopsFrom_focus {trees : List Tree} (label : NodeLabel) (frames : List Frame) (depth : Nat)
    (each : ∀ tree ∈ trees, ∀ frames depth,
      (stops frames depth tree).map (fun stop => (stop.1, stop.2.focus)) = tree.preorder depth)
    (left : List Tree) :
    (stopsFrom label left frames depth trees).map (fun stop => (stop.1, stop.2.focus)) =
      Tree.preorders depth trees := by
  induction trees generalizing left with
  | nil => rfl
  | cons first right ih =>
      obtain ⟨here, later⟩ := List.forall_mem_cons.mp each
      rw [stopsFrom, Tree.preorders, List.map_append, here, ih later]

theorem stops_focus (tree : Tree) (frames : List Frame) (depth : Nat) :
    (stops frames depth tree).map (fun stop => (stop.1, stop.2.focus)) = tree.preorder depth := by
  induction tree using Tree.induct generalizing frames depth with
  | node label children ih =>
      rw [stops, Tree.preorder, List.map_cons, stopsFrom_focus label frames (depth + 1) ih]

section Walk

variable {σ : Type} (visit : σ → Cursor → Nat → σ)

def visitAll (state : σ) (stops : List (Nat × Cursor)) : σ :=
  stops.foldl (fun state stop => visit state stop.2 stop.1) state

def resume (state : σ) : Option (Cursor × Nat) → σ
  | some (cursor, depth) => cursor.walk visit state depth
  | none => state

theorem walk_leaf {cursor : Cursor} (leaf : cursor.firstChild? = none) (state : σ) (depth : Nat) :
    cursor.walk visit state depth = resume visit (visit state cursor depth)
      (cursor.climb depth) := by
  rw [walk]
  split
  · next found => simp [leaf] at found
  · split
    · next moved => rw [moved, resume]
    · next stays => rw [stays, resume]

theorem walk_firstChild {cursor child : Cursor} (found : cursor.firstChild? = some child)
    (state : σ) (depth : Nat) :
    cursor.walk visit state depth = child.walk visit (visit state cursor depth) (depth + 1) := by
  rw [walk]
  split
  · next same =>
      obtain rfl : child = _ := by simpa [found] using same
      rfl
  · next none => simp [found] at none

/-- From a child on, the walk goes through its subtree and those of its right siblings and then
leaves the parent. -/
theorem walk_siblings (label : NodeLabel) (frames : List Frame) (depth : Nat) {first : Tree}
    {right : List Tree}
    (each : ∀ tree ∈ first :: right, ∀ frames depth state,
      (⟨tree, frames⟩ : Cursor).walk visit state depth =
        resume visit (visitAll visit state (stops frames depth tree)) (climb ⟨tree, frames⟩ depth))
    (left : List Tree) (state : σ) :
    (⟨first, ⟨label, left, right⟩ :: frames⟩ : Cursor).walk visit state (depth + 1) =
      resume visit (visitAll visit state (stopsFrom label left frames (depth + 1) (first :: right)))
        (climb ⟨.node label (left.reverse ++ first :: right), frames⟩ depth) := by
  induction right generalizing first left state with
  | nil =>
      rw [each first (by simp)]
      simp [climb, nextSibling?, parent?, stopsFrom]
  | cons second right ih =>
      obtain ⟨_, later⟩ := List.forall_mem_cons.mp each
      have moved : climb ⟨first, ⟨label, left, second :: right⟩ :: frames⟩ (depth + 1) =
          some (⟨second, ⟨label, first :: left, right⟩ :: frames⟩, depth + 1) := rfl
      rw [each first (by simp), moved, resume, ih later, stopsFrom.eq_2 label left]
      simp [visitAll, List.foldl_append]

theorem walk_eq (tree : Tree) (frames : List Frame) (depth : Nat) (state : σ) :
    (⟨tree, frames⟩ : Cursor).walk visit state depth =
      resume visit (visitAll visit state (stops frames depth tree))
        (climb ⟨tree, frames⟩ depth) := by
  induction tree using Tree.induct generalizing frames depth state with
  | node label children ih =>
      cases children with
      | nil =>
          rw [walk_leaf visit rfl, stops, stopsFrom]
          rfl
      | cons first right =>
          rw [walk_firstChild visit rfl, walk_siblings visit label frames depth ih]
          rfl

theorem walk_zero (start : Cursor) (state : σ) :
    start.walk visit state 0 = visitAll visit state (stops start.frames 0 start.focus) :=
  walk_eq visit start.focus start.frames 0 state

end Walk

end Cursor

namespace Tree

theorem visits_eq_preorder (tree : Tree) : tree.visits = tree.preorder 0 := by
  rw [visits, traverse, Cursor.walk_zero, Cursor.visitAll, List.foldl_flip_cons_eq_append,
    List.append_nil, List.reverse_reverse]
  exact Cursor.stops_focus tree [] 0

end Tree

/-- The walk from any node of any tree, with any visitor, visits the recursive preorder of the
subtree below that node and nothing else: one stop for each path down from the start, each before
those below it and before those to its right. -/
theorem Cursor.walk_visits_preorder (start : Cursor) :
    ∃ (paths : List (List Nat)) (stops : List (Nat × Cursor)),
      (∀ (σ : Type) (visit : σ → Cursor → Nat → σ) (state : σ),
        start.walk visit state 0 =
          stops.foldl (fun state stop => visit state stop.2 stop.1) state) ∧
      stops.map (fun stop => (stop.1, stop.2.focus)) = start.focus.preorder 0 ∧
      start.focus.visits = start.focus.preorder 0 ∧
      List.Forall₂ (fun path stop => stop.1 = path.length ∧
        start.focus.descend? path = some stop.2.focus ∧
        stop.2.address = start.address ++ path) paths stops ∧
      (∀ path, path ∈ paths ↔ ∃ node, start.focus.descend? path = some node) ∧
      paths.Nodup ∧ paths.Pairwise Tree.Precedes := by
  refine ⟨start.focus.addresses, stops start.frames 0 start.focus, ?_, ?_, ?_, ?_, ?_, ?_, ?_⟩
  · intro σ visit state
    exact walk_zero visit start state
  · exact stops_focus start.focus start.frames 0
  · exact start.focus.visits_eq_preorder
  · refine (stops_addressed start.focus start.frames 0).imp ?_
    rintro path stop ⟨depthEq, found, addressEq⟩
    exact ⟨by rw [depthEq, Nat.zero_add], found, addressEq⟩
  · intro path
    exact Tree.mem_addresses
  · exact start.focus.addresses_nodup
  · exact start.focus.addresses_ordered

end QueryWorkbench
