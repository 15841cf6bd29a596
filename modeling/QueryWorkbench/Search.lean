/-! Search by halving. In an array where the entries that pass a test come before those that do not,
their number is found in logarithmic time. -/

namespace QueryWorkbench

def leadingFrom {α : Type} (passes : α → Bool) (entries : Array α) (low high : Nat) : Nat :=
  if low < high then
    let middle := (low + high) / 2
    match entries[middle]? with
    | some entry =>
        if passes entry then leadingFrom passes entries (middle + 1) high
        else leadingFrom passes entries low middle
    | none => leadingFrom passes entries low middle
  else low
termination_by high - low
decreasing_by all_goals omega

def leading {α : Type} (passes : α → Bool) (entries : Array α) : Nat :=
  leadingFrom passes entries 0 entries.size

def PassesFirst {α : Type} (passes : α → Bool) (entries : Array α) : Prop :=
  ∀ (early late : Nat) (first second : α), early ≤ late → entries[early]? = some first →
    entries[late]? = some second → passes second = true → passes first = true

theorem leadingFrom_iff {α : Type} {passes : α → Bool} {entries : Array α} {low high : Nat}
    (ordered : PassesFirst passes entries) (order : low ≤ high)
    (below : ∀ (index : Nat) (entry : α), entries[index]? = some entry → index < low →
      passes entry = true)
    (above : ∀ (index : Nat) (entry : α), entries[index]? = some entry → high ≤ index →
      passes entry = false)
    {index : Nat} {entry : α} (found : entries[index]? = some entry) :
    passes entry = true ↔ index < leadingFrom passes entries low high := by
  fun_induction leadingFrom passes entries low high with
  | case1 low high less middle here at_middle passed ih =>
      refine ih (by omega) (fun i e place early => ?_) above
      exact ordered i middle e here (by omega) place at_middle passed
  | case2 low high less middle here at_middle failed ih =>
      refine ih (by omega) below (fun i e place late => ?_)
      cases verdict : passes e with
      | false => rfl
      | true => exact absurd (ordered middle i here e late at_middle place verdict) failed
  | case3 low high less middle outside ih =>
      refine ih (by omega) below (fun i e place late => ?_)
      have short := Array.getElem?_eq_none_iff.mp outside
      have inside := (Array.getElem?_eq_some_iff.mp place).1
      omega
  | case4 low high done =>
      constructor
      · intro passed
        apply Decidable.byContradiction
        intro late
        have failed := above index entry found (by omega)
        rw [passed] at failed
        exact Bool.noConfusion failed
      · exact below index entry found

theorem leading_iff {α : Type} {passes : α → Bool} {entries : Array α}
    (ordered : PassesFirst passes entries) {index : Nat} {entry : α}
    (found : entries[index]? = some entry) :
    passes entry = true ↔ index < leading passes entries := by
  refine leadingFrom_iff ordered (Nat.zero_le _) (fun _ _ _ early => by omega)
    (fun i e place late => ?_) found
  have inside := (Array.getElem?_eq_some_iff.mp place).1
  omega

end QueryWorkbench
