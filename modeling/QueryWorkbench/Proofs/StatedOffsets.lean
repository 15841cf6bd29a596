import Mathlib.Data.List.Induction
import Mathlib.Data.List.TakeWhile
import Mathlib.Data.Nat.Digits.Defs
import QueryWorkbench.Diagnostic.Message

/-! The offset that a compiler message states. It is the number behind the first mark that a digit
follows; digits of other scripts or a number beyond 64 bits leave the message without an offset. -/

namespace QueryWorkbench.Message

def MarkedBehind (text before : Text) : Prop :=
  ∃ digit after, text = before ++ (offsetMark ++ digit :: after) ∧ isDecimalDigit digit = true

structure Fragment (text digits after : Text) : Prop where
  split : text = offsetMark ++ (digits ++ after)
  nonempty : digits ≠ []
  all : ∀ digit ∈ digits, isDecimalDigit digit = true
  ends : ∀ next, after.head? = some next → isDecimalDigit next = false

def FirstFragment (text digits : Text) : Prop :=
  ∃ before rest after, text = before ++ rest ∧ Fragment rest digits after ∧
    ∀ earlier, MarkedBehind text earlier → before.length ≤ earlier.length

def digitValue (digit : Char) : Nat := digit.toNat - '0'.toNat

structure Reads64 (digits : Text) (value : Nat) : Prop where
  ascii : ∀ digit ∈ digits, digit.isDigit = true
  counted : value = Nat.ofDigits 10 (digits.reverse.map digitValue)
  fits : value < 2 ^ 64

def States (message : Text) (value : Nat) : Prop :=
  ∃ digits, FirstFragment message digits ∧ Reads64 digits value

theorem Fragment.marked {text digits after : Text} (fragment : Fragment text digits after) :
    MarkedBehind text [] := by
  obtain ⟨digit, others, rfl⟩ := List.exists_cons_of_ne_nil fragment.nonempty
  exact ⟨digit, others ++ after, fragment.split, fragment.all digit (List.mem_cons_self ..)⟩

theorem takeWhile_digits_of_ends {digits after : Text}
    (all : ∀ digit ∈ digits, isDecimalDigit digit = true)
    (ends : ∀ next, after.head? = some next → isDecimalDigit next = false) :
    (digits ++ after).takeWhile isDecimalDigit = digits := by
  rw [List.takeWhile_append_of_pos all]
  cases after with
  | nil => simp
  | cons next others => simp [ends next rfl]

theorem offsetDigits?_eq_some {text digits : Text} :
    offsetDigits? text = some digits ↔ ∃ after, Fragment text digits after := by
  constructor
  · intro found
    unfold offsetDigits? at found
    split at found
    · next marked =>
        obtain ⟨rest, rfl⟩ := List.isPrefixOf_iff_prefix.mp marked
        rw [List.drop_left] at found
        split at found
        · cases found
        · next some =>
            rw [Option.some.injEq] at found
            subst found
            refine ⟨rest.dropWhile isDecimalDigit, ?_, some, ?_, ?_⟩
            · rw [List.takeWhile_append_dropWhile]
            · exact fun digit member => List.mem_takeWhile_imp member
            · intro next first
              have stopped := List.head?_dropWhile_not isDecimalDigit rest
              rw [first] at stopped
              simpa using stopped
    · cases found
  · rintro ⟨after, rfl, nonempty, all, ends⟩
    have marked : offsetMark.isPrefixOf (offsetMark ++ (digits ++ after)) = true :=
      List.isPrefixOf_iff_prefix.mpr (List.prefix_append ..)
    rw [offsetDigits?, if_pos marked, List.drop_left, takeWhile_digits_of_ends all ends]
    split
    · next none => exact absurd rfl nonempty
    · rfl

theorem offsetDigits?_eq_none {text : Text} :
    offsetDigits? text = none ↔ ¬ MarkedBehind text [] := by
  constructor
  · rintro none ⟨digit, after, split, decimal⟩
    have marked : offsetMark.isPrefixOf text = true := by
      rw [split]
      exact List.isPrefixOf_iff_prefix.mpr (List.prefix_append ..)
    rw [offsetDigits?, if_pos marked, split, List.nil_append, List.drop_left] at none
    simp [decimal] at none
  · intro unmarked
    rw [Option.eq_none_iff_forall_ne_some]
    intro digits found
    obtain ⟨after, fragment⟩ := offsetDigits?_eq_some.mp found
    exact unmarked fragment.marked

theorem markedBehind_cons {char : Char} {rest before : Text} :
    MarkedBehind (char :: rest) (char :: before) ↔ MarkedBehind rest before := by
  simp [MarkedBehind]

theorem not_firstFragment_nil (digits : Text) : ¬ FirstFragment [] digits := by
  rintro ⟨before, rest, after, split, fragment, _⟩
  have none := fragment.split
  rw [(List.append_eq_nil_iff.mp split.symm).2] at none
  simp [offsetMark] at none

theorem firstFragment_here {text digits : Text} {given : Text}
    (found : offsetDigits? text = some given) : FirstFragment text digits ↔ digits = given := by
  obtain ⟨after, fragment⟩ := offsetDigits?_eq_some.mp found
  constructor
  · rintro ⟨before, rest, other, split, otherFragment, first⟩
    have none : before = [] :=
      List.length_eq_zero_iff.mp (Nat.le_zero.mp (first [] fragment.marked))
    rw [none, List.nil_append] at split
    subst split
    have same := offsetDigits?_eq_some.mpr ⟨other, otherFragment⟩
    rw [found, Option.some.injEq] at same
    exact same.symm
  · rintro rfl
    exact ⟨[], text, after, rfl, fragment, fun _ _ => Nat.zero_le _⟩

theorem firstFragment_later {char : Char} {rest digits : Text}
    (none : offsetDigits? (char :: rest) = none) :
    FirstFragment (char :: rest) digits ↔ FirstFragment rest digits := by
  have unmarked := offsetDigits?_eq_none.mp none
  constructor
  · rintro ⟨before, left, after, split, fragment, first⟩
    cases before with
    | nil =>
        rw [List.nil_append] at split
        rw [split] at unmarked
        exact absurd fragment.marked unmarked
    | cons same before =>
        obtain ⟨rfl, rfl⟩ := List.cons.inj split
        refine ⟨before, left, after, rfl, fragment, ?_⟩
        intro earlier marked
        have bound := first (char :: earlier) (markedBehind_cons.mpr marked)
        simpa using bound
  · rintro ⟨before, left, after, rfl, fragment, first⟩
    refine ⟨char :: before, left, after, rfl, fragment, ?_⟩
    intro earlier marked
    cases earlier with
    | nil => exact absurd marked unmarked
    | cons other earlier =>
        obtain ⟨digit, behind, split, decimal⟩ := marked
        rw [List.cons_append, List.cons.injEq] at split
        exact Nat.succ_le_succ (first earlier ⟨digit, behind, split.2, decimal⟩)

theorem foldl_digits (digits : Text) :
    digits.foldl (fun value digit => value * 10 + (digit.toNat - '0'.toNat)) 0 =
      Nat.ofDigits 10 (digits.reverse.map digitValue) := by
  induction digits using List.reverseRecOn with
  | nil => rfl
  | append_singleton digits last ih =>
      rw [List.foldl_append, ih, List.reverse_append, List.reverse_singleton, List.singleton_append,
        List.map_cons, Nat.ofDigits_cons, List.foldl_cons, List.foldl_nil, digitValue]
      omega

theorem readOffset?_eq_some {digits : Text} {value : Nat} :
    readOffset? digits = some value ↔ Reads64 digits value := by
  simp only [readOffset?, foldl_digits, Bool.and_eq_true, decide_eq_true_eq, List.all_eq_true]
  constructor
  · intro found
    split at found
    · next both =>
        obtain rfl := Option.some.inj found
        exact ⟨both.1, rfl, both.2⟩
    · cases found
  · rintro ⟨ascii, rfl, fits⟩
    exact if_pos ⟨ascii, fits⟩

theorem statedOffset?_eq_some {message : Text} {value : Nat} :
    statedOffset? message = some value ↔ States message value := by
  unfold States
  induction message with
  | nil => simp [statedOffset?, not_firstFragment_nil]
  | cons char rest ih =>
      rw [statedOffset?]
      split
      · next digits found => simp [firstFragment_here found, readOffset?_eq_some]
      · next none => simp only [firstFragment_later none, ih]

end QueryWorkbench.Message
