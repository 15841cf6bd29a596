import QueryWorkbench.LineIndex

/-! Columns within a stretch of text. The table of wide characters turns byte offsets into columns
and columns into byte offsets; here both are related to the characters themselves. -/

namespace QueryWorkbench

theorem leadingFrom_le {α : Type} (passes : α → Bool) (entries : Array α) {low high : Nat}
    (order : low ≤ high) : leadingFrom passes entries low high ≤ high := by
  fun_induction leadingFrom passes entries low high with
  | case1 low high less middle here at_middle passed ih => exact ih (by omega)
  | case2 low high less middle here at_middle failed ih =>
      have bound := ih (by omega)
      omega
  | case3 low high less middle outside ih =>
      have bound := ih (by omega)
      omega
  | case4 low high done => exact order

theorem leading_append {α : Type} {passes : α → Bool} {first second : List α}
    (pass : ∀ entry ∈ first, passes entry = true) (fail : ∀ entry ∈ second, passes entry = false) :
    leading passes (first ++ second).toArray = first.length := by
  have place : ∀ (index : Nat) (entry : α), (first ++ second).toArray[index]? = some entry →
      (passes entry = true ↔ index < first.length) := by
    intro index entry found
    simp only [List.getElem?_toArray, List.getElem?_append] at found
    split at found
    · rename_i inside
      simp [inside, pass entry (List.mem_of_getElem? found)]
    · rename_i outside
      simp [outside, fail entry (List.mem_of_getElem? found)]
  have ordered : PassesFirst passes (first ++ second).toArray := by
    intro early late one two order foundEarly foundLate passed
    rw [place late two foundLate] at passed
    rw [place early one foundEarly]
    omega
  have bound : leading passes (first ++ second).toArray ≤ first.length + second.length := by
    have bound :=
      leadingFrom_le passes (first ++ second).toArray (Nat.zero_le (first ++ second).toArray.size)
    simpa [leading] using bound
  -- An index below both counts or above both is no witness, so the counts agree.
  rcases Nat.lt_trichotomy (leading passes (first ++ second).toArray) first.length with
    less | same | greater
  · exfalso
    have inside : leading passes (first ++ second).toArray < (first ++ second).length := by
      simp only [List.length_append]
      omega
    have found := List.getElem?_eq_getElem inside
    rw [← List.getElem?_toArray] at found
    have verdict := (place _ _ found).mpr less
    rw [leading_iff ordered found] at verdict
    omega
  · exact same
  · exfalso
    have inside : first.length < (first ++ second).length := by
      simp only [List.length_append]
      omega
    have found := List.getElem?_eq_getElem inside
    rw [← List.getElem?_toArray] at found
    have verdict := (leading_iff ordered found).mpr greater
    rw [place _ _ found] at verdict
    omega

theorem utf8Size_of_ascii {char : Char} (ascii : char.toNat < 128) : char.utf8Size = 1 := by
  rw [Char.utf8Size_eq_one_iff, UInt32.le_iff_toNat_le]
  change char.toNat ≤ 127
  omega

theorem utf16Size_of_ascii {char : Char} (ascii : char.toNat < 128) : utf16Size char = 1 := by
  unfold utf16Size
  rw [if_pos (by omega)]

theorem utf16Size_pos (char : Char) : 0 < utf16Size char := by
  unfold utf16Size
  split <;> omega

def Text.utf16Length : Text → Nat
  | [] => 0
  | char :: rest => utf16Size char + utf16Length rest

open Text

@[simp] theorem utf16Length_nil : utf16Length [] = 0 := rfl

@[simp] theorem utf16Length_cons (char : Char) (rest : Text) :
    utf16Length (char :: rest) = utf16Size char + utf16Length rest := rfl

theorem wideChars_append (offset : Nat) (first second : Text) :
    wideChars offset (first ++ second) =
      wideChars offset first ++ wideChars (offset + byteLength first) second := by
  induction first generalizing offset with
  | nil => simp [wideChars]
  | cons char rest ih =>
      simp only [List.cons_append, wideChars, byteLength_cons, ih, Nat.add_assoc]
      split <;> rfl

theorem mem_wideChars {offset : Nat} {text : Text} {wide : WideChar}
    (member : wide ∈ wideChars offset text) :
    offset ≤ wide.offset ∧ wide.offset < offset + byteLength text := by
  induction text generalizing offset with
  | nil => simp [wideChars] at member
  | cons char rest ih =>
      have positive := char.utf8Size_pos
      simp only [wideChars] at member
      rw [byteLength_cons]
      split at member
      · have inside := ih member
        omega
      · rcases List.mem_cons.mp member with here | later
        · subst wide
          dsimp only
          omega
        · have inside := ih later
          omega

/-- The longest start of a text that takes at most `units` columns. -/
def fitting (units : Nat) : Text → Text
  | [] => []
  | char :: rest =>
      if utf16Size char ≤ units then char :: fitting (units - utf16Size char) rest else []

theorem fitting_zero (text : Text) : fitting 0 text = [] := by
  cases text with
  | nil => rfl
  | cons char rest =>
      have positive := utf16Size_pos char
      rw [fitting, if_neg (by omega)]

theorem exists_append_of_fitting (units : Nat) (text : Text) :
    ∃ rest, text = fitting units text ++ rest := by
  induction text generalizing units with
  | nil => exact ⟨[], rfl⟩
  | cons char rest ih =>
      rw [fitting]
      split
      · obtain ⟨left, whole⟩ := ih (units - utf16Size char)
        refine ⟨left, ?_⟩
        rw [List.cons_append, ← whole]
      · exact ⟨char :: rest, rfl⟩

theorem utf16Length_fitting_le (units : Nat) (text : Text) :
    utf16Length (fitting units text) ≤ units := by
  induction text generalizing units with
  | nil => exact Nat.zero_le _
  | cons char rest ih =>
      rw [fitting]
      split
      · have bound := ih (units - utf16Size char)
        rw [utf16Length_cons]
        omega
      · exact Nat.zero_le _

theorem byteLength_le_fitting {units : Nat} {first : Text} (second : Text)
    (fits : utf16Length first ≤ units) :
    byteLength first ≤ byteLength (fitting units (first ++ second)) := by
  induction first generalizing units with
  | nil => exact Nat.zero_le _
  | cons char rest ih =>
      rw [utf16Length_cons] at fits
      rw [List.cons_append, fitting, if_pos (by omega)]
      simp only [byteLength_cons]
      exact Nat.add_le_add_left (ih (by omega)) _

theorem fitting_exact (first second : Text) :
    fitting (utf16Length first) (first ++ second) = first := by
  induction first with
  | nil => exact fitting_zero second
  | cons char rest ih =>
      rw [List.cons_append, utf16Length_cons, fitting, if_pos (by omega),
        Nat.add_sub_cancel_left, ih]

theorem fitting_all {units : Nat} {text : Text} (enough : utf16Length text ≤ units) :
    fitting units text = text := by
  induction text generalizing units with
  | nil => rfl
  | cons char rest ih =>
      rw [utf16Length_cons] at enough
      rw [fitting, if_pos (by omega), ih (by omega)]

namespace LineIndex

theorem wideWithin_eq {index : LineIndex} {first middle last : List WideChar} {start stop : Nat}
    (table : index.wideChars = (first ++ (middle ++ last)).toArray) (order : start ≤ stop)
    (before : ∀ wide ∈ first, wide.offset < start)
    (between : ∀ wide ∈ middle, start ≤ wide.offset ∧ wide.offset < stop)
    (behind : ∀ wide ∈ last, stop ≤ wide.offset) : index.wideWithin start stop = middle := by
  have low : leading (fun wide : WideChar => decide (wide.offset < start)) index.wideChars =
      first.length := by
    rw [table]
    apply leading_append
    · intro wide member
      simpa using before wide member
    · intro wide member
      rcases List.mem_append.mp member with inner | outer
      · simpa using (between wide inner).1
      · simpa using Nat.le_trans order (behind wide outer)
  have high : leading (fun wide : WideChar => decide (wide.offset < stop)) index.wideChars =
      (first ++ middle).length := by
    rw [table, ← List.append_assoc]
    apply leading_append
    · intro wide member
      rcases List.mem_append.mp member with outer | inner
      · simpa using Nat.lt_of_lt_of_le (before wide outer) order
      · simpa using (between wide inner).2
    · intro wide member
      simpa using behind wide member
  simp only [wideWithin, low, high]
  rw [table]
  simp

theorem foldl_widen {offset start column : Nat} {text : Text}
    (passed : start + byteLength text ≤ offset) (counted : byteLength text ≤ column) :
    (QueryWorkbench.wideChars start text).foldl (widen offset) column =
      column - byteLength text + utf16Length text := by
  induction text generalizing start column with
  | nil => simp [QueryWorkbench.wideChars]
  | cons char rest ih =>
      rw [byteLength_cons] at passed counted
      rw [byteLength_cons, utf16Length_cons, QueryWorkbench.wideChars]
      split
      · rename_i ascii
        rw [ih (by omega) (by omega)]
        have bytes := utf8Size_of_ascii ascii
        have units := utf16Size_of_ascii ascii
        omega
      · have whole : min (offset - start) char.utf8Size = char.utf8Size := by omega
        rw [List.foldl_cons]
        simp only [widen, whole, if_true]
        rw [ih (by omega) (by omega)]
        omega

theorem advance_wideChars {limit cursor offset units : Nat} {text : Text} (behind : cursor ≤ offset)
    (ends : limit = offset + byteLength text) :
    advance limit cursor units (QueryWorkbench.wideChars offset text) =
      if units ≤ offset - cursor then cursor + units
      else offset + byteLength (fitting (units - (offset - cursor)) text) := by
  induction text generalizing cursor offset units with
  | nil =>
      simp only [byteLength_nil, Nat.add_zero] at ends
      simp only [QueryWorkbench.wideChars, advance, fitting, byteLength_nil]
      split <;> omega
  | cons char rest ih =>
      rw [byteLength_cons] at ends
      rw [QueryWorkbench.wideChars]
      split
      · rename_i ascii
        have bytes := utf8Size_of_ascii ascii
        have columns := utf16Size_of_ascii ascii
        rw [ih (by omega) (by omega), bytes]
        by_cases near : units ≤ offset - cursor
        · rw [if_pos (by omega), if_pos near]
        · have fits : fitting (units - (offset - cursor)) (char :: rest) =
              char :: fitting (units - (offset - cursor) - 1) rest := by
            rw [fitting, columns, if_pos (by omega)]
          rw [if_neg near, fits, byteLength_cons, bytes]
          by_cases next : units ≤ offset + 1 - cursor
          · have none : units - (offset - cursor) - 1 = 0 := by omega
            rw [if_pos next, none, fitting_zero, byteLength_nil]
            omega
          · have fewer : units - (offset + 1 - cursor) = units - (offset - cursor) - 1 := by omega
            rw [if_neg next, fewer]
            omega
      · simp only [advance]
        split
        · rfl
        · rename_i far
          rw [fitting]
          by_cases short : units - (offset - cursor) < utf16Size char
          · rw [if_pos short, if_neg (by omega), byteLength_nil, Nat.add_zero]
          · rw [if_neg short, if_pos (by omega), ih (Nat.le_refl _) (by omega), byteLength_cons,
              Nat.sub_self, Nat.sub_zero]
            split
            · rename_i done
              have none : units - (offset - cursor) - utf16Size char = 0 := by omega
              rw [none, fitting_zero, byteLength_nil]
              omega
            · omega

end LineIndex

end QueryWorkbench
