namespace SqlSelect.Text

/-- The number that decimal digits spell. There has to be a digit. -/
def natural? (s : List Char) : Option Nat :=
  if !s.isEmpty && s.all Char.isDigit then some (Nat.ofDigitChars 10 s 0) else none

theorem isDigit_of_mem_toString {n : Nat} {c : Char} (member : c ∈ (toString n).toList) : c.isDigit = true := by
  rw [Nat.toString_eq_repr, Nat.toList_repr] at member
  exact Nat.isDigit_of_mem_toDigits (by decide) (by decide) member

theorem natural?_toString (n : Nat) : natural? (toString n).toList = some n := by
  have digits : (toString n).toList.all Char.isDigit = true :=
    List.all_eq_true.mpr fun _ => isDigit_of_mem_toString
  rw [natural?, digits, Nat.toString_eq_repr, Nat.toList_repr]
  simp

/-- Whether the text spells an integer from `low` to `high`. A plus sign may lead the digits, and a minus sign where
    the range has negative numbers. -/
def isInteger (low high : Int) : List Char → Bool
  | '+' :: s => within (natural? s) 1
  | '-' :: s => low < 0 && within (natural? s) (-1)
  | s => within (natural? s) 1
where
  within (n : Option Nat) (sign : Int) : Bool :=
    n.any fun n => low ≤ sign * n && sign * n ≤ high

theorem isInteger_toString {low high : Int} {n : Nat} (above : low ≤ n) (below : n ≤ high) :
    isInteger low high (toString n).toList = true := by
  have digits {c : Char} {s : List Char} (shape : (toString n).toList = c :: s) : c.isDigit = true :=
    isDigit_of_mem_toString (n := n) (shape ▸ List.mem_cons_self ..)
  unfold isInteger
  split
  · rename_i shape
    exact absurd (digits shape) (by decide)
  · rename_i shape
    exact absurd (digits shape) (by decide)
  · rw [natural?_toString]
    simp [isInteger.within, above, below]

example : isInteger 0 9 "+09".toList = true ∧ isInteger 0 9 "-0".toList = false := by decide

end SqlSelect.Text
