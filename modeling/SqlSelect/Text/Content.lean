namespace SqlSelect.Text

def hasComma (s : String) : Bool :=
  s.toList.contains ','

theorem hasComma_eq_false_iff {s : String} : hasComma s = false ↔ ',' ∉ s.toList := by
  simp [hasComma]

/-- Whether a sequence holds anything at all. A text counts as the sequence of its characters, blanks included. -/
def holdsAny {α : Type} (l : List α) : Bool :=
  !l.isEmpty

@[simp] theorem holdsAny_iff {α : Type} {l : List α} : holdsAny l = true ↔ l ≠ [] := by
  simp [holdsAny]

end SqlSelect.Text
