namespace SqlSelect.Text

/-- The code points with the Unicode property White_Space, as closed ranges in ascending order. Zero-width
    characters and the control characters from U+001C to U+001F are not among them. -/
def blankRanges : List (Nat × Nat) :=
  [(0x09, 0x0D), (0x20, 0x20), (0x85, 0x85), (0xA0, 0xA0), (0x1680, 0x1680), (0x2000, 0x200A),
   (0x2028, 0x2029), (0x202F, 0x202F), (0x205F, 0x205F), (0x3000, 0x3000)]

def isBlank (c : Char) : Bool :=
  blankRanges.any fun range => range.1 ≤ c.toNat && c.toNat ≤ range.2

/-- Digits stand between the blanks of ASCII and those beyond. -/
theorem isBlank_of_isDigit {c : Char} (digit : c.isDigit = true) : isBlank c = false := by
  have bounds : 48 ≤ c.toNat ∧ c.toNat ≤ 57 := by
    simpa [Char.isDigit, UInt32.le_iff_toNat_le] using digit
  have between : ∀ range ∈ blankRanges, range.2 < 48 ∨ 57 < range.1 := by decide
  refine List.any_eq_false.mpr fun range member => ?_
  have outside := between range member
  simp only [Bool.and_eq_true, decide_eq_true_eq, not_and]
  omega

/-- The table stops short of the zero-width space and of the byte order mark. -/
example : isBlank '\u200b' = false ∧ isBlank '\ufeff' = false := by decide

/-- The characters without the blanks at either end; blanks further in stay. -/
def trimChars (s : List Char) : List Char :=
  ((s.dropWhile isBlank).reverse.dropWhile isBlank).reverse

def trim (s : String) : String :=
  String.ofList (trimChars s.toList)

end SqlSelect.Text
