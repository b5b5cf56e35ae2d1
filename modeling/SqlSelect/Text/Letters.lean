namespace SqlSelect.Text

/-- Equality of words up to the case of ASCII letters; all other characters have to agree exactly. -/
def sameWord (s t : String) : Bool :=
  s.toList.map Char.toUpper == t.toList.map Char.toUpper

example : sameWord "aNd" "AND" = true := by decide

/-- The text in capitals, where only ASCII letters have any. -/
def upper (s : String) : String :=
  String.ofList (s.toList.map Char.toUpper)

end SqlSelect.Text
