namespace SqlSelect.Literal

/-- Writes each character that `special` holds of twice, and all others once. -/
def double (special : Char → Bool) : List Char → List Char
  | [] => []
  | c :: s => if special c then c :: c :: double special s else c :: double special s

/-- The value as a plain string literal: every quote inside is doubled. Backslashes stand for themselves, so the
    literal reads as meant where the server keeps to standard strings. -/
def plain (value : String) : String :=
  "'" ++ String.ofList (double (· == '\'') value.toList) ++ "'"

/-- The value as an escape-string literal: quotes and backslashes inside are doubled, so the literal reads the same
    whether or not the server keeps to standard strings. -/
def escaped (value : String) : String :=
  "E'" ++ String.ofList (double (fun c => c == '\'' || c == '\\') value.toList) ++ "'"

end SqlSelect.Literal
