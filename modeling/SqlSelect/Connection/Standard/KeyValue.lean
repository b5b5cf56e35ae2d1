import SqlSelect.Connection.Standard.Settings
import SqlSelect.Text.Blank

namespace SqlSelect.Connection.Standard.KeyValue

open Text (isBlank)

/-- A value up to its closing quote, and the rest after the quote. A backslash makes the next character stand for
    itself. -/
def quoted? : List Char → Option (List Char × List Char)
  | [] => none
  | '\'' :: s => some ([], s)
  | '\\' :: c :: s => (quoted? s).map fun parts => (c :: parts.1, parts.2)
  | c :: s => (quoted? s).map fun parts => (c :: parts.1, parts.2)

/-- A value up to the first blank or the end, with backslashes as in a quoted one; a last backslash stands for
    nothing. -/
def bare : List Char → List Char × List Char
  | [] => ([], [])
  | ['\\'] => ([], [])
  | '\\' :: c :: s =>
    let parts := bare s
    (c :: parts.1, parts.2)
  | c :: s =>
    if isBlank c then ([], c :: s)
    else
      let parts := bare s
      (c :: parts.1, parts.2)

/-- Reads a value, quoted or bare. A bare value cannot be empty. -/
def value? : List Char → Option (List Char × List Char)
  | '\'' :: s => quoted? s
  | s => if (bare s).1.isEmpty then none else some (bare s)

theorem quoted?_length {s value rest : List Char} (read : quoted? s = some (value, rest)) :
    rest.length < s.length := by
  fun_induction quoted? s generalizing value <;> grind [Option.map_eq_some_iff]

theorem bare_length (s : List Char) : (bare s).2.length ≤ s.length := by
  fun_induction bare s <;> grind

theorem value?_length {s value rest : List Char} (read : value? s = some (value, rest)) :
    rest.length ≤ s.length := by
  unfold value? at read
  split at read
  · have shorter := quoted?_length read
    simp only [List.length_cons]
    omega
  · split at read
    · cases read
    · have shorter := bare_length s
      rw [Option.some.inj read] at shorter
      exact shorter

def isNameChar (c : Char) : Bool :=
  !isBlank c && c != '='

/-- The name of an option, and the rest from the first character that is neither a part of it nor blank. -/
def cutName (s : List Char) : List Char × List Char :=
  let s := s.dropWhile isBlank
  (s.takeWhile isNameChar, (s.dropWhile isNameChar).dropWhile isBlank)

theorem cutName_length (s : List Char) : (cutName s).2.length ≤ s.length :=
  ((List.dropWhile_sublist _).trans <| (List.dropWhile_sublist _).trans <| List.dropWhile_sublist _).length_le

/-- The names and values of the options. Blanks may surround a name, the equals sign and a value. Reading ends where
    a name would be empty, and what stands there is ignored. -/
def pairs? (s : List Char) : Option (List (String × String)) :=
  if (cutName s).1.isEmpty then some []
  else
    match _cut_name : (cutName s).2 with
    | '=' :: afterSign =>
      match _read : value? (afterSign.dropWhile isBlank) with
      | some (value, rest) => (pairs? rest).map ((String.ofList (cutName s).1, String.ofList value) :: ·)
      | none => none
    | _ => none
termination_by s.length
decreasing_by
  have whole := cutName_length s
  have value := value?_length _read
  have blanks := (List.dropWhile_sublist isBlank : (afterSign.dropWhile isBlank).Sublist afterSign).length_le
  simp only [_cut_name, List.length_cons] at whole
  omega

def settings? (s : List Char) : Option Settings := do
  Settings.setAll? {} (← pairs? s)

end SqlSelect.Connection.Standard.KeyValue
