namespace SqlSelect.Text

open String.Slice.Pattern String.Slice.Pattern.Model

/-- Takes two equal special characters in a row for one, from left to right. -/
def undouble (special : Char → Bool) : List Char → List Char
  | c :: d :: s => if special c && d == c then c :: undouble special s else c :: undouble special (d :: s)
  | s => s

theorem undouble_single {special : Char → Bool} {c : Char} (single : special c = false) (s : List Char) :
    undouble special (c :: s) = c :: undouble special s := by
  cases s <;> simp [undouble, single]

/-- No pair begins in the first part, not even one that ends in the second. -/
theorem undouble_append {s rest : List Char}
    (unpaired : ∀ before after, s = before ++ '\'' :: after → (after ++ rest).head? ≠ some '\'') :
    undouble (· == '\'') (s ++ rest) = s ++ undouble (· == '\'') rest := by
  induction s with
  | nil => rfl
  | cons c s ih =>
    have others := ih fun before after same => unpaired (c :: before) after (by rw [same, List.cons_append])
    rw [List.cons_append, List.cons_append, ← others]
    cases shape : s ++ rest with
    | nil => rfl
    | cons d more =>
      have alone : ¬(c = '\'' ∧ d = c) := by
        rintro ⟨rfl, rfl⟩
        exact unpaired [] s rfl (by rw [shape, List.head?_cons])
      simp [undouble, alone]

/-- The text after one step of the search for pairs of quotes: what lies between the pairs is copied. -/
def replaceStep {s : String.Slice} (sofar : String) : SearchStep s → String
  | .matched .. => sofar ++ "'"
  | .rejected start stop => sofar ++ (s.slice! start stop).copy

theorem replace_eq_foldl (s : String.Slice) :
    s.replace "''" "'" = (ToForwardSearcher.toSearcher "''" s).toList.foldl replaceStep "" := by
  unfold String.Slice.replace
  rw [← Std.Iter.foldl_toList]
  congr 1
  funext sofar step
  cases step with
  | matched start stop => exact congrArg (sofar ++ ·) String.copy_toSlice
  | rejected start stop => rfl

/-- A stretch that the search passed over pairs no quotes: it would have stopped where the pair begins. -/
theorem unpaired_of_unmatched {s : String.Slice} {start stop : s.Pos} {before part after : String}
    (here : start.Splits before (part ++ after)) (next : stop.Splits (before ++ part) after)
    (unmatched : ∀ pos, start ≤ pos → pos < stop → ¬MatchesAt "''" pos) {first last : List Char}
    (quoted : part.toList = first ++ '\'' :: last) : (last ++ after.toList).head? ≠ some '\'' := by
  intro quote
  obtain ⟨rest, shape⟩ := List.head?_eq_some_iff.mp quote
  have parts : part = String.ofList first ++ String.ofList ('\'' :: last) := by
    rw [← String.ofList_append, ← quoted, String.ofList_toList]
  have whole : s.copy = before ++ String.ofList first ++ (String.ofList ('\'' :: last) ++ after) := by
    rw [here.eq_append, parts]
    simp only [String.append_assoc]
  obtain ⟨pos, there⟩ : ∃ pos : s.Pos, pos.Splits _ _ := ⟨_, String.Slice.Pos.splits_ofEqAppend whole⟩
  have pair : String.ofList ('\'' :: last) ++ after = "''" ++ String.ofList rest := by
    rw [← String.toList_inj]
    simp [shape]
  have afterStart : start ≤ pos :=
    (here.le_iff_exists_eq_append there).mpr ⟨String.ofList first, rfl, by rw [parts, String.append_assoc]⟩
  have beforeStop : pos < stop :=
    (there.lt_iff_exists_eq_append next).mpr
      ⟨String.ofList ('\'' :: last), by simp, by rw [parts, String.append_assoc], rfl⟩
  exact unmatched pos afterStart beforeStop (ForwardStringSearcher.matchesAt_iff_splits.mpr ⟨_, _, pair ▸ there⟩)

theorem foldl_replaceStep {s : String.Slice} {pos : s.Pos} {steps : List (SearchStep s)}
    (valid : IsValidSearchFrom "''" pos steps) {before after : String} (splits : pos.Splits before after)
    (sofar : String) :
    steps.foldl replaceStep sofar = sofar ++ String.ofList (undouble (· == '\'') after.toList) := by
  induction valid generalizing before after sofar with
  | endPos =>
    obtain rfl := splits.eq_endPos_iff.mp rfl
    simp [undouble]
  | matched found valid ih =>
    obtain ⟨left, right, here, next⟩ := ForwardStringSearcher.isLongestMatchAt_iff_splits.mp found
    obtain rfl := splits.eq_right here
    have pair : undouble (· == '\'') ("''" ++ right).toList = '\'' :: undouble (· == '\'') right.toList := by
      simp [undouble]
    rw [List.foldl_cons, ih next, pair, ← List.singleton_append, String.ofList_append, ← String.append_assoc]
    rfl
  | @mismatched steps start stop ahead unmatched valid ih =>
    obtain ⟨part, -, upTo, rfl⟩ := (splits.lt_iff_exists_eq_append stop.splits).mp ahead
    have next := stop.splits
    rw [upTo] at next
    obtain ⟨ordered, copied⟩ := String.Slice.copy_slice_eq_iff_splits.mpr ⟨_, _, splits, next⟩
    have unpaired (first last : List Char) (quoted : part.toList = first ++ '\'' :: last) :=
      unpaired_of_unmatched splits next unmatched quoted
    rw [List.foldl_cons, ih next, String.toList_append, undouble_append unpaired, String.ofList_append,
      String.ofList_toList, ← String.append_assoc, ← copied, String.Slice.slice_eq_slice!]
    rfl

theorem toList_replace (s : String.Slice) :
    (s.replace "''" "'").toList = undouble (· == '\'') s.copy.toList := by
  have lawful : LawfulToForwardSearcherModel "''" := ForwardStringSearcher.lawfulToForwardSearcherModel (by decide)
  have valid := lawful.isValidSearchFrom_toList s
  rw [replace_eq_foldl, foldl_replaceStep valid s.splits_startPos, String.empty_append, String.toList_ofList]

end SqlSelect.Text
