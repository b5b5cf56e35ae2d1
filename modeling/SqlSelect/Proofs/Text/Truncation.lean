import SqlSelect.Proofs.Text.Boundary

namespace SqlSelect

namespace Text

/-- The characters that fit into so many bytes, up to the first one that does not. -/
def fitting : Nat → List Char → List Char
  | _, [] => []
  | room, c :: s => if c.utf8Size ≤ room then c :: fitting (room - c.utf8Size) s else []

theorem fitting_isPrefix (room : Nat) (s : List Char) : fitting room s <+: s := by
  induction s generalizing room with
  | nil => exact List.prefix_rfl
  | cons c s ih =>
    rw [fitting]
    split
    · exact List.cons_prefix_cons.mpr ⟨rfl, ih _⟩
    · exact List.nil_prefix

theorem byteSize_fitting_le (room : Nat) (s : List Char) : byteSize (fitting room s) ≤ room := by
  induction s generalizing room with
  | nil => exact Nat.zero_le _
  | cons c s ih =>
    rw [fitting]
    split
    · have rest := ih (room - c.utf8Size)
      rw [byteSize]
      omega
    · exact Nat.zero_le _

/-- Every start of the characters that fits is a start of those taken. -/
theorem isPrefix_fitting {room : Nat} {s start : List Char} (begins : start <+: s) (fits : byteSize start ≤ room) :
    start <+: fitting room s := by
  induction s generalizing room start with
  | nil => simpa [fitting] using begins
  | cons c s ih =>
    cases start with
    | nil => exact List.nil_prefix
    | cons d start =>
      obtain ⟨rfl, later⟩ := List.cons_prefix_cons.mp begins
      rw [byteSize] at fits
      rw [fitting, if_pos (by omega)]
      exact List.cons_prefix_cons.mpr ⟨rfl, ih later (by omega)⟩

theorem fitting_eq_self {room : Nat} {s : List Char} (fits : byteSize s ≤ room) : fitting room s = s :=
  (fitting_isPrefix room s).eq_of_length_le (isPrefix_fitting List.prefix_rfl fits).length_le

theorem fitting_mono {small large : Nat} (le : small ≤ large) (s : List Char) : fitting small s <+: fitting large s :=
  isPrefix_fitting (fitting_isPrefix small s) (Nat.le_trans (byteSize_fitting_le small s) le)

/-- What is left of the room is less than the next character takes, and so at most three bytes. -/
theorem room_le_byteSize_fitting (room : Nat) {s : List Char} (long : room < byteSize s) :
    room ≤ byteSize (fitting room s) + 3 := by
  induction s generalizing room with
  | nil => exact absurd long (Nat.not_lt_zero _)
  | cons c s ih =>
    have width := c.utf8Size_le_four
    rw [byteSize] at long
    rw [fitting]
    split
    · have rest := ih (room - c.utf8Size) (by omega)
      rw [byteSize]
      omega
    · rw [byteSize]
      omega

theorem byteSize_le_of_isPrefix {s start : List Char} (begins : start <+: s) : byteSize start ≤ byteSize s := by
  obtain ⟨rest, rfl⟩ := begins
  rw [byteSize_append]
  exact Nat.le_add_right _ _

/-- The greatest boundary within the limit is where the characters that fit end; there always is one. -/
theorem floorBoundary?_eq (s : List Char) (limit : Nat) :
    floorBoundary? s limit = some (byteSize (fitting limit s)) := by
  induction limit with
  | zero =>
    have boundary : isBoundary s 0 = true := isBoundary_eq_true_iff.mpr ⟨[], List.nil_prefix, rfl⟩
    rw [floorBoundary?, if_pos boundary, Nat.le_zero.mp (byteSize_fitting_le 0 s)]
  | succ limit ih =>
    have bound := byteSize_fitting_le (limit + 1) s
    rw [floorBoundary?]
    split
    · rename_i boundary
      obtain ⟨start, begins, size⟩ := isBoundary_eq_true_iff.mp boundary
      have taken := byteSize_le_of_isPrefix (isPrefix_fitting begins (Nat.le_of_eq size))
      rw [show byteSize (fitting (limit + 1) s) = limit + 1 from by omega]
    · rename_i inside
      -- Nothing that fits ends exactly here, so with one byte less the same characters fit.
      have other : byteSize (fitting (limit + 1) s) ≠ limit + 1 := fun size =>
        inside (isBoundary_eq_true_iff.mpr ⟨_, fitting_isPrefix _ s, size⟩)
      have fits : byteSize (fitting (limit + 1) s) ≤ limit := by omega
      have smaller := isPrefix_fitting (fitting_isPrefix (limit + 1) s) fits
      have same := smaller.eq_of_length_le (fitting_mono (Nat.le_succ limit) s).length_le
      rw [ih, same]

theorem slice?_fitting (limit : Nat) (s : List Char) :
    slice? s 0 (byteSize (fitting limit s)) = some (fitting limit s) := by
  obtain ⟨rest, whole⟩ := fitting_isPrefix limit s
  have found := slice?_append [] (fitting limit s) rest
  rwa [List.nil_append, whole, byteSize, Nat.zero_add] at found

/-- The text that is kept when it is cut back to a limit, without the mark of the cut. -/
def kept (limit : Option Nat) (text : String) : String :=
  match limit with
  | none => text
  | some limit => String.ofList (fitting limit text.toList)

theorem truncate_eq (limit : Nat) (text : String) :
    truncate (some limit) text = if text.utf8ByteSize ≤ limit then text else kept (some limit) text ++ "..." := by
  simp only [truncate, byteSize_toList, floorBoundary?_eq, Option.getD_some, slice?_fitting, kept]

/-- The longest start of a text, in whole characters, that takes no more than so many bytes. -/
structure LongestStart (limit : Nat) (text start : String) : Prop where
  begins : start.toList <+: text.toList
  fits : start.utf8ByteSize ≤ limit
  longest : ∀ other : String, other.toList <+: text.toList → other.utf8ByteSize ≤ limit →
    other.toList <+: start.toList

theorem longestStart_kept (limit : Nat) (text : String) : LongestStart limit text (kept (some limit) text) where
  begins := by
    rw [kept, String.toList_ofList]
    exact fitting_isPrefix limit text.toList
  fits := by
    rw [kept, size_ofList]
    exact byteSize_fitting_le limit text.toList
  longest other begins fits := by
    rw [kept, String.toList_ofList]
    exact isPrefix_fitting begins (by rwa [byteSize_toList])

end Text

open Text

/-- A text that is too long for a limit is cut back to the longest start that fits, so that at most three bytes of the
    limit are left over. The search always ends at a boundary, the greatest one within the limit, and the cut there is
    possible. A smaller limit keeps a start of what a larger one keeps. -/
theorem truncate_keeps_longest_start (text : String) :
    truncate none text = text ∧
    (∀ limit, text.utf8ByteSize ≤ limit → truncate (some limit) text = text ∧ kept (some limit) text = text) ∧
    (∀ limit, limit < text.utf8ByteSize →
      let start := kept (some limit) text
      truncate (some limit) text = start ++ "..." ∧ LongestStart limit text start ∧
        limit - 3 ≤ start.utf8ByteSize ∧
        floorBoundary? text.toList limit = some start.utf8ByteSize ∧
        IsBoundary text start.utf8ByteSize ∧
        (∀ offset, IsBoundary text offset → offset ≤ limit → offset ≤ start.utf8ByteSize) ∧
        slice? text.toList 0 start.utf8ByteSize = some start.toList) ∧
    ∀ small large, small ≤ large → (kept (some small) text).toList <+: (kept (some large) text).toList := by
  refine ⟨rfl, fun limit fits => ⟨?_, ?_⟩, fun limit long => ?_, fun small large le => ?_⟩
  · rw [truncate_eq, if_pos fits]
  · rw [kept, fitting_eq_self (by rwa [byteSize_toList]), String.ofList_toList]
  · intro start
    have size : start.utf8ByteSize = byteSize (fitting limit text.toList) := size_ofList _
    have boundary (offset : Nat) : IsBoundary text offset ↔ ∃ s, s <+: text.toList ∧ byteSize s = offset := by
      rw [← isBoundary_toList_iff, isBoundary_eq_true_iff]
    rw [size, show start.toList = _ from String.toList_ofList]
    refine ⟨?_, longestStart_kept limit text, ?_, floorBoundary?_eq _ limit, ?_, fun offset there fits => ?_,
      slice?_fitting limit _⟩
    · rw [truncate_eq, if_neg (Nat.not_le_of_lt long)]
    · rw [← byteSize_toList] at long
      have room := room_le_byteSize_fitting limit long
      omega
    · exact (boundary _).mpr ⟨_, fitting_isPrefix limit _, rfl⟩
    · obtain ⟨s, begins, rfl⟩ := (boundary offset).mp there
      exact byteSize_le_of_isPrefix (isPrefix_fitting begins fits)
  · simp only [kept, String.toList_ofList]
    exact fitting_mono le text.toList

/-- The limit falls into the three-byte letter, and the smaller one into the two-byte letter. -/
theorem truncate_keeps_longest_start_withinLetters :
    5 < "aé日".utf8ByteSize ∧ "aé日".utf8ByteSize ≤ 6 ∧ 2 ≤ 5 ∧
      truncate (some 6) "aé日" = "aé日" ∧ truncate (some 5) "aé日" = "aé..." ∧ LongestStart 5 "aé日" "aé" ∧
      floorBoundary? "aé日".toList 5 = some 3 ∧ "a".toList <+: "aé".toList := by
  have long : 5 < "aé日".utf8ByteSize := by decide
  have fits : "aé日".utf8ByteSize ≤ 6 := by decide
  have two : kept (some 5) "aé日" = "aé" := by decide
  have one : kept (some 2) "aé日" = "a" := by decide
  obtain ⟨-, unchanged, cut, ordered⟩ := truncate_keeps_longest_start "aé日"
  obtain ⟨truncated, longest, -, found, -⟩ := cut 5 long
  have smaller := ordered 2 5 (by decide)
  rw [two] at truncated longest found smaller
  rw [one] at smaller
  exact ⟨long, fits, by decide, (unchanged 6 fits).1, truncated, longest, found, smaller⟩

end SqlSelect
