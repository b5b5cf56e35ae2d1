namespace SqlSelect.Text

/-- The number of bytes that the characters take in UTF-8. -/
def byteSize : List Char → Nat
  | [] => 0
  | c :: s => c.utf8Size + byteSize s

@[simp] theorem byteSize_append (s t : List Char) : byteSize (s ++ t) = byteSize s + byteSize t := by
  induction s with
  | nil => simp [byteSize]
  | cons c s ih => simp [byteSize, ih, Nat.add_assoc]

theorem byteSize_toList (text : String) : byteSize text.toList = text.utf8ByteSize := by
  have encoded (s : List Char) : s.utf8Encode.size = byteSize s := by
    induction s with
    | nil => simp [byteSize]
    | cons c s ih => rw [List.utf8Encode_cons, ByteArray.size_append, ih]; simp [byteSize, List.utf8Encode]
  rw [← encoded, ← String.toByteArray_ofList, String.ofList_toList, String.size_toByteArray]

/-- Cuts the characters at a byte offset. There is no such cut past the end or inside a character. -/
def splitAt? : Nat → List Char → Option (List Char × List Char)
  | 0, s => some ([], s)
  | _ + 1, [] => none
  | n + 1, c :: s =>
    if c.utf8Size ≤ n + 1 then (splitAt? (n + 1 - c.utf8Size) s).map fun halves => (c :: halves.1, halves.2)
    else none

theorem splitAt?_append (s t : List Char) : splitAt? (byteSize s) (s ++ t) = some (s, t) := by
  induction s with
  | nil => simp [byteSize, splitAt?]
  | cons c s ih =>
    have positive := c.utf8Size_pos
    obtain ⟨width, width_eq⟩ : ∃ width, c.utf8Size = width + 1 := ⟨c.utf8Size - 1, by omega⟩
    have rest : width + 1 + byteSize s = width + byteSize s + 1 := by omega
    simp [byteSize, width_eq, rest, splitAt?, ih]

/-- A cut loses nothing and stands at its offset. -/
theorem append_of_splitAt? {n : Nat} {s left right : List Char} (there : splitAt? n s = some (left, right)) :
    left ++ right = s ∧ byteSize left = n := by
  induction s generalizing n left with
  | nil => cases n <;> simp_all [splitAt?, byteSize]
  | cons c s ih =>
    cases n with
    | zero => simp_all [splitAt?, byteSize]
    | succ n =>
      simp only [splitAt?] at there
      split at there
      · obtain ⟨halves, found, same⟩ := Option.map_eq_some_iff.mp there
        simp only [Prod.mk.injEq] at same
        obtain ⟨whole, size⟩ := @ih (n + 1 - c.utf8Size) halves.1 (by rw [found, ← same.2])
        rw [← same.1]
        exact ⟨by rw [List.cons_append, whole], by simp only [byteSize]; omega⟩
      · cases there

def isBoundary (s : List Char) (n : Nat) : Bool :=
  (splitAt? n s).isSome

/-- The characters between two byte offsets, when the offsets are in order and both are boundaries. -/
def slice? (s : List Char) (start stop : Nat) : Option (List Char) :=
  if start ≤ stop then do
    let upToStop ← splitAt? stop s
    let fromStart ← splitAt? start upToStop.1
    pure fromStart.2
  else none

/-- The greatest boundary at or below a byte offset, looked for downwards from the offset. -/
def floorBoundary? (s : List Char) : Nat → Option Nat
  | 0 => if isBoundary s 0 then some 0 else none
  | n + 1 => if isBoundary s (n + 1) then some (n + 1) else floorBoundary? s n

/-- A text that takes more than `limit` bytes is cut back to the last boundary within the limit, and three dots
    mark the cut. A text that fits, and any text where there is no limit, stays as it is. -/
def truncate (limit : Option Nat) (text : String) : String :=
  match limit with
  | none => text
  | some limit =>
    if byteSize text.toList ≤ limit then text
    else
      let stop := (floorBoundary? text.toList limit).getD 0
      String.ofList ((slice? text.toList 0 stop).getD []) ++ "..."

end SqlSelect.Text
