import SqlSelect.Proofs.Text.Slice

namespace SqlSelect.Text

/-- Whether a byte offset stands between two characters of the text, or at one of its ends. -/
def IsBoundary (text : String) (offset : Nat) : Prop :=
  (String.Pos.Raw.mk offset).IsValid text

theorem isBoundary_append (before after : String) : IsBoundary (before ++ after) before.utf8ByteSize :=
  String.Pos.Raw.isValid_iff_exists_append.mpr ⟨before, after, rfl, rfl⟩

theorem size_ofList (s : List Char) : (String.ofList s).utf8ByteSize = byteSize s := by
  rw [← byteSize_toList, String.toList_ofList]

/-- The bounds of a slice are in order, within the text and on boundaries. -/
theorem bounds_of_slice? {text : String} {part : List Char} {start stop : Nat}
    (there : slice? text.toList start stop = some part) :
    start ≤ stop ∧ stop ≤ text.utf8ByteSize ∧ IsBoundary text start ∧ IsBoundary text stop := by
  obtain ⟨before, after, whole, start_eq, stop_eq⟩ := append_of_slice? there
  have cutStart : text = String.ofList before ++ String.ofList (part ++ after) := by
    rw [← String.ofList_append, ← whole, String.ofList_toList]
  have cutStop : text = String.ofList (before ++ part) ++ String.ofList after := by
    rw [← String.ofList_append, List.append_assoc, ← whole, String.ofList_toList]
  have first := isBoundary_append (String.ofList before) (String.ofList (part ++ after))
  have second := isBoundary_append (String.ofList (before ++ part)) (String.ofList after)
  rw [← cutStart, size_ofList, start_eq] at first
  rw [← cutStop, size_ofList, stop_eq] at second
  refine ⟨?_, ?_, first, second⟩
  · rw [← start_eq, ← stop_eq, byteSize_append]
    omega
  · rw [← byteSize_toList, whole, ← stop_eq]
    simp only [byteSize_append]
    omega

theorem isBoundary_eq_true_iff {s : List Char} {offset : Nat} :
    isBoundary s offset = true ↔ ∃ start, start <+: s ∧ byteSize start = offset := by
  constructor
  · intro boundary
    obtain ⟨⟨start, rest⟩, there⟩ := Option.isSome_iff_exists.mp boundary
    obtain ⟨whole, size⟩ := append_of_splitAt? there
    exact ⟨start, ⟨rest, whole⟩, size⟩
  · rintro ⟨start, ⟨rest, rfl⟩, rfl⟩
    rw [isBoundary, splitAt?_append]
    rfl

/-- Looking for a cut of the characters finds the boundaries of the encoded text. -/
theorem isBoundary_toList_iff (text : String) (offset : Nat) :
    isBoundary text.toList offset = true ↔ IsBoundary text offset := by
  rw [isBoundary_eq_true_iff]
  constructor
  · rintro ⟨start, ⟨rest, whole⟩, rfl⟩
    have boundary := isBoundary_append (String.ofList start) (String.ofList rest)
    rwa [← String.ofList_append, whole, String.ofList_toList, size_ofList] at boundary
  · intro boundary
    obtain ⟨before, after, rfl, same⟩ := String.Pos.Raw.isValid_iff_exists_append.mp boundary
    refine ⟨before.toList, ⟨after.toList, String.toList_append.symm⟩, ?_⟩
    rw [byteSize_toList]
    exact (congrArg String.Pos.Raw.byteIdx same).symm

end SqlSelect.Text
