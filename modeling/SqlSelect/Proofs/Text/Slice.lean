import SqlSelect.Text.Bytes

namespace SqlSelect.Text

theorem slice?_append (before middle after : List Char) :
    slice? (before ++ (middle ++ after)) (byteSize before) (byteSize before + byteSize middle) = some middle := by
  have stop : splitAt? (byteSize before + byteSize middle) (before ++ (middle ++ after)) =
      some (before ++ middle, after) := by
    rw [← byteSize_append, ← List.append_assoc]
    exact splitAt?_append _ _
  have start := splitAt?_append before middle
  simp [slice?, stop, start]

/-- A slice loses nothing and stands between its offsets. -/
theorem append_of_slice? {s part : List Char} {start stop : Nat} (there : slice? s start stop = some part) :
    ∃ before after, s = before ++ (part ++ after) ∧ byteSize before = start ∧ byteSize (before ++ part) = stop := by
  unfold slice? at there
  split at there
  · obtain ⟨⟨upToStop, after⟩, cut, there⟩ := Option.bind_eq_some_iff.mp there
    obtain ⟨⟨before, fromStart⟩, again, there⟩ := Option.bind_eq_some_iff.mp there
    obtain rfl : fromStart = part := Option.some.inj there
    obtain ⟨whole, stop_eq⟩ := append_of_splitAt? cut
    obtain ⟨early, start_eq⟩ := append_of_splitAt? again
    refine ⟨before, after, ?_, start_eq, ?_⟩
    · rw [← List.append_assoc, early, whole]
    · rw [early, stop_eq]
  · cases there

end SqlSelect.Text
