namespace SqlSelect.Text

/-- What stands before the first of the stop characters, and the rest from that character on. -/
def cut (stops : List Char) (s : List Char) : List Char × List Char :=
  (s.takeWhile fun c => !stops.contains c, s.dropWhile fun c => !stops.contains c)

theorem cut_eq {stops s rest : List Char} (free : ∀ c ∈ stops, c ∉ s) (stop : ∀ c ∈ rest.head?, c ∈ stops) :
    cut stops (s ++ rest) = (s, rest) := by
  have kept : ∀ c ∈ s, (!stops.contains c) = true := by
    intro c member
    simpa using fun stopped => free c stopped member
  rw [cut, List.takeWhile_append_of_pos kept, List.dropWhile_append_of_pos kept]
  cases rest with
  | nil => simp
  | cons c rest => simp [stop c rfl]

theorem length_cut_le (stops s : List Char) : (cut stops s).2.length ≤ s.length :=
  (List.dropWhile_sublist _).length_le

end SqlSelect.Text
