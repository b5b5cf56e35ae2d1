import SqlSelect.Proofs.Text.Occurrence

namespace SqlSelect.Text

def words (text : String) : List String :=
  (text.toList.splitOn ' ').map String.ofList

/-- Words in a row, each with a blank in front of it. -/
def spaced (words : List String) : String :=
  String.join (words.map (" " ++ ·))

@[simp] theorem spaced_nil : spaced [] = "" := rfl

@[simp] theorem spaced_cons (word : String) (rest : List String) :
    spaced (word :: rest) = " " ++ word ++ spaced rest := by
  simp [spaced, String.append_assoc]

@[simp] theorem spaced_append (first second : List String) :
    spaced (first ++ second) = spaced first ++ spaced second := by
  simp [spaced]

theorem spaced_flatMap {α : Type} (f : α → List String) (items : List α) :
    spaced (items.flatMap f) = String.join (items.map fun item => spaced (f item)) := by
  induction items with
  | nil => rfl
  | cons item rest ih => simp [ih]

theorem words_spaced {first : String} {rest : List String} (blankFree : ∀ word ∈ first :: rest, Avoids ' ' word) :
    words (first ++ spaced rest) = first :: rest := by
  have split : (first.toList ++ (spaced rest).toList).splitOn ' ' = first.toList :: rest.map String.toList := by
    induction rest generalizing first with
    | nil =>
      rw [spaced_nil, String.toList_empty, List.append_nil]
      exact List.splitOn_eq_singleton (blankFree first (by simp))
    | cons next rest ih =>
      have others := ih fun word member => blankFree word (List.mem_cons_of_mem _ member)
      have shape : (spaced (next :: rest)).toList = ' ' :: (next.toList ++ (spaced rest).toList) := by simp
      rw [shape, List.map_cons, ← others]
      exact List.splitOn_append_cons_self_of_not_mem (blankFree first (by simp)) _
  simp [words, split]

/-- The words of a list: every item but the last has a comma behind it. -/
def listed : List String → List String
  | [] => []
  | [item] => [item]
  | item :: next :: rest => (item ++ ",") :: listed (next :: rest)

theorem spaced_listed {items : List String} (nonempty : items ≠ []) :
    spaced (listed items) = " " ++ ", ".intercalate items := by
  induction items with
  | nil => contradiction
  | cons item rest ih =>
    cases rest with
    | nil => simp [listed]
    | cons next rest =>
      have separator : ", " = "," ++ " " := rfl
      rw [listed, spaced_cons, ih (by simp), String.intercalate_cons_cons, separator]
      simp only [String.append_assoc]

theorem avoids_listed {c : Char} {items : List String} (foreign : c ≠ ',') (each : ∀ item ∈ items, Avoids c item) :
    ∀ word ∈ listed items, Avoids c word := by
  induction items with
  | nil => simp [listed]
  | cons item rest ih =>
    have first := each item (by simp)
    have others := ih fun other member => each other (List.mem_cons_of_mem _ member)
    cases rest with
    | nil => simpa [listed] using first
    | cons next rest =>
      have comma : Avoids c "," := by simpa [Avoids] using foreign
      intro word member
      rcases List.mem_cons.mp member with rfl | member
      · exact avoids_append.mpr ⟨first, comma⟩
      · exact others word member

def beforeComma? (word : String) : Option String :=
  if word.toList.getLast? = some ',' then some (String.ofList word.toList.dropLast) else none

theorem beforeComma?_append (item : String) : beforeComma? (item ++ ",") = some item := by
  simp [beforeComma?]

theorem beforeComma?_eq_none {word : String} (commaFree : Avoids ',' word) : beforeComma? word = none := by
  simp only [beforeComma?, ite_eq_right_iff, reduceCtorEq, imp_false]
  exact fun last => commaFree (List.mem_of_getLast? last)

/-- Reads the items of a list up to the one without a comma, and what comes after them. -/
def readItems : List String → List String × List String
  | [] => ([], [])
  | word :: rest =>
    match beforeComma? word with
    | some item => (item :: (readItems rest).1, (readItems rest).2)
    | none => ([word], rest)

theorem readItems_listed {items : List String} (nonempty : items ≠ []) (commaFree : ∀ item ∈ items, Avoids ',' item)
    (rest : List String) : readItems (listed items ++ rest) = (items, rest) := by
  induction items with
  | nil => contradiction
  | cons item others ih =>
    cases others with
    | nil => simp [listed, readItems, beforeComma?_eq_none (commaFree item (by simp))]
    | cons next others =>
      have later := ih (by simp) fun other member => commaFree other (List.mem_cons_of_mem _ member)
      rw [listed, List.cons_append, readItems, beforeComma?_append, later]

end SqlSelect.Text
