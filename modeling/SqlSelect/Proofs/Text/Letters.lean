import SqlSelect.Text.Letters
import Mathlib

namespace SqlSelect.Text

/-- The text is the word, letter by letter, where any letter may be written small. -/
def CaseVariant (word text : String) : Prop :=
  List.Forall₂ (fun letter c => c = letter ∨ c = letter.toLower) word.toList text.toList

theorem caseVariant_toLower (word : String) : CaseVariant word word.toLower := by
  rw [CaseVariant, String.toLower, String.toList_map]
  exact List.forall₂_map_right_iff.mpr (List.forall₂_same.mpr fun _ _ => .inr rfl)

theorem toUpper_eq_iff {letter : Char} (capital : letter.toUpper = letter) (c : Char) :
    c.toUpper = letter ↔ c = letter ∨ c = letter.toLower := by
  constructor
  · rintro rfl
    by_cases small : c.isLower
    · right
      rw [Char.toLower_toUpper_eq_toLower, Char.toLower_eq_of_not_isUpper (Char.not_isUpper_of_isLower small)]
    · exact .inl (Char.toUpper_eq_of_not_isLower small).symm
  · rintro (rfl | rfl)
    · exact capital
    · rw [Char.toUpper_toLower_eq_toUpper, capital]

/-- A function that takes to a letter just the ways to write it takes the variants of a word to the word. -/
theorem caseVariant_iff_map {word : String} {f : Char → Char}
    (each : ∀ letter ∈ word.toList, ∀ c, f c = letter ↔ c = letter ∨ c = letter.toLower) (text : String) :
    CaseVariant word text ↔ text.toList.map f = word.toList := by
  rw [CaseVariant]
  generalize word.toList = letters at each
  generalize text.toList = s
  induction letters generalizing s with
  | nil => simp
  | cons letter letters ih =>
    have first := each letter (List.mem_cons_self ..)
    have others := ih fun other member => each other (List.mem_cons_of_mem _ member)
    cases s with
    | nil => simp
    | cons c s => rw [List.forall₂_cons, List.map_cons, List.cons.injEq, first, others]

theorem caseVariant_iff {word : String} (capital : ∀ letter ∈ word.toList, letter.toUpper = letter) (text : String) :
    CaseVariant word text ↔ text.toUpper = word := by
  rw [caseVariant_iff_map fun letter member => toUpper_eq_iff (capital letter member), ← String.toList_inj,
    String.toUpper, String.toList_map]

/-- A word without letters can be written in one way only. -/
theorem caseVariant_iff_eq {word : String} (caseless : ∀ letter ∈ word.toList, letter.toLower = letter)
    (text : String) : CaseVariant word text ↔ text = word := by
  have each : ∀ letter ∈ word.toList, ∀ c, id c = letter ↔ c = letter ∨ c = letter.toLower := by
    intro letter member c
    rw [caseless letter member, or_self, id]
  rw [caseVariant_iff_map each, List.map_id, String.toList_inj]

theorem sameWord_iff {word : String} (capital : ∀ letter ∈ word.toList, letter.toUpper = letter) (text : String) :
    sameWord word text = true ↔ CaseVariant word text := by
  have same : word.toList.map Char.toUpper = word.toList := (List.map_congr_left capital).trans (List.map_id _)
  rw [sameWord, beq_iff_eq, same, caseVariant_iff capital, ← String.toList_inj, String.toUpper, String.toList_map]
  exact eq_comm

end SqlSelect.Text
