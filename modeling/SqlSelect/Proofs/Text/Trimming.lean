import SqlSelect.Text.Blank
import Mathlib.Data.List.DropRight

namespace SqlSelect.Text

structure Trimmed (s : List Char) : Prop where
  head : ∀ c ∈ s.head?, isBlank c = false
  last : ∀ c ∈ s.getLast?, isBlank c = false

theorem head_dropWhile {s : List Char} {c : Char} (first : c ∈ (s.dropWhile isBlank).head?) : isBlank c = false := by
  have stopped := List.head?_dropWhile_not isBlank s
  rw [Option.mem_def.mp first] at stopped
  exact stopped

theorem trimmed_trimChars (s : List Char) : Trimmed (trimChars s) where
  head c first := by
    -- What is left after the cut at the end begins as the text did before it.
    obtain ⟨ending, whole⟩ : trimChars s <+: s.dropWhile isBlank := List.rdropWhile_prefix isBlank _
    apply head_dropWhile (s := s)
    rw [← whole, List.head?_append, Option.mem_def.mp first]
    rfl
  last c last := by
    rw [trimChars, List.getLast?_reverse] at last
    exact head_dropWhile last

theorem dropWhile_eq_self {s : List Char} (first : ∀ c ∈ s.head?, isBlank c = false) : s.dropWhile isBlank = s := by
  cases s with
  | nil => rfl
  | cons c s => simp [first c rfl]

theorem Trimmed.trimChars_append {s blanks : List Char} (trimmed : Trimmed s) (nonempty : s ≠ [])
    (each : ∀ c ∈ blanks, isBlank c = true) : trimChars (s ++ blanks) = s := by
  have first : (s ++ blanks).dropWhile isBlank = s ++ blanks := by
    apply dropWhile_eq_self
    rw [List.head?_append_of_ne_nil s nonempty]
    exact trimmed.head
  have last : s.reverse.dropWhile isBlank = s.reverse := by
    apply dropWhile_eq_self
    rw [List.head?_reverse]
    exact trimmed.last
  rw [trimChars, first, List.reverse_append, List.dropWhile_append_of_pos (by simpa using each), last,
    List.reverse_reverse]

theorem Trimmed.trimChars_eq {s : List Char} (trimmed : Trimmed s) : trimChars s = s := by
  by_cases empty : s = []
  · rw [empty]
    rfl
  · simpa using trimmed.trimChars_append empty (List.forall_mem_nil _)

theorem mem_of_mem_trimChars {s : List Char} {c : Char} (member : c ∈ trimChars s) : c ∈ s :=
  (List.dropWhile_sublist _).mem ((List.rdropWhile_prefix isBlank _).subset member)

theorem trimChars_cons {c : Char} (blank : isBlank c = true) (s : List Char) : trimChars (c :: s) = trimChars s := by
  simp [trimChars, blank]

theorem trimChars_blanks_append {blanks : List Char} (each : ∀ c ∈ blanks, isBlank c = true) (s : List Char) :
    trimChars (blanks ++ s) = trimChars s := by
  induction blanks with
  | nil => rfl
  | cons c blanks ih =>
    rw [List.cons_append, trimChars_cons (each c (List.mem_cons_self ..))]
    exact ih fun other member => each other (List.mem_cons_of_mem _ member)

theorem Trimmed.trimChars_between {before s after : List Char} (trimmed : Trimmed s)
    (blankBefore : ∀ c ∈ before, isBlank c = true) (blankAfter : ∀ c ∈ after, isBlank c = true) :
    trimChars (before ++ s ++ after) = s := by
  rw [List.append_assoc, trimChars_blanks_append blankBefore]
  by_cases empty : s = []
  · have nothing := trimChars_blanks_append blankAfter []
    rw [List.append_nil] at nothing
    rw [empty, List.nil_append, nothing]
    rfl
  · exact trimmed.trimChars_append empty blankAfter

/-- The text is the core with nothing but blanks on either side. -/
def BlanksAround (core text : String) : Prop :=
  ∃ before after : String, text = before ++ core ++ after ∧
    (∀ c ∈ before.toList, isBlank c = true) ∧ ∀ c ∈ after.toList, isBlank c = true

theorem blanksAround_trim (text : String) : BlanksAround (trim text) text := by
  let rest := text.toList.dropWhile isBlank
  have blank (s : List Char) : ∀ c ∈ s.takeWhile isBlank, isBlank c = true := List.all_eq_true.mp List.all_takeWhile
  have ending : rest = trimChars text.toList ++ (rest.reverse.takeWhile isBlank).reverse := by
    have whole := congrArg List.reverse (List.takeWhile_append_dropWhile (p := isBlank) (l := rest.reverse))
    rw [List.reverse_append, List.reverse_reverse] at whole
    exact whole.symm
  refine ⟨String.ofList (text.toList.takeWhile isBlank), String.ofList (rest.reverse.takeWhile isBlank).reverse,
    ?_, ?_, ?_⟩
  · rw [← String.toList_inj]
    simp only [trim, String.toList_append, String.toList_ofList, List.append_assoc]
    rw [← ending]
    exact List.takeWhile_append_dropWhile.symm
  · rw [String.toList_ofList]
    exact blank _
  · rw [String.toList_ofList]
    intro c member
    exact blank _ c (List.mem_reverse.mp member)

theorem trim_of_blanksAround {core text : String} (trimmed : Trimmed core.toList) (around : BlanksAround core text) :
    trim text = core := by
  obtain ⟨before, after, rfl, blankBefore, blankAfter⟩ := around
  rw [trim, String.toList_append, String.toList_append, trimmed.trimChars_between blankBefore blankAfter,
    String.ofList_toList]

theorem trimmed_trim (text : String) : Trimmed (trim text).toList := by
  rw [trim, String.toList_ofList]
  exact trimmed_trimChars text.toList

end SqlSelect.Text
