import SqlSelect.Clause.Record
import SqlSelect.Proofs.Text.Letters
import SqlSelect.Proofs.Text.Trimming
import SqlSelect.Spelling
import Mathlib

namespace SqlSelect

namespace Text

/-- A character that can be seen and has a code of seven bits. -/
def IsPlain (c : Char) : Prop :=
  isBlank c = false ∧ c.toNat < 128

instance (c : Char) : Decidable (IsPlain c) := inferInstanceAs (Decidable (_ ∧ _))

/-- What the spelling of a keyword looks like. -/
@[mk_iff]
structure Capitals (word : String) : Prop where
  capital : ∀ letter ∈ word.toList, letter.toUpper = letter
  plain : ∀ letter ∈ word.toList, IsPlain letter ∧ IsPlain letter.toLower

-- Over the letters of the word: there are too many characters to look at all of them.
instance (word : String) : Decidable (Capitals word) :=
  decidable_of_iff
    (word.toList.all fun letter => letter.toUpper = letter ∧ IsPlain letter ∧ IsPlain letter.toLower)
    (by simp only [capitals_iff, List.all_eq_true, decide_eq_true_eq, imp_and, forall_and])

theorem CaseVariant.plain {word text : String} (variant : CaseVariant word text) (capitals : Capitals word) :
    ∀ c ∈ text.toList, IsPlain c := by
  intro c member
  obtain ⟨index, bound, rfl⟩ := List.getElem_of_mem member
  have partner : index < word.toList.length := variant.length_eq ▸ bound
  have plain := capitals.plain _ (List.getElem_mem partner)
  rcases List.Forall₂.get variant partner bound with same | same
  · exact (congrArg IsPlain same).mpr plain.1
  · exact (congrArg IsPlain same).mpr plain.2

theorem trimmed_of_plain {s : List Char} (plain : ∀ c ∈ s, IsPlain c) : Trimmed s where
  head c first := (plain c (List.mem_of_mem_head? first)).1
  last c last := (plain c (List.mem_of_getLast? last)).1

end Text

open Text

/-- Words that can be told apart by their spellings. -/
structure Legible {α : Type} (all : List α) (spelling : α → String) : Prop where
  listed : ∀ word, word ∈ all
  capitals : ∀ word, Capitals (spelling word)
  distinct : Function.Injective spelling

section

variable {α : Type} {all : List α} {spelling : α → String}

theorem readWord_cases (vocabulary : Vocabulary) (all : List α) (spelling : α → String) (text : String) :
    (∃ word ∈ all, sameWord (spelling word) (trim text) = true ∧ readWord vocabulary all spelling text = .ok word) ∨
    (∀ word ∈ all, ¬ sameWord (spelling word) (trim text) = true) ∧
      readWord vocabulary all spelling text = .error (.invalidUsage (.unknownWord vocabulary (trim text))) := by
  unfold readWord
  split
  · rename_i word first
    have accepted := List.find?_some first
    exact .inl ⟨word, List.mem_of_find?_eq_some first, accepted, rfl⟩
  · rename_i missing
    exact .inr ⟨List.find?_eq_none.mp missing, rfl⟩

/-- A word that its own spelling reads is listed, and no other word has that spelling. -/
theorem legible_of_reads {vocabulary : Vocabulary} (capitals : ∀ word, Capitals (spelling word))
    (reads : ∀ word, readWord vocabulary all spelling (spelling word) = .ok word) : Legible all spelling where
  listed word := by
    obtain ⟨found, member, -, read⟩ | ⟨-, refused⟩ := readWord_cases vocabulary all spelling (spelling word)
    · exact Except.ok.inj (read.symm.trans (reads word)) ▸ member
    · rw [reads word] at refused
      cases refused
  capitals := capitals
  distinct word other same := Except.ok.inj ((reads word).symm.trans (same ▸ reads other))

theorem readWord_eq_ok_iff (vocabulary : Vocabulary) (legible : Legible all spelling) (text : String) (word : α) :
    readWord vocabulary all spelling text = .ok word ↔
      ∃ core, CaseVariant (spelling word) core ∧ BlanksAround core text := by
  have same (other : α) := sameWord_iff (legible.capitals other).capital (trim text)
  have trimmed {core : String} (variant : CaseVariant (spelling word) core) (around : BlanksAround core text) :
      trim text = core :=
    trim_of_blanksAround (trimmed_of_plain (variant.plain (legible.capitals word))) around
  obtain ⟨found, -, accepted, read⟩ | ⟨missing, refused⟩ := readWord_cases vocabulary all spelling text
  · rw [read, Except.ok.injEq]
    constructor
    · rintro rfl
      exact ⟨trim text, (same found).mp accepted, blanksAround_trim text⟩
    · rintro ⟨core, variant, around⟩
      have other := (same found).mp accepted
      rw [trimmed variant around, caseVariant_iff (legible.capitals found).capital] at other
      rw [caseVariant_iff (legible.capitals word).capital] at variant
      exact legible.distinct (other.symm.trans variant)
  · rw [refused]
    constructor
    · intro impossible
      cases impossible
    · rintro ⟨core, variant, around⟩
      exact absurd ((same word).mpr ((trimmed variant around).symm ▸ variant)) (missing word (legible.listed word))

theorem message_unknownWord (vocabulary : Vocabulary) (text : String) :
    (Error.invalidUsage (.unknownWord vocabulary text)).message =
      "QueryManager: unknown " ++ vocabulary.noun ++ " '" ++ text ++ "'" := by
  have message : (Error.invalidUsage (.unknownWord vocabulary text)).message =
      "QueryManager: " ++ ("unknown " ++ vocabulary.noun ++ " '" ++ text ++ "'") := rfl
  have start : "QueryManager: unknown " = "QueryManager: " ++ "unknown " := by decide
  simp only [message, start, String.append_assoc]

theorem readWord_error {vocabulary : Vocabulary} {text : String} {error : Error}
    (refused : readWord vocabulary all spelling text = .error error) :
    error = .invalidUsage (.unknownWord vocabulary (trim text)) := by
  obtain ⟨word, -, -, read⟩ | ⟨-, same⟩ := readWord_cases vocabulary all spelling text
  · rw [read] at refused
    cases refused
  · exact Except.error.inj (refused.symm.trans same)

/-- A text that is read has nothing but plain characters between its blanks. -/
theorem readWord_refuses (vocabulary : Vocabulary) (legible : Legible all spelling) {text : String}
    (other : ∀ core : String, (∀ c ∈ core.toList, IsPlain c) → ¬ BlanksAround core text) :
    ∃ error, readWord vocabulary all spelling text = .error error := by
  cases read : readWord vocabulary all spelling text with
  | error error => exact ⟨error, rfl⟩
  | ok word =>
    obtain ⟨core, variant, around⟩ := (readWord_eq_ok_iff vocabulary legible text word).mp read
    exact absurd around (other core (variant.plain (legible.capitals word)))

end

/-- What it takes to read the words of one kind: a core in one of the given forms, between blanks. -/
structure ReadsExactly {α : Type} (read : String → Except Error α) (writings : α → List String) (form : String → Prop)
    (noun : String) (text : String) : Prop where
  accepts : (∃ word, read text = .ok word) ↔ ∃ core, form core ∧ BlanksAround core text
  /-- The word that is read is the one that is written, in every way to write it, as the core in capitals. -/
  written : ∀ core, form core → BlanksAround core text →
    ∀ word, read text = .ok word ↔ ∀ writing ∈ writings word, writing = core.toUpper
  /-- What is refused is quoted without the blanks at its ends, but with all others. -/
  refuses : ∀ error, read text = .error error → ∃ rest, BlanksAround rest text ∧ Trimmed rest.toList ∧
    error.isInvalidUsage = true ∧ error.message = "QueryManager: unknown " ++ noun ++ " '" ++ rest ++ "'"
  /-- No character beyond ASCII passes for one of a word. -/
  foreign : ∀ c ∈ text.toList, isBlank c = false → 128 ≤ c.toNat → ∃ error, read text = .error error
  /-- No blank may stand inside a word. -/
  parted : ∀ core, BlanksAround core text → Trimmed core.toList → ∀ c ∈ core.toList, isBlank c = true →
    ∃ error, read text = .error error

theorem readsExactly_readWord {α : Type} {all : List α} {spelling : α → String} (vocabulary : Vocabulary)
    (legible : Legible all spelling) {writings : α → List String}
    (written : ∀ word, spelling word ∈ writings word ∧ ∀ writing ∈ writings word, writing = spelling word)
    {form : String → Prop} (forms : ∀ core, form core ↔ ∃ word, CaseVariant (spelling word) core) (text : String) :
    ReadsExactly (readWord vocabulary all spelling) writings form vocabulary.noun text where
  accepts := by
    simp only [readWord_eq_ok_iff vocabulary legible, forms]
    constructor
    · rintro ⟨word, core, variant, around⟩
      exact ⟨core, ⟨word, variant⟩, around⟩
    · rintro ⟨core, ⟨word, variant⟩, around⟩
      exact ⟨word, core, variant, around⟩
  written core formed around word := by
    have ok := readWord_eq_ok_iff vocabulary legible text
    obtain ⟨spelled, each⟩ := written word
    constructor
    · intro read writing member
      obtain ⟨other, variant⟩ := (forms core).mp formed
      have same : word = other := Except.ok.inj (read.symm.trans ((ok other).mpr ⟨core, variant, around⟩))
      rw [each writing member, same, (caseVariant_iff (legible.capitals other).capital core).mp variant]
    · intro capitals
      have variant := (caseVariant_iff (legible.capitals word).capital core).mpr (capitals _ spelled).symm
      exact (ok word).mpr ⟨core, variant, around⟩
  refuses error refused := by
    obtain rfl := readWord_error refused
    exact ⟨trim text, blanksAround_trim text, trimmed_trim text, rfl, message_unknownWord vocabulary _⟩
  foreign c member visible wide := by
    apply readWord_refuses vocabulary legible
    rintro core plain ⟨before, after, rfl, blankBefore, blankAfter⟩
    simp only [String.toList_append, List.mem_append] at member
    rcases member with (first | inside) | last
    · simp [blankBefore c first] at visible
    · exact absurd (plain c inside).2 (Nat.not_lt_of_le wide)
    · simp [blankAfter c last] at visible
  parted core around trimmed c member blank := by
    apply readWord_refuses vocabulary legible
    intro other plain otherAround
    have same : core = other :=
      (trim_of_blanksAround trimmed around).symm.trans (trim_of_blanksAround (trimmed_of_plain plain) otherAround)
    simp [(plain c (same ▸ member)).1] at blank

theorem Operator.legible : Legible all spelling :=
  legible_of_reads (fun word => by cases word <;> decide) read_spelling

theorem Conjunction.legible : Legible all spelling :=
  legible_of_reads (fun word => by cases word <;> decide) read_spelling

theorem Direction.legible : Legible all spelling :=
  legible_of_reads (fun word => by cases word <;> decide) read_spelling

theorem Operator.mem_spellings_iff (core : String) :
    core ∈ ["=", ">", "<", ">=", "<=", "<>"] ↔ ∃ operator : Operator, CaseVariant operator.spelling core := by
  have caseless (operator : Operator) : operator.spelling.toList.all (fun c => c.toLower = c) := by
    cases operator <;> decide
  simp only [caseVariant_iff_eq fun c member => of_decide_eq_true (List.all_eq_true.mp (caseless _) c member)]
  constructor
  · intro listed
    have spelled : core ∈ all.map spelling := listed
    obtain ⟨operator, -, same⟩ := List.mem_map.mp spelled
    exact ⟨operator, same.symm⟩
  · rintro ⟨operator, rfl⟩
    exact List.mem_map_of_mem (legible.listed operator)

/-- Each kind of keyword is read from exactly the texts that hold one of its spellings between blanks, where only the
    case of ASCII letters is free, and its words are spelled, shown and recorded alike. -/
theorem keywords_read_exactly (text : String) (condition : Condition) (key : SortKey) :
    ReadsExactly Operator.read
      (fun operator => [operator.spelling, toString operator, { condition with operator }.record.operator])
      (fun core => core ∈ ["=", ">", "<", ">=", "<=", "<>"]) "where operator" text ∧
    ReadsExactly Conjunction.read
      (fun conjunction =>
        [conjunction.spelling, toString conjunction, { condition with conjunction }.record.conjunction])
      (fun core => CaseVariant "AND" core ∨ CaseVariant "OR" core) "logical operator" text ∧
    ReadsExactly Direction.read
      (fun direction => [direction.spelling, toString direction, { key with direction }.record.direction])
      (fun core => CaseVariant "ASC" core ∨ CaseVariant "DESC" core) "order direction" text := by
  have alike {spelling recorded : String} (same : recorded = spelling) :
      spelling ∈ [spelling, spelling, recorded] ∧ ∀ writing ∈ [spelling, spelling, recorded], writing = spelling := by
    simp [same]
  have conjunctions (core : String) : CaseVariant "AND" core ∨ CaseVariant "OR" core ↔
      ∃ conjunction : Conjunction, CaseVariant conjunction.spelling core :=
    ⟨fun variant => variant.elim (⟨.and, ·⟩) (⟨.or, ·⟩), fun ⟨conjunction, variant⟩ => by
      cases conjunction with
      | and => exact .inl variant
      | or => exact .inr variant⟩
  have directions (core : String) : CaseVariant "ASC" core ∨ CaseVariant "DESC" core ↔
      ∃ direction : Direction, CaseVariant direction.spelling core :=
    ⟨fun variant => variant.elim (⟨.asc, ·⟩) (⟨.desc, ·⟩), fun ⟨direction, variant⟩ => by
      cases direction with
      | asc => exact .inl variant
      | desc => exact .inr variant⟩
  exact ⟨readsExactly_readWord .operator Operator.legible (fun word => alike word.serialized_eq) Operator.mem_spellings_iff text,
    readsExactly_readWord .conjunction Conjunction.legible (fun word => alike word.serialized_eq) conjunctions text,
    readsExactly_readWord .direction Direction.legible (fun word => alike word.serialized_eq) directions text⟩

/-- The long s is a small form of S elsewhere, but not here. -/
example : (Direction.read "\u00a0a\u017fc").toOption = none ∧ (Direction.read "\u00a0aSc").toOption = some .asc := by
  decide

end SqlSelect
