import SqlSelect.Connection.Standard.KeyValue
import SqlSelect.Proofs.Connection.Documented
import Mathlib

namespace SqlSelect.Connection.Standard

open Text (isBlank)

namespace KeyValue

theorem quoted?_of_quotes {body value : List Char} (quotes : Assignment.Quotes body value) (rest : List Char) :
    quoted? (body ++ '\'' :: rest) = some (value, rest) := by
  induction quotes with
  | nil => simp [quoted?]
  | plain notQuote notBackslash others ih => simp [quoted?, notBackslash, ih]
  | escaped special others ih => simp [quoted?, ih]

theorem bare_append {s rest : List Char} (plain : ∀ c ∈ s, isBlank c = false ∧ c ≠ '\\')
    (stop : ∀ c ∈ rest.head?, isBlank c = true) : bare (s ++ rest) = (s, rest) := by
  induction s with
  | nil =>
    cases rest with
    | nil => rfl
    | cons c rest =>
      have blank := stop c rfl
      have notBackslash : c ≠ '\\' := fun same => by rw [same] at blank; exact absurd blank (by decide)
      simp [bare, notBackslash, blank]
  | cons c s ih =>
    obtain ⟨visible, notBackslash⟩ := plain c (List.mem_cons_self ..)
    have others := ih fun other member => plain other (List.mem_cons_of_mem _ member)
    simp [bare, notBackslash, visible, others]

theorem cutName_append {name s : List Char} (named : name ≠ []) (part : ∀ c ∈ name, isNameChar c = true) :
    cutName (name ++ '=' :: s) = (name, '=' :: s) := by
  obtain ⟨c, name, rfl⟩ := List.exists_cons_of_ne_nil named
  have visible : isBlank c = false := by
    have first := part c (List.mem_cons_self ..)
    simp only [isNameChar, Bool.and_eq_true, Bool.not_eq_true'] at first
    exact first.1
  have start : (c :: name ++ '=' :: s).dropWhile isBlank = c :: name ++ '=' :: s := by simp [visible]
  have sign : isNameChar '=' = false := by decide
  have signVisible : isBlank '=' = false := by decide
  rw [cutName, start, List.takeWhile_append_of_pos part, List.dropWhile_append_of_pos part]
  simp [sign, signVisible]

theorem cutName_blank (s : List Char) : cutName (' ' :: s) = cutName s := by
  have blank : isBlank ' ' = true := by decide
  simp [cutName, blank]

theorem pairs?_eq (s : List Char) :
    pairs? s =
      if (cutName s).1.isEmpty then some []
      else
        match (cutName s).2 with
        | '=' :: afterSign =>
          match value? (afterSign.dropWhile isBlank) with
          | some (value, rest) => (pairs? rest).map ((String.ofList (cutName s).1, String.ofList value) :: ·)
          | none => none
        | _ => none := by
  rw [pairs?]
  congr 1
  split
  · rename_i afterSign cut
    rw [cut]
    split
    · rename_i value rest read
      simp only [read]
    · rename_i missing
      simp only [missing]
  · rename_i other
    split
    · rename_i afterSign cut
      exact (other afterSign cut).elim
    · rfl

theorem pairs?_of_cutName {s afterSign rest name value : List Char} (cut : cutName s = (name, '=' :: afterSign))
    (named : name ≠ []) (read : value? (afterSign.dropWhile isBlank) = some (value, rest)) :
    pairs? s = (pairs? rest).map ((String.ofList name, String.ofList value) :: ·) := by
  rw [pairs?_eq, cut]
  simp [named, read]

theorem pairs?_nil : pairs? [] = some [] := by
  rw [pairs?_eq]
  rfl

theorem pairs?_blank (s : List Char) : pairs? (' ' :: s) = pairs? s := by
  rw [pairs?_eq, cutName_blank, ← pairs?_eq]

theorem value?_bare {s rest : List Char} (present : s ≠ [])
    (plain : ∀ c ∈ s, isBlank c = false ∧ c ≠ '\\' ∧ c ≠ '\'') (stop : ∀ c ∈ rest.head?, isBlank c = true) :
    value? (s ++ rest) = some (s, rest) := by
  have read := bare_append (fun c member => ⟨(plain c member).1, (plain c member).2.1⟩) stop
  obtain ⟨c, s, rfl⟩ := List.exists_cons_of_ne_nil present
  have notQuote := (plain c (List.mem_cons_self ..)).2.2
  simp only [List.cons_append] at read ⊢
  simp [value?, notQuote, read]

theorem value?_of_writes {value written : String} (writes : Assignment.Writes value written) (rest : List Char)
    (stop : ∀ c ∈ rest.head?, isBlank c = true) :
    value? ((written.toList ++ rest).dropWhile isBlank) = some (value.toList, rest) := by
  cases writes with
  | bare present plain =>
    have some : value.toList ≠ [] := by simpa using present
    have start : (value.toList ++ rest).dropWhile isBlank = value.toList ++ rest := by
      obtain ⟨c, s, shape⟩ := List.exists_cons_of_ne_nil some
      have visible := (plain c (by simp [shape])).1
      simp [shape, visible]
    rw [start]
    exact value?_bare some plain stop
  | @quoted body quotes =>
    have visible : isBlank '\'' = false := by decide
    have written : ("'" ++ String.ofList body ++ "'").toList ++ rest = '\'' :: (body ++ '\'' :: rest) := by simp
    rw [written]
    simp [visible, value?, quoted?_of_quotes quotes]

end KeyValue

open KeyValue

theorem isNameChar_of_takes {name value : String} (takes : Assignment.Takes name value) :
    name.toList ≠ [] ∧ ∀ c ∈ name.toList, isNameChar c = true := by
  rw [← List.all_eq_true]
  rcases takes.cases with rfl | rfl | rfl | rfl | rfl <;> decide

theorem pairs?_append {assignment : Assignment} (valid : assignment.Valid) (rest : List Char)
    (stop : ∀ c ∈ rest.head?, isBlank c = true) :
    pairs? (assignment.text.toList ++ rest) = (pairs? rest).map ((assignment.name, assignment.value) :: ·) := by
  obtain ⟨named, name⟩ := isNameChar_of_takes valid.takes
  have cut := cutName_append (s := assignment.written.toList ++ rest) named name
  have step := pairs?_of_cutName cut named (value?_of_writes valid.writes rest stop)
  simpa [Assignment.text] using step

theorem exists_list_cons (assignment : Assignment) (rest : List Assignment) :
    ∃ more, (Assignment.list (assignment :: rest)).toList = assignment.name.toList ++ '=' :: more := by
  cases rest with
  | nil => exact ⟨_, by simp [Assignment.list, Assignment.text]; rfl⟩
  | cons next rest => exact ⟨_, by simp [Assignment.list, Assignment.text, String.intercalate_cons_cons]; rfl⟩

theorem pairs?_list {assignments : List Assignment} (valid : ∀ assignment ∈ assignments, assignment.Valid) :
    pairs? (Assignment.list assignments).toList =
      some (assignments.map fun assignment => (assignment.name, assignment.value)) := by
  have blank : isBlank ' ' = true := by decide
  induction assignments with
  | nil => exact pairs?_nil
  | cons assignment rest ih =>
    have first := valid assignment (List.mem_cons_self ..)
    have others := ih fun other member => valid other (List.mem_cons_of_mem _ member)
    cases rest with
    | nil =>
      have read := pairs?_append first [] (by simp)
      simpa [Assignment.list, pairs?_nil] using read
    | cons next rest =>
      have shape : (Assignment.list (assignment :: next :: rest)).toList =
          assignment.text.toList ++ ' ' :: (Assignment.list (next :: rest)).toList := by
        simp [Assignment.list, String.intercalate_cons_cons]
      have read := pairs?_append first (' ' :: (Assignment.list (next :: rest)).toList) (by simp [blank])
      rw [shape, read, pairs?_blank, others]
      rfl

end SqlSelect.Connection.Standard
