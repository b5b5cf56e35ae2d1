import SqlSelect.Builder
import SqlSelect.Proofs.Text.Occurrence
import SqlSelect.Proofs.Text.Trimming

namespace SqlSelect

namespace Text

theorem not_mem_of_mem_splitOn {c : Char} {s part : List Char} (member : part ∈ s.splitOn c) : c ∉ part := by
  induction s generalizing part with
  | nil =>
    rw [List.splitOn_nil, List.mem_singleton] at member
    simp [member]
  | cons d s ih =>
    rw [List.splitOn_cons_eq_if_modifyHead] at member
    split at member
    · rcases List.mem_cons.mp member with rfl | later
      · simp
      · exact ih later
    · rename_i other
      cases parts : s.splitOn c with
      | nil => simp [parts] at member
      | cons first rest =>
        rw [parts] at ih member
        rcases List.mem_cons.mp member with rfl | later
        · have head := ih (List.mem_cons_self ..)
          simp only [List.mem_cons, not_or]
          exact ⟨fun same => other (beq_iff_eq.mpr same.symm), head⟩
        · exact ih (List.mem_cons_of_mem _ later)

/-- Whether a character of a select list is more than a comma or a blank. -/
def isContent (c : Char) : Bool :=
  c != ',' && !isBlank c

theorem filter_dropWhile_blank (s : List Char) : (s.dropWhile isBlank).filter isContent = s.filter isContent := by
  induction s with
  | nil => rfl
  | cons c s ih =>
    by_cases blank : isBlank c = true
    · simp [blank, isContent, ih]
    · simp [blank]

/-- Trimming takes blanks away and nothing else. -/
theorem filter_trimChars (s : List Char) : (trimChars s).filter isContent = s.filter isContent := by
  rw [trimChars, List.filter_reverse, filter_dropWhile_blank, List.filter_reverse, List.reverse_reverse,
    filter_dropWhile_blank]

/-- Splitting takes the separators away and nothing else. -/
theorem filter_splitOn (s : List Char) :
    (s.splitOn ',').flatMap (List.filter isContent) = s.filter isContent := by
  induction s with
  | nil => simp
  | cons c s ih =>
    rw [List.splitOn_cons_eq_if_modifyHead]
    by_cases comma : c = ','
    · simp [comma, isContent, ih]
    · obtain ⟨first, rest, parts⟩ := List.exists_cons_of_ne_nil (List.splitOn_ne_nil ',' s)
      rw [parts] at ih
      simp only [parts, beq_iff_eq, comma, if_false, List.modifyHead_cons, List.flatMap_cons, List.filter_cons, ← ih]
      split <;> rfl

end Text

theorem fragments_append (first second : String) :
    fragments (first ++ "," ++ second) = fragments first ++ fragments second := by
  have split : (first ++ "," ++ second).toList.splitOn ',' = first.toList.splitOn ',' ++ second.toList.splitOn ',' := by
    simpa using List.splitOn_append_cons_self first.toList second.toList
  simp only [fragments, split, List.map_append, List.filter_append]

theorem fragments_blank {c : Char} (blank : Text.isBlank c = true) (s : List Char) :
    fragments (String.ofList (c :: s)) = fragments (String.ofList s) := by
  have notComma : c ≠ ',' := fun same => absurd (same ▸ blank) (by decide)
  have trimmed : ((c :: s).splitOn ',').map Text.trimChars = (s.splitOn ',').map Text.trimChars := by
    rw [List.splitOn_cons_eq_if_modifyHead]
    cases s.splitOn ',' with
    | nil => simp [notComma]
    | cons first rest => simp [notComma, Text.trimChars_cons blank]
  simp only [fragments, String.toList_ofList, trimmed]

theorem content_fragments (fields : String) :
    ((fragments fields).flatMap String.toList).filter Text.isContent = fields.toList.filter Text.isContent := by
  have nonempty (parts : List (List Char)) : (parts.filter Text.holdsAny).flatMap id = parts.flatMap id := by
    induction parts with
    | nil => rfl
    | cons part rest ih => cases part <;> simpa [Text.holdsAny] using ih
  have listed : (fragments fields).flatMap String.toList =
      ((fields.toList.splitOn ',').map Text.trimChars).flatMap id := by
    rw [← nonempty, fragments, List.flatMap_map]
    simp
  rw [listed, List.flatMap_map, List.filter_flatMap, ← Text.filter_splitOn]
  exact List.flatMap_congr fun part _ => Text.filter_trimChars part

/-- A list without a comma is one fragment, unless there is nothing in it but blanks. -/
theorem fragments_of_commaFree {fields : String} (free : Text.hasComma fields = false) :
    fragments fields = if Text.holdsAny (Text.trimChars fields.toList) then [Text.trim fields] else [] := by
  rw [fragments, List.splitOn_eq_singleton (Text.hasComma_eq_false_iff.mp free), List.map_singleton,
    List.filter_singleton]
  cases Text.holdsAny (Text.trimChars fields.toList) <;> rfl

/-- What a select fragment looks like however it was put in. -/
structure IsFragment (text : String) : Prop where
  nonempty : text ≠ ""
  commaFree : Text.Avoids ',' text
  trimmed : Text.Trimmed text.toList

theorem isFragment_of_mem {fields text : String} (member : text ∈ fragments fields) : IsFragment text := by
  obtain ⟨trimmed, listed, rfl⟩ := List.mem_map.mp member
  obtain ⟨among, holds⟩ := List.mem_filter.mp listed
  obtain ⟨part, split, rfl⟩ := List.mem_map.mp among
  refine ⟨fun empty => Text.holdsAny_iff.mp holds (String.ofList_eq_empty_iff.mp empty), ?_, ?_⟩
  · intro comma
    rw [String.toList_ofList] at comma
    exact Text.not_mem_of_mem_splitOn split (Text.mem_of_mem_trimChars comma)
  · rw [String.toList_ofList]
    exact Text.trimmed_trimChars part

/-- A fragment put in again is the one fragment that comes out. -/
theorem IsFragment.fragments_eq {text : String} (fragment : IsFragment text) : fragments text = [text] := by
  have free : Text.hasComma text = false := Text.hasComma_eq_false_iff.mpr fragment.commaFree
  have trimmed := fragment.trimmed.trimChars_eq
  rw [fragments_of_commaFree free, trimmed, if_pos (by simpa using fragment.nonempty), Text.trim, trimmed,
    String.ofList_toList]

theorem fragments_intercalate {texts : List String} (each : ∀ text ∈ texts, IsFragment text) :
    fragments (", ".intercalate texts) = texts := by
  induction texts with
  | nil => decide
  | cons text rest ih =>
    have own := (each text (List.mem_cons_self ..)).fragments_eq
    have others := ih fun other member => each other (List.mem_cons_of_mem _ member)
    cases rest with
    | nil => simpa using own
    | cons next rest =>
      -- The blank of a separator is cut off again with what stands behind it.
      have listed : ", ".intercalate (text :: next :: rest) =
          text ++ "," ++ String.ofList (' ' :: (", ".intercalate (next :: rest)).toList) := by
        simp [← String.toList_inj]
      rw [listed, fragments_append, fragments_blank (by decide), String.ofList_toList, own, others]
      rfl

end SqlSelect
