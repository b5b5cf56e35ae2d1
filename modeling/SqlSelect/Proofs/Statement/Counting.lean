import Mathlib.Algebra.BigOperators.Group.List.Basic
import SqlSelect.Proofs.Builder.Redaction
import SqlSelect.Proofs.Statement.Containment
import SqlSelect.Text.Number

namespace SqlSelect

namespace Clauses

open Text (occurrences)

variable {c : Char}

theorem occurrences_fixed {text : String} (foreign : c ∉ alphabet) (inside : text.toList.all alphabet.contains = true) :
    occurrences c text = 0 :=
  Text.occurrences_eq_zero (avoids_fixed foreign inside)

theorem occurrences_columns (clauses : Clauses) (foreign : c ∉ alphabet) :
    occurrences c clauses.columns = (clauses.selects.map (occurrences c)).sum := by
  unfold columns
  by_cases empty : clauses.selects = []
  · rw [if_pos (List.isEmpty_iff.mpr empty), empty]
    exact occurrences_fixed foreign (by decide)
  · rw [if_neg (by simpa using empty)]
    exact Text.occurrences_intercalate (avoids_fixed foreign (by decide)) _

theorem occurrences_opening (clauses : Clauses) (table : String) (foreign : c ∉ alphabet) :
    occurrences c (clauses.opening table) = (clauses.selects.map (occurrences c)).sum + occurrences c table +
      (clauses.joins.map fun join => occurrences c join.table + occurrences c join.condition).sum := by
  have selectWord : occurrences c "SELECT " = 0 := occurrences_fixed foreign (by decide)
  have fromWord : occurrences c " FROM " = 0 := occurrences_fixed foreign (by decide)
  have joinWord : occurrences c " INNER JOIN " = 0 := occurrences_fixed foreign (by decide)
  have onWord : occurrences c " ON " = 0 := occurrences_fixed foreign (by decide)
  have join : (occurrences c ∘ Join.innerText) = fun join => occurrences c join.table + occurrences c join.condition := by
    funext join
    simp only [Function.comp_apply, Join.innerText, Text.occurrences_append, joinWord, onWord]
    omega
  simp only [opening, Text.occurrences_append, Text.occurrences_join, List.map_map, join, selectWord, fromWord,
    occurrences_columns clauses foreign]
  omega

theorem occurrences_written (condition : Condition) (index : Nat) (filling : String) (foreign : c ∉ alphabet) :
    occurrences c (condition.written index filling) = occurrences c condition.field + occurrences c filling := by
  have lead : occurrences c (if index = 0 then " WHERE " else " " ++ condition.conjunction.spelling ++ " ") = 0 := by
    by_cases first : index = 0
    · rw [if_pos first]
      exact occurrences_fixed foreign (by decide)
    · rw [if_neg first]
      exact occurrences_fixed foreign (by cases condition.conjunction <;> decide)
  have blank : occurrences c " " = 0 := occurrences_fixed foreign (by decide)
  have operator : occurrences c condition.operator.spelling = 0 :=
    occurrences_fixed foreign (by cases condition.operator <;> decide)
  simp only [Condition.written, Text.occurrences_append, lead, blank, operator]
  omega

theorem occurrences_closing (clauses : Clauses) (foreign : c ∉ alphabet) :
    occurrences c clauses.closing = (clauses.groups.map (occurrences c)).sum +
      (clauses.sortKeys.map fun key => occurrences c key.field).sum := by
  have comma : Text.Avoids c ", " := avoids_fixed foreign (by decide)
  have nothing : occurrences c "" = 0 := rfl
  have groupWord : occurrences c " GROUP BY " = 0 := occurrences_fixed foreign (by decide)
  have orderWord : occurrences c " ORDER BY " = 0 := occurrences_fixed foreign (by decide)
  have key : (occurrences c ∘ SortKey.render) = fun key => occurrences c key.field := by
    funext key
    have blank : occurrences c " " = 0 := occurrences_fixed foreign (by decide)
    have direction : occurrences c key.direction.spelling = 0 :=
      occurrences_fixed foreign (by cases key.direction <;> decide)
    simp only [Function.comp_apply, SortKey.render, Text.occurrences_append, blank, direction]
    omega
  have grouping : occurrences c clauses.grouping = (clauses.groups.map (occurrences c)).sum := by
    unfold Clauses.grouping
    cases clauses.groups with
    | nil => exact nothing
    | cons first rest => simp [groupWord, Text.occurrences_intercalate comma]
  have ordering : occurrences c clauses.ordering = (clauses.sortKeys.map fun key => occurrences c key.field).sum := by
    unfold Clauses.ordering
    cases clauses.sortKeys with
    | nil => exact nothing
    | cons first rest =>
      rw [if_neg (by simp), Text.occurrences_append, Text.occurrences_intercalate comma, List.map_map, key, orderWord,
        Nat.zero_add]
  rw [closing, Text.occurrences_append, grouping, ordering]

theorem sum_suppliedTexts (clauses : Clauses) (table : String) (f : String → Nat) :
    ((clauses.suppliedTexts table).map f).sum = (clauses.selects.map f).sum + f table +
      (clauses.joins.map fun join => f join.table + f join.condition).sum +
      (clauses.conditions.map fun condition => f condition.field).sum +
      ((clauses.groups.map f).sum + (clauses.sortKeys.map fun key => f key.field).sum) := by
  have joins : ((clauses.joins.flatMap fun join => [join.table, join.condition]).map f).sum =
      (clauses.joins.map fun join => f join.table + f join.condition).sum := by
    induction clauses.joins with
    | nil => rfl
    | cons join rest ih => simp [ih, Nat.add_assoc]
  simp only [suppliedTexts, List.map_append, List.sum_append, joins, List.map_map, Function.comp_def, List.map_cons,
    List.map_nil, List.sum_cons, List.sum_nil]
  omega

/-- A character that a statement does not have of its own stands in it as often as in what callers supply, and as often
    again as the fillings hold it. -/
theorem occurrences_render (clauses : Clauses) (table : String) {slot : Nat → String → String} {times : Nat}
    (foreign : c ∉ alphabet) (each : ∀ index value, occurrences c (slot index value) = times) :
    occurrences c (clauses.render table slot) =
      ((clauses.suppliedTexts table).map (occurrences c)).sum + clauses.conditions.length * times := by
  have written : (clauses.conditions.mapIdx fun index condition =>
      condition.written index (slot index condition.value)).map (occurrences c) =
        clauses.conditions.map fun condition => occurrences c condition.field + times :=
    List.ext_getElem (by simp) fun index _ _ => by simp [occurrences_written _ _ _ foreign, each]
  have conditions : (clauses.conditions.map fun condition => occurrences c condition.field + times).sum =
      (clauses.conditions.map fun condition => occurrences c condition.field).sum +
        clauses.conditions.length * times := by
    simp [List.sum_map_add]
  rw [render_eq, Text.occurrences_append, Text.occurrences_append, occurrences_opening clauses table foreign,
    occurrences_closing clauses foreign, Text.occurrences_join, written, conditions, sum_suppliedTexts]
  omega

end Clauses

namespace Text

/-- Replaces every question mark by a number, counting on from `number`. -/
def numberMarks : Nat → List Char → List Char
  | _, [] => []
  | number, c :: s =>
    if c = '?' then '$' :: ((toString number).toList ++ numberMarks (number + 1) s) else c :: numberMarks number s

theorem numberMarks_append (number : Nat) {s : List Char} (markFree : '?' ∉ s) (rest : List Char) :
    numberMarks number (s ++ rest) = s ++ numberMarks number rest := by
  induction s with
  | nil => rfl
  | cons c s ih =>
    have other : c ≠ '?' := fun same => markFree (by simp [same])
    rw [List.cons_append, numberMarks, if_neg other, ih (List.not_mem_of_not_mem_cons markFree), List.cons_append]

theorem not_mem_numberMarks (number : Nat) (s : List Char) : '?' ∉ numberMarks number s := by
  induction s generalizing number with
  | nil => simp [numberMarks]
  | cons c s ih =>
    rw [numberMarks]
    split
    · have digits : '?' ∉ (toString number).toList := fun member => by
        have digit := isDigit_of_mem_toString member
        revert digit
        decide
      simp only [List.mem_cons, List.mem_append, not_or]
      exact ⟨by decide, digits, ih _⟩
    · rename_i other
      simp only [List.mem_cons, not_or]
      exact ⟨Ne.symm other, ih _⟩

end Text

namespace Layout

theorem numberMarks_markedText (start : Nat) {stretches : List Stretch} {last : String}
    (markFree : (Layout.mk stretches last).Without '?') :
    Text.numberMarks (start + 1) (Layout.mk stretches last).markedText.toList =
      (numberedFrom start ⟨stretches, last⟩).toList := by
  induction stretches generalizing start with
  | nil =>
    have unchanged := Text.numberMarks_append (start + 1) markFree.2 []
    simpa [markedText, fill, numberedFrom_nil, Text.numberMarks] using unchanged
  | cons stretch rest ih =>
    have own := Text.numberMarks_append (start + 1) (markFree.1 stretch (List.mem_cons_self ..))
      ('?' :: (Layout.mk rest last).markedText.toList)
    rw [Text.numberMarks, if_pos rfl, ih (start + 1) markFree.tail] at own
    rw [markedText_cons, numberedFrom_cons]
    simpa using own

end Layout

/-- Numbering all question marks of a text, as one has to do without the offsets of its markers, is right exactly where
    the markers are its only question marks. The values have no part in it. -/
theorem plain_numbering_iff (table : String) (clauses : Clauses) (outerFree : clauses.OuterFree) :
    ∃ q, compile table clauses = .ok q ∧
      Text.occurrences '?' q.sql =
        q.params.length + ((clauses.suppliedTexts table).map (Text.occurrences '?')).sum ∧
      (String.ofList (Text.numberMarks 1 q.sql.toList) = q.numbered ↔
        ∀ text ∈ clauses.suppliedTexts table, Text.Avoids '?' text) ∧
      ∀ others : Clauses, others.redacted = clauses.redacted →
        ∃ r, compile table others = .ok r ∧ r.sql = q.sql ∧ r.numbered = q.numbered := by
  let layout := clauses.layout table
  have sql : layout.statement.sql = clauses.render table fun _ _ => "?" :=
    clauses.fill_layout table fun _ _ => "?"
  have compiled := compile_eq_layout table clauses outerFree
  have params : layout.statement.params.length = clauses.conditions.length := by
    rw [params_of_compile compiled, Clauses.values, List.length_map]
  refine ⟨layout.statement, compiled, ?_, ⟨fun same => ?_, fun markFree => ?_⟩, fun others alike => ?_⟩
  · have marker : Text.occurrences '?' "?" = 1 := by decide
    have counted := clauses.occurrences_render table (by decide) fun _ _ => marker
    rw [sql, counted, params]
    omega
  · intro text supplied
    have numbered : Text.Avoids '?' layout.statement.numbered := by
      rw [← same, Text.Avoids, String.toList_ofList]
      exact Text.not_mem_numberMarks 1 _
    rw [Statement.numbered, Layout.fill_statement, Clauses.fill_layout] at numbered
    exact numbered.of_within (Clauses.within_render supplied _)
  · have replaced := Layout.numberMarks_markedText 0 (Clauses.layout_without (by decide) markFree)
    rw [Layout.numbered_statement, ← String.toList_inj, String.toList_ofList]
    exact replaced
  · obtain ⟨r, recompiled, same⟩ := exists_compile_of_redacted alike compiled
    exact ⟨r, recompiled, same.sql, same.numbered⟩

theorem plain_numbering_iff_markedFragments :
    markedFragments.OuterFree ∧ markedFragments.redacted.redacted = markedFragments.redacted ∧
      ∃ q r, compile "t" markedFragments = .ok q ∧ compile "t" markedFragments.redacted = .ok r ∧
        Text.occurrences '?' q.sql = 7 ∧ String.ofList (Text.numberMarks 1 q.sql.toList) ≠ q.numbered ∧
        r.sql = q.sql ∧ r.numbered = q.numbered := by
  obtain ⟨q, compiled, counted, numbered, alike⟩ := plain_numbering_iff "t" markedFragments (by decide)
  obtain ⟨r, recompiled, sql, same⟩ := alike markedFragments.redacted (by decide)
  have marked : ¬ ∀ text ∈ markedFragments.suppliedTexts "t", Text.Avoids '?' text := fun markFree =>
    markFree "r?" (by decide) (by decide)
  have params : q.params.length = 2 := congrArg List.length (params_of_compile compiled)
  refine ⟨by decide, by decide, q, r, compiled, recompiled, ?_, marked ∘ numbered.mp, sql, same⟩
  rw [counted, params]
  decide

end SqlSelect
