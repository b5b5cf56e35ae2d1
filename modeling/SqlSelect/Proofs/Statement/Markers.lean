import SqlSelect.Proofs.Statement.Rendering
import SqlSelect.Proofs.Text.Boundary
import Mathlib.Data.List.Forall2

namespace SqlSelect

namespace Text

/-- The byte of a marker, as it stands in the encoded text. -/
theorem byte_marker (before after : String) :
    (before ++ "?" ++ after).toByteArray[before.utf8ByteSize]? = some 0x3F := by
  have width : "?".utf8ByteSize = 1 := by decide
  have first (nonempty : 0 < "?".toByteArray.size) : "?".toByteArray[0] = 0x3F := by revert nonempty; decide
  have inside : before.utf8ByteSize < (before ++ "?" ++ after).toByteArray.size := by
    simp only [String.size_toByteArray, String.utf8ByteSize_append, width]
    omega
  have byte : (before ++ "?" ++ after).toByteArray[before.utf8ByteSize] = 0x3F := by
    simp only [String.toByteArray_append]
    rw [ByteArray.getElem_append_left (by simp [width]), ByteArray.getElem_append_right (by simp)]
    simp only [String.size_toByteArray, Nat.sub_self]
    exact first _
  rw [← byte]
  exact getElem?_pos (before ++ "?" ++ after).toByteArray before.utf8ByteSize inside

end Text

/-- The text that leads from the keyword of a condition to the marker. -/
def Condition.comparison (condition : Condition) : String :=
  " " ++ condition.field ++ " " ++ condition.operator.spelling ++ " "

theorem Condition.lead_eq (condition : Condition) (word : String) :
    condition.lead word = " " ++ word ++ condition.comparison := by
  simp [lead, comparison, String.append_assoc]

namespace Statement

/-- The rewriting of the markers, which comes to nothing as soon as a range of the text has no slice. -/
def fill? (q : Statement) (slot : Nat → String → String) : Option String := do
  let slices ← q.ranges.mapM fun range => Text.slice? q.sql.toList range.1 range.2
  pure (weave (slices.map String.ofList) (q.params.mapIdx slot))

/-- A mark of the statement is where the marker of a condition stands: right after field and operator, and right before
    a blank or the end. -/
structure MarksAt (q : Statement) (mark : Nat) (condition : Condition) : Prop where
  boundary : Text.IsBoundary q.sql mark
  byte : q.sql.toByteArray[mark]? = some 0x3F
  between : ∃ before after, q.sql = before ++ condition.comparison ++ "?" ++ after ∧
    (before ++ condition.comparison).utf8ByteSize = mark ∧ ∀ c ∈ after.toList.head?, c = ' '

theorem marksAt_of_append {q : Statement} {condition : Condition} {before after : String}
    (sql : q.sql = before ++ condition.comparison ++ "?" ++ after) (apart : ∀ c ∈ after.toList.head?, c = ' ') :
    q.MarksAt (before ++ condition.comparison).utf8ByteSize condition where
  boundary := by
    have boundary := Text.isBoundary_append (before ++ condition.comparison) ("?" ++ after)
    rwa [← String.append_assoc, ← sql] at boundary
  byte := by
    rw [sql]
    exact Text.byte_marker _ _
  between := ⟨before, after, sql, rfl, apart⟩

end Statement

namespace Layout

theorem fill?_statement (layout : Layout) (slot : Nat → String → String) :
    layout.statement.fill? slot = some (layout.statement.fill slot) := by
  have slices : layout.statement.ranges.mapM (fun range => Text.slice? layout.statement.sql.toList range.1 range.2) =
      some (layout.segments.map String.toList) := by
    have found := congrArg (List.mapM id) layout.slices_statement
    rw [List.mapM_map, List.mapM_map] at found
    exact found.trans List.mapM_pure
  have segments : (layout.segments.map String.toList).map String.ofList = layout.segments := by
    simp [Function.comp_def]
  rw [Statement.fill?, slices, Statement.fill, layout.segments_statement]
  exact congrArg (fun segments => some (Statement.weave segments _)) segments

theorem le_of_mem_offsets {start mark : Nat} {stretches : List Stretch} (member : mark ∈ offsets start stretches) :
    start ≤ mark := by
  induction stretches generalizing start with
  | nil => cases member
  | cons stretch rest ih =>
    rcases List.mem_cons.mp member with rfl | later
    · omega
    · have bound := ih later
      omega

theorem offsets_increasing (start : Nat) (stretches : List Stretch) :
    (offsets start stretches).Pairwise (· < ·) := by
  induction stretches generalizing start with
  | nil => exact .nil
  | cons stretch rest ih =>
    refine .cons ?_ (ih _)
    intro mark member
    have bound := le_of_mem_offsets member
    omega

/-- What stands right after a marker begins with a blank, be it a further stretch or the text at the end. -/
structure Parted (layout : Layout) : Prop where
  later : ∀ stretch ∈ layout.stretches.tail, stretch.text.toList.head? = some ' '
  last : layout.stretches ≠ [] → ∀ c ∈ layout.last.toList.head?, c = ' '

theorem Parted.tail {stretch : Stretch} {rest : List Stretch} {last : String}
    (parted : (Layout.mk (stretch :: rest) last).Parted) : (Layout.mk rest last).Parted where
  later other member := parted.later other (List.mem_of_mem_tail member)
  last _ := parted.last (List.cons_ne_nil _ _)

theorem Parted.head {stretch : Stretch} {rest : List Stretch} {last : String}
    (parted : (Layout.mk (stretch :: rest) last).Parted) (slot : Nat → String → String) :
    ∀ c ∈ ((Layout.mk rest last).fill slot).toList.head?, c = ' ' := by
  intro c head
  cases rest with
  | nil => exact parted.last (List.cons_ne_nil _ _) c (by simpa [fill] using head)
  | cons next rest =>
    have blank := parted.later next (List.mem_cons_self ..)
    rw [fill_cons, String.append_assoc, String.toList_append, List.head?_append, blank] at head
    exact (Option.some.inj head).symm

theorem marksAt_offsets {q : Statement} {before : String} {stretches : List Stretch} {last : String}
    {conditions : List Condition} (sql : q.sql = before ++ (Layout.mk stretches last).markedText)
    (parted : (Layout.mk stretches last).Parted)
    (leads : List.Forall₂ (fun stretch condition => ∃ opening, stretch.text = opening ++ condition.comparison)
      stretches conditions) :
    List.Forall₂ q.MarksAt (offsets before.utf8ByteSize stretches) conditions := by
  -- Over all texts before, since each stretch belongs to the text before the next one.
  induction leads generalizing before with
  | nil => exact .nil
  | @cons stretch condition rest others lead leads ih =>
    obtain ⟨opening, text⟩ := lead
    rw [markedText_cons] at sql
    have here : q.sql = (before ++ opening) ++ condition.comparison ++ "?" ++ (Layout.mk rest last).markedText := by
      simp only [sql, text, String.append_assoc]
    have mark : before.utf8ByteSize + Text.byteSize stretch.text.toList =
        (before ++ opening ++ condition.comparison).utf8ByteSize := by
      simp only [Text.byteSize_toList, text, String.utf8ByteSize_append, Nat.add_assoc]
    have next : before.utf8ByteSize + Text.byteSize stretch.text.toList + 1 =
        (before ++ stretch.text ++ "?").utf8ByteSize := by
      have width : "?".utf8ByteSize = 1 := by decide
      simp only [Text.byteSize_toList, String.utf8ByteSize_append, width]
    rw [offsets, next, mark]
    exact .cons (Statement.marksAt_of_append here (parted.head _))
      (ih (by simpa only [String.append_assoc] using sql) parted.tail)

end Layout

namespace Clauses

theorem head_closing (clauses : Clauses) : ∀ c ∈ clauses.closing.toList.head?, c = ' ' := by
  intro c head
  cases groups : clauses.groups <;> cases keys : clauses.sortKeys <;>
    simp_all [closing, grouping, ordering, eq_comm]

theorem parted_layout (clauses : Clauses) (table : String) : (clauses.layout table).Parted := by
  unfold layout
  cases clauses.conditions with
  | nil => exact ⟨by simp, fun started => absurd rfl started⟩
  | cons first rest =>
    refine ⟨fun stretch member => ?_, fun _ => clauses.head_closing⟩
    obtain ⟨condition, -, rfl⟩ := List.mem_map.mp member
    simp [Condition.further, Condition.lead]

theorem leads_layout (clauses : Clauses) (table : String) :
    List.Forall₂ (fun stretch condition => ∃ opening, stretch.text = opening ++ condition.comparison)
      (clauses.layout table).stretches clauses.conditions := by
  unfold layout
  cases clauses.conditions with
  | nil => exact .nil
  | cons first rest =>
    refine .cons ⟨clauses.opening table ++ (" " ++ "WHERE"), ?_⟩ (List.forall₂_map_left_iff.mpr ?_)
    · rw [first.lead_eq]
      simp only [String.append_assoc]
    · exact List.forall₂_same.mpr fun condition _ => ⟨_, condition.lead_eq _⟩

end Clauses

/-- Every mark is where the marker of its condition stands, and the texts between the marks are there to be cut out, so
    rewriting the markers cannot fail. -/
theorem marks_locate_markers (table : String) (clauses : Clauses) (outerFree : clauses.OuterFree) :
    ∃ q, compile table clauses = .ok q ∧
      q.marks.length = clauses.conditions.length ∧ q.params.length = q.marks.length ∧
      q.params = clauses.conditions.map Condition.value ∧
      q.marks.Pairwise (· < ·) ∧
      List.Forall₂ q.MarksAt q.marks clauses.conditions ∧
      (∀ range ∈ q.ranges, range.1 ≤ range.2 ∧ range.2 ≤ q.sql.utf8ByteSize ∧
        Text.IsBoundary q.sql range.1 ∧ Text.IsBoundary q.sql range.2) ∧
      ∀ slot, q.fill? slot = some (q.fill slot) := by
  let layout := clauses.layout table
  have sql : layout.statement.sql = "" ++ layout.markedText := by simp
  have located : List.Forall₂ layout.statement.MarksAt layout.statement.marks clauses.conditions :=
    Layout.marksAt_offsets sql (clauses.parted_layout table) (clauses.leads_layout table)
  have params : layout.statement.params = clauses.conditions.map Condition.value := clauses.values_layout table
  refine ⟨layout.statement, compile_eq_layout table clauses outerFree, located.length_eq, ?_, params,
    Layout.offsets_increasing _ _, located, ?_, layout.fill?_statement⟩
  · rw [params, List.length_map, located.length_eq]
  · intro range member
    have slice := List.mem_map_of_mem (f := fun range => Text.slice? layout.statement.sql.toList range.1 range.2) member
    rw [layout.slices_statement] at slice
    obtain ⟨segment, -, found⟩ := List.mem_map.mp slice
    exact Text.bounds_of_slice? found.symm

/-- The offsets count bytes, so the two-byte letter and the three-byte one shift them. -/
theorem marks_locate_markers_markedFragments :
    markedFragments.OuterFree ∧ ∃ q, compile "t" markedFragments = .ok q ∧ q.marks = [60, 73] ∧
      List.Forall₂ q.MarksAt q.marks markedFragments.conditions ∧
      q.fill? (fun index _ => "$" ++ toString (index + 1)) = some q.numbered := by
  obtain ⟨q, compiled, -, -, -, -, located, -, filled⟩ := marks_locate_markers "t" markedFragments (by decide)
  have laid := compile_eq_layout "t" markedFragments (by decide)
  rw [compiled, Except.ok.injEq] at laid
  have marks : q.marks = [60, 73] := by
    rw [laid]
    decide
  exact ⟨by decide, q, compiled, marks, located, filled _⟩

end SqlSelect
