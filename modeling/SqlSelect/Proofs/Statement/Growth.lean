import SqlSelect.Proofs.Builder.Contribution
import SqlSelect.Proofs.Builder.Fragments
import SqlSelect.Proofs.Statement.Rendering

namespace SqlSelect

namespace Text

theorem size_intercalate_append_le (separator : String) (texts more : List String) :
    (separator.intercalate texts).utf8ByteSize ≤ (separator.intercalate (texts ++ more)).utf8ByteSize := by
  by_cases first : texts = []
  · simp [first]
  · by_cases second : more = []
    · simp [second]
    · rw [String.intercalate_append_of_ne_nil first second, String.utf8ByteSize_append, String.utf8ByteSize_append]
      omega

theorem size_intercalate_pos (separator : String) {text : String} (rest : List String) (nonempty : text ≠ "") :
    0 < (separator.intercalate (text :: rest)).utf8ByteSize := by
  have own : 0 < text.utf8ByteSize := by
    rwa [Nat.pos_iff_ne_zero, ne_eq, String.utf8ByteSize_eq_zero_iff]
  have whole := size_intercalate_append_le separator [text] rest
  rw [String.intercalate_singleton] at whole
  exact Nat.lt_of_lt_of_le own whole

end Text

namespace Layout

theorem offsets_shift (start shift : Nat) (stretches : List Stretch) :
    offsets (start + shift) stretches = (offsets start stretches).map (· + shift) := by
  induction stretches generalizing start with
  | nil => rfl
  | cons stretch rest ih =>
    have here : start + shift + Text.byteSize stretch.text.toList =
        start + Text.byteSize stretch.text.toList + shift := Nat.add_right_comm ..
    rw [offsets, offsets, List.map_cons, ← ih, here, Nat.add_right_comm _ shift 1]

theorem width_append (stretches more : List Stretch) : width (stretches ++ more) = width stretches + width more := by
  induction stretches with
  | nil => simp [width]
  | cons stretch rest ih => simp only [List.cons_append, width, ih, Nat.add_assoc]

end Layout

/-- Conditions up to their markers, without the text before the first of them. -/
def Condition.stretches : List Condition → List Stretch
  | [] => []
  | first :: rest => ⟨first.lead "WHERE", first.value⟩ :: rest.map further

theorem Condition.stretches_append (conditions : List Condition) (condition : Condition) :
    ∃ stretch, stretches (conditions ++ [condition]) = stretches conditions ++ [stretch] := by
  cases conditions with
  | nil => exact ⟨_, rfl⟩
  | cons first rest =>
    refine ⟨condition.further, ?_⟩
    simp only [stretches, List.cons_append, List.map_append, List.map_singleton]

namespace Clauses

/-- The marks depend on the text before the conditions by its size only, and not at all on the text behind them. -/
theorem marks_layout (clauses : Clauses) (table : String) :
    (clauses.layout table).statement.marks =
      Layout.offsets (clauses.opening table).utf8ByteSize (Condition.stretches clauses.conditions) := by
  unfold layout
  cases clauses.conditions with
  | nil => rfl
  | cons first rest => simp [Condition.stretches, Layout.offsets, Text.byteSize_toList]

theorem size_layout (clauses : Clauses) (table : String) :
    (clauses.layout table).statement.sql.utf8ByteSize =
      (clauses.opening table).utf8ByteSize + Layout.width (Condition.stretches clauses.conditions) +
        clauses.closing.utf8ByteSize := by
  rw [Layout.statement_sql, ← Text.byteSize_toList, Layout.byteSize_markedText]
  unfold layout
  cases clauses.conditions with
  | nil => simp [Condition.stretches, Layout.width, Text.byteSize_toList]
  | cons first rest =>
    simp only [Condition.stretches, Layout.width, String.toList_append, Text.byteSize_append, Text.byteSize_toList]
    omega

/-- The first fragments take the place of the star, and none of them is shorter than it. -/
theorem size_columns_append_le (clauses : Clauses) {added : List String} (nonempty : ∀ text ∈ added, text ≠ "") :
    clauses.columns.utf8ByteSize ≤ ({ selects := clauses.selects ++ added } : Clauses).columns.utf8ByteSize := by
  by_cases star : clauses.selects = []
  · cases added with
    | nil => simp [columns, star]
    | cons text rest =>
      have positive := Text.size_intercalate_pos ", " rest (nonempty text (List.mem_cons_self ..))
      have width : "*".utf8ByteSize = 1 := by decide
      simpa [columns, star, width] using Nat.succ_le_of_lt positive
  · simpa [columns, star] using Text.size_intercalate_append_le ", " clauses.selects added

theorem size_opening_append_le (clauses : Clauses) (table : String) {added : Clauses}
    (nonempty : ∀ text ∈ added.selects, text ≠ "") :
    (clauses.opening table).utf8ByteSize ≤ ((clauses.append added).opening table).utf8ByteSize := by
  have columns : clauses.columns.utf8ByteSize ≤ (clauses.append added).columns.utf8ByteSize :=
    clauses.size_columns_append_le nonempty
  simp only [opening, append, List.map_append, String.join_append, String.utf8ByteSize_append] at columns ⊢
  omega

theorem size_closing_append_le (clauses added : Clauses) :
    clauses.closing.utf8ByteSize ≤ (clauses.append added).closing.utf8ByteSize := by
  have groups := Text.size_intercalate_append_le ", " clauses.groups added.groups
  have keys := Text.size_intercalate_append_le ", " (clauses.sortKeys.map SortKey.render)
    (added.sortKeys.map SortKey.render)
  have grouping : clauses.grouping.utf8ByteSize ≤ (clauses.append added).grouping.utf8ByteSize := by
    by_cases none : clauses.groups = []
    · simp [grouping, none]
    · simpa [grouping, append, none] using groups
  have ordering : clauses.ordering.utf8ByteSize ≤ (clauses.append added).ordering.utf8ByteSize := by
    by_cases none : clauses.sortKeys = []
    · simp [ordering, none]
    · simpa [ordering, append, none] using keys
  simp only [closing, String.utf8ByteSize_append]
  omega

theorem opening_append (clauses : Clauses) (table : String) {added : Clauses} (selects : added.selects = [])
    (joins : added.joins = []) : (clauses.append added).opening table = clauses.opening table := by
  simp only [opening, columns, append, selects, joins, List.append_nil]

theorem closing_append (clauses : Clauses) {added : Clauses} (groups : added.groups = [])
    (sortKeys : added.sortKeys = []) : (clauses.append added).closing = clauses.closing := by
  simp only [closing, grouping, ordering, append, groups, sortKeys, List.append_nil]

variable (clauses : Clauses) (table : String) (added : Clauses)

/-- More text before the conditions moves all marks by its size. -/
theorem growth_opening (conditions : added.conditions = []) (groups : added.groups = [])
    (sortKeys : added.sortKeys = []) (nonempty : ∀ text ∈ added.selects, text ≠ "") :
    let q := (clauses.layout table).statement
    let r := ((clauses.append added).layout table).statement
    ∃ growth, r.sql.utf8ByteSize = q.sql.utf8ByteSize + growth ∧ r.marks = q.marks.map (· + growth) := by
  intro q r
  have kept : (clauses.append added).conditions = clauses.conditions := by
    rw [append, conditions, List.append_nil]
  have closing := clauses.closing_append groups sortKeys
  obtain ⟨growth, opening⟩ := Nat.exists_eq_add_of_le (clauses.size_opening_append_le table nonempty)
  refine ⟨growth, ?_, ?_⟩
  · rw [size_layout, size_layout, kept, closing, opening]
    omega
  · rw [marks_layout, marks_layout, kept, opening, Layout.offsets_shift]

theorem growth_condition {condition : Condition} (conditions : added.conditions = [condition])
    (selects : added.selects = []) (joins : added.joins = []) (groups : added.groups = [])
    (sortKeys : added.sortKeys = []) :
    let q := (clauses.layout table).statement
    let r := ((clauses.append added).layout table).statement
    ∃ growth, r.sql.utf8ByteSize = q.sql.utf8ByteSize + growth ∧ ∃ mark, r.marks = q.marks ++ [mark] := by
  intro q r
  obtain ⟨stretch, stretches⟩ := Condition.stretches_append clauses.conditions condition
  have grown : Condition.stretches (clauses.append added).conditions =
      Condition.stretches clauses.conditions ++ [stretch] := by
    rw [append, conditions, stretches]
  have opening := clauses.opening_append table selects joins
  have closing := clauses.closing_append groups sortKeys
  refine ⟨Layout.width [stretch], ?_, ?_⟩
  · rw [size_layout, size_layout, grown, closing, opening, Layout.width_append]
    omega
  · rw [marks_layout, marks_layout, grown, opening, Layout.offsets_append]
    exact ⟨_, rfl⟩

theorem growth_closing (conditions : added.conditions = []) (selects : added.selects = []) (joins : added.joins = []) :
    let q := (clauses.layout table).statement
    let r := ((clauses.append added).layout table).statement
    ∃ growth, r.sql.utf8ByteSize = q.sql.utf8ByteSize + growth ∧ r.marks = q.marks := by
  intro q r
  have kept : (clauses.append added).conditions = clauses.conditions := by
    rw [append, conditions, List.append_nil]
  have opening := clauses.opening_append table selects joins
  obtain ⟨growth, closing⟩ := Nat.exists_eq_add_of_le (clauses.size_closing_append_le added)
  refine ⟨growth, ?_, ?_⟩
  · rw [size_layout, size_layout, kept, opening, closing]
    omega
  · rw [marks_layout, marks_layout, kept, opening]

end Clauses

/-- What a further call does to a statement whose text grows by so many bytes. Selects and joins stand before all
    markers, a condition brings the last one, and sort keys and groups stand behind them. -/
def Call.Effect (call : Call) (growth : Nat) (q r : Statement) : Prop :=
  match call with
  | .select _ | .join .. => r.params = q.params ∧ r.marks = q.marks.map (· + growth)
  | .filter _ _ value | .refine _ _ _ value => r.params = q.params ++ [value] ∧ ∃ mark, r.marks = q.marks ++ [mark]
  | .orderBy .. | .groupBy _ => r.params = q.params ∧ r.marks = q.marks
  | .reset => False

theorem Clauses.effect_contribution (clauses : Clauses) (table : String) {call : Call} (keeping : call ≠ .reset) :
    let q := (clauses.layout table).statement
    let r := ((clauses.append call.contribution).layout table).statement
    ∃ growth, r.sql.utf8ByteSize = q.sql.utf8ByteSize + growth ∧ call.Effect growth q r := by
  intro q r
  have params : r.params = q.params ++ call.value?.toList := by
    rw [Layout.statement_params, Layout.statement_params, values_layout, values_layout, ← call.values_contribution]
    exact List.map_append
  cases call with
  | select fields =>
    obtain ⟨growth, size, marks⟩ := clauses.growth_opening table (Call.select fields).contribution rfl rfl rfl
      fun text member => (isFragment_of_mem member).nonempty
    exact ⟨growth, size, params.trans (List.append_nil _), marks⟩
  | join joined condition kind =>
    obtain ⟨growth, size, marks⟩ := clauses.growth_opening table (Call.join joined condition kind).contribution
      rfl rfl rfl (List.forall_mem_nil _)
    exact ⟨growth, size, params.trans (List.append_nil _), marks⟩
  | filter field operator value =>
    obtain ⟨growth, size, marks⟩ := clauses.growth_condition table (Call.filter field operator value).contribution
      rfl rfl rfl rfl rfl
    exact ⟨growth, size, params, marks⟩
  | refine conjunction field operator value =>
    obtain ⟨growth, size, marks⟩ := clauses.growth_condition table
      (Call.refine conjunction field operator value).contribution rfl rfl rfl rfl rfl
    exact ⟨growth, size, params, marks⟩
  | orderBy field direction =>
    obtain ⟨growth, size, marks⟩ := clauses.growth_closing table (Call.orderBy field direction).contribution
      rfl rfl rfl
    exact ⟨growth, size, params.trans (List.append_nil _), marks⟩
  | groupBy field =>
    obtain ⟨growth, size, marks⟩ := clauses.growth_closing table (Call.groupBy field).contribution rfl rfl rfl
    exact ⟨growth, size, params.trans (List.append_nil _), marks⟩
  | reset => contradiction

end SqlSelect
