import SqlSelect.Proofs.Literal.Scan
import SqlSelect.Proofs.Statement.Rendering

namespace SqlSelect

/-- No stretch of text has the character in it; nothing is said of the values. -/
def Layout.Without (layout : Layout) (c : Char) : Prop :=
  (∀ stretch ∈ layout.stretches, Text.Avoids c stretch.text) ∧ Text.Avoids c layout.last

theorem Layout.Without.tail {stretch : Stretch} {rest : List Stretch} {last : String} {c : Char}
    (without : (Layout.mk (stretch :: rest) last).Without c) : (Layout.mk rest last).Without c :=
  ⟨fun _ member => without.1 _ (List.mem_cons_of_mem _ member), without.2⟩

namespace Literal

/-- The text of a layout with each value written as a literal of the form. -/
def filled (form : Form) (layout : Layout) : List Char :=
  (layout.fill fun _ value => form.write value).toList

def escapedFill (layout : Layout) : List Char :=
  (layout.fill fun _ value => escaped value).toList

variable {form : Form}

theorem filled_nil (last : String) : filled form ⟨[], last⟩ = last.toList := by
  simp [filled, Layout.fill]

theorem filled_cons (stretch : Stretch) (rest : List Stretch) (last : String) :
    filled form ⟨stretch :: rest, last⟩ = stretch.text.toList ++
      (form.opening ++ (double form.doubles stretch.value.toList ++ '\'' :: filled form ⟨rest, last⟩)) := by
  simp [filled, Layout.fill_cons, Form.toList_write]

/-- What follows a literal never begins with a quote, so the literal closes where it was meant to. -/
theorem head_filled {layout : Layout} (quoteFree : layout.Without '\'')
    (apart : form = .plain → ∀ stretch ∈ layout.stretches, stretch.text.toList.getLast? = some ' ') :
    (filled form layout).head? ≠ some '\'' := by
  have head (s : List Char) (free : '\'' ∉ s) : s.head? ≠ some '\'' :=
    fun same => free (List.mem_of_head? same)
  obtain ⟨stretches, last⟩ := layout
  cases stretches with
  | nil =>
    rw [filled_nil]
    exact head _ quoteFree.2
  | cons stretch rest =>
    rw [filled_cons]
    have free := head _ (quoteFree.1 stretch (by simp))
    cases shape : stretch.text.toList with
    | cons c s => simpa [shape] using free
    | nil =>
      cases form with
      | escape => simp [Form.opening]
      | plain => simpa [shape] using apart rfl stretch (by simp)

theorem scan_filled (standard : Bool) {layout : Layout} (quoteFree : layout.Without '\'')
    (apart : form = .plain → ∀ stretch ∈ layout.stretches, stretch.text.toList.getLast? = some ' ')
    (readable : form.escapes standard = true →
      form.doubles '\\' = true ∨ ∀ value ∈ layout.values, Text.Avoids '\\' value) :
    scan standard none (filled form layout) =
      some ⟨layout.segments.map String.toList, layout.values.map fun value => (form, value.toList)⟩ := by
  obtain ⟨stretches, last⟩ := layout
  induction stretches with
  | nil =>
    have copied := scan_outside standard last.toList [] quoteFree.2 (by simp)
    rw [filled_nil]
    simpa [scan, Scan.copy, Layout.segments, Layout.values] using copied
  | cons stretch rest ih =>
    have later : form = .plain → ∀ other ∈ rest, other.text.toList.getLast? = some ' ' :=
      fun plain other member => apart plain other (List.mem_cons_of_mem _ member)
    have others := ih quoteFree.tail later fun escapes =>
      (readable escapes).imp_right fun free value member => free value (List.mem_cons_of_mem _ member)
    have opened := scan_outside standard stretch.text.toList
      (form.opening ++ (double form.doubles stretch.value.toList ++ '\'' :: filled form ⟨rest, last⟩))
      (quoteFree.1 stretch (by simp)) fun ending => by
        cases form with
        | escape => simp [Form.opening]
        | plain => simp [apart rfl stretch (by simp)] at ending
    have closed := scan_literal standard form stretch.value.toList (filled form ⟨rest, last⟩)
      (head_filled quoteFree.tail later) fun escapes =>
        (readable escapes).imp_right fun free => free stretch.value (by simp [Layout.values])
    rw [filled_cons, opened, scan_opening, closed, others]
    simp [Scan.copy, Scan.enter, Scan.leave, Scan.read, Layout.segments, Layout.values]

theorem scan_escapedFill (standard : Bool) (layout : Layout) (quoteFree : layout.Without '\'') :
    scan standard none (escapedFill layout) =
      some ⟨layout.segments.map String.toList, layout.values.map fun value => (.escape, value.toList)⟩ := by
  have same : escapedFill layout = filled .escape layout := rfl
  rw [same]
  exact scan_filled standard quoteFree nofun fun _ => .inl rfl

end Literal

namespace Clauses

/-- The characters that a statement has of its own. -/
def alphabet : List Char :=
  [' ', '*', ',', '<', '=', '>', 'A', 'B', 'C', 'D', 'E', 'F', 'G', 'H', 'I', 'J', 'L', 'M', 'N', 'O', 'P', 'R', 'S',
    'T', 'U', 'W', 'Y']

variable {c : Char}

theorem avoids_fixed {text : String} (foreign : c ∉ alphabet) (inside : text.toList.all alphabet.contains = true) :
    Text.Avoids c text := by
  intro member
  have known := List.all_eq_true.mp inside c member
  exact foreign (by simpa using known)

theorem avoids_opening {clauses : Clauses} {table : String} (foreign : c ∉ alphabet)
    (absent : ∀ text ∈ clauses.suppliedTexts table, Text.Avoids c text) : Text.Avoids c (clauses.opening table) := by
  have columns : Text.Avoids c clauses.columns := by
    unfold Clauses.columns
    split
    · exact avoids_fixed foreign (by decide)
    · exact (avoids_fixed foreign (by decide)).intercalate fun text member => absent text (by simp [suppliedTexts, member])
  have joins : Text.Avoids c (String.join (clauses.joins.map Join.innerText)) := by
    apply Text.Avoids.join
    intro text member
    obtain ⟨join, member, rfl⟩ := List.mem_map.mp member
    have supplied (text : String) (side : text = join.table ∨ text = join.condition) : Text.Avoids c text :=
      absent text (by simp only [suppliedTexts, List.mem_append, List.mem_flatMap]; grind)
    have joinWord : Text.Avoids c " INNER JOIN " := avoids_fixed foreign (by decide)
    have onWord : Text.Avoids c " ON " := avoids_fixed foreign (by decide)
    simp [Join.innerText, joinWord, onWord, supplied]
  have selectWord : Text.Avoids c "SELECT " := avoids_fixed foreign (by decide)
  have fromWord : Text.Avoids c " FROM " := avoids_fixed foreign (by decide)
  have table : Text.Avoids c table := absent table (by simp [suppliedTexts])
  simp [opening, selectWord, columns, fromWord, table, joins]

theorem avoids_lead {clauses : Clauses} {table word : String} {condition : Condition} (foreign : c ∉ alphabet)
    (absent : ∀ text ∈ clauses.suppliedTexts table, Text.Avoids c text) (member : condition ∈ clauses.conditions)
    (keyword : Text.Avoids c word) : Text.Avoids c (condition.lead word) := by
  have blank : Text.Avoids c " " := avoids_fixed foreign (by decide)
  have operator : Text.Avoids c condition.operator.spelling :=
    avoids_fixed foreign (by cases condition.operator <;> decide)
  have field : Text.Avoids c condition.field := absent _ (by
    simp only [suppliedTexts, List.mem_append]
    exact .inl (.inl (.inr (List.mem_map_of_mem member))))
  simp [Condition.lead, blank, keyword, field, operator]

theorem avoids_closing {clauses : Clauses} {table : String} (foreign : c ∉ alphabet)
    (absent : ∀ text ∈ clauses.suppliedTexts table, Text.Avoids c text) : Text.Avoids c clauses.closing := by
  have comma : Text.Avoids c ", " := avoids_fixed foreign (by decide)
  have grouping : Text.Avoids c clauses.grouping := by
    unfold Clauses.grouping
    split
    · exact avoids_fixed foreign (by decide)
    · exact Text.avoids_append.mpr ⟨avoids_fixed foreign (by decide),
        comma.intercalate fun text member => absent text (by simp [suppliedTexts, member])⟩
  have ordering : Text.Avoids c clauses.ordering := by
    unfold Clauses.ordering
    split
    · exact avoids_fixed foreign (by decide)
    · refine Text.avoids_append.mpr ⟨avoids_fixed foreign (by decide), comma.intercalate ?_⟩
      intro text member
      obtain ⟨key, recorded, rfl⟩ := List.mem_map.mp member
      have field : Text.Avoids c key.field :=
        absent _ (by simp only [suppliedTexts, List.mem_append]; exact .inr (List.mem_map_of_mem recorded))
      have blank : Text.Avoids c " " := avoids_fixed foreign (by decide)
      have direction : Text.Avoids c key.direction.spelling :=
        avoids_fixed foreign (by cases key.direction <;> decide)
      simp [SortKey.render, field, blank, direction]
  simp [closing, grouping, ordering]

theorem layout_without {clauses : Clauses} {table : String} (foreign : c ∉ alphabet)
    (absent : ∀ text ∈ clauses.suppliedTexts table, Text.Avoids c text) : (clauses.layout table).Without c := by
  have opening := avoids_opening foreign absent
  have closing := avoids_closing foreign absent
  have lead {condition : Condition} {word : String} := @avoids_lead c clauses table word condition foreign absent
  unfold layout
  cases shape : clauses.conditions with
  | nil => exact ⟨by simp, by simp [opening, closing]⟩
  | cons first rest =>
    refine ⟨?_, closing⟩
    intro stretch member
    rcases List.mem_cons.mp member with rfl | member
    · have keyword : Text.Avoids c "WHERE" := avoids_fixed foreign (by decide)
      simp [opening, lead (shape ▸ List.mem_cons_self) keyword]
    · obtain ⟨condition, recorded, rfl⟩ := List.mem_map.mp member
      exact lead (shape ▸ List.mem_cons_of_mem _ recorded)
        (avoids_fixed foreign (by cases condition.conjunction <;> decide))

theorem layout_blank_before_value {clauses : Clauses} {table : String} {stretch : Stretch}
    (member : stretch ∈ (clauses.layout table).stretches) : stretch.text.toList.getLast? = some ' ' := by
  have lead (condition : Condition) (word : String) : (condition.lead word).toList.getLast? = some ' ' := by
    rw [Condition.lead, String.toList_append, show " ".toList = [' '] from rfl, List.getLast?_concat]
  unfold layout at member
  cases shape : clauses.conditions with
  | nil => simp [shape] at member
  | cons first rest =>
    simp only [shape, List.mem_cons] at member
    rcases member with rfl | member
    · simp [List.getLast?_append, lead]
    · obtain ⟨condition, _, rfl⟩ := List.mem_map.mp member
      exact lead condition _

theorem length_segments_layout (clauses : Clauses) (table : String) :
    (clauses.layout table).statement.segments.length = clauses.conditions.length + 1 := by
  have values := congrArg List.length (clauses.values_layout table)
  simp only [Layout.values, Clauses.values, List.length_map] at values
  simp [Layout.segments_statement, Layout.segments, values]

end Clauses

/-- Whatever the values are, a server reads each of them back from the literal it was put into, and around the literals
    it reads what was written around the markers. The blank before a literal makes its E a word of its own. -/
theorem scan_escaped_statement (table : String) (clauses : Clauses) (outerFree : clauses.OuterFree)
    (quoteFree : ∀ text ∈ clauses.suppliedTexts table, Text.Avoids '\'' text) :
    ∃ q, compile table clauses = .ok q ∧
      q.params = clauses.values ∧
      q.segments.length = clauses.conditions.length + 1 ∧
      q.fill (fun _ _ => "?") = q.sql ∧
      (∀ segment ∈ q.segments.dropLast, segment.toList.getLast? = some ' ') ∧
      ∀ standard, Literal.scan standard none q.escaped.toList =
        some ⟨q.segments.map String.toList, q.params.map fun value => (.escape, value.toList)⟩ := by
  have segments := Layout.segments_statement (clauses.layout table)
  refine ⟨(clauses.layout table).statement, compile_eq_layout table clauses outerFree, clauses.values_layout table,
    clauses.length_segments_layout table, Layout.fill_statement _ _, ?_, ?_⟩
  · intro segment member
    rw [segments, Layout.segments, List.dropLast_concat] at member
    obtain ⟨stretch, recorded, rfl⟩ := List.mem_map.mp member
    exact Clauses.layout_blank_before_value recorded
  · intro standard
    have escaped : (clauses.layout table).statement.escaped.toList = Literal.escapedFill (clauses.layout table) := by
      rw [Statement.escaped, Layout.fill_statement, Literal.escapedFill]
    rw [escaped, segments, Layout.statement_params]
    exact Literal.scan_escapedFill standard _ (Clauses.layout_without (by decide) quoteFree)

def hostileValues : Clauses where
  selects := ["name"]
  conditions := [⟨"a", .eq, .and, "\\' OR 1=1 --"⟩, ⟨"b", .ne, .or, "'''\\"⟩, ⟨"c", .lt, .and, "E'"⟩]

theorem scan_escaped_statement_hostileValues :
    hostileValues.OuterFree ∧ (∀ text ∈ hostileValues.suppliedTexts "users", Text.Avoids '\'' text) ∧
      ∃ q, compile "users" hostileValues = .ok q ∧ ∀ standard, Literal.scan standard none q.escaped.toList =
        some ⟨["SELECT name FROM users WHERE a = ".toList, " OR b <> ".toList, " AND c < ".toList, []],
          [(.escape, "\\' OR 1=1 --".toList), (.escape, "'''\\".toList), (.escape, "E'".toList)]⟩ := by
  have quoteFree : ∀ text ∈ hostileValues.suppliedTexts "users", Text.Avoids '\'' text := by
    simp [hostileValues, Clauses.suppliedTexts, Text.Avoids]
  obtain ⟨q, compiled, params, _, _, _, scanned⟩ := scan_escaped_statement "users" hostileValues (by decide) quoteFree
  have laid := compile_eq_layout "users" hostileValues (by decide)
  rw [compiled, Except.ok.injEq] at laid
  refine ⟨by decide, quoteFree, q, compiled, fun standard => ?_⟩
  rw [scanned standard, params, laid, Layout.segments_statement]
  decide

/-- Plain literals read back too, always where the server keeps to standard strings, and elsewhere as long as no value
    has a backslash. A server that also knows escape literals finds none, since a blank stands before each quote. -/
theorem scan_inlined_statement (table : String) (clauses : Clauses) (outerFree : clauses.OuterFree)
    (quoteFree : ∀ text ∈ clauses.suppliedTexts table, Text.Avoids '\'' text) :
    ∃ q, compile table clauses = .ok q ∧
      q.params = clauses.values ∧
      q.segments.length = clauses.conditions.length + 1 ∧
      q.fill (fun _ _ => "?") = q.sql ∧
      ∀ standard, (standard = false → ∀ value ∈ q.params, Text.Avoids '\\' value) →
        let found : Literal.Scan := ⟨q.segments.map String.toList, q.params.map fun value => (.plain, value.toList)⟩
        Literal.scanQuotes standard false q.inlined.toList = some found ∧
          Literal.scan standard none q.inlined.toList = some found := by
  refine ⟨(clauses.layout table).statement, compile_eq_layout table clauses outerFree, clauses.values_layout table,
    clauses.length_segments_layout table, Layout.fill_statement _ _, ?_⟩
  intro standard backslashFree found
  have inlined : (clauses.layout table).statement.inlined.toList = Literal.filled .plain (clauses.layout table) := by
    rw [Statement.inlined, Layout.fill_statement]
    rfl
  have scanned : Literal.scan standard none (clauses.layout table).statement.inlined.toList = some found := by
    have unescaped (escapes : Literal.Form.plain.escapes standard = true) : standard = false := by
      simpa [Literal.Form.escapes] using escapes
    have filled : Literal.scan standard none (Literal.filled .plain (clauses.layout table)) = _ :=
      Literal.scan_filled standard (Clauses.layout_without (by decide) quoteFree)
        (fun _ _ => Clauses.layout_blank_before_value) fun escapes => .inr (backslashFree (unescaped escapes))
    rw [inlined, filled, ← Layout.segments_statement]
    rfl
  have plain : ∀ form ∈ found.forms, form = .plain := by
    intro form member
    simp only [found, Literal.Scan.forms, List.map_map, List.mem_map] at member
    obtain ⟨value, -, rfl⟩ := member
    rfl
  exact ⟨Literal.scanQuotes_of_scan scanned plain (by simp), scanned⟩

def quoteRuns : Clauses where
  selects := ["E"]
  conditions := [⟨"E", .eq, .and, "''"⟩, ⟨"b\\", .ne, .or, "'x'''"⟩, ⟨"c", .lt, .and, ""⟩]
  groups := ["E"]

theorem scan_inlined_statement_quoteRuns :
    quoteRuns.OuterFree ∧ (∀ text ∈ quoteRuns.suppliedTexts "E", Text.Avoids '\'' text) ∧
      (∀ value ∈ quoteRuns.values, Text.Avoids '\\' value) ∧
      ∃ q, compile "E" quoteRuns = .ok q ∧ ∀ standard, Literal.scanQuotes standard false q.inlined.toList =
        some ⟨["SELECT E FROM E WHERE E = ".toList, " OR b\\ <> ".toList, " AND c < ".toList, " GROUP BY E".toList],
          [(.plain, "''".toList), (.plain, "'x'''".toList), (.plain, [])]⟩ := by
  have quoteFree : ∀ text ∈ quoteRuns.suppliedTexts "E", Text.Avoids '\'' text := by
    simp [quoteRuns, Clauses.suppliedTexts, Text.Avoids]
  have backslashFree : ∀ value ∈ quoteRuns.values, Text.Avoids '\\' value := by
    simp [quoteRuns, Clauses.values, Text.Avoids]
  obtain ⟨q, compiled, params, _, _, scanned⟩ := scan_inlined_statement "E" quoteRuns (by decide) quoteFree
  have laid := compile_eq_layout "E" quoteRuns (by decide)
  rw [compiled, Except.ok.injEq] at laid
  refine ⟨by decide, quoteFree, backslashFree, q, compiled, fun standard => ?_⟩
  rw [(scanned standard fun _ => params ▸ backslashFree).1, params, laid, Layout.segments_statement]
  decide

/-- A lone backslash keeps the literal open on a server that gives it a meaning. -/
example : Literal.scanQuotes false false (Literal.plain "\\").toList = none := by decide

end SqlSelect
