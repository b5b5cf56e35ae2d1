import SqlSelect.Proofs.Statement.Layout
import SqlSelect.Proofs.Text.Occurrence
import SqlSelect.Statement.Compile

namespace SqlSelect

def Join.innerText (join : Join) : String :=
  " INNER JOIN " ++ join.table ++ " ON " ++ join.condition

/-- The text of a condition up to its marker, after the word that leads in to it. -/
def Condition.lead (condition : Condition) (word : String) : String :=
  " " ++ word ++ " " ++ condition.field ++ " " ++ condition.operator.spelling ++ " "

/-- The text of the condition at an index, with a filling in the place of its value. -/
def Condition.written (condition : Condition) (index : Nat) (filling : String) : String :=
  (if index = 0 then " WHERE " else " " ++ condition.conjunction.spelling ++ " ") ++
    condition.field ++ " " ++ condition.operator.spelling ++ " " ++ filling

def Condition.further (condition : Condition) : Stretch where
  text := condition.lead condition.conjunction.spelling
  value := condition.value

namespace Clauses

def OuterFree (clauses : Clauses) : Prop :=
  ∀ join ∈ clauses.joins, join.kind = .inner

instance (clauses : Clauses) : Decidable clauses.OuterFree :=
  inferInstanceAs (Decidable (∀ join ∈ clauses.joins, join.kind = .inner))

/-- The join that compiling refuses: the first one that has no rendering. -/
def refusedJoin? (clauses : Clauses) : Option Join :=
  clauses.joins.find? fun join => join.kind == .outer

theorem refusedJoin?_eq_none_iff (clauses : Clauses) : clauses.refusedJoin? = none ↔ clauses.OuterFree := by
  simp only [refusedJoin?, List.find?_eq_none, OuterFree]
  refine forall₂_congr fun join _ => ?_
  cases join.kind <;> simp

/-- The error that compiling ends with; it names the refused join. -/
def Refuses (clauses : Clauses) (error : Error) : Prop :=
  ∃ join, clauses.refusedJoin? = some join ∧ error = .unsupportedJoin join.table .outer

theorem exists_refuses_iff (clauses : Clauses) :
    (∃ error, clauses.Refuses error) ↔ ∃ join ∈ clauses.joins, join.kind = .outer := by
  simp only [Refuses, exists_comm (α := Error), exists_and_left, exists_eq, and_true]
  rw [← Option.isSome_iff_exists, refusedJoin?, List.find?_isSome]
  simp

/-- All text that callers put into a statement besides the values, in the order of the rendering. -/
def suppliedTexts (clauses : Clauses) (table : String) : List String :=
  clauses.selects ++ [table] ++ clauses.joins.flatMap (fun join => [join.table, join.condition]) ++
    clauses.conditions.map Condition.field ++ clauses.groups ++ clauses.sortKeys.map SortKey.field

/-- The statement written down from left to right, with what `slot` makes of the index and the value of each condition
    in the place of the value. -/
def render (clauses : Clauses) (table : String) (slot : Nat → String → String) : String :=
  "SELECT " ++ (if clauses.selects = [] then "*" else ", ".intercalate clauses.selects) ++
    " FROM " ++ table ++
    String.join (clauses.joins.map fun join => " INNER JOIN " ++ join.table ++ " ON " ++ join.condition) ++
    String.join (clauses.conditions.mapIdx fun index condition =>
      condition.written index (slot index condition.value)) ++
    (if clauses.groups = [] then "" else " GROUP BY " ++ ", ".intercalate clauses.groups) ++
    (if clauses.sortKeys = [] then ""
      else " ORDER BY " ++ ", ".intercalate
        (clauses.sortKeys.map fun key => key.field ++ " " ++ key.direction.spelling))

def opening (clauses : Clauses) (table : String) : String :=
  "SELECT " ++ clauses.columns ++ " FROM " ++ table ++ String.join (clauses.joins.map Join.innerText)

def closing (clauses : Clauses) : String :=
  clauses.grouping ++ clauses.ordering

def layout (clauses : Clauses) (table : String) : Layout :=
  match clauses.conditions with
  | [] => ⟨[], clauses.opening table ++ clauses.closing⟩
  | first :: rest =>
    ⟨⟨clauses.opening table ++ first.lead "WHERE", first.value⟩ :: rest.map Condition.further, clauses.closing⟩

theorem values_layout (clauses : Clauses) (table : String) : (clauses.layout table).values = clauses.values := by
  unfold layout values Layout.values
  cases clauses.conditions with
  | nil => rfl
  | cons first rest => simp [Condition.further]

end Clauses

theorem Join.mapM_render (joins : List Join) :
    joins.mapM Join.render = (joins.find? fun join => join.kind == .outer).elim (.ok (joins.map Join.innerText))
      fun join => .error (.unsupportedJoin join.table .outer) := by
  induction joins with
  | nil => rfl
  | cons join rest ih =>
    obtain ⟨table, condition, kind⟩ := join
    cases kind with
    | outer => rfl
    | inner =>
      have inner : Join.render ⟨table, condition, .inner⟩ = .ok (Join.innerText ⟨table, condition, .inner⟩) := rfl
      have skipped : (⟨table, condition, .inner⟩ :: rest).find? (fun join => join.kind == .outer) =
          rest.find? fun join => join.kind == .outer := rfl
      rw [List.mapM_cons, inner, ih, skipped]
      cases rest.find? fun join => join.kind == .outer <;> rfl

namespace Layout

theorem statement_appendCondition (layout : Layout) (word : String) (condition : Condition) :
    layout.statement.appendCondition word condition =
      (Layout.mk (layout.stretches ++ [⟨layout.last ++ condition.lead word, condition.value⟩]) "").statement := by
  rw [Statement.appendCondition, statement_append, statement_bindValue]
  rfl

theorem statement_further (stretches : List Stretch) (rest : List Condition) :
    rest.foldl (fun q condition => q.appendCondition condition.conjunction.spelling condition)
      (Layout.mk stretches "").statement = (Layout.mk (stretches ++ rest.map Condition.further) "").statement := by
  induction rest generalizing stretches with
  | nil => simp
  | cons condition rest ih =>
    rw [List.foldl_cons, statement_appendCondition, ih]
    simp [Condition.further]

end Layout

theorem compile_eq (table : String) (clauses : Clauses) :
    compile table clauses = clauses.refusedJoin?.elim (.ok (clauses.layout table).statement)
      fun join => .error (.unsupportedJoin join.table .outer) := by
  have joins := Join.mapM_render clauses.joins
  have source : Statement.ofText ("SELECT " ++ clauses.columns ++ " FROM " ++ table ++
      String.join (clauses.joins.map Join.innerText)) = (Layout.ofText (clauses.opening table)).statement :=
    Layout.statement_ofText _
  simp only [compile, joins, Clauses.refusedJoin?]
  cases clauses.joins.find? fun join => join.kind == .outer with
  | some join => rfl
  | none =>
    simp only [Option.elim_none, Bind.bind, Except.bind, Pure.pure, Except.pure, Except.ok.injEq, source]
    unfold Clauses.layout
    cases clauses.conditions with
    | nil => rw [Statement.appendConditions, Layout.statement_append]; rfl
    | cons first rest =>
      rw [Statement.appendConditions, Layout.statement_appendCondition, Layout.statement_further,
        Layout.statement_append]
      simp [Layout.append, Layout.ofText, Clauses.closing]

theorem compile_eq_layout (table : String) (clauses : Clauses) (outerFree : clauses.OuterFree) :
    compile table clauses = .ok (clauses.layout table).statement := by
  rw [compile_eq, clauses.refusedJoin?_eq_none_iff.mpr outerFree, Option.elim_none]

theorem compile_error_iff {table : String} {clauses : Clauses} {error : Error} :
    compile table clauses = .error error ↔ clauses.Refuses error := by
  rw [compile_eq, Clauses.Refuses]
  cases clauses.refusedJoin? with
  | none => simp
  | some join => simp [eq_comm]

theorem outerFree_of_compile {table : String} {clauses : Clauses} {q : Statement}
    (compiled : compile table clauses = .ok q) : clauses.OuterFree := by
  rw [← Clauses.refusedJoin?_eq_none_iff]
  rw [compile_eq] at compiled
  cases refused : clauses.refusedJoin? with
  | none => rfl
  | some join => simp [refused] at compiled

theorem params_of_compile {table : String} {clauses : Clauses} {q : Statement}
    (compiled : compile table clauses = .ok q) : q.params = clauses.values := by
  rw [compile_eq_layout table clauses (outerFree_of_compile compiled)] at compiled
  rw [← Except.ok.inj compiled, Layout.statement_params, Clauses.values_layout]

namespace Clauses

theorem render_eq (clauses : Clauses) (table : String) (slot : Nat → String → String) :
    clauses.render table slot = clauses.opening table ++
      String.join (clauses.conditions.mapIdx fun index condition =>
        condition.written index (slot index condition.value)) ++ clauses.closing := by
  have columns : clauses.columns = if clauses.selects = [] then "*" else ", ".intercalate clauses.selects := by
    simp [Clauses.columns]
  have grouping : clauses.grouping =
      if clauses.groups = [] then "" else " GROUP BY " ++ ", ".intercalate clauses.groups := by
    simp [Clauses.grouping]
  have ordering : clauses.ordering = if clauses.sortKeys = [] then "" else
      " ORDER BY " ++ ", ".intercalate (clauses.sortKeys.map fun key => key.field ++ " " ++ key.direction.spelling) := by
    simp only [Clauses.ordering, List.isEmpty_iff]
    rfl
  simp only [opening, closing, columns, grouping, ordering, ← String.append_assoc]
  rfl

theorem fill_layout (clauses : Clauses) (table : String) (slot : Nat → String → String) :
    (clauses.layout table).fill slot = clauses.render table slot := by
  rw [render_eq]
  unfold layout
  cases clauses.conditions with
  | nil => simp [Layout.fill]
  | cons first rest =>
    have others : ((rest.map Condition.further).mapIdx fun index stretch =>
        stretch.text ++ slot (index + 1) stretch.value) =
          rest.mapIdx fun index condition => condition.written (index + 1) (slot (index + 1) condition.value) :=
      List.ext_getElem (by simp) fun index _ _ => by
        simp [Condition.further, Condition.lead, Condition.written]
    simp [Layout.fill, Condition.lead, Condition.written, others, String.append_assoc]

/-- What callers put in stands in the statement unchanged, whatever takes the place of the values. -/
theorem within_render {clauses : Clauses} {table text : String} (supplied : text ∈ clauses.suppliedTexts table)
    (slot : Nat → String → String) : Text.Within text (clauses.render table slot) := by
  -- The statement is the join of its sections, and each supplied text belongs to one of them.
  have section_within {stretch : String} (member : stretch ∈ ["SELECT ", clauses.columns, " FROM ", table,
      String.join (clauses.joins.map Join.innerText), String.join (clauses.conditions.mapIdx fun index condition =>
        condition.written index (slot index condition.value)), clauses.grouping, clauses.ordering]) :
      Text.Within stretch (clauses.render table slot) := by
    have whole := Text.Within.join member
    simpa only [render_eq, opening, closing, String.join_cons, String.join_nil, String.append_empty,
      String.append_assoc] using whole
  simp only [suppliedTexts, List.mem_append, List.mem_singleton, List.mem_flatMap, List.mem_map] at supplied
  rcases supplied with ((((select | rfl) | ⟨join, member, text_eq⟩) | ⟨condition, member, rfl⟩) | group) |
    ⟨key, member, rfl⟩
  · have listed := Text.Within.intercalate ", " select
    have columns : clauses.columns = ", ".intercalate clauses.selects := by
      simp [Clauses.columns, List.ne_nil_of_mem select]
    exact (columns ▸ listed).trans (section_within (by simp))
  · exact section_within (by simp)
  · have joined : Text.Within join.innerText (String.join (clauses.joins.map Join.innerText)) :=
      .join (List.mem_map_of_mem member)
    have inside : Text.Within text join.innerText := by
      have pieces : text ∈ [" INNER JOIN ", join.table, " ON ", join.condition] := by
        simp only [List.mem_cons, List.not_mem_nil, or_false] at text_eq
        rcases text_eq with rfl | rfl <;> simp
      simpa [Join.innerText, String.append_assoc] using Text.Within.join pieces
    exact (inside.trans joined).trans (section_within (by simp))
  · obtain ⟨index, bound, here⟩ := List.getElem_of_mem member
    have inside : Text.Within condition.field (condition.written index (slot index condition.value)) := by
      simp only [Condition.written, String.append_assoc]
      exact (Text.Within.left _ _).append_left _
    have joined : Text.Within (condition.written index (slot index condition.value))
        (String.join (clauses.conditions.mapIdx fun index condition =>
          condition.written index (slot index condition.value))) :=
      .join (List.mem_mapIdx.mpr ⟨index, bound, by rw [here]⟩)
    exact (inside.trans joined).trans (section_within (by simp))
  · have listed := (Text.Within.intercalate ", " group).append_left " GROUP BY "
    have grouping : clauses.grouping = " GROUP BY " ++ ", ".intercalate clauses.groups := by
      simp [Clauses.grouping, List.ne_nil_of_mem group]
    exact (grouping ▸ listed).trans (section_within (by simp))
  · have rendered : Text.Within key.field key.render := by
      rw [SortKey.render, String.append_assoc]
      exact .left _ _
    have listed := (Text.Within.intercalate ", " (List.mem_map_of_mem (f := SortKey.render) member)).append_left
      " ORDER BY "
    have ordering : clauses.ordering = " ORDER BY " ++ ", ".intercalate (clauses.sortKeys.map SortKey.render) := by
      simp [Clauses.ordering, List.ne_nil_of_mem member]
    exact (rendered.trans (ordering ▸ listed)).trans (section_within (by simp))

end Clauses

/-- Compiling always succeeds without outer joins, and each of the four texts is the same rendering with other
    fillings. What callers supply is in all of them as it was, however many question marks it holds. -/
theorem compiled_texts_eq_render (table : String) (clauses : Clauses) (outerFree : clauses.OuterFree) :
    ∃ q, compile table clauses = .ok q ∧
      q.sql = clauses.render table (fun _ _ => "?") ∧
      q.numbered = clauses.render table (fun index _ => "$" ++ toString (index + 1)) ∧
      q.inlined = clauses.render table (fun _ value => Literal.plain value) ∧
      q.escaped = clauses.render table (fun _ value => Literal.escaped value) ∧
      ∀ supplied ∈ clauses.suppliedTexts table, ∀ text ∈ [q.sql, q.numbered, q.inlined, q.escaped],
        Text.Within supplied text := by
  have filled (slot : Nat → String → String) :
      (clauses.layout table).statement.fill slot = clauses.render table slot := by
    rw [Layout.fill_statement, Clauses.fill_layout]
  have marked : (clauses.layout table).statement.sql = clauses.render table fun _ _ => "?" :=
    clauses.fill_layout table fun _ _ => "?"
  refine ⟨(clauses.layout table).statement, compile_eq_layout table clauses outerFree, marked, filled _, filled _,
    filled _, ?_⟩
  intro supplied member text rendering
  simp only [Statement.numbered, Statement.inlined, Statement.escaped, marked, filled, List.mem_cons,
    List.not_mem_nil, or_false] at rendering
  rcases rendering with rfl | rfl | rfl | rfl <;> exact Clauses.within_render member _

def markedFragments : Clauses where
  selects := ["'?' AS é"]
  joins := [⟨"r?", "r.id = ?", .inner⟩]
  conditions := [⟨"a", .eq, .or, "O'\\"⟩, ⟨"日?", .ne, .or, "?"⟩]
  groups := ["g\x00?"]
  sortKeys := [⟨"x", .desc⟩]

theorem compiled_texts_eq_render_markedFragments :
    markedFragments.OuterFree ∧ ∃ q, compile "t" markedFragments = .ok q ∧
      q.sql =
        "SELECT '?' AS é FROM t INNER JOIN r? ON r.id = ? WHERE a = ? OR 日? <> ? GROUP BY g\x00? ORDER BY x DESC" ∧
      q.numbered =
        "SELECT '?' AS é FROM t INNER JOIN r? ON r.id = ? WHERE a = $1 OR 日? <> $2 GROUP BY g\x00? ORDER BY x DESC" ∧
      q.escaped = "SELECT '?' AS é FROM t INNER JOIN r? ON r.id = ? WHERE a = E'O''\\\\' OR 日? <> E'?'" ++
        " GROUP BY g\x00? ORDER BY x DESC" := by
  obtain ⟨q, compiled, sql, numbered, _, escaped, _⟩ := compiled_texts_eq_render "t" markedFragments (by decide)
  exact ⟨by decide, q, compiled, sql.trans (by decide), numbered.trans (by decide), escaped.trans (by decide)⟩

end SqlSelect
