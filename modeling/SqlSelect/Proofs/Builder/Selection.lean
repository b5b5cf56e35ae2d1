import SqlSelect.Proofs.Session.Reachable

namespace SqlSelect

theorem Clauses.fragments_columns {clauses : Clauses} (each : ∀ text ∈ clauses.selects, IsFragment text) :
    fragments clauses.columns = if clauses.selects = [] then ["*"] else clauses.selects := by
  by_cases empty : clauses.selects = []
  · rw [if_pos empty, columns, empty]
    decide
  · simpa [columns, empty] using fragments_intercalate each

/-- The column list stands between SELECT and FROM. -/
theorem sql_of_compile {table : String} {clauses : Clauses} {q : Statement} (compiled : compile table clauses = .ok q) :
    ∃ rest, q.sql = "SELECT " ++ clauses.columns ++ " FROM " ++ table ++ rest := by
  rw [compile_eq_layout table clauses (outerFree_of_compile compiled)] at compiled
  have marked : q.sql = clauses.render table fun _ _ => "?" := by
    rw [← Except.ok.inj compiled]
    exact clauses.fill_layout table fun _ _ => "?"
  rw [marked, Clauses.render_eq, Clauses.opening]
  simp only [String.append_assoc, String.append_right_inj]
  exact ⟨_, rfl⟩

theorem compile_selects (table : String) (selects : List String) :
    ∃ q, compile table { selects } = .ok q ∧
      q.sql = "SELECT " ++ ({ selects } : Clauses).columns ++ " FROM " ++ table := by
  refine ⟨_, compile_eq_layout table { selects } (by simp [Clauses.OuterFree]), ?_⟩
  simp [Clauses.layout, Layout.markedText, Layout.fill, Clauses.opening, Clauses.closing, Clauses.grouping,
    Clauses.ordering]

/-- Selecting cuts a list at its commas, call by call or at once, and takes only commas and blanks away. The column list
    of a builder is in this form already, so selecting it anew changes nothing. -/
theorem select_normalizes (s : Session) (fresh : ∀ b ∈ s.builders, b.clauses = {}) (steps : List Step) :
    (∀ (b : Builder) first second, (b.apply (.select first)).bind (·.apply (.select second)) =
      b.apply (.select (first ++ "," ++ second))) ∧
    (∀ (b : Builder) fields, ∃ added,
      b.apply (.select fields) = .ok (b.modify fun clauses => { clauses with selects := clauses.selects ++ added }) ∧
        (added.flatMap String.toList).filter Text.isContent = fields.toList.filter Text.isContent) ∧
    ∀ b ∈ (s.runSteps steps).1.builders,
      (∀ text ∈ b.clauses.selects, IsFragment text) ∧
      (∀ q, b.compile = .ok q → ∃ rest, q.sql = "SELECT " ++ b.clauses.columns ++ " FROM " ++ b.table ++ rest) ∧
      ∀ empty : Builder, empty.clauses = {} → ∃ again q, empty.apply (.select b.clauses.columns) = .ok again ∧
        again.clauses.columns = b.clauses.columns ∧ again.compile = .ok q ∧
        q.sql = "SELECT " ++ b.clauses.columns ++ " FROM " ++ empty.table ∧
        (b.clauses.selects ≠ [] → again.clauses.selects = b.clauses.selects) := by
  refine ⟨?_, fun b fields => ⟨_, rfl, content_fragments fields⟩, ?_⟩
  · intro b first second
    simp [Builder.apply, Builder.modify, Except.bind, fragments_append]
  · intro b member
    have began : ∀ b ∈ s.builders, b.clauses.WellFormed := fun b member => fresh b member ▸ Clauses.wellFormed_empty
    have each := (Session.wellFormed_runSteps began steps b member).fragments
    refine ⟨each, fun q => sql_of_compile, ?_⟩
    intro empty nothing
    obtain ⟨table, clauses, config⟩ := empty
    obtain rfl : clauses = {} := nothing
    let selects := fragments b.clauses.columns
    have columns : ({ selects } : Clauses).columns = b.clauses.columns := by
      simp only [selects, Clauses.fragments_columns each]
      by_cases none : b.clauses.selects = [] <;> simp [Clauses.columns, none]
    obtain ⟨q, compiled, sql⟩ := compile_selects table selects
    rw [columns] at sql
    refine ⟨⟨table, { selects }, config⟩, q, rfl, columns, compiled, sql, fun some => ?_⟩
    exact (Clauses.fragments_columns each).trans (if_neg some)

def blankParts : List Step :=
  [⟨0, .call (.ok (.select " a ,, \u3000b c,"))⟩, ⟨0, .call (.ok (.select "\u00a0,*"))⟩]

theorem select_normalizes_blankParts :
    let s : Session := { builders := [{ table := "t" }], executor := .echo none }
    let b : Builder := { table := "t", clauses := { selects := ["a", "b c", "*"] } }
    (∀ b ∈ s.builders, b.clauses = {}) ∧ b ∈ (s.runSteps blankParts).1.builders ∧
      ∃ again, Builder.apply { table := "u" } (.select "a, b c, *") = .ok again ∧
        again.clauses.selects = ["a", "b c", "*"] := by
  intro s b
  have fresh : ∀ b ∈ s.builders, b.clauses = {} := by decide
  have reached : b ∈ (s.runSteps blankParts).1.builders := by decide
  obtain ⟨-, -, normal⟩ := select_normalizes s fresh blankParts
  obtain ⟨-, -, anew⟩ := normal b reached
  obtain ⟨again, -, applied, -, -, -, same⟩ := anew { table := "u" } rfl
  exact ⟨fresh, reached, again, applied, same (List.cons_ne_nil _ _)⟩

end SqlSelect
