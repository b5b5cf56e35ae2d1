import SqlSelect.Builder

namespace SqlSelect.Builder

theorem take_eq (b : Builder) (reset : Bool) :
    b.take reset = b.compile.map fun statement =>
      { statement
        event := .dispatching b.config.logLevel b.table statement.params.length reset
          (Text.truncate b.config.maxSqlLength statement.sql)
        builder := if reset then b.reset else b } := by
  cases compiled : b.compile <;> simp only [take, compiled, Bind.bind, Except.bind, Pure.pure, Except.pure, Except.map]

theorem take_error {b : Builder} {reset : Bool} {error : Error} (failed : b.take reset = .error error) :
    b.compile = .error error := by
  rw [take_eq] at failed
  cases compiled : b.compile <;> simp_all [Except.map]

theorem take_ok {b : Builder} {reset : Bool} {taken : Taken} (took : b.take reset = .ok taken) :
    b.compile = .ok taken.statement ∧ taken.builder = (if reset then b.reset else b) ∧
      taken.event = .dispatching b.config.logLevel b.table taken.statement.params.length reset
        (Text.truncate b.config.maxSqlLength taken.statement.sql) := by
  rw [take_eq] at took
  cases compiled : b.compile with
  | error error => simp [compiled, Except.map] at took
  | ok statement =>
    simp only [compiled, Except.map, Except.ok.injEq] at took
    subst took
    exact ⟨rfl, rfl, rfl⟩

end SqlSelect.Builder
