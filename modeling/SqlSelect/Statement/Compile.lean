import SqlSelect.Clause.Basic
import SqlSelect.Error
import SqlSelect.Statement.Basic

namespace SqlSelect

/-- There is a rendering for inner joins only. -/
def Join.render (join : Join) : Except Error String :=
  match join.kind with
  | .inner => .ok (" INNER JOIN " ++ join.table ++ " ON " ++ join.condition)
  | .outer => .error (.unsupportedJoin join.table join.kind)

def SortKey.render (key : SortKey) : String :=
  key.field ++ " " ++ key.direction.spelling

namespace Clauses

/-- The column list; without any fragment it is a star. -/
def columns (clauses : Clauses) : String :=
  if clauses.selects.isEmpty then "*" else ", ".intercalate clauses.selects

def grouping (clauses : Clauses) : String :=
  if clauses.groups.isEmpty then "" else " GROUP BY " ++ ", ".intercalate clauses.groups

def ordering (clauses : Clauses) : String :=
  if clauses.sortKeys.isEmpty then "" else " ORDER BY " ++ ", ".intercalate (clauses.sortKeys.map SortKey.render)

end Clauses

namespace Statement

/-- Appends a condition after the word that leads in to it. -/
def appendCondition (q : Statement) (lead : String) (condition : Condition) : Statement :=
  (q.append (" " ++ lead ++ " " ++ condition.field ++ " " ++ condition.operator.spelling ++ " ")).bindValue
    condition.value

/-- The first condition follows WHERE, each later one its own conjunction. -/
def appendConditions (q : Statement) : List Condition → Statement
  | [] => q
  | first :: rest =>
    rest.foldl (fun q condition => q.appendCondition condition.conjunction.spelling condition)
      (q.appendCondition "WHERE" first)

end Statement

/-- Renders the clauses for a table, always in the order SELECT, FROM, joins, WHERE, GROUP BY, ORDER BY. The first
    join without a rendering decides the error. -/
def compile (table : String) (clauses : Clauses) : Except Error Statement := do
  let joins ← clauses.joins.mapM Join.render
  let source := Statement.ofText ("SELECT " ++ clauses.columns ++ " FROM " ++ table ++ String.join joins)
  pure ((source.appendConditions clauses.conditions).append (clauses.grouping ++ clauses.ordering))

end SqlSelect
