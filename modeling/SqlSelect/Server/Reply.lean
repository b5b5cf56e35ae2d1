import SqlSelect.Error

namespace SqlSelect

/-- A message that a server sends in answer to a statement. -/
inductive Message where
  /-- The column names of the rows that follow. -/
  | columns (names : List String)
  | row (values : List (Option String))
  | complete
  | emptyQuery
  | notice
  | error
deriving DecidableEq, Repr

/-- The messages in answer to one statement, which may hold several result sets. -/
abbrev Reply := List Message

structure Row where
  columns : List String
  values : List (Option String)
deriving DecidableEq, Repr

end SqlSelect
