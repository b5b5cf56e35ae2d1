import SqlSelect.Keyword

namespace SqlSelect

/-- A WHERE condition together with the value bound to it. The conjunction of the first condition has no meaning. -/
structure Condition where
  field : String
  operator : Operator
  conjunction : Conjunction
  value : String
deriving DecidableEq, Repr

structure Join where
  table : String
  condition : String
  kind : JoinKind
deriving DecidableEq, Repr

structure SortKey where
  field : String
  direction : Direction
deriving DecidableEq, Repr

/-- The clauses of one SELECT statement, each kind in the order of its calls. A value belongs to its condition, so
    values and markers cannot come apart when a field is used twice. -/
structure Clauses where
  selects : List String := []
  conditions : List Condition := []
  joins : List Join := []
  sortKeys : List SortKey := []
  groups : List String := []
deriving DecidableEq, Repr

namespace Clauses

def values (clauses : Clauses) : List String :=
  clauses.conditions.map Condition.value

def isEmpty (clauses : Clauses) : Bool :=
  clauses.selects.isEmpty && clauses.conditions.isEmpty && clauses.joins.isEmpty && clauses.sortKeys.isEmpty &&
    clauses.groups.isEmpty

/-- How many clauses there are of each kind: selects, conditions, joins, sort keys, groups. -/
def counts (clauses : Clauses) : List Nat :=
  [clauses.selects.length, clauses.conditions.length, clauses.joins.length, clauses.sortKeys.length,
    clauses.groups.length]

/-- The entries beyond as many as `earlier` has of each kind. -/
def beyond (clauses earlier : Clauses) : Clauses where
  selects := clauses.selects.drop earlier.selects.length
  conditions := clauses.conditions.drop earlier.conditions.length
  joins := clauses.joins.drop earlier.joins.length
  sortKeys := clauses.sortKeys.drop earlier.sortKeys.length
  groups := clauses.groups.drop earlier.groups.length

end Clauses

end SqlSelect
