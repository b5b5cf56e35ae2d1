import SqlSelect.Clause.Basic
import SqlSelect.Text.Letters

namespace SqlSelect

/-- How an operator is written in a record. An operator is named by a word, so each has its own entry here. -/
def Operator.serialized : Operator → String
  | eq => "="
  | gt => ">"
  | lt => "<"
  | ge => ">="
  | le => "<="
  | ne => "<>"

/-- The name that a conjunction is declared under. -/
def Conjunction.name : Conjunction → String
  | and => "And"
  | or => "Or"

def JoinKind.name : JoinKind → String
  | inner => "Inner"
  | outer => "Outer"

def Direction.name : Direction → String
  | asc => "Asc"
  | desc => "Desc"

/-- In a record a word stands under its name in capitals. -/
def Conjunction.serialized (conjunction : Conjunction) : String :=
  Text.upper conjunction.name

def JoinKind.serialized (kind : JoinKind) : String :=
  Text.upper kind.name

def Direction.serialized (direction : Direction) : String :=
  Text.upper direction.name

theorem Operator.serialized_eq (operator : Operator) : operator.serialized = operator.spelling := by
  cases operator <;> rfl

theorem Conjunction.serialized_eq (conjunction : Conjunction) : conjunction.serialized = conjunction.spelling := by
  cases conjunction <;> rfl

theorem JoinKind.serialized_eq (kind : JoinKind) : kind.serialized = kind.spelling := by
  cases kind <;> rfl

theorem Direction.serialized_eq (direction : Direction) : direction.serialized = direction.spelling := by
  cases direction <;> rfl

structure ConditionRecord where
  field : String
  operator : String
  conjunction : String
  value : String
deriving DecidableEq, Repr

structure JoinRecord where
  table : String
  condition : String
  kind : String
deriving DecidableEq, Repr

structure SortKeyRecord where
  field : String
  direction : String
deriving DecidableEq, Repr

/-- The clauses in writing: every part is text. -/
structure ClauseRecord where
  selects : List String
  conditions : List ConditionRecord
  joins : List JoinRecord
  sortKeys : List SortKeyRecord
  groups : List String
deriving DecidableEq, Repr

def Condition.record (condition : Condition) : ConditionRecord where
  field := condition.field
  operator := condition.operator.serialized
  conjunction := condition.conjunction.serialized
  value := condition.value

def Join.record (join : Join) : JoinRecord where
  table := join.table
  condition := join.condition
  kind := join.kind.serialized

def SortKey.record (key : SortKey) : SortKeyRecord where
  field := key.field
  direction := key.direction.serialized

def Clauses.record (clauses : Clauses) : ClauseRecord where
  selects := clauses.selects
  conditions := clauses.conditions.map Condition.record
  joins := clauses.joins.map Join.record
  sortKeys := clauses.sortKeys.map SortKey.record
  groups := clauses.groups

end SqlSelect
