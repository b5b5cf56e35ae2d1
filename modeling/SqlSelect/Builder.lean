import SqlSelect.Event
import SqlSelect.Statement.Compile
import SqlSelect.Text.Blank
import SqlSelect.Text.Content

namespace SqlSelect

/-- The select fragments in a comma-separated list: trimmed, and without the empty ones. -/
def fragments (fields : String) : List String :=
  (((fields.toList.splitOn ',').map Text.trimChars).filter Text.holdsAny).map String.ofList

/-- Collects the clauses of SELECT statements on one table. -/
structure Builder where
  table : String
  clauses : Clauses := {}
  config : Config := {}
deriving DecidableEq, Repr

inductive Call where
  | select (fields : String)
  /-- A condition that may also be the first one. -/
  | filter (field : String) (operator : Operator) (value : String)
  /-- A condition that needs an earlier one to join. -/
  | refine (conjunction : Conjunction) (field : String) (operator : Operator) (value : String)
  | join (table condition : String) (kind : JoinKind)
  | orderBy (field : String) (direction : Direction)
  | groupBy (field : String)
  | reset
deriving DecidableEq, Repr

namespace Call

def selectAll : Call := select "*"

def filterEq (field value : String) : Call := filter field .eq value

def innerJoin (table condition : String) : Call := join table condition .inner

/-- Outer joins are recorded like inner ones; only compiling refuses them. -/
def outerJoin (table condition : String) : Call := join table condition .outer

def orderByAsc (field : String) : Call := orderBy field .asc

def orderByDesc (field : String) : Call := orderBy field .desc

end Call

namespace Builder

def modify (b : Builder) (f : Clauses → Clauses) : Builder :=
  { b with clauses := f b.clauses }

def addCondition (b : Builder) (condition : Condition) : Builder :=
  b.modify fun clauses => { clauses with conditions := clauses.conditions ++ [condition] }

/-- Empties the builder. Table and configuration stay. -/
def reset (b : Builder) : Builder :=
  b.modify fun _ => {}

/-- Performs a call. The one call that can fail is a further condition without a first one. -/
def apply (b : Builder) : Call → Except Error Builder
  | .select fields => .ok (b.modify fun clauses => { clauses with selects := clauses.selects ++ fragments fields })
  | .filter field operator value => .ok (b.addCondition ⟨field, operator, .and, value⟩)
  | .refine conjunction field operator value =>
    if b.clauses.conditions.isEmpty then .error (.invalidUsage (.noCondition conjunction))
    else .ok (b.addCondition ⟨field, operator, conjunction, value⟩)
  | .join table condition kind =>
    .ok (b.modify fun clauses => { clauses with joins := clauses.joins ++ [⟨table, condition, kind⟩] })
  | .orderBy field direction =>
    .ok (b.modify fun clauses => { clauses with sortKeys := clauses.sortKeys ++ [⟨field, direction⟩] })
  | .groupBy field => .ok (b.modify fun clauses => { clauses with groups := clauses.groups ++ [field] })
  | .reset => .ok b.reset

def compile (b : Builder) : Except Error Statement :=
  SqlSelect.compile b.table b.clauses

/-- A statement on its way to an executor, with the event that reports it and the builder it leaves behind. -/
structure Taken where
  statement : Statement
  event : Event
  builder : Builder

/-- Compiles the clauses for dispatch and empties the builder if `reset` is set. When compiling fails nothing is
    reported and the builder keeps its clauses. -/
def take (b : Builder) (reset : Bool) : Except Error Taken := do
  let statement ← b.compile
  let sql := Text.truncate b.config.maxSqlLength statement.sql
  pure
    { statement
      event := .dispatching b.config.logLevel b.table statement.params.length reset sql
      builder := if reset then b.reset else b }

end Builder

end SqlSelect
