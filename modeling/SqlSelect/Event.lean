import SqlSelect.Config
import SqlSelect.Error

namespace SqlSelect

/-- What is reported about statements while they are dispatched and run. -/
inductive Event where
  | dispatching (level : Level) (table : String) (paramCount : Nat) (reset : Bool) (sql : String)
  | completed (rows : Nat)
  | failed (error : Error)
deriving DecidableEq, Repr

namespace Event

def level : Event → Level
  | dispatching level .. => level
  | completed _ => .trace
  | failed _ => .debug

def message : Event → String
  | dispatching .. => "dispatching query"
  | completed _ => "query completed"
  | failed _ => "query failed"

end Event

end SqlSelect
