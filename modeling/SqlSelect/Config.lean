namespace SqlSelect

inductive Level where
  | trace
  | debug
  | info
  | warn
  | error
deriving DecidableEq, Repr

namespace Level

def all : List Level := [trace, debug, info, warn, error]

def name : Level → String
  | trace => "TRACE"
  | debug => "DEBUG"
  | info => "INFO"
  | warn => "WARN"
  | error => "ERROR"

def ofName? (text : String) : Option Level :=
  all.find? fun level => level.name == text

end Level

/-- What a builder does besides collecting clauses. -/
structure Config where
  /-- Dispatching a statement empties the builder. -/
  resetAfterExecute : Bool := true
  logLevel : Level := .debug
  /-- The most bytes of a statement that are reported; `none` for all of them. -/
  maxSqlLength : Option Nat := some 200
deriving DecidableEq, Repr

inductive Setting where
  | resetAfterExecute (reset : Bool)
  | logLevel (level : Level)
  | maxSqlLength (length : Nat)
  | noTruncation
deriving DecidableEq, Repr

namespace Config

def set (config : Config) : Setting → Config
  | .resetAfterExecute reset => { config with resetAfterExecute := reset }
  | .logLevel level => { config with logLevel := level }
  | .maxSqlLength length => { config with maxSqlLength := some length }
  | .noTruncation => { config with maxSqlLength := none }

def ofSettings (settings : List Setting) : Config :=
  settings.foldl set {}

end Config

end SqlSelect
