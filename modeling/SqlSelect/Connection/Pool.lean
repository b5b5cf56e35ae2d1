import SqlSelect.Connection.Library
import SqlSelect.Connection.Standard.KeyValue
import SqlSelect.Connection.Standard.Url

namespace SqlSelect.Connection

/-- A pool of connections. They are made on demand, so a new pool has none. -/
structure Pool where
  maxSize : Nat
  size : Nat := 0
  available : Nat := 0
deriving DecidableEq, Repr

namespace Standard

def schemes : List String := ["postgres://", "postgresql://"]

/-- What a connection string settles. It is a URL if it begins with a scheme, and otherwise a list of names and
    values. -/
def settings? (text : String) : Option Settings :=
  match schemes.findSome? fun scheme => scheme.toList.isPrefixOf? text.toList with
  | some rest => Url.settings? rest
  | none => KeyValue.settings? text.toList

/-- The database has to be named. -/
def pool (settings : Settings) (maxSize : Nat) : Except ConnectionFault Pool :=
  match settings.database with
  | none => .error .databaseMissing
  | some database => if database.isEmpty then .error .databaseEmpty else .ok { maxSize }

def createPool (request : PoolRequest) : Except CreationFault Pool :=
  match settings? request.url with
  | none => .error (.config .malformed)
  | some settings => (pool settings request.maxSize).mapError .config

end Standard

/-- One library that reads both forms of connection strings. -/
def Library.standard : Library where
  Settings := Standard.Settings
  parse := Standard.settings?
  database := Standard.Settings.database
  Pool := Connection.Pool
  createPool := Standard.createPool
  maxSize := Connection.Pool.maxSize

namespace Pool

def createWithSize (url : String) (maxSize : Nat) : Except Error Pool :=
  Library.standard.createWithSize url maxSize

def create (url : String) : Except Error Pool :=
  Library.standard.create url

end Pool

end SqlSelect.Connection
