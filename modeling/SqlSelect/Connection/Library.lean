import SqlSelect.Error

namespace SqlSelect.Connection

inductive Runtime where
  | tokio
  | asyncStd
deriving DecidableEq, Repr

/-- What is done with a connection before it is used again. -/
inductive Recycling where
  | fast
  | verified
  | clean
deriving DecidableEq, Repr

/-- What a pool is asked for with. Connections are made without encryption. -/
structure PoolRequest where
  url : String
  recycling : Recycling
  maxSize : Nat
  runtime : Runtime
deriving DecidableEq, Repr

/-- Why there is no pool: what was asked for is at fault, or the pool could not be built. -/
inductive CreationFault where
  | config (fault : ConnectionFault)
  | build (fault : PoolFault)
deriving DecidableEq, Repr

def CreationFault.toError : CreationFault → Error
  | config fault => .connection fault
  | build fault => .pool fault

/-- What others provide: a reader of connection strings, and pools of connections made from what it reads. -/
structure Library where
  /-- What a connection string settles. -/
  Settings : Type
  parse : String → Option Settings
  database : Settings → Option String
  Pool : Type
  createPool : PoolRequest → Except CreationFault Pool
  maxSize : Pool → Nat

namespace Library

def defaultMaxSize : Nat := 16

/-- Makes a pool of at most `maxSize` connections. Nothing connects yet. -/
def createWithSize (library : Library) (url : String) (maxSize : Nat) : Except Error library.Pool :=
  (library.createPool { url, recycling := .fast, maxSize, runtime := .tokio }).mapError CreationFault.toError

def create (library : Library) (url : String) : Except Error library.Pool :=
  library.createWithSize url defaultMaxSize

end Library

end SqlSelect.Connection
