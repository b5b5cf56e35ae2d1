import SqlSelect.Keyword

namespace SqlSelect

inductive Vocabulary where
  | operator
  | conjunction
  | direction
deriving DecidableEq, Repr

def Vocabulary.noun : Vocabulary → String
  | operator => "where operator"
  | conjunction => "logical operator"
  | direction => "order direction"

inductive Misuse where
  | unknownWord (vocabulary : Vocabulary) (text : String)
  /-- A further condition was asked for while there was no first one to join it to. -/
  | noCondition (conjunction : Conjunction)
  | stated (text : String)
deriving DecidableEq, Repr

def Misuse.text : Misuse → String
  | unknownWord vocabulary text => "unknown " ++ vocabulary.noun ++ " '" ++ text ++ "'"
  | noCondition .and => "Please call QueryManager::where_() first before calling and_where()"
  | noCondition .or => "Please call QueryManager::where_() first before calling or_where()"
  | stated text => text

/-- Ways in which a statement sent to a server comes to nothing. -/
inductive QueryFault where
  | refused
  /-- A data row came before the columns it belongs to. -/
  | rowBeforeColumns
  /-- A data row has more or fewer values than there are columns. -/
  | rowMisfit
  /-- The text holds a NUL, which ends a text on the wire, so nothing was sent. -/
  | notEncodable
deriving DecidableEq, Repr

def QueryFault.text : QueryFault → String
  | refused => "db error"
  | rowBeforeColumns => "unexpected message from server"
  | rowMisfit => "error parsing response from server"
  | notEncodable => "error encoding message to server"

inductive ConnectionFault where
  | malformed
  | databaseMissing
  | databaseEmpty
  | stated (text : String)
deriving DecidableEq, Repr

def ConnectionFault.text : ConnectionFault → String
  | malformed => "configuration property \"url\" is invalid: invalid connection string"
  | databaseMissing => "configuration property \"dbname\" not found"
  | databaseEmpty => "configuration property \"dbname\" contains an empty string"
  | stated text => text

inductive PoolFault where
  | closed
  | notConnected
  | stated (text : String)
deriving DecidableEq, Repr

def PoolFault.text : PoolFault → String
  | closed => "Pool has been closed"
  | notConnected => "Error occurred while creating a new object: db error"
  | stated text => text

inductive Error where
  | invalidUsage (misuse : Misuse)
  | unsupportedJoin (table : String) (kind : JoinKind)
  | noRuntime
  | query (fault : QueryFault)
  | connection (fault : ConnectionFault)
  | pool (fault : PoolFault)
  | execution (text : String)
  | other (text : String)
deriving DecidableEq, Repr

namespace Error

def message : Error → String
  | invalidUsage misuse => "QueryManager: " ++ misuse.text
  | unsupportedJoin table kind => "Unsupported join: " ++ kind.spelling ++ " JOIN " ++ table ++ " cannot be rendered"
  | noRuntime => "No Tokio runtime available to execute the query"
  | query fault => "Query error: " ++ fault.text
  | connection fault => "Connection error: " ++ fault.text
  | pool fault => "Pool error: " ++ fault.text
  | execution text => "Execution error: " ++ text
  | other text => text

instance : ToString Error := ⟨message⟩

def isInvalidUsage : Error → Bool
  | invalidUsage _ => true
  | _ => false

def isUnsupportedJoin : Error → Bool
  | unsupportedJoin _ _ => true
  | _ => false

end Error

end SqlSelect
