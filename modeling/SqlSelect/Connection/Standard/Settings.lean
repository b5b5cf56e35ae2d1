import SqlSelect.Connection.Standard.Address

namespace SqlSelect.Connection.Standard

inductive ValueForm where
  | anything
  | word (choices : List String)
  | addresses
  /-- Port numbers with commas between them; each may be left out. -/
  | ports
  | integer (low high : Int)
deriving DecidableEq, Repr

namespace ValueForm

def admits (form : ValueForm) (value : String) : Bool :=
  match form with
  | anything => true
  | word choices => choices.contains value
  | addresses => (value.toList.splitOn ',').all isAddress
  | ports => (value.toList.splitOn ',').all fun s => s.isEmpty || Text.isInteger 0 65535 s
  | integer low high => Text.isInteger low high value.toList

def signed64 : ValueForm := integer (-9223372036854775808) 9223372036854775807

end ValueForm

/-- The options that a connection string may set, with the values they take. Case matters in the names. -/
def options : List (String × ValueForm) :=
  [("user", .anything), ("password", .anything), ("dbname", .anything), ("options", .anything),
   ("application_name", .anything), ("host", .anything),
   ("sslmode", .word ["disable", "prefer", "require"]), ("sslnegotiation", .word ["postgres", "direct"]),
   ("hostaddr", .addresses), ("port", .ports),
   ("connect_timeout", .signed64), ("tcp_user_timeout", .signed64),
   ("keepalives_idle", .signed64), ("keepalives_interval", .signed64),
   ("keepalives", .integer 0 18446744073709551615), ("keepalives_retries", .integer 0 4294967295),
   ("target_session_attrs", .word ["any", "read-write", "read-only"]),
   ("channel_binding", .word ["disable", "prefer", "require"]),
   ("load_balance_hosts", .word ["disable", "random"])]

/-- What a connection string settles, as far as making a pool depends on it. -/
structure Settings where
  database : Option String := none
deriving DecidableEq, Repr

namespace Settings

/-- Sets an option. There is no result when the option is unknown or does not take the value. -/
def set? (settings : Settings) (name value : String) : Option Settings := do
  let form ← options.lookup name
  guard (form.admits value)
  pure (if name = "dbname" then { settings with database := some value } else settings)

/-- Sets options in order, so that a later setting replaces an earlier one. -/
def setAll? (settings : Settings) (pairs : List (String × String)) : Option Settings :=
  pairs.foldlM (fun settings pair => settings.set? pair.1 pair.2) settings

end Settings

end SqlSelect.Connection.Standard
