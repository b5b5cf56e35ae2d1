import SqlSelect.Connection.Standard.Settings

namespace SqlSelect.Connection.Standard.Url

open Text (cut percentDecode percentText?)

/-- The rest after the credentials, which end at the first at sign. The user name has to be text. -/
def afterCredentials? (s : List Char) : Option (List Char) :=
  match cut ['@'] s with
  | (credentials, _ :: rest) => (percentText? (cut [':'] credentials).1).map fun _ => rest
  | (_, []) => some s

/-- Splits a host from its port. A host that holds colons stands in square brackets. -/
def hostPort? : List Char → Option (List Char × Option (List Char))
  | '[' :: s =>
    match cut [']'] s with
    | (host, [']']) => some (host, none)
    | (host, ']' :: ':' :: port) => some (host, some port)
    | _ => none
  | s =>
    match cut [':'] s with
    | (host, _ :: port) => some (host, some port)
    | (host, []) => some (host, none)

/-- A host is text, or a path from the root, which may be any bytes. -/
def isHost (s : List Char) : Bool :=
  (percentDecode s).head? == some '/'.toUInt8 || (percentText? s).isSome

def setHost? (settings : Settings) (s : List Char) : Option Settings := do
  let (host, port) ← hostPort? s
  guard (isHost host)
  settings.set? "port" (← percentText? (port.getD "5432".toList))

def setHosts? (settings : Settings) (s : List Char) : Option Settings :=
  if s.isEmpty then some settings else (s.splitOn ',').foldlM setHost? settings

/-- Takes in the path: the name of the database after a slash. An empty name is no name. -/
def setPath? (settings : Settings) : List Char → Option Settings
  | _ :: name => do
    let name ← percentText? name
    if name.isEmpty then pure settings else settings.set? "dbname" name
  | [] => some settings

/-- The names and values of the parameters, still encoded. A name ends at an equals sign, which may not be missing. -/
def parameters? : List Char → Option (List (List Char × List Char))
  | [] => some []
  | c :: s =>
    match _cut_name : cut ['='] (c :: s) with
    | (_, []) => none
    | (name, _ :: afterName) =>
      (parameters? (cut ['&'] afterName).2.tail).map ((name, (cut ['&'] afterName).1) :: ·)
termination_by s => s.length
decreasing_by
  have whole := Text.length_cut_le ['='] (c :: s)
  have value := Text.length_cut_le ['&'] afterName
  simp only [_cut_name, List.length_cons, List.length_tail] at *
  omega

def setParameter? (settings : Settings) (parameter : List Char × List Char) : Option Settings := do
  let name ← percentText? parameter.1
  if name = "host" then
    guard (isHost parameter.2)
    pure settings
  else settings.set? name (← percentText? parameter.2)

/-- What a URL settles; it is given without the scheme. -/
def settings? (s : List Char) : Option Settings := do
  let s ← afterCredentials? s
  let (hosts, s) := cut ['/', '?'] s
  let (path, query) := cut ['?'] s
  let settings ← setHosts? {} hosts
  let settings ← setPath? settings path
  (← parameters? query.tail).foldlM setParameter? settings

end SqlSelect.Connection.Standard.Url
