import SqlSelect.Connection.Library
import SqlSelect.Proofs.Text.Percent
import SqlSelect.Text.Blank

namespace SqlSelect.Connection

namespace Url

/-- The characters that may stand in a URL as they are, whatever they are in. -/
def isUnreserved (c : Char) : Bool :=
  c.isAlphanum || ['-', '.', '_', '~'].contains c

/-- The characters are a part of a URL that stands for the text: all others are encoded. -/
structure Spells (part : List Char) (text : String) : Prop where
  reserved : ∀ c ∈ part, c = '%' ∨ isUnreserved c = true
  decodes : Text.PercentDecodes part (text.toList.flatMap String.utf8EncodeChar)

end Url

/-- An option with its value, and the value as it is written. -/
structure Assignment where
  name : String
  value : String
  written : String
deriving DecidableEq, Repr

namespace Assignment

def text (assignment : Assignment) : String :=
  assignment.name ++ "=" ++ assignment.written

/-- The assignments with a blank between each two of them. -/
def list (assignments : List Assignment) : String :=
  " ".intercalate (assignments.map text)

/-- What stands between quotes for a value: a backslash goes before every quote and every backslash. -/
inductive Quotes : List Char → List Char → Prop
  | nil : Quotes [] []
  | plain {c : Char} {body value : List Char} (notQuote : c ≠ '\'') (notBackslash : c ≠ '\\')
      (others : Quotes body value) : Quotes (c :: body) (c :: value)
  | escaped {c : Char} {body value : List Char} (special : c = '\'' ∨ c = '\\') (others : Quotes body value) :
      Quotes ('\\' :: c :: body) (c :: value)

/-- How a value may be written. One that is empty or holds a blank has to stand in quotes. -/
inductive Writes : String → String → Prop
  | bare {value : String} (present : value ≠ "")
      (plain : ∀ c ∈ value.toList, Text.isBlank c = false ∧ c ≠ '\\' ∧ c ≠ '\'') : Writes value value
  | quoted {value : String} {body : List Char} (quotes : Quotes body value.toList) :
      Writes value ("'" ++ String.ofList body ++ "'")

/-- The values that options take. -/
inductive Takes : String → String → Prop
  | text {name : String} (value : String) (known : name ∈ ["user", "password", "host", "dbname"]) : Takes name value
  | port (port : UInt16) : Takes "port" (toString port.toNat)

theorem Takes.cases {name value : String} (takes : Takes name value) :
    name = "user" ∨ name = "password" ∨ name = "host" ∨ name = "dbname" ∨ name = "port" := by
  cases takes with
  | text value known =>
    simp only [List.mem_cons, List.not_mem_nil, or_false] at known
    tauto
  | port n => tauto

structure Valid (assignment : Assignment) : Prop where
  takes : Takes assignment.name assignment.value
  writes : Writes assignment.value assignment.written

end Assignment

namespace Library

variable (library : Library)

/-- A URL is read part by part. It settles the database unless the name of that is empty. -/
structure ReadsUrls : Prop where
  reads : ∀ {user password host name : String} {userText passwordText hostText database : String},
    ∀ scheme ∈ ["postgres://", "postgresql://"], ∀ port : UInt16,
      Url.Spells user.toList userText → Url.Spells password.toList passwordText → Url.Spells host.toList hostText →
        Url.Spells name.toList database →
          ∃ settings, library.parse (scheme ++ user ++ ":" ++ password ++ "@" ++ host ++ ":" ++
              toString port.toNat ++ "/" ++ name) = some settings ∧
            library.database settings = if database = "" then none else some database

/-- A list of assignments to different options is read in any order. It settles the database that it names. -/
structure ReadsLists : Prop where
  reads : ∀ assignments : List Assignment, (∀ assignment ∈ assignments, assignment.Valid) →
    (assignments.map Assignment.name).Nodup →
      ∃ settings, library.parse (Assignment.list assignments) = some settings ∧
        (∀ assignment ∈ assignments, assignment.name = "dbname" →
          library.database settings = some assignment.value) ∧
        ((∀ assignment ∈ assignments, assignment.name ≠ "dbname") → library.database settings = none)

/-- A pool is made when the settings name a database, and then it is as large as was asked for. -/
structure RequiresDatabase : Prop where
  missing : ∀ request settings, library.parse request.url = some settings → library.database settings = none →
    ∃ fault, library.createPool request = .error (.config fault) ∧
      fault.text = "configuration property \"dbname\" not found"
  empty : ∀ request settings, library.parse request.url = some settings → library.database settings = some "" →
    ∃ fault, library.createPool request = .error (.config fault) ∧
      fault.text = "configuration property \"dbname\" contains an empty string"
  named : ∀ request settings database, library.parse request.url = some settings →
    library.database settings = some database → database ≠ "" →
      ∃ pool, library.createPool request = .ok pool ∧ library.maxSize pool = request.maxSize

end Library

end SqlSelect.Connection
