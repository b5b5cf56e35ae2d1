import SqlSelect.Proofs.Connection.Standard
import Mathlib

namespace SqlSelect.Connection

open Text

/-- What it takes to log in to a database. -/
structure Login where
  user : String
  password : String
  host : String
  port : UInt16
  database : String

/-- A backslash goes before every quote and every backslash. -/
def escape (s : List Char) : List Char :=
  s.flatMap fun c => if c = '\'' ∨ c = '\\' then ['\\', c] else [c]

def quote (value : String) : String :=
  "'" ++ String.ofList (escape value.toList) ++ "'"

theorem quotes_escape (s : List Char) : Assignment.Quotes (escape s) s := by
  induction s with
  | nil => exact .nil
  | cons c s ih =>
    rw [escape, List.flatMap_cons, ← escape]
    by_cases special : c = '\'' ∨ c = '\\'
    · rw [if_pos special]
      exact .escaped special ih
    · rw [if_neg special]
      exact .plain (not_or.mp special).1 (not_or.mp special).2 ih

theorem Url.spells_encoded {text encoded : String} (variant : CaseVariant (percentEncode text) encoded) :
    Url.Spells encoded.toList text where
  reserved c member := (variant.encodes.mem_cases member).imp id fun plain => by simp [Url.isUnreserved, plain]
  decodes := variant.encodes.decodes

namespace Login

/-- The login as a URL, with its texts encoded. -/
def url (login : Login) (encode : String → String) : String :=
  "postgres://" ++ encode login.user ++ ":" ++ encode login.password ++ "@" ++ encode login.host ++ ":" ++
    toString login.port.toNat ++ "/" ++ encode login.database

/-- The login in names and values, with its texts in quotes. -/
def assignments (login : Login) : List Assignment :=
  [⟨"user", login.user, quote login.user⟩, ⟨"password", login.password, quote login.password⟩,
   ⟨"host", login.host, quote login.host⟩, ⟨"port", toString login.port.toNat, toString login.port.toNat⟩,
   ⟨"dbname", login.database, quote login.database⟩]

theorem valid_quote {name : String} (known : name ∈ ["user", "password", "host", "dbname"]) (value : String) :
    Assignment.Valid ⟨name, value, quote value⟩ :=
  ⟨.text value known, .quoted (quotes_escape value.toList)⟩

theorem valid_port (port : UInt16) : Assignment.Valid ⟨"port", toString port.toNat, toString port.toNat⟩ where
  takes := .port port
  writes := by
    refine .bare (by simp) fun c member => ?_
    have digit := isDigit_of_mem_toString member
    refine ⟨isBlank_of_isDigit digit, ?_, ?_⟩
    · rintro rfl
      cases digit
    · rintro rfl
      cases digit

theorem valid (login : Login) : ∀ assignment ∈ login.assignments, assignment.Valid := by
  simp only [assignments, List.forall_mem_cons]
  exact ⟨valid_quote (by simp) _, valid_quote (by simp) _, valid_quote (by simp) _, valid_port _,
    valid_quote (by simp) _, List.forall_mem_nil _⟩

theorem nodup_assignments (login : Login) : (login.assignments.map Assignment.name).Nodup := by
  have names : login.assignments.map Assignment.name = ["user", "password", "host", "port", "dbname"] := rfl
  rw [names]
  decide

end Login

namespace Library

variable {library : Library} {text : String} {settings : library.Settings}

/-- What comes of settings, by the database that they name. -/
theorem createWithSize_cases (pools : library.RequiresDatabase) (read : library.parse text = some settings)
    (maxSize : Nat) :
    (∀ database, library.database settings = some database → database ≠ "" →
      ∃ pool, library.createWithSize text maxSize = .ok pool ∧ library.maxSize pool = maxSize) ∧
    (library.database settings = none → ∃ fault, library.createWithSize text maxSize = .error (.connection fault) ∧
      fault.text = "configuration property \"dbname\" not found") ∧
    (library.database settings = some "" → ∃ fault, library.createWithSize text maxSize = .error (.connection fault) ∧
      fault.text = "configuration property \"dbname\" contains an empty string") := by
  refine ⟨fun database settled named => ?_, fun missing => ?_, fun empty => ?_⟩
  · obtain ⟨pool, created, size⟩ := pools.named ⟨text, .fast, maxSize, .tokio⟩ settings database read settled named
    exact ⟨pool, by rw [createWithSize, created]; rfl, size⟩
  · obtain ⟨fault, refused, worded⟩ := pools.missing ⟨text, .fast, maxSize, .tokio⟩ settings read missing
    exact ⟨fault, by rw [createWithSize, refused]; rfl, worded⟩
  · obtain ⟨fault, refused, worded⟩ := pools.empty ⟨text, .fast, maxSize, .tokio⟩ settings read empty
    exact ⟨fault, by rw [createWithSize, refused]; rfl, worded⟩

end Library

namespace Pool

/-- A login is accepted in both of its forms or in neither of them, whatever characters it is made of. It is refused
    where no database is named, which the two forms say in different ways. -/
theorem forms_accepted_alike {library : Library} (urls : library.ReadsUrls) (lists : library.ReadsLists)
    (pools : library.RequiresDatabase) (login : Login) (maxSize : Nat) {encode : String → String}
    {order : List Assignment} (encodes : ∀ text, CaseVariant (percentEncode text) (encode text))
    (ordered : order.Perm login.assignments) :
    (login.database ≠ "" →
      (∃ pool, library.createWithSize (login.url encode) maxSize = .ok pool ∧ library.maxSize pool = maxSize) ∧
      ∃ pool, library.createWithSize (Assignment.list order) maxSize = .ok pool ∧ library.maxSize pool = maxSize) ∧
    (login.database = "" →
      (∃ fault, library.createWithSize (login.url encode) maxSize = .error (.connection fault) ∧
        fault.text = "configuration property \"dbname\" not found") ∧
      ∃ fault, library.createWithSize (Assignment.list order) maxSize = .error (.connection fault) ∧
        fault.text = "configuration property \"dbname\" contains an empty string") := by
  have spells (text : String) : Url.Spells (encode text).toList text := Url.spells_encoded (encodes text)
  obtain ⟨asUrl, readUrl, urlDatabase⟩ := urls.reads "postgres://" (by simp) login.port (spells login.user)
    (spells login.password) (spells login.host) (spells login.database)
  obtain ⟨asList, readList, listDatabase, -⟩ := lists.reads order
    (fun assignment member => login.valid assignment (ordered.subset member))
    ((ordered.map Assignment.name).nodup_iff.mpr login.nodup_assignments)
  have named : (⟨"dbname", login.database, quote login.database⟩ : Assignment) ∈ order :=
    ordered.symm.subset (by simp [Login.assignments])
  have listDatabase := listDatabase _ named rfl
  obtain ⟨urlNamed, urlMissing, -⟩ := library.createWithSize_cases pools readUrl maxSize
  obtain ⟨listNamed, -, listEmpty⟩ := library.createWithSize_cases pools readList maxSize
  constructor
  · intro some
    rw [if_neg some] at urlDatabase
    exact ⟨urlNamed _ urlDatabase some, listNamed _ listDatabase some⟩
  · intro empty
    rw [if_pos empty] at urlDatabase
    exact ⟨urlMissing urlDatabase, listEmpty (listDatabase.trans (congrArg Option.some empty))⟩

/-- A login whose texts hold what parts both forms. -/
def delimited (database : String) : Login where
  user := "a@b:c'"
  password := "p/?\\%41"
  host := "[::1],x y"
  port := 65535
  database

theorem forms_accepted_alike_delimited :
    (Library.standard.ReadsUrls ∧ Library.standard.ReadsLists ∧ Library.standard.RequiresDatabase) ∧
    (∀ text, CaseVariant (percentEncode text) (percentEncode text).toLower) ∧
    (∀ database, (delimited database).assignments.reverse.Perm (delimited database).assignments) ∧
    (∃ pool : Pool, createWithSize ((delimited "d'b\\ = é").url fun text => (percentEncode text).toLower) 9 = .ok pool ∧
      pool.maxSize = 9) ∧
    (∃ pool : Pool, createWithSize (Assignment.list (delimited "d'b\\ = é").assignments.reverse) 9 = .ok pool ∧
      pool.maxSize = 9) ∧
    (∃ fault, createWithSize ((delimited "").url fun text => (percentEncode text).toLower) 9 =
        .error (.connection fault) ∧ fault.text = "configuration property \"dbname\" not found") ∧
    ∃ fault, createWithSize (Assignment.list (delimited "").assignments.reverse) 9 = .error (.connection fault) ∧
      fault.text = "configuration property \"dbname\" contains an empty string" := by
  have encodes (text : String) : CaseVariant (percentEncode text) (percentEncode text).toLower := caseVariant_toLower _
  have ordered (database : String) := (delimited database).assignments.reverse_perm
  have alike (database : String) := forms_accepted_alike Library.readsUrls_standard Library.readsLists_standard
    Library.requiresDatabase_standard (delimited database) 9 encodes (ordered database)
  have named := (alike "d'b\\ = é").1 (by decide)
  have unnamed := (alike "").2 rfl
  exact ⟨⟨Library.readsUrls_standard, Library.readsLists_standard, Library.requiresDatabase_standard⟩, encodes, ordered,
    named.1, named.2, unnamed.1, unnamed.2⟩

end Pool

end SqlSelect.Connection
