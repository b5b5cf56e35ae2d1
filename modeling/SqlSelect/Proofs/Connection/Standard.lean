import SqlSelect.Connection.Pool
import SqlSelect.Proofs.Connection.Assignment
import SqlSelect.Proofs.Connection.UrlParts
import Mathlib

namespace SqlSelect.Connection

namespace Standard

theorem admits_of_takes {name value : String} (takes : Assignment.Takes name value) :
    ∃ form, options.lookup name = some form ∧ form.admits value = true := by
  cases takes with
  | text value known =>
    have anything : options.lookup name = some .anything := by
      simp only [List.mem_cons, List.not_mem_nil, or_false] at known
      rcases known with rfl | rfl | rfl | rfl <;> rfl
    exact ⟨.anything, anything, rfl⟩
  | port n => exact ⟨.ports, rfl, ValueForm.ports_admits n⟩

namespace Settings

variable {settings : Settings} {pairs : List (String × String)}
  (admitted : ∀ pair ∈ pairs, ∃ form, options.lookup pair.1 = some form ∧ form.admits pair.2 = true)

include admitted

/-- Where the database is named, in whatever place, and all other options take their values. -/
theorem setAll?_named {database : String} (only : ∀ pair ∈ pairs, pair.1 = "dbname" → pair.2 = database)
    (named : settings.database = some database ∨ ∃ pair ∈ pairs, pair.1 = "dbname") :
    settings.setAll? pairs = some { database := some database } := by
  induction pairs generalizing settings with
  | nil =>
    obtain ⟨current⟩ := settings
    obtain rfl : current = some database := by simpa using named
    rfl
  | cons pair pairs ih =>
    obtain ⟨form, known, admits⟩ := admitted pair (List.mem_cons_self ..)
    have first := only pair (List.mem_cons_self ..)
    have others (settings : Settings) := @ih settings
      (fun other member => admitted other (List.mem_cons_of_mem _ member))
      (fun other member => only other (List.mem_cons_of_mem _ member))
    have step : settings.setAll? (pair :: pairs) = (settings.set? pair.1 pair.2).bind (·.setAll? pairs) := rfl
    rw [step, set?_eq_some known admits, Option.bind_some]
    by_cases database : pair.1 = "dbname"
    · exact others _ (.inl (by simp [database, first database]))
    · refine others _ ?_
      simpa [database] using named

theorem setAll?_unnamed (unnamed : ∀ pair ∈ pairs, pair.1 ≠ "dbname") : settings.setAll? pairs = some settings := by
  induction pairs with
  | nil => rfl
  | cons pair pairs ih =>
    obtain ⟨form, known, admits⟩ := admitted pair (List.mem_cons_self ..)
    have step : settings.setAll? (pair :: pairs) = (settings.set? pair.1 pair.2).bind (·.setAll? pairs) := rfl
    rw [step, set?_eq_some known admits, Option.bind_some, if_neg (unnamed pair (List.mem_cons_self ..))]
    exact ih (fun other member => admitted other (List.mem_cons_of_mem _ member)) fun other member =>
      unnamed other (List.mem_cons_of_mem _ member)

end Settings

theorem settings?_scheme {scheme : String} (known : scheme ∈ ["postgres://", "postgresql://"]) {text : String}
    {rest : List Char} (whole : text.toList = scheme.toList ++ rest) : settings? text = Url.settings? rest := by
  have found : (schemes.findSome? fun scheme => scheme.toList.isPrefixOf? text.toList) = some rest := by
    simp only [List.mem_cons, List.not_mem_nil, or_false] at known
    rcases known with rfl | rfl <;> simp [schemes, whole, List.isPrefixOf?]
  rw [settings?, found]

/-- No list of assignments is taken for a URL, whichever of them comes first. -/
theorem settings?_list {assignments : List Assignment} (valid : ∀ assignment ∈ assignments, assignment.Valid) :
    settings? (Assignment.list assignments) =
      Settings.setAll? {} (assignments.map fun assignment => (assignment.name, assignment.value)) := by
  have noScheme :
      (schemes.findSome? fun scheme => scheme.toList.isPrefixOf? (Assignment.list assignments).toList) = none := by
    cases assignments with
    | nil => simp [schemes, Assignment.list, List.isPrefixOf?]
    | cons first rest =>
      obtain ⟨more, shape⟩ := exists_list_cons first rest
      rw [shape]
      have takes := (valid first (List.mem_cons_self ..)).takes
      rcases takes.cases with same | same | same | same | same <;> simp [same, schemes, List.isPrefixOf?]
  rw [settings?, noScheme]
  dsimp only
  rw [KeyValue.settings?, pairs?_list valid, Option.bind_eq_bind, Option.bind_some]

end Standard

namespace Library

open Standard

theorem readsUrls_standard : standard.ReadsUrls where
  reads {user password host name userText passwordText hostText database} scheme known port spellsUser spellsPassword
      spellsHost spellsName := by
    have parts := Standard.Url.settings?_parts spellsUser spellsPassword spellsHost
      (Standard.Url.spells_number port.toNat) (ValueForm.ports_admits port) spellsName
    refine ⟨_, (settings?_scheme known ?_).trans parts, rfl⟩
    simp only [String.toList_append, List.append_assoc]
    rfl

theorem readsLists_standard : standard.ReadsLists where
  reads assignments valid different := by
    let pairs := assignments.map fun assignment => (assignment.name, assignment.value)
    have admitted : ∀ pair ∈ pairs, ∃ form, options.lookup pair.1 = some form ∧ form.admits pair.2 = true := by
      intro pair member
      obtain ⟨assignment, listed, rfl⟩ := List.mem_map.mp member
      exact admits_of_takes (valid assignment listed).takes
    have read : standard.parse (Assignment.list assignments) = Settings.setAll? {} pairs := settings?_list valid
    by_cases named : ∃ assignment ∈ assignments, assignment.name = "dbname"
    · obtain ⟨own, listed, isName⟩ := named
      have single : ∀ assignment ∈ assignments, assignment.name = "dbname" → assignment = own :=
        fun assignment member same => List.inj_on_of_nodup_map different member listed (same.trans isName.symm)
      have only : ∀ pair ∈ pairs, pair.1 = "dbname" → pair.2 = own.value := by
        intro pair member same
        obtain ⟨assignment, among, rfl⟩ := List.mem_map.mp member
        rw [single assignment among same]
      have settled : Settings.setAll? {} pairs = some { database := some own.value } :=
        Settings.setAll?_named admitted only (.inr ⟨_, List.mem_map_of_mem listed, isName⟩)
      refine ⟨_, read.trans settled, fun assignment member same => ?_, fun unnamed => ?_⟩
      · rw [single assignment member same]
        rfl
      · exact absurd isName (unnamed own listed)
    · have unnamed : ∀ assignment ∈ assignments, assignment.name ≠ "dbname" := fun assignment member same =>
        named ⟨assignment, member, same⟩
      have settled : Settings.setAll? {} pairs = some {} := Settings.setAll?_unnamed admitted fun pair member => by
        obtain ⟨assignment, among, rfl⟩ := List.mem_map.mp member
        exact unnamed assignment among
      exact ⟨_, read.trans settled, fun assignment member same => absurd same (unnamed assignment member), fun _ => rfl⟩

theorem requiresDatabase_standard : standard.RequiresDatabase := by
  have made (request : PoolRequest) (settings : Standard.Settings) (read : settings? request.url = some settings) :
      standard.createPool request = (pool settings request.maxSize).mapError .config := by
    change Standard.createPool request = _
    rw [Standard.createPool, read]
  constructor
  · intro request (settings : Standard.Settings) read missing
    refine ⟨.databaseMissing, (made request settings read).trans ?_, rfl⟩
    rw [pool, show settings.database = none from missing]
    rfl
  · intro request (settings : Standard.Settings) read empty
    refine ⟨.databaseEmpty, (made request settings read).trans ?_, rfl⟩
    rw [pool, show settings.database = some "" from empty]
    rfl
  · intro request (settings : Standard.Settings) database read settled named
    refine ⟨{ maxSize := request.maxSize }, (made request settings read).trans ?_, rfl⟩
    have present : ¬ database.isEmpty = true := by simpa using named
    rw [pool, show settings.database = some database from settled]
    dsimp only
    rw [if_neg present]
    rfl

end Library

end SqlSelect.Connection
