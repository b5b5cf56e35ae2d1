import SqlSelect.Connection.Standard.Url
import SqlSelect.Proofs.Connection.Documented
import Mathlib

namespace SqlSelect.Connection.Standard

open Text
open Connection.Url (Spells isUnreserved)

namespace Settings

theorem set?_eq_some {settings : Settings} {name value : String} {form : ValueForm}
    (known : options.lookup name = some form) (admits : form.admits value = true) :
    settings.set? name value =
      some (if name = "dbname" then { settings with database := some value } else settings) := by
  simp [set?, known, admits, guard]

end Settings

namespace ValueForm

theorem ports_admits (port : UInt16) : ports.admits (toString port.toNat) = true := by
  have bound := port.toNat_lt
  have noComma : ',' ∉ (toString port.toNat).toList := fun member =>
    absurd (isDigit_of_mem_toString member) (by decide)
  have integer : isInteger 0 65535 (toString port.toNat).toList = true := isInteger_toString (by omega) (by omega)
  simp only [admits, List.splitOn_eq_singleton noComma, List.all_cons, List.all_nil, integer, Bool.or_true,
    Bool.and_true]

end ValueForm

namespace Url

/-- The characters that part a URL. -/
def delimiters : List Char := ['@', ':', '/', '?', ',', '[']

/-- A part of a URL holds nothing that ends it. -/
theorem whole {part : List Char} {text : String} (spells : Spells part text) : ∀ c ∈ delimiters, c ∉ part := by
  have reserved : delimiters.all (fun c => c != '%' && !isUnreserved c) = true := by decide
  intro c parts member
  have unwritten := List.all_eq_true.mp reserved c parts
  rcases spells.reserved c member with rfl | unreserved
  · simp at unwritten
  · simp [unreserved] at unwritten

theorem read {part : List Char} {text : String} (spells : Spells part text) : percentText? part = some text :=
  percentText?_of_decodes spells.decodes

theorem spells_number (n : Nat) : Spells (toString n).toList (toString n) where
  reserved c member := by simp [isUnreserved, Char.isAlphanum, isDigit_of_mem_toString member]
  decodes := .of_plain fun member => absurd (isDigit_of_mem_toString member) (by decide)

section

variable {user password host port name rest : List Char} {userText passwordText hostText portText database : String}

theorem afterCredentials?_append (spellsUser : Spells user userText) (spellsPassword : Spells password passwordText) :
    afterCredentials? (user ++ ':' :: (password ++ '@' :: rest)) = some rest := by
  have inUser := whole spellsUser '@' (by decide)
  have inPassword := whole spellsPassword '@' (by decide)
  have credentials : cut ['@'] (user ++ ':' :: (password ++ '@' :: rest)) = (user ++ ':' :: password, '@' :: rest) := by
    rw [← List.cons_append, ← List.append_assoc]
    exact cut_eq (by simp [inUser, inPassword]) (by simp)
  have first : cut [':'] (user ++ ':' :: password) = (user, ':' :: password) :=
    cut_eq (by simpa using whole spellsUser ':' (by decide)) (by simp)
  simp only [afterCredentials?, credentials, first, read spellsUser, Option.map_some]

theorem hostPort?_append (spellsHost : Spells host hostText) :
    hostPort? (host ++ ':' :: port) = some (host, some port) := by
  have first : cut [':'] (host ++ ':' :: port) = (host, ':' :: port) :=
    cut_eq (by simpa using whole spellsHost ':' (by decide)) (by simp)
  unfold hostPort?
  split
  · rename_i s shape
    cases host with
    | nil => cases shape
    | cons c host =>
      obtain rfl : c = '[' := (List.cons.inj shape).1
      exact absurd (List.mem_cons_self ..) (whole spellsHost '[' (by decide))
  · rw [first]

/-- A host and its port settle nothing, but have to be in order. -/
theorem setHosts?_append (settings : Settings) (spellsHost : Spells host hostText) (spellsPort : Spells port portText)
    (admits : ValueForm.ports.admits portText = true) : setHosts? settings (host ++ ':' :: port) = some settings := by
  have inHost := whole spellsHost ',' (by decide)
  have inPort := whole spellsPort ',' (by decide)
  have single : ',' ∉ host ++ ':' :: port := by simp [inHost, inPort]
  have present : (host ++ ':' :: port).isEmpty = false := by simp
  have isHost : isHost host = true := by simp [isHost, read spellsHost]
  have setPort : settings.set? "port" portText = some settings := Settings.set?_eq_some rfl admits
  rw [setHosts?, present, if_neg Bool.false_ne_true, List.splitOn_eq_singleton single]
  simp [setHost?, hostPort?_append spellsHost, isHost, guard, read spellsPort, setPort]

theorem setPath?_cons (spellsName : Spells name database) :
    setPath? {} ('/' :: name) = some { database := if database = "" then none else some database } := by
  have known : options.lookup "dbname" = some .anything := rfl
  have setName : Settings.set? {} "dbname" database = some { database := some database } :=
    Settings.set?_eq_some known rfl
  by_cases empty : database = "" <;> simp [setPath?, read spellsName, empty, setName]

theorem settings?_parts (spellsUser : Spells user userText) (spellsPassword : Spells password passwordText)
    (spellsHost : Spells host hostText) (spellsPort : Spells port portText)
    (admits : ValueForm.ports.admits portText = true) (spellsName : Spells name database) :
    settings? (user ++ ':' :: (password ++ '@' :: (host ++ ':' :: (port ++ '/' :: name)))) =
      some { database := if database = "" then none else some database } := by
  have hosts : cut ['/', '?'] (host ++ ':' :: (port ++ '/' :: name)) = (host ++ ':' :: port, '/' :: name) := by
    rw [← List.cons_append, ← List.append_assoc]
    refine cut_eq (fun c stops => ?_) (by simp)
    have parts : c ∈ delimiters ∧ c ≠ ':' := by
      simp only [List.mem_cons, List.not_mem_nil, or_false] at stops
      rcases stops with rfl | rfl <;> decide
    have inHost := whole spellsHost c parts.1
    have inPort := whole spellsPort c parts.1
    simp [inHost, inPort, parts.2]
  have path : cut ['?'] ('/' :: name) = ('/' :: name, []) := by
    have inName := whole spellsName '?' (by decide)
    have read : cut ['?'] ('/' :: name ++ []) = ('/' :: name, []) := cut_eq (by simp [inName]) (by simp)
    rwa [List.append_nil] at read
  have noParameters : parameters? [] = some [] := by rw [parameters?]
  rw [settings?, afterCredentials?_append spellsUser spellsPassword]
  simp only [Option.bind_eq_bind, Option.bind_some, hosts, path, setHosts?_append {} spellsHost spellsPort admits,
    setPath?_cons spellsName, List.tail_nil, noParameters]
  rfl

end

end Url

end SqlSelect.Connection.Standard
