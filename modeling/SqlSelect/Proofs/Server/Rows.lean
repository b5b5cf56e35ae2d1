import SqlSelect.Proofs.Server.Reception

namespace SqlSelect

namespace Message

def columns? : Message → Option (List String)
  | columns names => some names
  | _ => none

def values? : Message → Option (List (Option String))
  | row values => some values
  | _ => none

/-- Why a message ends its query, when these are the latest column names. -/
def fault? (names : Option (List String)) : Message → Option QueryFault
  | error => some .refused
  | row values =>
    match names with
    | none => some .rowBeforeColumns
    | some names => if values.length = names.length then none else some .rowMisfit
  | _ => none

def rows (names : Option (List String)) (message : Message) : List Row :=
  message.values?.toList.map (Row.mk (names.getD []))

theorem rows_values (names : Option (List String)) (message : Message) :
    (message.rows names).map Row.values = message.values?.toList := by
  cases message <;> rfl

end Message

namespace Reply

/-- The data rows of a reply, given the latest column names so far. -/
def rowsAfter (names : Option (List String)) (reply : Reply) : Except QueryFault (List Row) :=
  (Client.messagesAfter names reply).map collectRows

/-- All data rows of all result sets of a reply, in order. -/
def rows (reply : Reply) : Except QueryFault (List Row) :=
  rowsAfter none reply

def latestColumns (messages : Reply) : Option (List String) :=
  (messages.filterMap Message.columns?).getLast?

/-- No message is an error, and each data row comes after column names, of which there is one for each value. -/
def Regular (reply : Reply) : Prop :=
  Message.error ∉ reply ∧ ∀ before values after, reply = before ++ .row values :: after →
    ∃ names, latestColumns before = some names ∧ values.length = names.length

variable {names : Option (List String)} {reply before after : Reply} {message : Message} {fault : QueryFault}
  {rows : List Row}

theorem rows_of_documented {client : Client} (documented : client.Documented) (reply : Reply) :
    reply.rows = (client.receive reply).map collectRows := by
  rw [rows, rowsAfter, Client.messagesAfter_eq (documented.receives reply)]

theorem latestColumns_cons (message : Message) (rest : Reply) (names : Option (List String)) :
    (latestColumns (message :: rest)).or names = (latestColumns rest).or (message.columns?.or names) := by
  rw [← Option.or_assoc]
  congr 1
  simp only [latestColumns, List.filterMap_cons]
  cases message.columns? with
  | none => rw [Option.or_none]
  | some own =>
    rw [List.getLast?_cons]
    cases (rest.filterMap Message.columns?).getLast? <;> rfl

theorem rowsAfter_nil (names : Option (List String)) : rowsAfter names [] = .ok [] := by
  rw [rowsAfter, Client.messagesAfter]
  rfl

theorem rowsAfter_cons (names : Option (List String)) (message : Message) (rest : Reply) :
    rowsAfter names (message :: rest) = (message.fault? names).elim
      ((rowsAfter (message.columns?.or names) rest).map (message.rows names ++ ·)) .error := by
  have kept (result : Except QueryFault (List QueryMessage)) (message : QueryMessage) :
      (result.map (message :: ·)).map collectRows = (result.map collectRows).map (message.row?.toList ++ ·) := by
    cases result with
    | error fault => rfl
    | ok messages => cases message <;> rfl
  have unchanged (result : Except QueryFault (List Row)) : result.map (fun rows => rows) = result := by
    cases result <;> rfl
  cases message with
  | row values =>
    cases names with
    | none => simp [rowsAfter, Client.messagesAfter, Message.fault?, Except.map]
    | some names =>
      by_cases fits : values.length = names.length
      · simp [rowsAfter, Client.messagesAfter, Message.fault?, fits, Message.rows, Message.values?, Message.columns?,
          kept, QueryMessage.row?]
      · simp [rowsAfter, Client.messagesAfter, Message.fault?, fits, Except.map]
  | error => cases names <;> simp [rowsAfter, Client.messagesAfter, Message.fault?, Except.map]
  | _ =>
    cases names <;>
      simp [rowsAfter, Client.messagesAfter, Message.fault?, Message.rows, Message.values?, Message.columns?, kept,
        QueryMessage.row?, unchanged]

theorem rowsAfter_append (names : Option (List String)) (before after : Reply) :
    rowsAfter names (before ++ after) = (rowsAfter names before).bind fun rows =>
      (rowsAfter ((latestColumns before).or names) after).map (rows ++ ·) := by
  -- Over all names, for each message may bring in new ones for those behind it.
  induction before generalizing names with
  | nil =>
    simp only [List.nil_append, rowsAfter_nil, Except.bind, latestColumns, List.filterMap_nil, List.getLast?_nil,
      Option.none_or]
    cases rowsAfter names after <;> rfl
  | cons message rest ih =>
    rw [List.cons_append, rowsAfter_cons, rowsAfter_cons, ih, latestColumns_cons]
    cases message.fault? names with
    | some fault => rfl
    | none =>
      simp only [Option.elim_none]
      cases rowsAfter (message.columns?.or names) rest with
      | error fault => rfl
      | ok rows =>
        cases rowsAfter ((latestColumns rest).or (message.columns?.or names)) after <;> simp [Except.map, Except.bind]

theorem rowsAfter_values (listed : rowsAfter names reply = .ok rows) :
    rows.map Row.values = reply.filterMap Message.values? := by
  induction reply generalizing names rows with
  | nil => cases listed; rfl
  | cons message rest ih =>
    rw [rowsAfter_cons] at listed
    cases faulty : message.fault? names with
    | some fault => simp [faulty] at listed
    | none =>
      rw [faulty, Option.elim_none] at listed
      cases others : rowsAfter (message.columns?.or names) rest with
      | error fault => simp [others, Except.map] at listed
      | ok later =>
        rw [others] at listed
        rw [← Except.ok.inj listed, List.map_append, Message.rows_values, ih others, List.filterMap_cons]
        cases message.values? <;> rfl

theorem rowsAfter_error (failed : rowsAfter names reply = .error fault) :
    ∃ before message after, reply = before ++ message :: after ∧ (∃ rows, rowsAfter names before = .ok rows) ∧
      message.fault? ((latestColumns before).or names) = some fault := by
  induction reply generalizing names with
  | nil => cases failed
  | cons message rest ih =>
    rw [rowsAfter_cons] at failed
    cases faulty : message.fault? names with
    | some own =>
      rw [faulty] at failed
      obtain rfl := Except.error.inj failed
      exact ⟨[], message, rest, rfl, ⟨[], rfl⟩, by simpa [latestColumns] using faulty⟩
    | none =>
      rw [faulty, Option.elim_none] at failed
      cases others : rowsAfter (message.columns?.or names) rest with
      | ok later => simp [others, Except.map] at failed
      | error own =>
        rw [others] at failed
        obtain rfl := Except.error.inj failed
        obtain ⟨before, first, after, rfl, ⟨rows, listed⟩, fault⟩ := ih others
        refine ⟨message :: before, first, after, rfl, ⟨message.rows names ++ rows, ?_⟩, ?_⟩
        · rw [rowsAfter_cons, faulty, listed]
          rfl
        · rw [latestColumns_cons, fault]

theorem rows_split (listed : (before ++ message :: after).rows = .ok rows) :
    message.fault? (latestColumns before) = none ∧ ∃ earlier later, before.rows = .ok earlier ∧
      rows = earlier ++ (message.rows (latestColumns before) ++ later) := by
  rw [Reply.rows, rowsAfter_append, Option.or_none] at listed
  cases earlier : rowsAfter none before with
  | error fault => simp [earlier, Except.bind] at listed
  | ok first =>
    rw [earlier, Except.bind, rowsAfter_cons] at listed
    cases faulty : message.fault? (latestColumns before) with
    | some fault => simp [faulty, Except.map] at listed
    | none =>
      rw [faulty, Option.elim_none] at listed
      cases others : rowsAfter (message.columns?.or (latestColumns before)) after with
      | error fault => simp [others, Except.map] at listed
      | ok later =>
        rw [others] at listed
        exact ⟨rfl, first, later, earlier, (Except.ok.inj listed).symm⟩

theorem fault?_row_eq_none {values : List (Option String)} :
    (Message.row values).fault? names = none ↔ ∃ known, names = some known ∧ values.length = known.length := by
  cases names <;> simp [Message.fault?]

theorem rows_isOk_iff (reply : Reply) : (∃ rows, reply.rows = .ok rows) ↔ reply.Regular := by
  constructor
  · rintro ⟨rows, listed⟩
    refine ⟨fun member => ?_, fun before values after split => ?_⟩
    · obtain ⟨before, after, split⟩ := List.append_of_mem member
      have sound := (rows_split (split ▸ listed)).1
      cases sound
    · exact fault?_row_eq_none.mp (rows_split (split ▸ listed)).1
  · rintro ⟨errorFree, headed⟩
    cases listed : reply.rows with
    | ok rows => exact ⟨rows, rfl⟩
    | error fault =>
      obtain ⟨before, message, after, split, -, faulty⟩ := rowsAfter_error listed
      rw [Option.or_none] at faulty
      cases message with
      | error => exact absurd (split ▸ by simp) errorFree
      | row values =>
        rw [fault?_row_eq_none.mpr (headed before values after split)] at faulty
        cases faulty
      | _ => cases faulty

theorem rows_values (listed : reply.rows = .ok rows) : rows.map Row.values = reply.filterMap Message.values? :=
  rowsAfter_values listed

theorem rows_columns {values : List (Option String)} (listed : reply.rows = .ok rows)
    (split : reply = before ++ .row values :: after) :
    ∃ names, latestColumns before = some names ∧
      rows[(before.filterMap Message.values?).length]? = some ⟨names, values⟩ := by
  subst split
  obtain ⟨sound, earlier, later, first, rfl⟩ := rows_split listed
  obtain ⟨names, known, -⟩ := fault?_row_eq_none.mp sound
  refine ⟨names, known, ?_⟩
  rw [← rows_values first, List.length_map, List.getElem?_append_right (Nat.le_refl _)]
  simp [Message.rows, Message.values?, known]

theorem rows_error (failed : reply.rows = .error fault) :
    ∃ before message after, reply = before ++ message :: after ∧ Regular before ∧
      message.fault? (latestColumns before) = some fault := by
  obtain ⟨before, message, after, split, sound, faulty⟩ := rowsAfter_error failed
  rw [Option.or_none] at faulty
  exact ⟨before, message, after, split, (rows_isOk_iff before).mp sound, faulty⟩

end Reply

end SqlSelect
