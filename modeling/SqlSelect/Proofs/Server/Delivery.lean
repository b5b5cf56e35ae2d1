import SqlSelect.Proofs.Server.Rows
import SqlSelect.Proofs.Session.Accounting
import SqlSelect.Proofs.Statement.Containment
import Mathlib.Data.List.Forall2

namespace SqlSelect

theorem Literal.mem_double {special : Char → Bool} {c : Char} {s : List Char} : c ∈ double special s ↔ c ∈ s := by
  induction s with
  | nil => simp [double]
  | cons d s ih =>
    rw [double]
    split <;> simp [ih]

theorem Literal.avoids_escaped_iff {c : Char} {value : String} (foreign : c ∉ Clauses.alphabet) (plain : c ≠ '\'') :
    Text.Avoids c (escaped value) ↔ Text.Avoids c value := by
  have opened : Text.Avoids c "E'" := by
    have word : c ≠ 'E' := fun same => foreign (same ▸ by decide)
    simp [Text.Avoids, word, plain]
  have closed : Text.Avoids c "'" := by simp [Text.Avoids, plain]
  rw [escaped, Text.avoids_append, Text.avoids_append, and_iff_left closed, and_iff_right opened]
  simp [Text.Avoids, mem_double]

theorem Layout.avoids_fill {layout : Layout} {c : Char} {slot : Nat → String → String} (without : layout.Without c)
    (slots : ∀ index, ∀ value ∈ layout.values, Text.Avoids c (slot index value)) :
    Text.Avoids c (layout.fill slot) := by
  rw [fill, Text.avoids_append]
  refine ⟨Text.Avoids.join fun text member => ?_, without.2⟩
  obtain ⟨index, bound, rfl⟩ := List.mem_mapIdx.mp member
  have here := List.getElem_mem bound
  exact Text.avoids_append.mpr ⟨without.1 _ here, slots index _ (List.mem_map_of_mem here)⟩

theorem Layout.within_fill {layout : Layout} {value : String} (bound : value ∈ layout.values)
    (slot : String → String) : Text.Within (slot value) (layout.fill fun _ => slot) := by
  obtain ⟨stretch, member, rfl⟩ := List.mem_map.mp bound
  obtain ⟨index, inside, rfl⟩ := List.getElem_of_mem member
  have joined : Text.Within (layout.stretches[index].text ++ slot layout.stretches[index].value)
      (String.join (layout.stretches.mapIdx fun _ stretch => stretch.text ++ slot stretch.value)) :=
    .join (List.mem_mapIdx.mpr ⟨index, inside, rfl⟩)
  exact ((Text.Within.right _ _).trans joined).append_right layout.last

/-- Escaping and splicing neither bring in a character that no statement has of its own nor lose one. -/
theorem avoids_escaped_statement_iff {table : String} {clauses : Clauses} {q : Statement} {c : Char}
    (compiled : compile table clauses = .ok q) (foreign : c ∉ Clauses.alphabet) (plain : c ≠ '\'') :
    Text.Avoids c q.escaped ↔ ∀ text ∈ clauses.suppliedTexts table ++ clauses.values, Text.Avoids c text := by
  rw [compile_eq_layout table clauses (outerFree_of_compile compiled)] at compiled
  obtain rfl := Except.ok.inj compiled
  rw [Statement.escaped, Layout.fill_statement]
  constructor
  · intro avoids text member
    rcases List.mem_append.mp member with supplied | value
    · have inside := Clauses.within_render supplied fun _ value => Literal.escaped value
      rw [← Clauses.fill_layout] at inside
      exact fun found => avoids (List.IsInfix.subset inside found)
    · rw [← clauses.values_layout table] at value
      have inside := Layout.within_fill value Literal.escaped
      rw [← Literal.avoids_escaped_iff foreign plain]
      exact fun found => avoids (List.IsInfix.subset inside found)
  · intro absent
    refine Layout.avoids_fill (Clauses.layout_without foreign fun text member => ?_) fun _ value member => ?_
    · exact absent text (List.mem_append_left _ member)
    · rw [clauses.values_layout] at member
      exact (Literal.avoids_escaped_iff foreign plain).mpr (absent value (List.mem_append_right _ member))

/-- Whether the statement can be sent. A NUL in its text would end it on the wire. -/
def Statement.isSendable (q : Statement) : Bool :=
  !q.escaped.toList.contains '\x00'

theorem Client.Documented.encodes_escaped {client : Client} (documented : client.Documented) (q : Statement) :
    client.encodes q.escaped = q.isSendable := by
  rw [Bool.eq_iff_iff, documented.encodes]
  simp [Statement.isSendable]

theorem isSendable_iff {table : String} {clauses : Clauses} {q : Statement} (compiled : compile table clauses = .ok q) :
    q.isSendable = true ↔ ∀ text ∈ clauses.suppliedTexts table ++ clauses.values, Text.Avoids '\x00' text := by
  rw [← avoids_escaped_statement_iff compiled (by decide) (by decide)]
  simp [Statement.isSendable, Text.Avoids]

/-- What a run comes to and reports when its statement was answered by a reply. -/
structure Run.Answered (run : Run) (reply : Reply) : Prop where
  succeeds : (∃ rows, run.result = .ok (.rows rows)) ↔ reply.Regular
  values : ∀ rows, run.result = .ok (.rows rows) → rows.map Row.values = reply.filterMap Message.values?
  columns : ∀ rows, run.result = .ok (.rows rows) → ∀ before values after, reply = before ++ .row values :: after →
    ∃ names, Reply.latestColumns before = some names ∧
      rows[(before.filterMap Message.values?).length]? = some ⟨names, values⟩
  completed : ∀ rows, run.result = .ok (.rows rows) → run.events = [.completed rows.length]
  failed : (∀ rows, run.result ≠ .ok (.rows rows)) → run.events = [] ∧
    ∃ before message after fault, reply = before ++ message :: after ∧ Reply.Regular before ∧
      message.fault? (Reply.latestColumns before) = some fault ∧ run.result = .error (.query fault)

namespace Executor

def trace (executor : Executor) : List Statement → List Run
  | [] => []
  | q :: rest => executor.run q :: (executor.run q).executor.trace rest

theorem runAll_results (executor : Executor) (qs : List Statement) :
    (executor.runAll qs).2 = (executor.trace qs).map Run.result := by
  induction qs generalizing executor with
  | nil => rfl
  | cons q rest ih => simp [runAll, trace, ih]

section

variable {client : Client} (documented : client.Documented) (connected : Bool) (replies : List Reply)

theorem run_available (client : Client) (q : Statement) :
    (server (.available connected) replies client).run q = send client replies q.escaped := rfl

include documented

theorem send_refused {q : Statement} (refused : q.isSendable = false) :
    send client replies q.escaped =
      ⟨.error (.query .notEncodable), .server (.available true) replies client, [], []⟩ := by
  simp [send, documented.encodes_escaped, refused]

theorem send_executor (q : Statement) :
    (send client replies q.escaped).executor =
      .server (.available true) (if q.isSendable then replies.tail else replies) client := by
  rw [send, documented.encodes_escaped]
  cases q.isSendable with
  | false => rfl
  | true => cases client.receive (replies.headD []) <;> rfl

theorem send_sent (q : Statement) :
    (send client replies q.escaped).sent = if q.isSendable then [q.escaped] else [] := by
  rw [send, documented.encodes_escaped]
  cases q.isSendable with
  | false => rfl
  | true => cases client.receive (replies.headD []) <;> rfl

theorem send_answered {q : Statement} (sendable : q.isSendable = true) :
    (send client replies q.escaped).Answered (replies.headD []) := by
  have encodes := (documented.encodes_escaped q).trans sendable
  generalize shape : replies.headD [] = reply
  have regular := reply.rows_isOk_iff
  have listed := Reply.rows_of_documented documented reply
  cases received : client.receive reply with
  | ok messages =>
    let rows := collectRows messages
    rw [received] at listed
    have run : send client replies q.escaped =
        ⟨.ok (.rows rows), .server (.available true) replies.tail client, [q.escaped], [.completed rows.length]⟩ := by
      simp only [send, encodes, shape, received, Bool.not_true, Bool.false_eq_true, if_false, rows]
    rw [run]
    constructor
    · simp [← regular, listed, Except.map]
    · rintro _ ⟨⟩
      exact Reply.rows_values listed
    · rintro _ ⟨⟩ before values after split
      exact Reply.rows_columns listed split
    · rintro _ ⟨⟩
      rfl
    · intro never
      exact absurd rfl (never rows)
  | error fault =>
    rw [received] at listed
    have run : send client replies q.escaped =
        ⟨.error (.query fault), .server (.available true) replies.tail client, [q.escaped], []⟩ := by
      simp only [send, encodes, shape, received, Bool.not_true, Bool.false_eq_true, if_false]
    rw [run]
    constructor
    · simp [← regular, listed, Except.map]
    · rintro _ ⟨⟩
    · rintro _ ⟨⟩
    · rintro _ ⟨⟩
    · intro _
      obtain ⟨before, message, after, split, sound, faulty⟩ := Reply.rows_error listed
      exact ⟨rfl, before, message, after, fault, split, sound, faulty, rfl⟩

theorem getElem?_trace (qs : List Statement) (index : Nat) :
    ((server (.available connected) replies client).trace qs)[index]? =
      qs[index]?.map fun q => send client (replies.drop ((qs.take index).countP Statement.isSendable)) q.escaped := by
  induction qs generalizing connected replies index with
  | nil => rfl
  | cons q rest ih =>
    rw [trace, run_available, send_executor documented]
    cases index with
    | zero => rfl
    | succ index =>
      rw [List.getElem?_cons_succ, List.getElem?_cons_succ, ih, List.take_succ_cons, List.countP_cons]
      cases sendable : q.isSendable <;> simp

theorem sent_trace (qs : List Statement) :
    ((server (.available connected) replies client).trace qs).flatMap Run.sent =
      (qs.filter Statement.isSendable).map Statement.escaped := by
  induction qs generalizing connected replies with
  | nil => rfl
  | cons q rest ih =>
    rw [trace, List.flatMap_cons, run_available, send_executor documented, ih, send_sent documented, List.filter_cons]
    cases sendable : q.isSendable <;> simp

end

theorem length_trace (executor : Executor) (qs : List Statement) : (executor.trace qs).length = qs.length := by
  induction qs generalizing executor with
  | nil => rfl
  | cons q rest ih => simp [trace, ih]

theorem trace_unavailable {access : Access} (unavailable : ∀ connected, access ≠ .available connected)
    (replies : List Reply) (client : Client) (qs : List Statement) :
    ∀ run ∈ (server access replies client).trace qs, run.sent = [] ∧ run.events = [] ∧
      run.executor = server access replies client ∧ ∃ fault, run.result = .error (.pool fault) := by
  have same (q : Statement) : ((server access replies client).run q).executor = server access replies client := by
    cases access with
    | available connected => exact absurd rfl (unavailable connected)
    | _ => rfl
  induction qs with
  | nil => simp [trace]
  | cons q rest ih =>
    intro run member
    rw [trace, same] at member
    rcases List.mem_cons.mp member with rfl | later
    · cases access with
      | available connected => exact absurd rfl (unavailable connected)
      | _ => exact ⟨rfl, rfl, rfl, _, rfl⟩
    · exact ih run later

end Executor

/-- Over a connection every statement without a NUL is sent as its escaped text and takes the next reply, and one with
    a NUL in any part of it fails on the spot. What an answered run comes to is read off its reply alone. -/
theorem replies_in_order {client : Client} (documented : client.Documented) (connected : Bool) (replies : List Reply)
    {sources : List (String × Clauses)} {qs : List Statement}
    (compiled : List.Forall₂ (fun source q => compile source.1 source.2 = .ok q) sources qs) :
    let server := Executor.server (.available connected) replies client
    let runs := server.trace qs
    runs.length = qs.length ∧ runs.map Run.result = (server.runAll qs).2 ∧
    runs.flatMap Run.sent = (qs.filter Statement.isSendable).map Statement.escaped ∧
    (∀ index table clauses q run, sources[index]? = some (table, clauses) → qs[index]? = some q →
      runs[index]? = some run →
      let texts := clauses.suppliedTexts table ++ clauses.values
      let answered := (qs.take index).countP Statement.isSendable
      ((∃ text ∈ texts, '\x00' ∈ text.toList) → q.isSendable = false ∧
        run = ⟨.error (.query .notEncodable), .server (.available true) (replies.drop answered) client, [], []⟩) ∧
      ((∀ text ∈ texts, '\x00' ∉ text.toList) → q.isSendable = true ∧ run.sent = [q.escaped] ∧
        run.executor = .server (.available true) (replies.drop (answered + 1)) client ∧
        run.Answered (replies.getD answered []))) ∧
    ∀ access, (∀ connected, access ≠ .available connected) → ∀ run ∈ (Executor.server access replies client).trace qs,
      run.sent = [] ∧ run.events = [] ∧ run.executor = .server access replies client ∧
        ∃ fault, run.result = .error (.pool fault) := by
  intro server runs
  refine ⟨server.length_trace qs, (server.runAll_results qs).symm, Executor.sent_trace documented connected replies qs,
    ?_, fun access unavailable => Executor.trace_unavailable unavailable replies client qs⟩
  intro index table clauses q run source statement here texts answered
  have own : compile table clauses = .ok q := by
    obtain ⟨bound, at_source⟩ := List.getElem?_eq_some_iff.mp source
    obtain ⟨bound', at_statement⟩ := List.getElem?_eq_some_iff.mp statement
    have pair := (List.forall₂_iff_get.mp compiled).2 index bound bound'
    simpa [at_source, at_statement] using pair
  have ran := Executor.getElem?_trace documented connected replies qs index
  rw [statement, Option.map_some] at ran
  obtain rfl : run = Executor.send client (replies.drop answered) q.escaped := Option.some.inj (here.symm.trans ran)
  have sendable := isSendable_iff own
  constructor
  · rintro ⟨text, member, found⟩
    have refused : q.isSendable = false := by
      rw [Bool.eq_false_iff, Ne, sendable]
      exact fun absent => absent text member found
    exact ⟨refused, Executor.send_refused documented _ refused⟩
  · intro absent
    have accepted : q.isSendable = true := sendable.mpr absent
    have answers := Executor.send_answered documented (replies.drop answered) accepted
    rw [List.headD_eq_head?_getD, List.head?_drop, ← List.getD_eq_getElem?_getD] at answers
    refine ⟨accepted, ?_, ?_, answers⟩
    · rw [Executor.send_sent documented, accepted, if_pos rfl]
    · rw [Executor.send_executor documented, accepted, if_pos rfl, List.tail_drop]

/-- The statement in the middle holds a NUL, so the one after it gets the second reply, whose row comes too early. -/
theorem replies_in_order_twoSent :
    let binding (value : String) : Clauses := { conditions := [⟨"a", .eq, .and, value⟩] }
    let sources : List (String × Clauses) := [("t", {}), ("t", binding "\x00"), ("t", binding "1")]
    let first : Reply :=
      [.columns ["x"], .row [some "1"], .complete, .columns ["y", "z"], .notice, .row [none, some "2"]]
    let qs : List Statement :=
      [⟨"SELECT * FROM t", [], []⟩, ⟨"SELECT * FROM t WHERE a = ?", ["\x00"], [26]⟩,
        ⟨"SELECT * FROM t WHERE a = ?", ["1"], [26]⟩]
    let runs := (Executor.server (.available false) [first, [.emptyQuery, .row [none]]]).trace qs
    Client.standard.Documented ∧ List.Forall₂ (fun source q => compile source.1 source.2 = .ok q) sources qs ∧
      runs.flatMap Run.sent = ["SELECT * FROM t", "SELECT * FROM t WHERE a = E'1'"] ∧
      runs.map Run.result = [.ok (.rows [⟨["x"], [some "1"]⟩, ⟨["y", "z"], [none, some "2"]⟩]),
        .error (.query .notEncodable), .error (.query .rowBeforeColumns)] := by
  intro binding sources first qs runs
  have bound : compile "t" { conditions := [⟨"a", .eq, .and, "1"⟩] } =
      .ok ⟨"SELECT * FROM t WHERE a = ?", ["1"], [26]⟩ :=
    (compile_eq_layout _ _ (by decide)).trans (congrArg Except.ok (by decide))
  have unsendable : compile "t" { conditions := [⟨"a", .eq, .and, "\x00"⟩] } =
      .ok ⟨"SELECT * FROM t WHERE a = ?", ["\x00"], [26]⟩ :=
    (compile_eq_layout _ _ (by decide)).trans (congrArg Except.ok (by decide))
  have compiled : List.Forall₂ (fun source q => compile source.1 source.2 = .ok q) sources qs :=
    .cons rfl (.cons unsendable (.cons bound .nil))
  obtain ⟨-, results, sent, -⟩ :=
    replies_in_order Client.documented_standard false [first, [.emptyQuery, .row [none]]] compiled
  exact ⟨Client.documented_standard, compiled, sent.trans (by decide), results.trans (by decide)⟩

/-- No error and no row before the first column names is not enough: a row with a value too many ends its query. -/
theorem misfit_row_refused :
    let reply : Reply := [.columns ["a"], .row [some "1", some "2"]]
    Message.error ∉ reply ∧
      (∀ before values after, reply = before ++ .row values :: after → (Reply.latestColumns before).isSome = true) ∧
      compile "t" {} = .ok ⟨"SELECT * FROM t", [], []⟩ ∧
      ((Executor.server (.available true) [reply]).run ⟨"SELECT * FROM t", [], []⟩).result =
        .error (.query .rowMisfit) := by
  intro reply
  refine ⟨by decide, ?_, rfl, rfl⟩
  intro before values after split
  cases before with
  | nil => exact absurd (List.cons.inj split).1 nofun
  | cons first rest =>
    obtain ⟨rfl, -⟩ := List.cons.inj split
    simp [Reply.latestColumns, Message.columns?, List.getLast?_cons]

end SqlSelect
