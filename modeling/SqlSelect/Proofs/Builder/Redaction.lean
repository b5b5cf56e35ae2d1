import SqlSelect.Proofs.Builder.Take

namespace SqlSelect

theorem map_eq_map_cases {α β : Type} {f : α → β} {x y : Except Error α} (same : x.map f = y.map f) :
    (∃ error, x = .error error ∧ y = .error error) ∨ ∃ a b, x = .ok a ∧ y = .ok b ∧ f a = f b := by
  cases x <;> cases y <;> simp_all [Except.map]

def Condition.redacted (condition : Condition) : Condition :=
  { condition with value := "" }

def Clauses.redacted (clauses : Clauses) : Clauses :=
  { clauses with conditions := clauses.conditions.map Condition.redacted }

def Builder.redacted (b : Builder) : Builder :=
  b.modify Clauses.redacted

def Call.redacted : Call → Call
  | .filter field operator _ => .filter field operator ""
  | .refine conjunction field operator _ => .refine conjunction field operator ""
  | call => call

namespace Statement

def redacted (q : Statement) : Statement :=
  { q with params := q.params.map fun _ => "" }

theorem numbered_redacted (q : Statement) : q.redacted.numbered = q.numbered := by
  have slots : (q.params.map fun _ => "").mapIdx (fun index _ => "$" ++ toString (index + 1)) =
      q.params.mapIdx fun index _ => "$" ++ toString (index + 1) :=
    List.ext_getElem (by simp) (by simp)
  exact congrArg (weave q.segments) slots

theorem appendCondition_redacted (q : Statement) (lead : String) (condition : Condition) :
    q.redacted.appendCondition lead condition.redacted = (q.appendCondition lead condition).redacted := by
  simp [appendCondition, append, bindValue, redacted, Condition.redacted]

theorem appendConditions_redacted (q : Statement) (conditions : List Condition) :
    q.redacted.appendConditions (conditions.map Condition.redacted) = (q.appendConditions conditions).redacted := by
  cases conditions with
  | nil => rfl
  | cons first rest =>
    simp only [List.map_cons, appendConditions, appendCondition_redacted]
    generalize q.appendCondition "WHERE" first = q
    induction rest generalizing q with
    | nil => rfl
    | cons condition rest ih =>
      rw [List.map_cons, List.foldl_cons, appendCondition_redacted, ih, List.foldl_cons]
      rfl

structure Alike (q r : Statement) : Prop where
  sql : q.sql = r.sql
  numbered : q.numbered = r.numbered
  paramCount : q.params.length = r.params.length

theorem alike_of_redacted {q r : Statement} (same : q.redacted = r.redacted) : q.Alike r := by
  have params := congrArg (List.length ∘ Statement.params) same
  have sql : q.redacted.sql = r.redacted.sql := by rw [same]
  refine ⟨sql, ?_, by simpa [redacted] using params⟩
  rw [← q.numbered_redacted, same, r.numbered_redacted]

end Statement

inductive Compiled.Alike : Except Error Statement → Except Error Statement → Prop
  | failed (error : Error) : Alike (.error error) (.error error)
  | ok {q r : Statement} (statements : q.Alike r) : Alike (.ok q) (.ok r)

theorem Compiled.alike_of_redacted {x y : Except Error Statement}
    (same : x.map Statement.redacted = y.map Statement.redacted) : Compiled.Alike x y := by
  rcases map_eq_map_cases same with ⟨error, rfl, rfl⟩ | ⟨q, r, rfl, rfl, statements⟩
  · exact .failed error
  · exact .ok (Statement.alike_of_redacted statements)

theorem compile_redacted (table : String) (clauses : Clauses) :
    compile table clauses.redacted = (compile table clauses).map Statement.redacted := by
  simp only [compile, Bind.bind, Except.bind]
  rw [show clauses.redacted.joins.mapM Join.render = clauses.joins.mapM Join.render from rfl]
  cases clauses.joins.mapM Join.render with
  | error error => rfl
  | ok joins =>
    have filled (text : String) := Statement.appendConditions_redacted (.ofText text) clauses.conditions
    exact congrArg (fun q => Except.ok (q.append (clauses.grouping ++ clauses.ordering))) (filled _)

theorem exists_compile_of_redacted {table : String} {clauses others : Clauses} {q : Statement}
    (same : others.redacted = clauses.redacted) (compiled : compile table clauses = .ok q) :
    ∃ r, compile table others = .ok r ∧ r.Alike q := by
  have results : Compiled.Alike (compile table others) (compile table clauses) :=
    Compiled.alike_of_redacted (by rw [← compile_redacted, same, compile_redacted])
  rw [compiled] at results
  generalize compile table others = result at results ⊢
  cases results with
  | ok statements => exact ⟨_, rfl, statements⟩

namespace Clauses

theorem isEmpty_redacted (clauses : Clauses) : clauses.redacted.isEmpty = clauses.isEmpty := by
  simp [isEmpty, redacted]

theorem counts_redacted (clauses : Clauses) : clauses.redacted.counts = clauses.counts := by
  simp [counts, redacted]

theorem counts_alike {clauses other : Clauses} (same : clauses.redacted = other.redacted) :
    clauses.counts = other.counts := by
  rw [← counts_redacted, same, counts_redacted]

theorem beyond_redacted (clauses earlier : Clauses) :
    clauses.redacted.beyond earlier.redacted = (clauses.beyond earlier).redacted := by
  simp [beyond, redacted]

theorem length_values_redacted (clauses : Clauses) : clauses.redacted.values.length = clauses.values.length := by
  simp [values, redacted]

end Clauses

namespace Builder

theorem compile_redacted (b : Builder) : b.redacted.compile = b.compile.map Statement.redacted :=
  SqlSelect.compile_redacted b.table b.clauses

theorem apply_redacted (b : Builder) (call : Call) :
    b.redacted.apply call.redacted = (b.apply call).map redacted := by
  cases call with
  | refine conjunction field operator value =>
    cases conditions : b.clauses.conditions with
    | nil => simp [apply, Call.redacted, redacted, modify, Clauses.redacted, conditions, Except.map]
    | cons first rest =>
      simp [apply, Call.redacted, redacted, addCondition, modify, Clauses.redacted, conditions, Condition.redacted,
        Except.map]
  | _ =>
    simp [apply, Call.redacted, redacted, addCondition, modify, reset, Clauses.redacted, Condition.redacted, Except.map]

def Taken.redacted (taken : Taken) : Taken :=
  { taken with statement := taken.statement.redacted, builder := taken.builder.redacted }

/-- The event of a dispatch is the same for the redacted builder: it is made from the text with the markers. -/
theorem take_redacted (b : Builder) (reset : Bool) :
    b.redacted.take reset = (b.take reset).map Taken.redacted := by
  rw [take_eq, take_eq, compile_redacted]
  cases b.compile with
  | error error => rfl
  | ok q =>
    have event : q.redacted.params.length = q.params.length := by simp [Statement.redacted]
    simp only [Except.map, Taken.redacted, event]
    cases reset <;> rfl

variable {b c : Builder}

theorem compile_alike (same : b.redacted = c.redacted) : Compiled.Alike b.compile c.compile :=
  Compiled.alike_of_redacted (by rw [← b.compile_redacted, same, c.compile_redacted])

theorem apply_alike (same : b.redacted = c.redacted) {call other : Call} (calls : call.redacted = other.redacted) :
    (∃ error, b.apply call = .error error ∧ c.apply other = .error error) ∨
      ∃ mine theirs, b.apply call = .ok mine ∧ c.apply other = .ok theirs ∧ mine.redacted = theirs.redacted :=
  map_eq_map_cases (by rw [← b.apply_redacted, same, calls, c.apply_redacted])

theorem take_alike (same : b.redacted = c.redacted) (reset : Bool) :
    (∃ error, b.take reset = .error error ∧ c.take reset = .error error) ∨
      ∃ mine theirs, b.take reset = .ok mine ∧ c.take reset = .ok theirs ∧
        mine.statement.redacted = theirs.statement.redacted ∧ mine.event = theirs.event ∧
        mine.builder.redacted = theirs.builder.redacted := by
  have projected : (b.take reset).map Taken.redacted = (c.take reset).map Taken.redacted := by
    rw [← b.take_redacted, same, c.take_redacted]
  rcases map_eq_map_cases projected with failed | ⟨mine, theirs, own, other, taken⟩
  · exact .inl failed
  · exact .inr ⟨mine, theirs, own, other, congrArg Taken.statement taken, (congrArg Taken.event taken :),
      congrArg Taken.builder taken⟩

end Builder

end SqlSelect
