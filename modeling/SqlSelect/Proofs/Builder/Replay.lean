import SqlSelect.Clause.Record
import SqlSelect.Proofs.Builder.Contribution
import SqlSelect.Proofs.Builder.Fragments
import SqlSelect.Spelling

namespace SqlSelect

/-- What holds of clauses that were collected by calls. -/
structure Clauses.WellFormed (clauses : Clauses) : Prop where
  fragments : ∀ text ∈ clauses.selects, IsFragment text
  leading : ∀ first ∈ clauses.conditions.head?, first.conjunction = .and

theorem Clauses.wellFormed_empty : ({} : Clauses).WellFormed := by
  constructor <;> simp

theorem Builder.wellFormed_apply {b after : Builder} {call : Call} (wellFormed : b.clauses.WellFormed)
    (applied : b.apply call = .ok after) : after.clauses.WellFormed := by
  have fragments := wellFormed.fragments
  have leading := wellFormed.leading
  cases call with
  | select fields =>
    obtain rfl := Except.ok.inj applied
    refine ⟨fun text member => ?_, leading⟩
    rcases List.mem_append.mp member with earlier | added
    · exact fragments text earlier
    · exact isFragment_of_mem added
  | filter field operator value =>
    obtain rfl := Except.ok.inj applied
    refine ⟨fragments, fun first member => ?_⟩
    simp only [addCondition, modify, List.head?_append] at member
    cases earlier : b.clauses.conditions.head? with
    | none =>
      rw [earlier] at member
      rw [← Option.some.inj member]
    | some old =>
      rw [earlier] at member
      exact leading first (earlier ▸ member)
  | refine conjunction field operator value =>
    simp only [apply] at applied
    split at applied
    · cases applied
    · rename_i started
      obtain rfl := Except.ok.inj applied
      refine ⟨fragments, fun first member => leading first ?_⟩
      rwa [addCondition, modify, List.head?_append_of_ne_nil _ (by simpa using started)] at member
  | reset =>
    obtain rfl := Except.ok.inj applied
    exact Clauses.wellFormed_empty
  | _ =>
    obtain rfl := Except.ok.inj applied
    exact ⟨fragments, leading⟩

def ConditionRecord.filter? (record : ConditionRecord) : Option Call := do
  let operator ← (Operator.read record.operator).toOption
  some (.filter record.field operator record.value)

def ConditionRecord.refine? (record : ConditionRecord) : Option Call := do
  let conjunction ← (Conjunction.read record.conjunction).toOption
  let operator ← (Operator.read record.operator).toOption
  some (.refine conjunction record.field operator record.value)

def JoinRecord.call? (record : JoinRecord) : Option Call := do
  let kind ← JoinKind.ofSpelling? record.kind
  some (.join record.table record.condition kind)

def SortKeyRecord.call? (record : SortKeyRecord) : Option Call := do
  let direction ← (Direction.read record.direction).toOption
  some (.orderBy record.field direction)

namespace ClauseRecord

/-- The first condition is put in on its own, every later one through its conjunction. -/
def conditionCalls : List ConditionRecord → List (Option Call)
  | [] => []
  | first :: rest => first.filter? :: rest.map ConditionRecord.refine?

/-- The calls that put the clauses in again, if all keywords in the record can be read. -/
def calls? (record : ClauseRecord) : Option (List Call) :=
  (record.selects.map (fun text => some (Call.select text)) ++ conditionCalls record.conditions ++
    record.joins.map JoinRecord.call? ++ record.sortKeys.map SortKeyRecord.call? ++
    record.groups.map (fun text => some (Call.groupBy text))).mapM id

end ClauseRecord

namespace Clauses

def conditionCalls : List Condition → List Call
  | [] => []
  | first :: rest => .filter first.field first.operator first.value ::
      rest.map fun condition => .refine condition.conjunction condition.field condition.operator condition.value

def calls (clauses : Clauses) : List Call :=
  clauses.selects.map .select ++ conditionCalls clauses.conditions ++
    clauses.joins.map (fun join => .join join.table join.condition join.kind) ++
    clauses.sortKeys.map (fun key => .orderBy key.field key.direction) ++ clauses.groups.map .groupBy

theorem conditionCalls_record (conditions : List Condition) :
    ClauseRecord.conditionCalls (conditions.map Condition.record) = (conditionCalls conditions).map some := by
  cases conditions with
  | nil => rfl
  | cons first rest =>
    simp [ClauseRecord.conditionCalls, conditionCalls, ConditionRecord.filter?, ConditionRecord.refine?,
      Condition.record, Operator.serialized_eq, Operator.read_spelling, Conjunction.serialized_eq,
      Conjunction.read_spelling, Except.toOption]

theorem calls?_record (clauses : Clauses) : clauses.record.calls? = some clauses.calls := by
  have joins : (clauses.joins.map Join.record).map JoinRecord.call? =
      (clauses.joins.map fun join => Call.join join.table join.condition join.kind).map some := by
    simp [JoinRecord.call?, Join.record, JoinKind.serialized_eq, JoinKind.ofSpelling?_spelling]
  have keys : (clauses.sortKeys.map SortKey.record).map SortKeyRecord.call? =
      (clauses.sortKeys.map fun key => Call.orderBy key.field key.direction).map some := by
    simp [SortKeyRecord.call?, SortKey.record, Direction.serialized_eq, Direction.read_spelling, Except.toOption]
  have written : clauses.record.calls? = (clauses.calls.map some).mapM id := by
    simp only [ClauseRecord.calls?, record, conditionCalls_record, joins, keys, calls, List.map_append, List.map_map]
    rfl
  rw [written, List.mapM_map]
  exact (List.mapM_pure (f := id)).trans (congrArg some (List.map_id _))

theorem ofCalls_conditionCalls {conditions : List Condition}
    (leading : ∀ first ∈ conditions.head?, first.conjunction = .and) :
    ofCalls (conditionCalls conditions) = { conditions } := by
  cases conditions with
  | nil => rfl
  | cons first rest =>
    have conjunction : Condition.mk first.field first.operator .and first.value = first := by
      rw [← leading first rfl]
    simp [ofCalls, conditionCalls, Call.contribution, List.flatMap_map, conjunction]

theorem ofCalls_calls {clauses : Clauses} (wellFormed : clauses.WellFormed) : ofCalls clauses.calls = clauses := by
  have selects : ofCalls (clauses.selects.map .select) = { selects := clauses.selects } := by
    have each : clauses.selects.flatMap fragments = clauses.selects.flatMap fun text => [text] :=
      List.flatMap_congr fun text member => (wellFormed.fragments text member).fragments_eq
    simp [ofCalls, List.flatMap_map, Call.contribution, each]
  have joins : ofCalls (clauses.joins.map fun join => .join join.table join.condition join.kind) =
      { joins := clauses.joins } := by
    simp [ofCalls, List.flatMap_map, Call.contribution]
  have keys : ofCalls (clauses.sortKeys.map fun key => .orderBy key.field key.direction) =
      { sortKeys := clauses.sortKeys } := by
    simp [ofCalls, List.flatMap_map, Call.contribution]
  have groups : ofCalls (clauses.groups.map .groupBy) = { groups := clauses.groups } := by
    simp [ofCalls, List.flatMap_map, Call.contribution]
  simp only [calls, ofCalls_append, selects, ofCalls_conditionCalls wellFormed.leading, joins, keys, groups]
  simp [append]

def openingCalls (clauses : Clauses) : List Call :=
  clauses.selects.map .select ++ (conditionCalls clauses.conditions).take 1

def laterCalls (clauses : Clauses) : List Call :=
  (conditionCalls clauses.conditions).drop 1 ++
    clauses.joins.map (fun join => .join join.table join.condition join.kind) ++
    clauses.sortKeys.map (fun key => .orderBy key.field key.direction) ++ clauses.groups.map .groupBy

theorem calls_eq_append (clauses : Clauses) : clauses.calls = clauses.openingCalls ++ clauses.laterCalls := by
  obtain ⟨selects, conditions, joins, sortKeys, groups⟩ := clauses
  cases conditions <;> simp [calls, openingCalls, laterCalls, conditionCalls]

theorem mem_openingCalls {clauses : Clauses} {call : Call} (member : call ∈ clauses.openingCalls) :
    call ≠ .reset ∧ call.needsCondition = false := by
  rcases List.mem_append.mp member with select | first
  · obtain ⟨text, -, rfl⟩ := List.mem_map.mp select
    exact ⟨Call.noConfusion, rfl⟩
  · cases conditions : clauses.conditions with
    | nil => simp [conditions, conditionCalls] at first
    | cons condition rest =>
      obtain rfl : call = .filter condition.field condition.operator condition.value := by
        simpa [conditions, conditionCalls] using first
      exact ⟨Call.noConfusion, rfl⟩

theorem mem_laterCalls {clauses : Clauses} {call : Call} (member : call ∈ clauses.laterCalls) :
    call ≠ .reset ∧ (call.needsCondition = true → (ofCalls clauses.openingCalls).conditions ≠ []) := by
  simp only [laterCalls, List.mem_append, List.mem_map] at member
  rcases member with ((later | ⟨join, -, rfl⟩) | ⟨key, -, rfl⟩) | ⟨group, -, rfl⟩
  · cases conditions : clauses.conditions with
    | nil => simp [conditions, conditionCalls] at later
    | cons condition rest =>
      have started : (ofCalls clauses.openingCalls).conditions ≠ [] := by
        simp [openingCalls, conditions, conditionCalls, ofCalls, Call.contribution]
      rw [conditions] at later
      obtain ⟨further, -, rfl⟩ := List.mem_map.mp later
      exact ⟨Call.noConfusion, fun _ => started⟩
  · exact ⟨Call.noConfusion, fun needs => absurd needs Bool.false_ne_true⟩
  · exact ⟨Call.noConfusion, fun needs => absurd needs Bool.false_ne_true⟩
  · exact ⟨Call.noConfusion, fun needs => absurd needs Bool.false_ne_true⟩

/-- The calls go through on any empty builder: the first condition comes before all that need one. -/
theorem foldlM_calls {clauses : Clauses} (wellFormed : clauses.WellFormed) {b : Builder} (empty : b.clauses = {}) :
    clauses.calls.foldlM Builder.apply b = .ok { b with clauses } := by
  have opened : clauses.openingCalls.foldlM Builder.apply b =
      .ok { b with clauses := .ofCalls clauses.openingCalls } := by
    rw [Builder.foldlM_apply (fun call member => (mem_openingCalls member).1), empty, empty_append]
    intro call member needs
    rw [(mem_openingCalls member).2] at needs
    cases needs
  rw [calls_eq_append, List.foldlM_append, opened]
  refine (Builder.foldlM_apply (fun call member => (mem_laterCalls member).1)
    fun call member => (mem_laterCalls member).2).trans ?_
  rw [← ofCalls_append, ← calls_eq_append, ofCalls_calls wellFormed]

end Clauses

end SqlSelect
