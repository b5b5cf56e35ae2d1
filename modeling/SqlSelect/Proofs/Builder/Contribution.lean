import SqlSelect.Builder

namespace SqlSelect

/-- Two lots of clauses, one after the other in each sequence. -/
def Clauses.append (first second : Clauses) : Clauses where
  selects := first.selects ++ second.selects
  conditions := first.conditions ++ second.conditions
  joins := first.joins ++ second.joins
  sortKeys := first.sortKeys ++ second.sortKeys
  groups := first.groups ++ second.groups

namespace Call

def contribution : Call → Clauses
  | select fields => { selects := fragments fields }
  | filter field operator value => { conditions := [⟨field, operator, .and, value⟩] }
  | refine conjunction field operator value => { conditions := [⟨field, operator, conjunction, value⟩] }
  | join table condition kind => { joins := [⟨table, condition, kind⟩] }
  | orderBy field direction => { sortKeys := [⟨field, direction⟩] }
  | groupBy field => { groups := [field] }
  | reset => {}

def value? : Call → Option String
  | filter _ _ value => some value
  | refine _ _ _ value => some value
  | _ => none

theorem values_contribution (call : Call) : call.contribution.values = call.value?.toList := by
  cases call <;> rfl

end Call

namespace Clauses

/-- What calls add together, each kind in the order of its calls. -/
def ofCalls (calls : List Call) : Clauses where
  selects := calls.flatMap fun call => call.contribution.selects
  conditions := calls.flatMap fun call => call.contribution.conditions
  joins := calls.flatMap fun call => call.contribution.joins
  sortKeys := calls.flatMap fun call => call.contribution.sortKeys
  groups := calls.flatMap fun call => call.contribution.groups

theorem ofCalls_append (first second : List Call) :
    ofCalls (first ++ second) = (ofCalls first).append (ofCalls second) := by
  simp [ofCalls, append]

theorem ofCalls_singleton (call : Call) : ofCalls [call] = call.contribution := by
  simp [ofCalls]

theorem append_assoc (first second third : Clauses) :
    (first.append second).append third = first.append (second.append third) := by
  simp [append]

theorem append_empty (clauses : Clauses) : clauses.append {} = clauses := by
  simp [append]

theorem empty_append (clauses : Clauses) : ({} : Clauses).append clauses = clauses := by
  simp [append]

theorem values_ofCalls (calls : List Call) : (ofCalls calls).values = calls.filterMap Call.value? := by
  induction calls with
  | nil => rfl
  | cons call rest ih =>
    have added := call.values_contribution
    simp only [values, ofCalls, List.flatMap_cons, List.map_append] at added ih ⊢
    rw [added, ih, List.filterMap_cons]
    cases call.value? <;> rfl

end Clauses

def Call.needsCondition : Call → Bool
  | refine .. => true
  | _ => false

namespace Builder

/-- Any call goes through on a builder that has a condition already, and most do on any builder. -/
theorem apply_eq {b : Builder} {call : Call} (keeping : call ≠ .reset)
    (ready : call.needsCondition = true → b.clauses.conditions ≠ []) :
    b.apply call = .ok { b with clauses := b.clauses.append call.contribution } := by
  cases call with
  | refine conjunction field operator value =>
    have started : b.clauses.conditions.isEmpty = false := by simpa using ready rfl
    simp [apply, started, addCondition, modify, Clauses.append, Call.contribution]
  | reset => contradiction
  | _ => simp [apply, addCondition, modify, Clauses.append, Call.contribution]

theorem foldlM_apply {b : Builder} {calls : List Call} (keeping : ∀ call ∈ calls, call ≠ .reset)
    (ready : ∀ call ∈ calls, call.needsCondition = true → b.clauses.conditions ≠ []) :
    calls.foldlM apply b = .ok { b with clauses := b.clauses.append (.ofCalls calls) } := by
  induction calls generalizing b with
  | nil =>
    rw [show Clauses.ofCalls [] = {} from rfl, Clauses.append_empty]
    rfl
  | cons call rest ih =>
    have first := apply_eq (b := b) (keeping call (by simp)) (ready call (by simp))
    have others := ih (b := { b with clauses := b.clauses.append call.contribution })
      (fun other member => keeping other (List.mem_cons_of_mem _ member))
      fun other member needs => List.append_ne_nil_of_left_ne_nil (ready other (List.mem_cons_of_mem _ member) needs) _
    rw [List.foldlM_cons, first]
    refine others.trans ?_
    rw [Clauses.append_assoc, ← Clauses.ofCalls_singleton, ← Clauses.ofCalls_append]
    rfl

end Builder

/-- A successful call that does not empty the builder adds its entries behind those that are there. -/
theorem Builder.apply_ok {b after : Builder} {call : Call} (applied : b.apply call = .ok after) :
    after = { b with clauses := if call = .reset then {} else b.clauses.append call.contribution } := by
  cases call with
  | refine conjunction field operator value =>
    simp only [apply] at applied
    split at applied
    · cases applied
    · rw [← Except.ok.inj applied]
      simp [addCondition, modify, Clauses.append, Call.contribution]
  | _ =>
    rw [← Except.ok.inj applied]
    simp [addCondition, modify, reset, Clauses.append, Call.contribution]

end SqlSelect
