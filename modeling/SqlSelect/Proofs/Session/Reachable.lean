import SqlSelect.Proofs.Builder.Replay
import SqlSelect.Proofs.Session.History

namespace SqlSelect

theorem Builder.wellFormed_after {b : Builder} (wellFormed : b.clauses.WellFormed) (action : Action) :
    (b.after action).clauses.WellFormed := by
  have left : (((b.taken? action).map Builder.Taken.builder).getD b).clauses.WellFormed := by
    rw [b.leave_taken action]
    split
    · exact Clauses.wellFormed_empty
    · exact wellFormed
  cases action with
  | call call =>
    cases call with
    | error error => exact left
    | ok call =>
      cases applied : b.apply call with
      | error error => simpa [after, applied, Except.toOption] using wellFormed
      | ok next => simpa [after, applied, Except.toOption] using wellFormed_apply wellFormed applied
  | _ => exact left

namespace Session

theorem wellFormed_step {s : Session} (wellFormed : ∀ b ∈ s.builders, b.clauses.WellFormed) (step : Step) :
    ∀ b ∈ (s.step step).1.builders, b.clauses.WellFormed := by
  obtain ⟨index, action⟩ := step
  cases there : s.builders[index]? with
  | none => simpa [Session.step, there] using wellFormed
  | some actor =>
    have own := wellFormed actor (List.mem_of_getElem? there)
    intro b member
    rw [(step_eq there action).1, act_builders there] at member
    rcases List.mem_append.mp member with old | cloned
    · rcases List.mem_or_eq_of_mem_set old with other | rfl
      · exact wellFormed b other
      · exact Builder.wellFormed_after own action
    · cases action with
      | clone => exact List.mem_singleton.mp cloned ▸ own
      | _ => cases cloned

theorem wellFormed_runSteps {s : Session} (wellFormed : ∀ b ∈ s.builders, b.clauses.WellFormed) (steps : List Step) :
    ∀ b ∈ (s.runSteps steps).1.builders, b.clauses.WellFormed := by
  induction steps generalizing s with
  | nil => exact wellFormed
  | cons step rest ih => exact ih (wellFormed_step wellFormed step)

end Session

/-- After any steps the written clauses of every builder can be read, and the calls that they spell out make an empty
    builder hold the same clauses again, so that for the same table it compiles to the same result. -/
theorem record_rebuilds_clauses (s : Session) (fresh : ∀ b ∈ s.builders, b.clauses = {}) (steps : List Step) :
    ∀ b ∈ (s.runSteps steps).1.builders, ∃ calls, b.clauses.record.calls? = some calls ∧
      ∀ empty : Builder, empty.clauses = {} →
        ∃ rebuilt, calls.foldlM Builder.apply empty = .ok rebuilt ∧ rebuilt.clauses = b.clauses ∧
          (empty.table = b.table → rebuilt.compile = b.compile) := by
  intro b member
  have began : ∀ b ∈ s.builders, b.clauses.WellFormed := fun b member => fresh b member ▸ Clauses.wellFormed_empty
  have wellFormed := Session.wellFormed_runSteps began steps b member
  refine ⟨b.clauses.calls, b.clauses.calls?_record, fun empty nothing => ?_⟩
  refine ⟨_, Clauses.foldlM_calls wellFormed nothing, rfl, fun table => ?_⟩
  simp only [Builder.compile, table]

def clonedSteps : List Step :=
  [⟨0, .call (.ok (.select " a ,, \u3000b AS x"))⟩, ⟨0, .call (.ok (.refine .or "a" .gt "0"))⟩,
    ⟨0, .call (.ok (.filter " f" .ne "1"))⟩, ⟨0, .call (.ok (.refine .or "a" .gt "2"))⟩,
    ⟨0, .call (.ok (.outerJoin "o" "o.a = t.a"))⟩, ⟨0, .call (.ok (.orderByDesc "a,b"))⟩,
    ⟨0, .call (.ok (.groupBy ""))⟩, ⟨0, .execute (some true) true⟩, ⟨0, .clone⟩, ⟨0, .call (.ok .reset)⟩]

theorem record_rebuilds_clauses_clonedSteps :
    let s : Session := { builders := [{ table := "t" }], executor := .echo none }
    let clauses : Clauses :=
      { selects := ["a", "b AS x"]
        conditions := [⟨" f", .ne, .and, "1"⟩, ⟨"a", .gt, .or, "2"⟩]
        joins := [⟨"o", "o.a = t.a", .outer⟩]
        sortKeys := [⟨"a,b", .desc⟩]
        groups := [""] }
    (∀ b ∈ s.builders, b.clauses = {}) ∧ { table := "t", clauses } ∈ (s.runSteps clonedSteps).1.builders ∧
      ∃ calls rebuilt, clauses.record.calls? = some calls ∧
        calls.foldlM Builder.apply { table := "u" } = .ok rebuilt ∧ rebuilt.clauses = clauses := by
  intro s clauses
  have fresh : ∀ b ∈ s.builders, b.clauses = {} := by decide
  have reached : { table := "t", clauses } ∈ (s.runSteps clonedSteps).1.builders := by decide
  obtain ⟨calls, read, replayed⟩ := record_rebuilds_clauses s fresh clonedSteps _ reached
  obtain ⟨rebuilt, applied, same, -⟩ := replayed { table := "u" } rfl
  exact ⟨fresh, reached, calls, rebuilt, read, applied, same⟩

end SqlSelect
