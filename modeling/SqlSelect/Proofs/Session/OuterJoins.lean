import SqlSelect.Proofs.Session.Refusal

namespace SqlSelect

namespace Clauses

theorem refusedJoin?_append (first second : Clauses) :
    (first.append second).refusedJoin? = first.refusedJoin?.or second.refusedJoin? :=
  List.find?_append ..

theorem Refuses.of_refusedJoin? {clauses : Clauses} {join : Join} (refused : clauses.refusedJoin? = some join) :
    clauses.Refuses (.unsupportedJoin join.table .outer) :=
  ⟨join, refused, rfl⟩

end Clauses

theorem Builder.refusedJoin?_join (b : Builder) (table condition : String) :
    (b.after (.call (.ok (.join table condition .outer)))).clauses.refusedJoin? =
      some (b.clauses.refusedJoin?.getD ⟨table, condition, .outer⟩) := by
  have joined : (b.after (.call (.ok (.join table condition .outer)))).clauses =
      b.clauses.append (Call.join table condition .outer).contribution := by
    simp [after, apply, Except.toOption, modify, Clauses.append, Call.contribution]
  rw [joined, Clauses.refusedJoin?_append]
  cases b.clauses.refusedJoin? <;> rfl

/-- Nothing but a reset takes the refused join away: later joins stand behind it, and dispatches fail before they could
    empty the builder. -/
theorem Builder.refusedJoin?_after {b : Builder} {join : Join} (refused : b.clauses.refusedJoin? = some join)
    {action : Action} (keeping : action ≠ .call (.ok .reset)) : (b.after action).clauses.refusedJoin? = some join := by
  have failing := b.compile_error_iff.mpr (.of_refusedJoin? refused)
  have left : (((b.taken? action).map Builder.Taken.builder).getD b).clauses.refusedJoin? = some join := by
    rw [taken?_refused failing]
    exact refused
  cases action with
  | call call =>
    cases call with
    | error error => exact left
    | ok call =>
      cases applied : b.apply call with
      | error error => simpa [after, applied, Except.toOption] using refused
      | ok next =>
        have grown := apply_ok applied
        have kept : call ≠ .reset := by
          rintro rfl
          exact keeping rfl
        rw [if_neg kept] at grown
        simp [after, applied, Except.toOption, grown, Clauses.refusedJoin?_append, refused]
  | _ => exact left

namespace Session

theorem refusedJoin?_runSteps {s : Session} {index : Nat} {b : Builder} {join : Join}
    (there : s.builders[index]? = some b) (refused : b.clauses.refusedJoin? = some join) {steps : List Step}
    (keeping : ∀ step ∈ steps, step.builder = index → step.action ≠ .call (.ok .reset)) :
    ∃ after, (s.runSteps steps).1.builders[index]? = some after ∧ after.clauses.refusedJoin? = some join := by
  induction steps generalizing s b with
  | nil => exact ⟨b, there, refused⟩
  | cons step rest ih =>
    have others := fun step member => keeping step (List.mem_cons_of_mem _ member)
    have stepped := step_builder there step
    by_cases own : step.builder = index
    · rw [if_pos own] at stepped
      exact ih stepped (b.refusedJoin?_after refused (keeping step (List.mem_cons_self ..) own)) others
    · rw [if_neg own] at stepped
      exact ih stepped refused others

/-- Whatever asks for a statement of the builder at an index gets the error. -/
structure RefusesAt (s : Session) (index : Nat) (error : Error) : Prop where
  compile : (s.step ⟨index, .ask .statement⟩).2.outcome = .failed error
  execute : ∀ reset, (s.step ⟨index, .execute reset true⟩).2.outcome = .failed error
  future : ∀ b ∈ s.builders[index]?, (s.prepare index b).2.1 = ⟨.future, .error error⟩
  hold : (s.step ⟨index, .fetch .hold⟩).1.outstanding = s.outstanding ++ [⟨.future, .error error⟩]
  await : ∃ counts settled, (s.step ⟨index, .fetch .await⟩).2.outcome = .fetched (.error error) counts settled

/-- Whatever asks for a statement of the builder at an index gets this one. What an awaited future fails with, if it
    does, is what the executor answers to the statement after all that was outstanding. -/
structure CompilesAt (s : Session) (index : Nat) (q : Statement) : Prop where
  compile : (s.step ⟨index, .ask .statement⟩).2.outcome = .answered (.statement q)
  execute : ∀ reset, (s.step ⟨index, .execute reset true⟩).2.outcome = .dispatched
  future : ∀ b ∈ s.builders[index]?, (s.prepare index b).2.1 = ⟨.future, .ok q⟩
  hold : (s.step ⟨index, .fetch .hold⟩).1.outstanding = s.outstanding ++ [⟨.future, .ok q⟩]
  await : ∃ counts settled, (s.step ⟨index, .fetch .await⟩).2.outcome =
    .fetched (s.settle.1.executor.run q).result counts settled

theorem future_of_compile {s : Session} {index : Nat} {b : Builder} {compiled : Except Error Statement}
    (there : s.builders[index]? = some b) (same : b.compile = compiled) :
    ∀ c ∈ s.builders[index]?, (s.prepare index c).2.1 = ⟨.future, compiled⟩ := by
  intro c here
  obtain rfl : b = c := Option.some.inj (there.symm.trans here)
  rw [prepare_work, same]

theorem refusesAt {s : Session} {index : Nat} {b : Builder} {error : Error} (there : s.builders[index]? = some b)
    (refuses : b.clauses.Refuses error) : s.RefusesAt index error where
  compile := (step_statement_failed_iff there).mpr refuses
  execute reset := (step_execute_failed_iff there).mpr refuses
  future := future_of_compile there (b.compile_error_iff.mpr refuses)
  hold := outstanding_of_hold there (b.compile_error_iff.mpr refuses)
  await := by
    rw [(step_eq there _).2.1, act, (s.fetch_refused index (b.compile_error_iff.mpr refuses)).2.2]
    exact ⟨_, _, rfl⟩

theorem compilesAt {s : Session} {index : Nat} {b : Builder} {q : Statement} (there : s.builders[index]? = some b)
    (compiled : b.compile = .ok q) : s.CompilesAt index q where
  compile := by rw [(step_eq there _).2.1, act, answer, compiled]
  execute reset := by
    rw [(step_eq there _).2.1, act]
    rcases s.execute_cases index b reset true with ⟨error, -, untaken⟩ | ⟨taken, -, -, executed⟩
    · have failed := Builder.take_error (untaken rfl)
      rw [compiled] at failed
      cases failed
    · rw [executed]
  future := future_of_compile there compiled
  hold := outstanding_of_hold there compiled
  await := by
    rw [(step_eq there _).2.1]
    exact s.fetch_compiled index compiled

end Session

namespace Ledger

variable {executor : Executor} {l : Ledger}

theorem Accounted.request_of_run (acc : l.Accounted executor) {run : RunRecord} (member : run ∈ l.runs) :
    ∃ request, l.requests[run.number]? = some request ∧ request.builder.compile = .ok run.statement := by
  obtain ⟨entry, begun, number⟩ := List.mem_map.mp (acc.owned run member)
  obtain ⟨request, recorded⟩ := acc.request_of_entry begun
  have runs := acc.begun entry begun request recorded
  have own : run ∈ l.runsOf entry.1 := List.mem_filter.mpr ⟨member, beq_iff_eq.mpr number.symm⟩
  refine ⟨request, number ▸ recorded, ?_⟩
  -- A request that did not compile has no runs, so the one at hand would not be among its own.
  cases compiled : request.builder.compile with
  | error error =>
    rw [runs, compiled] at own
    cases own
  | ok q =>
    rw [runs, compiled] at own
    rw [List.mem_singleton.mp own]

theorem Accounted.future_of_refused (acc : l.Accounted executor) {number : Nat} {request : Request} {error : Error}
    (recorded : l.requests[number]? = some request) (refused : request.builder.compile = .error error) :
    request.path = .future ∧ l.runsOf number = [] ∧ ∀ result ∈ l.resultsOf number, result = .error error := by
  refine ⟨?_, acc.runsOf_refused recorded refused, ?_⟩
  · cases path : request.path with
    | future => rfl
    | callback =>
      obtain ⟨q, compiled⟩ := acc.compiled request (List.mem_of_getElem? recorded) path
      rw [refused] at compiled
      cases compiled
  · intro result member
    obtain ⟨entry, own, rfl⟩ := List.mem_map.mp member
    obtain ⟨delivered, same⟩ := List.mem_filter.mp own
    obtain rfl := beq_iff_eq.mp same
    exact acc.refused entry (List.mem_append_right _ delivered) request recorded error refused

end Ledger

/-- An outer join stops every statement of its builder until a reset, and the error names the first one since the
    builder was emptied last. Without one everything compiles, so no run is on a statement with an outer join. -/
theorem outer_join_refused_until_reset (s : Session) (index : Nat) (b : Builder) (steps : List Step)
    (there : s.builders[index]? = some b) :
    let run := s.runSteps steps
    let outer := (b.clausesSince (historyOf index steps run.2)).joins.find? fun join => join.kind == .outer
    (∀ join, outer = some join → run.1.RefusesAt index (.unsupportedJoin join.table .outer)) ∧
    (outer = none → ∃ q, run.1.CompilesAt index q) ∧
    (∀ table condition later, (∀ step ∈ later, step.builder = index → step.action ≠ .call (.ok .reset)) →
      (s.runSteps (steps ++ ⟨index, .call (.ok (.join table condition .outer))⟩ :: later)).1.RefusesAt index
        (.unsupportedJoin (outer.getD ⟨table, condition, .outer⟩).table .outer)) ∧
    ∀ builders executor moves,
      let l := (Ledger.opening builders executor).play moves
      (∀ run ∈ l.runs, ∃ request, l.requests[run.number]? = some request ∧
        request.builder.compile = .ok run.statement ∧ request.builder.clauses.OuterFree) ∧
      ∀ number request join, l.requests[number]? = some request → request.builder.clauses.refusedJoin? = some join →
        request.path = .future ∧ l.runsOf number = [] ∧
          ∀ result ∈ l.resultsOf number, result = .error (.unsupportedJoin join.table .outer) := by
  intro run outer
  have now := Session.builder_since there steps
  refine ⟨?_, ?_, ?_, ?_⟩
  · intro join refused
    exact Session.refusesAt now (.of_refusedJoin? refused)
  · intro none
    exact ⟨_, Session.compilesAt now (compile_eq_layout _ _ ((Clauses.refusedJoin?_eq_none_iff _).mp none))⟩
  · intro table condition later keeping
    have joined := Session.step_builder now ⟨index, .call (.ok (.join table condition .outer))⟩
    rw [if_pos rfl] at joined
    obtain ⟨after, there, kept⟩ :=
      Session.refusedJoin?_runSteps joined (Builder.refusedJoin?_join _ table condition) keeping
    rw [Session.runSteps_append]
    exact Session.refusesAt there (.of_refusedJoin? kept)
  · intro builders executor moves l
    have acc : l.Accounted executor := Ledger.accounted_play (Ledger.accounted_open builders executor) moves
    refine ⟨fun run member => ?_, fun number request join recorded refused => ?_⟩
    · obtain ⟨request, recorded, compiled⟩ := acc.request_of_run member
      exact ⟨request, recorded, compiled, outerFree_of_compile compiled⟩
    · exact acc.future_of_refused recorded (request.builder.compile_error_iff.mpr (.of_refusedJoin? refused))

def joinedSteps : List Step :=
  [⟨0, .call (.ok (.filterEq "a" "1"))⟩, ⟨0, .call (.ok (.innerJoin "i" "i.a = t.a"))⟩, ⟨0, .execute (some true) true⟩,
    ⟨0, .call (.ok (.outerJoin "o" "o.a = t.a"))⟩, ⟨0, .fetch .await⟩, ⟨0, .clone⟩, ⟨1, .call (.ok .reset)⟩,
    ⟨0, .call (.ok (.outerJoin "p" "p.a = t.a"))⟩, ⟨0, .execute (some true) true⟩]

theorem outer_join_refused_until_reset_joinedSteps :
    let s : Session := { builders := [{ table := "t" }], executor := .echo none }
    let run := s.runSteps joinedSteps
    s.builders[0]? = some { table := "t" } ∧ run.1.RefusesAt 0 (.unsupportedJoin "o" .outer) ∧
      (∃ q, (s.runSteps (joinedSteps ++ [⟨0, .call (.ok .reset)⟩])).1.CompilesAt 0 q) := by
  intro s run
  obtain ⟨refusing, -, -, -⟩ := outer_join_refused_until_reset s 0 { table := "t" } joinedSteps rfl
  obtain ⟨-, compiling, -, -⟩ :=
    outer_join_refused_until_reset s 0 { table := "t" } (joinedSteps ++ [⟨0, .call (.ok .reset)⟩]) rfl
  refine ⟨rfl, refusing ⟨"o", "o.a = t.a", .outer⟩ ?_, compiling ?_⟩
  · decide
  · decide

end SqlSelect
