import SqlSelect.Proofs.Session.History
import SqlSelect.Proofs.Session.Ledger

namespace SqlSelect

/-- What is reported when a result comes back on a path: rows that a server has sent, and failures that only a callback
    learns of. -/
def Path.completion : Path → Result → List Event
  | _, .ok (.rows rows) => [.completed rows.length]
  | _, .ok (.statement _) => []
  | .callback, .error error => [.failed error]
  | .future, .error _ => []

def Action.dispatches : Action → Bool
  | .execute _ inRuntime => inRuntime
  | .fetch _ => true
  | _ => false

namespace Builder

/-- What is reported of an action on the builder when it takes a statement. -/
def announcement? (b : Builder) (action : Action) : Option Event :=
  if action.dispatches then
    b.compile.toOption.map fun q => .dispatching b.config.logLevel b.table b.clauses.conditions.length
      (action.resets b.config) (Text.truncate b.config.maxSqlLength q.sql)
  else none

theorem taken?_eq_of_dispatches {b : Builder} {action : Action} (dispatches : action.dispatches = true) :
    b.taken? action = (b.take (action.resets b.config)).toOption := by
  cases action with
  | execute reset inRuntime =>
    obtain rfl : inRuntime = true := dispatches
    cases reset <;> rfl
  | fetch fate => rfl
  | _ => cases dispatches

theorem taken?_eq_none {b : Builder} {action : Action} (silent : action.dispatches = false) :
    b.taken? action = none := by
  cases action with
  | execute reset inRuntime =>
    obtain rfl : inRuntime = false := silent
    rfl
  | fetch fate => cases silent
  | _ => rfl

theorem taken_event (b : Builder) (action : Action) : (b.taken? action).map Taken.event = b.announcement? action := by
  rw [announcement?]
  cases dispatches : action.dispatches with
  | false => rw [taken?_eq_none dispatches]; rfl
  | true =>
    rw [taken?_eq_of_dispatches dispatches, take_eq]
    cases compiled : b.compile with
    | error error => rfl
    | ok q =>
      have count : q.params.length = b.clauses.conditions.length := by
        rw [params_of_compile compiled, Clauses.values, List.length_map]
      simp [Except.map, Except.toOption, count]

theorem isSome_taken? (b : Builder) (action : Action) :
    (b.taken? action).isSome = (action.dispatches && b.compile.isOk) := by
  rw [← Option.isSome_map (f := Taken.event), taken_event, announcement?]
  cases action.dispatches <;> cases b.compile <;> rfl

end Builder

theorem Executor.run_completion (executor : Executor) (q : Statement) :
    (executor.run q).events = Path.future.completion (executor.run q).result := by
  cases executor with
  | echo failure => cases failure <;> rfl
  | server access replies client =>
    cases access with
    | poolClosed => rfl
    | poolRefused => rfl
    | available connected =>
      simp only [run, send]
      cases client.encodes q.escaped with
      | false => rfl
      | true => cases client.receive (replies.headD []) <;> rfl

namespace Session

theorem perform_completion (s : Session) {work : Dispatch}
    (compiled : work.path = .callback → ∃ q, work.prepared = .ok q) :
    (s.perform work).2.events = work.path.completion (s.perform work).2.result := by
  obtain ⟨path, prepared⟩ := work
  cases prepared with
  | error error =>
    cases path with
    | callback =>
      obtain ⟨q, impossible⟩ := compiled rfl
      cases impossible
    | future => rfl
  | ok q =>
    have ran := s.executor.run_completion q
    simp only [perform, run, ran]
    cases (s.executor.run q).result with
    | ok output => cases output <;> cases path <;> rfl
    | error error => cases path <;> rfl

theorem prepare_reports (s : Session) (index : Nat) (b : Builder) (fate : Fate) :
    (s.prepare index b).2.2 = ((b.taken? (.fetch fate)).map Builder.Taken.event).toList := by
  cases took : b.take b.config.resetAfterExecute <;> simp [prepare, Builder.taken?, took, Except.toOption]

theorem act_prompt_events (s : Session) (index : Nat) (b : Builder) (action : Action)
    (prompt : action.awaits = false) : (s.act index b action).events = (b.announcement? action).toList := by
  rw [← b.taken_event]
  cases action with
  | call call =>
    cases call with
    | error error => rfl
    | ok call =>
      simp only [act]
      cases b.apply call <;> rfl
  | ask question => rfl
  | clone => rfl
  | execute reset inRuntime =>
    rcases s.execute_cases index b reset inRuntime with ⟨error, refused, untaken⟩ | ⟨taken, rfl, took, executed⟩
    · rw [act, refused, taken?_of_refused untaken]
      rfl
    · rw [act, executed]
      simp [Builder.taken?, took, Except.toOption]
  | fetch fate =>
    cases fate with
    | await => cases prompt
    | hold => exact s.prepare_reports index b .hold
    | drop => exact s.prepare_reports index b .drop
  | settle => cases prompt

/-- A request is entered for each dispatch, except for those that fail at once because nothing compiles. -/
theorem act_prompt_path (s : Session) (index : Nat) (b : Builder) (action : Action) (prompt : action.awaits = false) :
    ((s.act index b action).outcome.path?.isSome && b.compile.isOk) = (action.dispatches && b.compile.isOk) := by
  cases action with
  | call call =>
    cases call with
    | error error => rfl
    | ok call =>
      simp only [act]
      cases b.apply call <;> rfl
  | ask question =>
    rw [act]
    rcases s.answer_cases b question with ⟨answer, outcome⟩ | ⟨error, outcome⟩ | outcome <;> rw [outcome] <;> rfl
  | clone => rfl
  | execute reset inRuntime =>
    rcases s.execute_cases index b reset inRuntime with ⟨error, refused, untaken⟩ | ⟨taken, rfl, took, executed⟩
    · rw [act, refused, ← b.isSome_taken? (.execute reset inRuntime), taken?_of_refused untaken]
      rfl
    · rw [act, executed]
      rfl
  | fetch fate =>
    cases fate with
    | await => cases prompt
    | hold => rfl
    | drop => rfl
  | settle => cases prompt

end Session

end SqlSelect
