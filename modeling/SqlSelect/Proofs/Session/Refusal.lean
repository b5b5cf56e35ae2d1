import SqlSelect.Proofs.Session.ExactlyOnce
import SqlSelect.Proofs.Session.History

namespace SqlSelect

theorem Builder.compile_error_iff (b : Builder) {error : Error} :
    b.compile = .error error ↔ b.clauses.Refuses error :=
  SqlSelect.compile_error_iff

theorem Builder.apply_refine_error_iff (b : Builder) (conjunction : Conjunction) (field : String) (operator : Operator)
    (value : String) {error : Error} :
    b.apply (.refine conjunction field operator value) = .error error ↔
      b.clauses.conditions = [] ∧ error = .invalidUsage (.noCondition conjunction) := by
  simp only [apply, List.isEmpty_iff]
  split <;> simp_all [eq_comm]

theorem Builder.take_refused {b : Builder} {error : Error} (refused : b.compile = .error error) (reset : Bool) :
    b.take reset = .error error := by
  rw [take_eq, refused]
  rfl

theorem Builder.taken?_refused {b : Builder} {error : Error} (refused : b.compile = .error error) (action : Action) :
    b.taken? action = none := by
  cases action with
  | execute reset inRuntime => exact Session.taken?_of_refused fun _ => take_refused refused _
  | fetch fate =>
    rw [taken?, take_refused refused]
    rfl
  | _ => rfl

namespace Session

variable {s : Session} {index : Nat} {b : Builder}

theorem act_failed {action : Action} {error : Error} (failed : (s.act index b action).outcome = .failed error) :
    s.act index b action = ⟨s, .failed error, []⟩ := by
  cases action with
  | call call =>
    cases call with
    | error unreadable =>
      obtain rfl : unreadable = error := Outcome.failed.inj failed
      rfl
    | ok call =>
      simp only [act] at failed ⊢
      cases applied : b.apply call with
      | error refused =>
        rw [applied] at failed
        rw [Outcome.failed.inj failed]
      | ok next =>
        rw [applied] at failed
        cases failed
  | ask question => rw [act, show s.answer b question = .failed error from failed]
  | clone => cases failed
  | execute reset inRuntime =>
    rcases s.execute_cases index b reset inRuntime with ⟨_, refused, -⟩ | ⟨taken, -, -, executed⟩
    · rw [act, refused] at failed ⊢
      rw [Outcome.failed.inj failed]
    · rw [act, executed] at failed
      cases failed
  | fetch fate => cases fate <;> cases failed
  | settle => cases failed

theorem step_failed {step : Step} {error : Error} (failed : (s.step step).2.outcome = .failed error) :
    (s.step step).1 = s ∧ (s.step step).2.events = [] := by
  obtain ⟨index, action⟩ := step
  cases there : s.builders[index]? with
  | none => simp [Session.step, there]
  | some b =>
    obtain ⟨session, outcome, events⟩ := step_eq there action
    have unchanged := act_failed (outcome.symm.trans failed)
    rw [session, events, unchanged]
    exact ⟨rfl, rfl⟩

/-- Steps that fail can be left out of a run: what is left reports the same and ends in the same session. -/
theorem runSteps_leave_out (s : Session) (steps : List Step) (leaveOut : Entry → Bool)
    (failing : ∀ entry, leaveOut entry = true → ∃ error, entry.2.outcome = .failed error) :
    let run := s.runSteps steps
    let kept := (steps.zip run.2).filter fun entry => !leaveOut entry
    s.runSteps (kept.map Prod.fst) = (run.1, kept.map Prod.snd) := by
  induction steps generalizing s with
  | nil => rfl
  | cons step rest ih =>
    have others := ih (s.step step).1
    cases left : leaveOut (step, (s.step step).2) with
    | false => simp [runSteps, left, others]
    | true =>
      obtain ⟨error, failed⟩ := failing _ left
      have unchanged := (step_failed failed).1
      rw [unchanged] at others
      simpa [runSteps, left, unchanged] using others

theorem step_refine_failed_iff (there : s.builders[index]? = some b) {conjunction : Conjunction}
    {field value : String} {operator : Operator} {error : Error} :
    (s.step ⟨index, .call (.ok (.refine conjunction field operator value))⟩).2.outcome = .failed error ↔
      b.clauses.conditions = [] ∧ error = .invalidUsage (.noCondition conjunction) := by
  rw [(step_eq there _).2.1, ← b.apply_refine_error_iff conjunction field operator value, act]
  cases b.apply (.refine conjunction field operator value) <;> simp

theorem step_statement_failed_iff (there : s.builders[index]? = some b) {error : Error} :
    (s.step ⟨index, .ask .statement⟩).2.outcome = .failed error ↔ b.clauses.Refuses error := by
  rw [(step_eq there _).2.1, ← b.compile_error_iff, act, answer]
  cases b.compile <;> simp

theorem step_execute_failed_iff (there : s.builders[index]? = some b) {reset : Option Bool} {inRuntime : Bool}
    {error : Error} :
    (s.step ⟨index, .execute reset inRuntime⟩).2.outcome = .failed error ↔
      if inRuntime then b.clauses.Refuses error else error = .noRuntime := by
  rw [(step_eq there _).2.1, act]
  cases inRuntime with
  | false => simp [execute, eq_comm]
  | true =>
    rw [if_pos rfl, ← b.compile_error_iff]
    cases took : b.take (reset.getD b.config.resetAfterExecute) with
    | error refused =>
      rw [execute_error took, Builder.take_error took]
      simp
    | ok taken =>
      rw [execute_ok took, (Builder.take_ok took).1]
      simp

theorem fetch_refused (s : Session) (index : Nat) {error : Error} (refused : b.compile = .error error) :
    s.fetch index b .drop = ⟨s, .dropped, []⟩ ∧
      s.fetch index b .hold = ⟨s.defer ⟨.future, .error error⟩, .held, []⟩ ∧
      s.fetch index b .await =
        ⟨s.await.1, .fetched (.error error) (s.builders[index]?.getD b).clauses.counts s.await.2.1, s.await.2.2⟩ := by
  have took := Builder.take_refused refused b.config.resetAfterExecute
  have prepared : s.prepare index b = (s, ⟨.future, .error error⟩, []) := by simp only [prepare, took]
  simp only [fetch, prepared]
  refine ⟨trivial, trivial, ?_⟩
  simp [awaitThen, await, perform]

theorem prepared_error_iff {error : Error} :
    (s.prepare index b).2.1.prepared = .error error ↔ b.clauses.Refuses error := by
  rw [prepare_work]
  exact b.compile_error_iff

theorem step_fetch_refused (there : s.builders[index]? = some b) {error : Error} (refused : b.clauses.Refuses error)
    (fate : Fate) :
    (s.step ⟨index, .fetch fate⟩).1.builders = s.builders ∧
      (s.step ⟨index, .fetch fate⟩).2.events.filter Event.isDispatching = [] := by
  have untaken := Builder.taken?_refused (b.compile_error_iff.mpr refused) (.fetch fate)
  have kept : b.after (.fetch fate) = b := by simp [Builder.after, untaken]
  constructor
  · rw [(step_eq there _).1, act_builders there, kept, set_builder there]
    exact List.append_nil _
  · rw [(step_eq there _).2.2, act_dispatching, untaken]
    rfl

end Session

namespace Ledger

variable {executor : Executor} {l : Ledger}

theorem Accounted.runsOf_refused (acc : l.Accounted executor) {number : Nat} {request : Request} {error : Error}
    (recorded : l.requests[number]? = some request) (refused : request.builder.compile = .error error) :
    l.runsOf number = [] := by
  rcases acc.request_cases recorded with untouched | ⟨result, served, -⟩
  · exact untouched.2.1
  · rw [refused] at served
    exact served.1

/-- A future without a statement is never run, whatever is done with it and when. -/
theorem Accounted.refused_future_unrun (acc : l.Accounted executor) {index : Nat} {b : Builder} {error : Error}
    (there : l.session.builders[index]? = some b) (refused : b.compile = .error error) (fate : Fate)
    (prompt : (Action.fetch fate).awaits = false) (more : List Move) :
    ((l.move (.step ⟨index, .fetch fate⟩ prompt)).play more).runsOf l.requests.length = [] := by
  have entered : (l.move (.step ⟨index, .fetch fate⟩ prompt)).requests = l.requests ++ [⟨b, .future⟩] := by
    simp only [move, there, record_requests, (Session.step_eq there _).2.1]
    cases fate with
    | await => cases prompt
    | hold => rfl
    | drop => rfl
  have grown := (grows_play (l.move (.step ⟨index, .fetch fate⟩ prompt)) more).requests
  obtain ⟨later, same⟩ := grown
  have recorded : ((l.move (.step ⟨index, .fetch fate⟩ prompt)).play more).requests[l.requests.length]? =
      some ⟨b, .future⟩ := by
    rw [← same, entered]
    simp
  exact (accounted_play (accounted_move acc _) more).runsOf_refused recorded refused

end Ledger

/-- Calls, compilations and dispatches fail exactly when their builder or the runtime gives cause to. Then nothing is
    changed, dispatched or run, so a session without its failing steps goes on like the session with them. An awaited
    fetch of a builder that compiles has the result of its run, whatever that is. -/
theorem failures_leave_no_trace (s : Session) :
    (∀ index b, s.builders[index]? = some b →
      (∀ conjunction field operator value error,
        (s.step ⟨index, .call (.ok (.refine conjunction field operator value))⟩).2.outcome = .failed error ↔
          b.clauses.conditions = [] ∧ error = .invalidUsage (.noCondition conjunction)) ∧
      ((∃ error, b.clauses.Refuses error) ↔ ∃ join ∈ b.clauses.joins, join.kind = .outer) ∧
      (∀ error, (s.step ⟨index, .ask .statement⟩).2.outcome = .failed error ↔ b.clauses.Refuses error) ∧
      (∀ error, (s.prepare index b).2.1.prepared = .error error ↔ b.clauses.Refuses error) ∧
      (∀ q, b.compile = .ok q → ∃ counts settled, (s.step ⟨index, .fetch .await⟩).2.outcome =
        .fetched (s.settle.1.executor.run q).result counts settled) ∧
      (∀ reset inRuntime error, (s.step ⟨index, .execute reset inRuntime⟩).2.outcome = .failed error ↔
        if inRuntime then b.clauses.Refuses error else error = .noRuntime) ∧
      (∀ error, b.clauses.Refuses error →
        (∀ fate, (s.step ⟨index, .fetch fate⟩).1.builders = s.builders ∧
          (s.step ⟨index, .fetch fate⟩).2.events.filter Event.isDispatching = []) ∧
        s.fetch index b .drop = ⟨s, .dropped, []⟩ ∧
        s.fetch index b .hold = ⟨s.defer ⟨.future, .error error⟩, .held, []⟩ ∧
        s.fetch index b .await =
          ⟨s.await.1, .fetched (.error error) b.clauses.counts s.await.2.1, s.await.2.2⟩)) ∧
    (∀ step error, (s.step step).2.outcome = .failed error → (s.step step).1 = s ∧ (s.step step).2.events = []) ∧
    (∀ builders executor moves index b error fate prompt more,
      let l := (Ledger.opening builders executor).play moves
      l.session.builders[index]? = some b → b.clauses.Refuses error →
        ((l.move (.step ⟨index, .fetch fate⟩ prompt)).play more).runsOf l.requests.length = []) ∧
    (∀ (steps : List Step) (leaveOut : Entry → Bool),
      (∀ entry, leaveOut entry = true → ∃ error, entry.2.outcome = .failed error) →
      let run := s.runSteps steps
      let kept := (steps.zip run.2).filter fun entry => !leaveOut entry
      s.runSteps (kept.map Prod.fst) = (run.1, kept.map Prod.snd)) := by
  refine ⟨?_, fun _ _ => Session.step_failed, ?_, s.runSteps_leave_out⟩
  · intro index b there
    refine ⟨fun _ _ _ _ _ => Session.step_refine_failed_iff there, b.clauses.exists_refuses_iff,
      fun _ => Session.step_statement_failed_iff there, fun _ => Session.prepared_error_iff, ?_,
      fun _ _ _ => Session.step_execute_failed_iff there, ?_⟩
    · intro q compiled
      rw [(Session.step_eq there _).2.1]
      exact s.fetch_compiled index compiled
    · intro error refused
      obtain ⟨dropped, held, awaited⟩ := s.fetch_refused index (b.compile_error_iff.mpr refused)
      rw [there, Option.getD_some] at awaited
      exact ⟨Session.step_fetch_refused there refused, dropped, held, awaited⟩
  · intro builders executor moves index b error fate prompt more l there refused
    have acc := Ledger.accounted_play (Ledger.accounted_open builders executor) moves
    exact acc.refused_future_unrun there (b.compile_error_iff.mpr refused) fate prompt more

/-- Whether the step is a further condition, a compilation or a callback dispatch that failed. -/
def Entry.isRefusal (entry : Entry) : Bool :=
  match entry.1.action, entry.2.outcome with
  | .call (.ok (.refine ..)), .failed _ => true
  | .ask .statement, .failed _ => true
  | .execute .., .failed _ => true
  | _, _ => false

theorem Entry.failed_of_isRefusal {entry : Entry} (refusal : entry.isRefusal = true) :
    ∃ error, entry.2.outcome = .failed error := by
  unfold isRefusal at refusal
  split at refusal <;> first | exact ⟨_, ‹_›⟩ | cases refusal

def refusedSteps : List Step :=
  [⟨0, .call (.ok (.refine .or "a" .eq "0"))⟩, ⟨0, .call (.ok (.filterEq "a" "1"))⟩,
    ⟨0, .call (.ok (.outerJoin "o" "o.a = t.a"))⟩, ⟨0, .ask .statement⟩, ⟨0, .execute (some true) true⟩,
    ⟨0, .execute none false⟩, ⟨0, .call (.ok .reset)⟩, ⟨0, .execute (some true) false⟩, ⟨0, .execute none true⟩]

theorem failures_leave_no_trace_refusedSteps :
    let s : Session := { builders := [{ table := "t" }], executor := .echo none }
    let kept : List Step := [⟨0, .call (.ok (.filterEq "a" "1"))⟩, ⟨0, .call (.ok (.outerJoin "o" "o.a = t.a"))⟩,
      ⟨0, .call (.ok .reset)⟩, ⟨0, .execute none true⟩]
    (s.step ⟨0, .call (.ok (.refine .or "a" .eq "0"))⟩).2.outcome = .failed (.invalidUsage (.noCondition .or)) ∧
      (s.runSteps kept).1 = (s.runSteps refusedSteps).1 := by
  intro s kept
  obtain ⟨exactly, -, -, leaveOut⟩ := failures_leave_no_trace s
  refine ⟨((exactly 0 _ rfl).1 _ _ _ _ _).mpr ⟨rfl, rfl⟩, ?_⟩
  have left : ((refusedSteps.zip (s.runSteps refusedSteps).2).filter fun entry =>
      !Entry.isRefusal entry).map Prod.fst = kept := rfl
  have shorter := leaveOut refusedSteps Entry.isRefusal fun _ => Entry.failed_of_isRefusal
  dsimp only at shorter
  rw [← left, shorter]

end SqlSelect
