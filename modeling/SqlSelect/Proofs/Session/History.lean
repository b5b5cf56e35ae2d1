import SqlSelect.Proofs.Session.Evolution
import SqlSelect.Proofs.Statement.Rendering
import Mathlib.Data.List.DropRight

namespace SqlSelect

/-- Whether an action that takes a statement empties the builder then: an explicit choice wins over the
    configuration. -/
def Action.resets (config : Config) : Action → Bool
  | .execute (some reset) _ => reset
  | _ => config.resetAfterExecute

abbrev Entry := Step × Report

namespace Entry

def accepted? (entry : Entry) : Option Call :=
  match entry.1.action, entry.2.outcome with
  | .call (.ok call), .done => some call
  | _, _ => none

/-- Whether a statement was taken; every such step reports its dispatch, also for a future that is thrown away. -/
def took (entry : Entry) : Bool :=
  entry.2.events.any Event.isDispatching

theorem accepted_action {entry : Entry} {call : Call} (accepted : entry.accepted? = some call) :
    entry.1.action = .call (.ok call) := by
  unfold accepted? at accepted
  split at accepted
  · rename_i made _
    rw [made, Option.some.inj accepted]
  · cases accepted

def isReset (entry : Entry) : Bool :=
  match entry.1.action with
  | .call (.ok .reset) => true
  | _ => false

/-- Whether the step empties a builder of this configuration. -/
def clears (config : Config) (entry : Entry) : Bool :=
  entry.isReset || entry.took && entry.1.action.resets config

end Entry

theorem Builder.take_of_taken? {b : Builder} {action : Action} {taken : Builder.Taken}
    (took : b.taken? action = some taken) : b.take (action.resets b.config) = .ok taken := by
  have of_toOption : ∀ reset, (b.take reset).toOption = some taken → b.take reset = .ok taken := by
    intro reset found
    cases result : b.take reset with
    | error error => simp [result, Except.toOption] at found
    | ok other => simpa [result, Except.toOption] using found
  cases action with
  | execute reset inRuntime =>
    cases inRuntime with
    | false => cases took
    | true =>
      apply of_toOption
      cases reset <;> exact took
  | fetch fate => exact of_toOption _ took
  | _ => cases took

theorem Builder.params_of_taken? {b : Builder} {action : Action} {taken : Builder.Taken}
    (took : b.taken? action = some taken) : taken.statement.params = b.clauses.values :=
  params_of_compile (take_ok (take_of_taken? took)).1

theorem Builder.leave_taken (b : Builder) (action : Action) :
    ((b.taken? action).map Builder.Taken.builder).getD b =
      { b with clauses := if (b.taken? action).isSome && action.resets b.config then {} else b.clauses } := by
  cases took : b.taken? action with
  | none => rfl
  | some taken =>
    rw [Option.map_some, Option.getD_some, (take_ok (take_of_taken? took)).2.1]
    cases action.resets b.config <;> rfl

def historyOf (index : Nat) (steps : List Step) (reports : List Report) : List Entry :=
  (steps.zip reports).filter fun entry => entry.1.builder == index

/-- The calls that went through after the last step that emptied the builder. -/
def callsSinceClear (config : Config) (history : List Entry) : List Call :=
  (history.rtakeWhile fun entry => !entry.clears config).filterMap Entry.accepted?

theorem callsSinceClear_concat (config : Config) (history : List Entry) (entry : Entry) :
    callsSinceClear config (history ++ [entry]) =
      if entry.clears config then [] else callsSinceClear config history ++ entry.accepted?.toList := by
  rw [callsSinceClear, List.rtakeWhile_concat]
  cases entry.clears config with
  | true => rfl
  | false =>
    simp only [Bool.not_false, if_true, List.filterMap_append, callsSinceClear, Bool.false_eq_true, if_false]
    cases accepted : entry.accepted? <;> simp [accepted]

/-- What a builder holds after a history: what it began with goes only when the builder is emptied. -/
def Builder.clausesSince (b : Builder) (history : List Entry) : Clauses :=
  (if history.any (Entry.clears b.config) then {} else b.clauses).append (.ofCalls (callsSinceClear b.config history))

theorem Builder.clausesSince_concat (b : Builder) (history : List Entry) (entry : Entry) :
    b.clausesSince (history ++ [entry]) =
      if entry.clears b.config then {}
      else entry.accepted?.elim (b.clausesSince history) fun call =>
        (b.clausesSince history).append call.contribution := by
  simp only [clausesSince, callsSinceClear_concat, List.any_append, List.any_cons, List.any_nil, Bool.or_false]
  cases entry.clears b.config with
  | true =>
    rw [Bool.or_true, if_pos rfl, if_pos rfl, if_pos rfl]
    exact Clauses.append_empty _
  | false =>
    simp only [Bool.or_false, Bool.false_eq_true, if_false, Clauses.ofCalls_append, ← Clauses.append_assoc]
    cases entry.accepted? with
    | none => exact Clauses.append_empty _
    | some call => rw [Option.toList_some, Clauses.ofCalls_singleton, Option.elim_some]

namespace Session

/-- What steps take from the builder at an index to be run. -/
def takenFrom (s : Session) (index : Nat) : List Step → List Builder.Taken
  | [] => []
  | step :: rest =>
    let own := if step.builder = index then s.builders[index]?.bind fun b => b.taken? step.action else none
    own.toList ++ (s.step step).1.takenFrom index rest

theorem takenFrom_append (s : Session) (index : Nat) (first second : List Step) :
    s.takenFrom index (first ++ second) =
      s.takenFrom index first ++ (s.runSteps first).1.takenFrom index second := by
  induction first generalizing s with
  | nil => rfl
  | cons step rest ih => simp [takenFrom, runSteps, ih]

/-- Where a statement goes that an action takes from the builder at an index. An awaited one is run when everything
    that was outstanding is done. -/
def HandsOver (s : Session) (index : Nat) (q : Statement) : Action → Prop
  | .execute reset inRuntime =>
    (s.step ⟨index, .execute reset inRuntime⟩).1.outstanding = s.outstanding ++ [⟨.callback, .ok q⟩]
  | .fetch .hold => (s.step ⟨index, .fetch .hold⟩).1.outstanding = s.outstanding ++ [⟨.future, .ok q⟩]
  | .fetch .drop => (s.step ⟨index, .fetch .drop⟩).1.outstanding = s.outstanding
  | .fetch .await => ∃ counts settled, (s.step ⟨index, .fetch .await⟩).2.outcome =
      .fetched (s.settle.1.executor.run q).result counts settled
  | _ => False

theorem handsOver {s : Session} {index : Nat} {b : Builder} (there : s.builders[index]? = some b) {action : Action}
    {taken : Builder.Taken} (took : b.taken? action = some taken) : s.HandsOver index taken.statement action := by
  have compiled := (Builder.take_ok (Builder.take_of_taken? took)).1
  cases action with
  | execute reset inRuntime =>
    rcases s.execute_cases index b reset inRuntime with ⟨error, -, untaken⟩ | ⟨other, -, took', executed⟩
    · rw [taken?_of_refused untaken] at took
      cases took
    · have same : other.statement = taken.statement :=
        Except.ok.inj ((Builder.take_ok took').1.symm.trans compiled)
      rw [HandsOver, (step_eq there _).1, act, executed, ← same]
      rfl
  | fetch fate =>
    cases fate with
    | await =>
      rw [HandsOver, (step_eq there _).2.1]
      exact s.fetch_compiled index compiled
    | hold => exact outstanding_of_hold there compiled
    | drop =>
      have kept := (s.act_prompt index b (.fetch .drop) rfl).2.2
      rw [HandsOver, (step_eq there _).1, kept]
      exact List.append_nil _
  | _ => cases took

theorem history_concat (s : Session) (index : Nat) (steps : List Step) (step : Step) :
    historyOf index (steps ++ [step]) (s.runSteps (steps ++ [step])).2 =
      historyOf index steps (s.runSteps steps).2 ++
        if step.builder = index then [(step, ((s.runSteps steps).1.step step).2)] else [] := by
  rw [runSteps_append, historyOf, List.zip_append (s.length_runSteps steps).symm, List.filter_append]
  simp [runSteps, historyOf, List.filter_cons]

theorem took_eq {s : Session} {index : Nat} {b : Builder} (there : s.builders[index]? = some b) (action : Action) :
    Entry.took (⟨index, action⟩, (s.step ⟨index, action⟩).2) = (b.taken? action).isSome := by
  have reported := s.act_dispatching index b action
  rw [Entry.took, (step_eq there action).2.2]
  cases took : b.taken? action with
  | none =>
    rw [took] at reported
    apply List.any_eq_false.mpr
    intro event member
    exact List.filter_eq_nil_iff.mp reported event member
  | some taken =>
    rw [took] at reported
    have member : taken.event ∈ (s.act index b action).events.filter Event.isDispatching := by simp [reported]
    obtain ⟨among, dispatching⟩ := List.mem_filter.mp member
    exact List.any_eq_true.mpr ⟨taken.event, among, dispatching⟩

theorem after_eq {s : Session} {index : Nat} {b : Builder} (there : s.builders[index]? = some b) (action : Action) :
    let entry : Entry := (⟨index, action⟩, (s.step ⟨index, action⟩).2)
    b.after action = { b with
      clauses := if entry.clears b.config then {}
        else entry.accepted?.elim b.clauses fun call => b.clauses.append call.contribution } := by
  intro entry
  have outcome : entry.2.outcome = (s.act index b action).outcome := (step_eq there action).2.1
  have took : entry.took = (b.taken? action).isSome := took_eq there action
  have left := b.leave_taken action
  rw [← took] at left
  cases action with
  | call call =>
    have untaken : entry.took = false := took
    have clears : entry.clears b.config = entry.isReset := by rw [Entry.clears, untaken, Bool.false_and, Bool.or_false]
    rw [clears]
    cases call with
    | error error => rfl
    | ok call =>
      cases applied : b.apply call with
      | error error =>
        have refused : entry.accepted? = none := by
          simp only [act, applied] at outcome
          rw [Entry.accepted?, outcome]
        have kept : entry.isReset = false := by
          cases call with
          | reset => cases applied
          | _ => rfl
        simp [Builder.after, applied, Except.toOption, refused, kept]
      | ok next =>
        have accepted : entry.accepted? = some call := by
          simp only [act, applied] at outcome
          rw [Entry.accepted?, outcome]
        have emptied : entry.isReset = decide (call = .reset) := by
          cases call <;> rfl
        simp [Builder.after, applied, Except.toOption, accepted, emptied, Builder.apply_ok applied]
  | _ => exact left

/-- A builder holds what it began with and what the calls since it was emptied last have added. -/
theorem builder_since {s : Session} {index : Nat} {b : Builder} (there : s.builders[index]? = some b)
    (steps : List Step) :
    (s.runSteps steps).1.builders[index]? =
      some { b with clauses := b.clausesSince (historyOf index steps (s.runSteps steps).2) } := by
  induction steps using List.reverseRecOn with
  | nil =>
    have nothing : b.clausesSince [] = b.clauses := b.clauses.append_empty
    rw [show historyOf index [] _ = [] from rfl, nothing]
    exact there
  | append_singleton steps step ih =>
    have stepped := step_builder ih step
    have last : (s.runSteps (steps ++ [step])).1 = ((s.runSteps steps).1.step step).1 := by
      rw [runSteps_append]
      rfl
    rw [last, stepped, history_concat]
    by_cases own : step.builder = index
    · subst own
      rw [if_pos rfl, if_pos rfl, Builder.clausesSince_concat, after_eq ih step.action]
    · rw [if_neg own, if_neg own, List.append_nil]

theorem builder_eq {s : Session} {index : Nat} {b : Builder} (there : s.builders[index]? = some b)
    (fresh : b.clauses = {}) (steps : List Step) :
    (s.runSteps steps).1.builders[index]? = some { b with
      clauses := .ofCalls (callsSinceClear b.config (historyOf index steps (s.runSteps steps).2)) } := by
  rw [builder_since there, Builder.clausesSince, fresh, ite_self, Clauses.empty_append]

theorem takenFrom_concat (s : Session) (index : Nat) (steps : List Step) (step : Step) {after : Builder}
    (there : (s.runSteps steps).1.builders[index]? = some after) :
    s.takenFrom index (steps ++ [step]) =
      s.takenFrom index steps ++ if step.builder = index then (after.taken? step.action).toList else [] := by
  rw [takenFrom_append]
  by_cases own : step.builder = index <;> simp [takenFrom, own, there]

theorem dispatches_eq {s : Session} {index : Nat} {b : Builder} (there : s.builders[index]? = some b)
    (fresh : b.clauses = {}) (steps : List Step) :
    ((historyOf index steps (s.runSteps steps).2).flatMap fun entry => entry.2.events).filter Event.isDispatching =
      (s.takenFrom index steps).map Builder.Taken.event := by
  induction steps using List.reverseRecOn with
  | nil => rfl
  | append_singleton steps step ih =>
    obtain ⟨after, now⟩ : ∃ after, (s.runSteps steps).1.builders[index]? = some after :=
      ⟨_, builder_eq there fresh steps⟩
    rw [history_concat, takenFrom_concat s index steps step now]
    by_cases own : step.builder = index
    · subst own
      have reported := act_dispatching (s.runSteps steps).1 step.builder after step.action
      rw [← (step_eq now step.action).2.2] at reported
      rw [if_pos rfl, if_pos rfl, List.flatMap_append, List.filter_append, ih, List.map_append, List.flatMap_singleton,
        reported, Option.toList_map]
    · rw [if_neg own, if_neg own, List.append_nil, List.append_nil, ih]

theorem params_conserved {s : Session} {index : Nat} {b : Builder} (there : s.builders[index]? = some b)
    (fresh : b.clauses = {}) (steps : List Step)
    (unforced : ∀ entry ∈ historyOf index steps (s.runSteps steps).2, entry.isReset = false)
    (emptying : ∀ entry ∈ historyOf index steps (s.runSteps steps).2, entry.took = true →
      entry.clears b.config = true) :
    ((s.takenFrom index steps).flatMap fun taken => taken.statement.params) ++
        (callsSinceClear b.config (historyOf index steps (s.runSteps steps).2)).filterMap Call.value? =
      ((historyOf index steps (s.runSteps steps).2).filterMap Entry.accepted?).filterMap Call.value? := by
  induction steps using List.reverseRecOn with
  | nil => rfl
  | append_singleton steps step ih =>
    have now := builder_eq there fresh steps
    rw [history_concat] at unforced emptying ⊢
    have earlier := ih (fun entry member => unforced entry (List.mem_append_left _ member))
      fun entry member => emptying entry (List.mem_append_left _ member)
    rw [takenFrom_concat s index steps step now]
    by_cases own : step.builder = index
    · subst own
      rw [if_pos rfl] at unforced emptying ⊢
      rw [if_pos rfl, callsSinceClear_concat, List.flatMap_append, List.filterMap_append, List.filterMap_append]
      have took := took_eq now step.action
      have unforced := unforced _ (List.mem_append_right _ (List.mem_singleton_self _))
      have emptying := emptying _ (List.mem_append_right _ (List.mem_singleton_self _))
      cases taken : Builder.taken? _ step.action with
      -- Without a dispatch the builder keeps what it has, and a call that went through adds to it.
      | none =>
        rw [taken] at took
        have kept : Entry.clears b.config (step, ((s.runSteps steps).1.step step).2) = false := by
          rw [Entry.clears, unforced, show Entry.took _ = false from took]
          rfl
        rw [kept, if_neg Bool.false_ne_true, List.filterMap_append, ← earlier]
        cases accepted : Entry.accepted? (step, ((s.runSteps steps).1.step step).2) <;> simp [accepted]
      -- A dispatch moves all values from the builder into its statement.
      | some last =>
        rw [taken] at took
        have params := Builder.params_of_taken? taken
        have untouched : Entry.accepted? (step, ((s.runSteps steps).1.step step).2) = none := by
          cases accepted : Entry.accepted? (step, ((s.runSteps steps).1.step step).2) with
          | none => rfl
          | some call =>
            rw [show step.action = .call (.ok call) from Entry.accepted_action accepted] at taken
            cases taken
        rw [emptying took, if_pos rfl, ← earlier]
        simp [params, Clauses.values_ofCalls, untouched]
    · simpa [own] using earlier

end Session

/-- After any steps a builder that began empty holds exactly what the calls since it was emptied last have added, and
    its statement binds exactly their values, also where a dispatch hands it over. Values that go with dispatches which
    empty the builder are not lost either. -/
theorem clauses_since_clear (s : Session) (index : Nat) (b : Builder) (steps : List Step)
    (there : s.builders[index]? = some b) (fresh : b.clauses = {}) :
    let history := historyOf index steps (s.runSteps steps).2
    let calls := callsSinceClear b.config history
    let taken := s.takenFrom index steps
    ∃ after, (s.runSteps steps).1.builders[index]? = some after ∧ after.table = b.table ∧ after.config = b.config ∧
      after.clauses = .ofCalls calls ∧
      (∀ q, after.compile = .ok q → q.params = calls.filterMap Call.value?) ∧
      (∀ action last, after.taken? action = some last →
        after.compile = .ok last.statement ∧ last.statement.params = calls.filterMap Call.value? ∧
          (s.runSteps steps).1.HandsOver index last.statement action) ∧
      (history.flatMap fun entry => entry.2.events).filter Event.isDispatching = taken.map Builder.Taken.event ∧
      ((∀ entry ∈ history, entry.isReset = false) →
        (∀ entry ∈ history, entry.took = true → entry.clears b.config = true) →
        (taken.flatMap fun last => last.statement.params) ++ after.clauses.values =
          (history.filterMap Entry.accepted?).filterMap Call.value?) := by
  intro history calls taken
  have now := Session.builder_eq there fresh steps
  have values : (Clauses.ofCalls calls).values = calls.filterMap Call.value? := Clauses.values_ofCalls calls
  refine ⟨_, now, rfl, rfl, rfl, ?_, ?_, Session.dispatches_eq there fresh steps, ?_⟩
  · intro q compiled
    exact (params_of_compile compiled).trans values
  · intro action last took
    exact ⟨(Builder.take_ok (Builder.take_of_taken? took)).1, (Builder.params_of_taken? took).trans values,
      Session.handsOver now took⟩
  · intro unforced emptying
    rw [values]
    exact Session.params_conserved there fresh steps unforced emptying

/-- A refused condition, a dispatch with a choice of its own, a future thrown away and one that is awaited. -/
def mixedSteps : List Step :=
  [⟨0, .call (.ok (.refine .or "a" .eq "0"))⟩, ⟨0, .call (.ok (.filterEq "a" "1"))⟩,
    ⟨0, .call (.ok (.refine .or "a" .eq "2"))⟩, ⟨0, .execute (some true) true⟩, ⟨0, .call (.ok (.filterEq "b" "3"))⟩,
    ⟨0, .fetch .drop⟩, ⟨0, .execute none false⟩, ⟨0, .call (.ok (.filterEq "c" "4"))⟩, ⟨0, .fetch .await⟩,
    ⟨0, .call (.ok (.filterEq "d" "5"))⟩]

theorem clauses_since_clear_mixedSteps :
    let s : Session := { builders := [{ table := "t" }], executor := .echo none }
    ∃ after, (s.runSteps mixedSteps).1.builders[0]? = some after ∧ after.clauses.values = ["5"] ∧
      ((s.takenFrom 0 mixedSteps).flatMap fun last => last.statement.params) ++ after.clauses.values =
        ["1", "2", "3", "4", "5"] := by
  intro s
  obtain ⟨after, there, -, -, clauses, -, -, -, conserved⟩ :=
    clauses_since_clear s 0 { table := "t" } mixedSteps rfl rfl
  refine ⟨after, there, ?_, ?_⟩
  · rw [clauses]
    decide
  · rw [conserved (by decide) (by decide)]
    decide

end SqlSelect
