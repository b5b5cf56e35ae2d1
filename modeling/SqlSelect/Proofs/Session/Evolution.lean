import SqlSelect.Proofs.Builder.Contribution
import SqlSelect.Proofs.Session.Frame

namespace SqlSelect

def Event.isDispatching : Event → Bool
  | .dispatching .. => true
  | _ => false

namespace Builder

/-- What an action takes from the builder to be run, if it takes a statement. -/
def taken? (b : Builder) : Action → Option Taken
  | .execute reset true => (b.take (reset.getD b.config.resetAfterExecute)).toOption
  | .fetch _ => (b.take b.config.resetAfterExecute).toOption
  | _ => none

def after (b : Builder) : Action → Builder
  | .call (.ok call) => (b.apply call).toOption.getD b
  | action => ((b.taken? action).map Taken.builder).getD b

/-- The builders that an action puts behind all others. -/
def clones (b : Builder) : Action → List Builder
  | .clone => [b]
  | _ => []

theorem isDispatching_of_take {b : Builder} {reset : Bool} {taken : Taken} (took : b.take reset = .ok taken) :
    taken.event.isDispatching = true := by
  rw [(take_ok took).2.2]
  rfl

end Builder

theorem Executor.run_events (executor : Executor) (q : Statement) :
    ∀ event ∈ (executor.run q).events, event.isDispatching = false := by
  intro event member
  cases executor with
  | echo failure => cases failure <;> cases member
  | server access replies client =>
    cases access with
    | poolClosed => cases member
    | poolRefused => cases member
    | available connected =>
      simp only [run, send] at member
      repeat' split at member
      · cases member
      · rw [List.mem_singleton.mp member]
        rfl
      · cases member

namespace Session

theorem perform_events (s : Session) (work : Dispatch) :
    ∀ event ∈ (s.perform work).2.events, event.isDispatching = false := by
  intro event member
  unfold perform at member
  cases prepared : work.prepared with
  | error error =>
    rw [prepared] at member
    cases member
  | ok q =>
    rw [prepared] at member
    rcases List.mem_append.mp member with ran | failed
    · exact s.executor.run_events q event ran
    · unfold failureEvents at failed
      split at failed
      · rw [List.mem_singleton.mp failed]
        rfl
      · cases failed

theorem performAll_events (s : Session) (works : List Dispatch) :
    ∀ finished ∈ (s.performAll works).2, ∀ event ∈ finished.events, event.isDispatching = false := by
  induction works generalizing s with
  | nil => simp [performAll]
  | cons work rest ih =>
    intro finished member
    rw [performAll_cons] at member
    rcases List.mem_cons.mp member with rfl | later
    · exact s.perform_events work
    · exact ih _ finished later

theorem settle_events (s : Session) : ∀ finished ∈ s.settle.2, ∀ event ∈ finished.events,
    event.isDispatching = false := by
  intro finished member
  rw [settle_finished] at member
  obtain ⟨number, -, found⟩ := List.mem_filterMap.mp member
  obtain ⟨earlier, later, split, -⟩ := List.lookup_eq_some_iff.mp found
  have paired : (number, finished) ∈ (s.startList.map Prod.snd).zip
      (s.performAll (s.startList.map Prod.fst)).2 := by
    rw [split]
    exact List.mem_append_right _ (List.mem_cons_self ..)
  exact s.performAll_events _ finished (List.of_mem_zip paired).2

theorem awaitThen_dispatching (s : Session) (work : Dispatch) (counts : List Nat) :
    (s.awaitThen work counts).events.filter Event.isDispatching = [] := by
  apply List.filter_eq_nil_iff.mpr
  intro event member
  rcases List.mem_append.mp member with others | own
  · obtain ⟨finished, listed, reported⟩ := List.mem_flatMap.mp others
    simp [s.settle_events finished listed event reported]
  · simp [perform_events _ _ event own]

theorem set_builder {s : Session} {index : Nat} {b : Builder} (there : s.builders[index]? = some b) :
    s.builders.set index b = s.builders := by
  obtain ⟨bound, rfl⟩ := List.getElem?_eq_some_iff.mp there
  exact List.set_getElem_self bound

theorem prepare_builders {s : Session} {index : Nat} {b : Builder} (there : s.builders[index]? = some b)
    (fate : Fate) : (s.prepare index b).1.builders = s.builders.set index (b.after (.fetch fate)) := by
  cases took : b.take b.config.resetAfterExecute with
  | error error => simp [prepare, Builder.after, Builder.taken?, took, set_builder there, Except.toOption]
  | ok taken => simp [prepare, Builder.after, Builder.taken?, took, Except.toOption, setBuilder]

theorem prepare_events (s : Session) (index : Nat) (b : Builder) (fate : Fate) :
    (s.prepare index b).2.2.filter Event.isDispatching =
      ((b.taken? (.fetch fate)).map Builder.Taken.event).toList := by
  cases took : b.take b.config.resetAfterExecute with
  | error error => simp [prepare, Builder.taken?, took, Except.toOption]
  | ok taken => simp [prepare, Builder.taken?, took, Except.toOption, Builder.isDispatching_of_take took]

theorem taken?_of_refused {b : Builder} {reset : Option Bool} {inRuntime : Bool} {error : Error}
    (refused : inRuntime = true → b.take (reset.getD b.config.resetAfterExecute) = .error error) :
    b.taken? (.execute reset inRuntime) = none := by
  cases inRuntime with
  | false => rfl
  | true => simp [Builder.taken?, refused rfl, Except.toOption]

/-- An action changes its own builder only; a clone is put behind all others. -/
theorem act_builders {s : Session} {index : Nat} {b : Builder} (there : s.builders[index]? = some b) (action : Action) :
    (s.act index b action).session.builders = s.builders.set index (b.after action) ++ b.clones action := by
  have unchanged : s.builders = s.builders.set index b ++ [] := by rw [set_builder there, List.append_nil]
  cases action with
  | call call =>
    cases call with
    | error error => exact unchanged
    | ok call =>
      cases applied : b.apply call with
      | error error => simpa [act, applied, Builder.after, Builder.clones, Except.toOption] using unchanged
      | ok next => simp [act, applied, Builder.after, Builder.clones, Except.toOption, setBuilder]
  | ask question => exact unchanged
  | clone =>
    rw [show b.after .clone = b from rfl, set_builder there]
    rfl
  | execute reset inRuntime =>
    rcases s.execute_cases index b reset inRuntime with ⟨error, refused, untaken⟩ | ⟨taken, rfl, took, executed⟩
    · rw [act, refused]
      simpa [Builder.after, Builder.clones, taken?_of_refused untaken] using unchanged
    · rw [act, executed]
      simp [Builder.after, Builder.clones, Builder.taken?, took, Except.toOption, setBuilder, defer]
  | fetch fate =>
    have prepared := prepare_builders there fate
    rw [show b.clones (.fetch fate) = [] from rfl, List.append_nil, ← prepared]
    cases fate with
    | drop => rfl
    | hold => rfl
    | await => simp [act, fetch, awaitThen]
  | settle => simpa [act, await, Builder.after, Builder.clones, Builder.taken?] using unchanged

theorem act_dispatching (s : Session) (index : Nat) (b : Builder) (action : Action) :
    (s.act index b action).events.filter Event.isDispatching = ((b.taken? action).map Builder.Taken.event).toList := by
  cases action with
  | call call =>
    cases call with
    | error error => rfl
    | ok call =>
      simp only [act]
      cases b.apply call <;> rfl
  | ask question => rfl
  | clone => rfl
  | execute reset inRuntime =>
    rcases s.execute_cases index b reset inRuntime with ⟨error, refused, untaken⟩ | ⟨taken, rfl, took, executed⟩
    · rw [act, refused, taken?_of_refused untaken]
      rfl
    · rw [act, executed]
      simp [Builder.taken?, took, Except.toOption, Builder.isDispatching_of_take took]
  | fetch fate =>
    have prepared := s.prepare_events index b fate
    cases fate with
    | drop => exact prepared
    | hold => exact prepared
    | await =>
      simp only [act, fetch, List.filter_append, awaitThen_dispatching, List.append_nil]
      exact prepared
  | settle =>
    apply List.filter_eq_nil_iff.mpr
    intro event member
    obtain ⟨finished, listed, reported⟩ := List.mem_flatMap.mp member
    simp [s.settle_events finished listed event reported]

theorem step_eq {s : Session} {index : Nat} {b : Builder} (there : s.builders[index]? = some b) (action : Action) :
    (s.step ⟨index, action⟩).1 = (s.act index b action).session ∧
      (s.step ⟨index, action⟩).2.outcome = (s.act index b action).outcome ∧
      (s.step ⟨index, action⟩).2.events = (s.act index b action).events := by
  simp [step, there]

theorem outstanding_of_hold {s : Session} {index : Nat} {b : Builder} {compiled : Except Error Statement}
    (there : s.builders[index]? = some b) (same : b.compile = compiled) :
    (s.step ⟨index, .fetch .hold⟩).1.outstanding = s.outstanding ++ [⟨.future, compiled⟩] := by
  have held : (s.act index b (.fetch .hold)).outcome = .held := rfl
  have kept := (s.act_prompt index b (.fetch .hold) rfl).2.2
  rwa [held, keptWork, same, ← (step_eq there _).1] at kept

theorem step_builder {s : Session} {index : Nat} {b : Builder} (there : s.builders[index]? = some b) (step : Step) :
    (s.step step).1.builders[index]? = some (if step.builder = index then b.after step.action else b) := by
  obtain ⟨bound, -⟩ := List.getElem?_eq_some_iff.mp there
  cases actor : s.builders[step.builder]? with
  | none =>
    have other : step.builder ≠ index := by
      intro same
      rw [same, there] at actor
      cases actor
    simp [Session.step, actor, there, other]
  | some a =>
    have builders := act_builders actor step.action
    have kept : (s.builders.set step.builder (a.after step.action) ++ a.clones step.action)[index]? =
        (s.builders.set step.builder (a.after step.action))[index]? :=
      List.getElem?_append_left (by simpa using bound)
    rw [(step_eq actor step.action).1, builders, kept]
    by_cases same : step.builder = index
    · have actor_eq : a = b := Option.some.inj (actor.symm.trans (same ▸ there))
      rw [same, List.getElem?_set_self bound, if_pos rfl, actor_eq]
    · rw [List.getElem?_set_ne same, if_neg same, there]

theorem runSteps_append (s : Session) (first second : List Step) :
    s.runSteps (first ++ second) =
      (((s.runSteps first).1.runSteps second).1,
        (s.runSteps first).2 ++ ((s.runSteps first).1.runSteps second).2) := by
  induction first generalizing s with
  | nil => rfl
  | cons step rest ih => simp [runSteps, ih]

theorem length_runSteps (s : Session) (steps : List Step) : (s.runSteps steps).2.length = steps.length := by
  induction steps generalizing s with
  | nil => rfl
  | cons step rest ih => simp [runSteps, ih]

end Session

end SqlSelect
