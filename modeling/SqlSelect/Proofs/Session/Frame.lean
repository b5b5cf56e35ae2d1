import SqlSelect.Proofs.Builder.Take
import SqlSelect.Session.Step

namespace SqlSelect

def Action.awaits : Action → Bool
  | .settle => true
  | .fetch .await => true
  | _ => false

theorem Action.eq_of_awaits {action : Action} (awaits : action.awaits = true) :
    action = .settle ∨ action = .fetch .await := by
  cases action with
  | settle => exact .inl rfl
  | fetch fate =>
    cases fate with
    | await => exact .inr rfl
    | _ => cases awaits
  | _ => cases awaits

/-- The results that a step hands over, those of its own future last. -/
def Outcome.results : Outcome → List Result
  | .fetched own _ others => others.results ++ [own]
  | .settled others => others.results
  | _ => []

namespace Session

theorem perform_frame (s : Session) (work : Dispatch) (builders : List Builder) (outstanding : List Dispatch) :
    { s with builders, outstanding }.perform work =
      ({ (s.perform work).1 with builders, outstanding }, (s.perform work).2) := by
  unfold perform
  cases work.prepared <;> rfl

@[simp] theorem perform_builders (s : Session) (work : Dispatch) : (s.perform work).1.builders = s.builders := by
  unfold perform
  cases work.prepared <;> rfl

@[simp] theorem perform_outstanding (s : Session) (work : Dispatch) :
    (s.perform work).1.outstanding = s.outstanding := by
  unfold perform
  cases work.prepared <;> rfl

theorem performAll_cons (s : Session) (work : Dispatch) (rest : List Dispatch) :
    s.performAll (work :: rest) =
      (((s.perform work).1.performAll rest).1, (s.perform work).2 :: ((s.perform work).1.performAll rest).2) := rfl

theorem performAll_frame (s : Session) (works : List Dispatch) (builders : List Builder)
    (outstanding : List Dispatch) :
    { s with builders, outstanding }.performAll works =
      ({ (s.performAll works).1 with builders, outstanding }, (s.performAll works).2) := by
  induction works generalizing s with
  | nil => rfl
  | cons work rest ih => rw [performAll_cons, perform_frame, ih, performAll_cons]

@[simp] theorem performAll_builders (s : Session) (works : List Dispatch) :
    (s.performAll works).1.builders = s.builders := by
  induction works generalizing s with
  | nil => rfl
  | cons work rest ih => rw [performAll_cons, ih, perform_builders]

theorem perform_deferred (s : Session) (work : Dispatch) (outstanding : List Dispatch) :
    { s with outstanding }.perform work = ({ (s.perform work).1 with outstanding }, (s.perform work).2) := by
  simpa using perform_frame s work s.builders outstanding

theorem performAll_deferred (s : Session) (works : List Dispatch) (outstanding : List Dispatch) :
    { s with outstanding }.performAll works =
      ({ (s.performAll works).1 with outstanding }, (s.performAll works).2) := by
  simpa using performAll_frame s works s.builders outstanding

@[simp] theorem readSent_builders (s : Session) : s.readSent.1.builders = s.builders := by
  unfold readSent
  split <;> rfl

@[simp] theorem readSent_outstanding (s : Session) : s.readSent.1.outstanding = s.outstanding := by
  unfold readSent
  split <;> rfl

@[simp] theorem readSent_executor (s : Session) : s.readSent.1.executor = s.executor := by
  unfold readSent
  split <;> rfl

@[simp] theorem readSent_runs (s : Session) : s.readSent.1.runs = s.runs := by
  unfold readSent
  split <;> rfl

def startList (s : Session) : List (Dispatch × Nat) :=
  startOrder (fun work => work.1.givesWay s.executor) (fun work => work.1.isTask) s.outstanding.zipIdx

theorem startList_perm (s : Session) : s.startList.Perm s.outstanding.zipIdx :=
  startOrder_perm _ _ _

theorem settle_session (s : Session) :
    s.settle.1 = { (s.performAll (s.startList.map Prod.fst)).1 with outstanding := [] } :=
  congrArg Prod.fst (performAll_deferred s (s.startList.map Prod.fst) [])

theorem length_performAll (s : Session) (works : List Dispatch) : (s.performAll works).2.length = works.length := by
  induction works generalizing s with
  | nil => rfl
  | cons work rest ih => rw [performAll_cons, List.length_cons, ih, List.length_cons]

theorem settle_finished (s : Session) :
    s.settle.2 = (List.range s.outstanding.length).filterMap fun number =>
      ((s.startList.map Prod.snd).zip (s.performAll (s.startList.map Prod.fst)).2).lookup number := by
  have framed := s.performAll_deferred (s.startList.map Prod.fst) []
  have count : s.startList.length = s.outstanding.length := by rw [s.startList_perm.length_eq, List.length_zipIdx]
  rw [← count, ← congrArg Prod.snd framed]
  rfl

@[simp] theorem settle_builders (s : Session) : s.settle.1.builders = s.builders := by
  simp [settle_session]

/-- The work that a step with an outcome leaves in the session. -/
def keptWork (b : Builder) : Outcome → List Dispatch
  | .dispatched => [⟨.callback, b.compile⟩]
  | .held => [⟨.future, b.compile⟩]
  | _ => []

theorem answer_cases (s : Session) (b : Builder) (question : Question) :
    (∃ answer, s.answer b question = .answered answer) ∨ (∃ error, s.answer b question = .failed error) ∨
      s.answer b question = .noSuchBuilder := by
  unfold answer
  repeat' split
  all_goals simp

theorem keptWork_answer (s : Session) (b : Builder) (question : Question) : keptWork b (s.answer b question) = [] := by
  rcases s.answer_cases b question with ⟨answer, outcome⟩ | ⟨error, outcome⟩ | outcome <;> rw [outcome] <;> rfl

theorem prepare_session (s : Session) (index : Nat) (b : Builder) :
    (s.prepare index b).1.executor = s.executor ∧ (s.prepare index b).1.runs = s.runs ∧
      (s.prepare index b).1.outstanding = s.outstanding := by
  unfold prepare
  cases b.take b.config.resetAfterExecute <;> exact ⟨rfl, rfl, rfl⟩

theorem prepare_work (s : Session) (index : Nat) (b : Builder) :
    (s.prepare index b).2.1 = ⟨.future, b.compile⟩ := by
  unfold prepare
  cases took : b.take b.config.resetAfterExecute with
  | error error => rw [Builder.take_error took]
  | ok taken => rw [(Builder.take_ok took).1]

theorem execute_ok {s : Session} {index : Nat} {b : Builder} {reset : Option Bool} {taken : Builder.Taken}
    (took : b.take (reset.getD b.config.resetAfterExecute) = .ok taken) :
    s.execute index b reset true =
      ⟨(s.setBuilder index taken.builder).defer ⟨.callback, .ok taken.statement⟩, .dispatched, [taken.event]⟩ := by
  simp [execute, took]

theorem execute_error {s : Session} {index : Nat} {b : Builder} {reset : Option Bool} {error : Error}
    (failed : b.take (reset.getD b.config.resetAfterExecute) = .error error) :
    s.execute index b reset true = ⟨s, .failed error, []⟩ := by
  simp [execute, failed]

/-- A dispatch either fails and leaves the session alone, or takes a statement and leaves its work behind. -/
theorem execute_cases (s : Session) (index : Nat) (b : Builder) (reset : Option Bool) (inRuntime : Bool) :
    (∃ error, s.execute index b reset inRuntime = ⟨s, .failed error, []⟩ ∧
      (inRuntime = true → b.take (reset.getD b.config.resetAfterExecute) = .error error)) ∨
    ∃ taken, inRuntime = true ∧ b.take (reset.getD b.config.resetAfterExecute) = .ok taken ∧
      s.execute index b reset inRuntime =
        ⟨(s.setBuilder index taken.builder).defer ⟨.callback, .ok taken.statement⟩, .dispatched, [taken.event]⟩ := by
  cases inRuntime with
  | false => exact .inl ⟨.noRuntime, rfl, nofun⟩
  | true =>
    cases took : b.take (reset.getD b.config.resetAfterExecute) with
    | error error => exact .inl ⟨error, execute_error took, fun _ => rfl⟩
    | ok taken => exact .inr ⟨taken, rfl, rfl, execute_ok took⟩

theorem settle_setBuilder (s : Session) (index : Nat) (b : Builder) :
    (s.setBuilder index b).settle = (s.settle.1.setBuilder index b, s.settle.2) := by
  have framed : (s.setBuilder index b).performAll (s.startList.map Prod.fst) = _ :=
    s.performAll_frame (s.startList.map Prod.fst) (s.builders.set index b) s.outstanding
  have same : (s.setBuilder index b).startList = s.startList := rfl
  apply Prod.ext
  · rw [settle_session, same, framed, setBuilder, settle_builders, settle_session]
  · rw [settle_finished, same, framed, settle_finished]
    rfl

/-- Taking a statement and doing outstanding work do not touch each other. -/
theorem settle_prepare (s : Session) (index : Nat) (b : Builder) :
    (s.prepare index b).1.settle = ((s.settle.1.prepare index b).1, s.settle.2) := by
  unfold prepare
  cases b.take b.config.resetAfterExecute with
  | error error => rfl
  | ok taken => exact s.settle_setBuilder index taken.builder

theorem fetch_await (s : Session) (index : Nat) (b : Builder) :
    let own := (s.prepare index b).1.settle.1.perform ⟨.future, b.compile⟩
    (s.fetch index b .await).session = own.1.readSent.1 ∧
      (∃ counts, (s.fetch index b .await).outcome = .fetched own.2.result counts
        ⟨s.settle.2.map Finished.result, own.1.readSent.1.runs, own.1.readSent.2⟩) ∧
      (s.fetch index b .await).events =
        (s.prepare index b).2.2 ++ (s.settle.2.flatMap Finished.events ++ own.2.events) := by
  rw [← prepare_work s index b, ← congrArg Prod.snd (s.settle_prepare index b)]
  exact ⟨rfl, ⟨_, rfl⟩, rfl⟩

/-- What an awaited future of a compiled statement comes to is what the executor answers to the statement, after all
    that was outstanding. -/
theorem fetch_compiled (s : Session) (index : Nat) {b : Builder} {q : Statement} (compiled : b.compile = .ok q) :
    ∃ counts settled, (s.fetch index b .await).outcome =
      .fetched (s.settle.1.executor.run q).result counts settled := by
  obtain ⟨-, ⟨counts, outcome⟩, -⟩ := s.fetch_await index b
  have executor : (s.prepare index b).1.settle.1.executor = s.settle.1.executor := by
    rw [settle_prepare]
    exact (s.settle.1.prepare_session index b).1
  rw [outcome, compiled, ← executor]
  exact ⟨counts, _, rfl⟩

/-- An action that awaits nothing runs nothing, and what it leaves to be done is for the statement that the clauses
    compile to at this moment. -/
theorem act_prompt (s : Session) (index : Nat) (b : Builder) (action : Action) (prompt : action.awaits = false) :
    let effect := s.act index b action
    effect.session.executor = s.executor ∧ effect.session.runs = s.runs ∧
      effect.session.outstanding = s.outstanding ++ keptWork b effect.outcome := by
  have unchanged : s.outstanding = s.outstanding ++ [] := by simp
  cases action with
  | call call =>
    cases call with
    | error error => exact ⟨rfl, rfl, unchanged⟩
    | ok call =>
      simp only [act]
      cases b.apply call <;> exact ⟨rfl, rfl, unchanged⟩
  | ask question =>
    have kept : keptWork b (s.act index b (.ask question)).outcome = [] := keptWork_answer s b question
    exact ⟨rfl, rfl, by rw [kept]; exact unchanged⟩
  | clone => exact ⟨rfl, rfl, unchanged⟩
  | execute reset inRuntime =>
    rcases s.execute_cases index b reset inRuntime with ⟨error, refused, -⟩ | ⟨taken, -, took, executed⟩
    · rw [act, refused]
      exact ⟨rfl, rfl, unchanged⟩
    · rw [act, executed]
      refine ⟨rfl, rfl, ?_⟩
      change s.outstanding ++ [_] = s.outstanding ++ [⟨.callback, b.compile⟩]
      rw [(Builder.take_ok took).1]
  | fetch fate =>
    obtain ⟨executor, runs, outstanding⟩ := prepare_session s index b
    have work := prepare_work s index b
    simp only [act, fetch]
    cases fate with
    | await => cases prompt
    | hold => exact ⟨executor, runs, by rw [keptWork, ← work, ← outstanding]; rfl⟩
    | drop => exact ⟨executor, runs, outstanding.trans unchanged⟩
  | settle => cases prompt

theorem act_prompt_results (s : Session) (index : Nat) (b : Builder) (action : Action)
    (prompt : action.awaits = false) : (s.act index b action).outcome.results = [] := by
  cases action with
  | call call =>
    cases call with
    | error error => rfl
    | ok call =>
      simp only [act]
      cases b.apply call <;> rfl
  | ask question =>
    rw [act]
    rcases s.answer_cases b question with ⟨answer, outcome⟩ | ⟨error, outcome⟩ | outcome <;> rw [outcome] <;> rfl
  | clone => rfl
  | execute reset inRuntime =>
    rw [act]
    rcases s.execute_cases index b reset inRuntime with ⟨error, refused, -⟩ | ⟨taken, -, -, executed⟩
    · rw [refused]
      rfl
    · rw [executed]
      rfl
  | fetch fate =>
    cases fate with
    | await => cases prompt
    | hold => rfl
    | drop => rfl
  | settle => cases prompt

theorem act_dispatched {s : Session} {index : Nat} {b : Builder} {action : Action}
    (outcome : (s.act index b action).outcome = .dispatched) : ∃ q, b.compile = .ok q := by
  cases action with
  | execute reset inRuntime =>
    rcases s.execute_cases index b reset inRuntime with ⟨error, refused, -⟩ | ⟨taken, -, took, -⟩
    · rw [act, refused] at outcome
      cases outcome
    · exact ⟨taken.statement, (Builder.take_ok took).1⟩
  | call call =>
    cases call with
    | error error => cases outcome
    | ok call =>
      simp only [act] at outcome
      cases applied : b.apply call <;> simp [applied] at outcome
  | ask question =>
    have kept := keptWork_answer s b question
    rw [show s.answer b question = .dispatched from outcome] at kept
    cases kept
  | clone => cases outcome
  | fetch fate => cases fate <;> simp [act, fetch, awaitThen] at outcome
  | settle => cases outcome

/-- Without the work that is outstanding. -/
def bare (s : Session) : Session :=
  { s with outstanding := [] }

@[simp] theorem bare_builders (s : Session) : s.bare.builders = s.builders := rfl

theorem perform_bare (s : Session) (work : Dispatch) :
    (s.bare.perform work).1 = (s.perform work).1.bare ∧ (s.bare.perform work).2 = (s.perform work).2 := by
  rw [show s.bare.perform work = _ from s.perform_deferred work []]
  exact ⟨rfl, rfl⟩

theorem answer_bare (s : Session) (b : Builder) (question : Question) :
    s.bare.answer b question = s.answer b question := by
  cases question <;> rfl

theorem prepare_bare (s : Session) (index : Nat) (b : Builder) :
    (s.bare.prepare index b).1 = (s.prepare index b).1.bare ∧ (s.bare.prepare index b).2 = (s.prepare index b).2 := by
  unfold prepare
  cases b.take b.config.resetAfterExecute <;> exact ⟨rfl, rfl⟩

theorem act_bare (s : Session) (index : Nat) (b : Builder) (action : Action) (prompt : action.awaits = false) :
    (s.bare.act index b action).session.bare = (s.act index b action).session.bare ∧
      (s.bare.act index b action).outcome = (s.act index b action).outcome ∧
      (s.bare.act index b action).events = (s.act index b action).events := by
  cases action with
  | call call =>
    cases call with
    | error error => exact ⟨rfl, rfl, rfl⟩
    | ok call =>
      simp only [act]
      cases b.apply call <;> exact ⟨rfl, rfl, rfl⟩
  | ask question => exact ⟨rfl, s.answer_bare b question, rfl⟩
  | clone => exact ⟨rfl, rfl, rfl⟩
  | execute reset inRuntime =>
    simp only [act, execute]
    split
    · cases b.take (reset.getD b.config.resetAfterExecute) <;> exact ⟨rfl, rfl, rfl⟩
    · exact ⟨rfl, rfl, rfl⟩
  | fetch fate =>
    obtain ⟨session, rest⟩ := s.prepare_bare index b
    have events := congrArg Prod.snd rest
    have left : (s.bare.prepare index b).1.bare = (s.prepare index b).1.bare := by
      rw [session]
      rfl
    cases fate with
    | await => cases prompt
    | hold => exact ⟨left, rfl, events⟩
    | drop => exact ⟨left, rfl, events⟩
  | settle => cases prompt

theorem step_bare (s : Session) (step : Step) (prompt : step.action.awaits = false) :
    (s.bare.step step).1.bare = (s.step step).1.bare ∧ (s.bare.step step).2 = (s.step step).2 := by
  cases there : s.builders[step.builder]? with
  | none => simp [Session.step, there, bare]
  | some b =>
    obtain ⟨session, outcome, events⟩ := s.act_bare step.builder b step.action prompt
    have builders : (s.bare.act step.builder b step.action).session.builders =
        (s.act step.builder b step.action).session.builders :=
      (congrArg Session.builders session :)
    simp [Session.step, there, session, outcome, events, builders]

theorem readSent_bare (s : Session) : s.bare.readSent.1 = s.readSent.1.bare ∧ s.bare.readSent.2 = s.readSent.2 := by
  unfold readSent
  cases server : s.executor.hasServer <;> simp [bare, server]

theorem perform_path (s : Session) (path other : Path) (prepared : Except Error Statement) :
    (s.perform ⟨path, prepared⟩).1 = (s.perform ⟨other, prepared⟩).1 ∧
      (s.perform ⟨path, prepared⟩).2.result = (s.perform ⟨other, prepared⟩).2.result := by
  cases prepared <;> exact ⟨rfl, rfl⟩

theorem perform_of_bare {s t : Session} (same : s.bare = t.bare) (path other : Path)
    (prepared : Except Error Statement) :
    (s.perform ⟨path, prepared⟩).1.bare = (t.perform ⟨other, prepared⟩).1.bare ∧
      (s.perform ⟨path, prepared⟩).2.result = (t.perform ⟨other, prepared⟩).2.result := by
  obtain ⟨mine, result⟩ := s.perform_bare ⟨path, prepared⟩
  obtain ⟨theirs, result'⟩ := t.perform_bare ⟨other, prepared⟩
  obtain ⟨session, equal⟩ := t.bare.perform_path path other prepared
  rw [← mine, ← theirs, ← result, ← result', same]
  exact ⟨session, equal⟩

/-- A dispatch on the callback path and a future of the same builder: both take the same statement and leave the same
    builder behind, or there is none to take and the callback path fails with the error that the future will have. -/
theorem execute_or_hold (s : Session) (index : Nat) (b : Builder) :
    (s.act index b (.execute none true)).session.bare = (s.act index b (.fetch .hold)).session.bare ∧
      (s.act index b (.execute none true)).events = (s.act index b (.fetch .hold)).events ∧
      (s.act index b (.fetch .hold)).outcome = .held ∧
      ((s.act index b (.execute none true)).outcome = .dispatched ∨
        ∃ error, b.compile = .error error ∧ (s.act index b (.execute none true)).outcome = .failed error) := by
  cases took : b.take b.config.resetAfterExecute with
  | error error =>
    have compiled := Builder.take_error took
    simp [act, execute, fetch, prepare, took, bare, defer, compiled]
  | ok taken => simp [act, execute, fetch, prepare, took, bare, defer]

end Session

end SqlSelect
