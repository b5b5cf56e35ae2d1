import SqlSelect.Proofs.Session.Alike
import SqlSelect.Proofs.Session.History

namespace SqlSelect

def Action.redacted : Action → Action
  | .call made => .call (made.map Call.redacted)
  | action => action

def Step.redacted (step : Step) : Step :=
  { step with action := step.action.redacted }

theorem Action.redacted_cases {action other : Action} (same : action.redacted = other.redacted) :
    action = other ∨ ∃ call call', action = .call (.ok call) ∧ other = .call (.ok call') ∧
      call.redacted = call'.redacted := by
  cases action with
  | call call =>
    cases other with
    | call call' =>
      rcases map_eq_map_cases (Action.call.inj same) with ⟨error, rfl, rfl⟩ | ⟨mine, theirs, rfl, rfl, calls⟩
      · exact .inl rfl
      · exact .inr ⟨mine, theirs, rfl, rfl, calls⟩
    | _ => cases same
  | _ =>
    cases other with
    | call call' => cases same
    | _ => exact .inl same

/-- Answers to a question that differ in values at most. Whether clauses or statements are equal is the one thing that
    is settled by looking at values. -/
inductive Answer.Alike : Question → Answer → Answer → Prop
  | same (question : Question) (answer : Answer) : Alike question answer answer
  | statement {q r : Statement} (statements : q.Alike r) : Alike .statement (.statement q) (.statement r)
  | clauses {clauses other : Clauses} (redacted : clauses.redacted = other.redacted) :
      Alike .clauses (.clauses clauses.record) (.clauses other.record)
  | boundValues {values others : List String} (count : values.length = others.length) :
      Alike .boundValues (.values values) (.values others)
  | sameClauses (index : Nat) (truth other : Bool) : Alike (.sameClauses index) (.truth truth) (.truth other)
  | sameStatement (index : Nat) (truth other : Bool) : Alike (.sameStatement index) (.truth truth) (.truth other)

inductive Outcome.Alike : Action → Outcome → Outcome → Prop
  | same (action : Action) (outcome : Outcome) : Alike action outcome outcome
  | answered {question : Question} {answer other : Answer} (answers : Answer.Alike question answer other) :
      Alike (.ask question) (.answered answer) (.answered other)
  | fetched {own other : Result} {settled others : Settled} (counts : List Nat) (results : Result.Alike own other)
      (settlements : settled.Alike others) :
      Alike (.fetch .await) (.fetched own counts settled) (.fetched other counts others)
  | settled {settled other : Settled} (settlements : settled.Alike other) :
      Alike .settle (.settled settled) (.settled other)

/-- A step seen in two runs. The dispatch events are the same in every field. -/
structure Entry.Alike (entry other : Entry) : Prop where
  outcome : Outcome.Alike entry.1.action entry.2.outcome other.2.outcome
  counts : entry.2.counts = other.2.counts
  added : entry.2.added.redacted = other.2.added.redacted
  dispatched : entry.2.events.filter Event.isDispatching = other.2.events.filter Event.isDispatching

structure Effect.Alike (action : Action) (effect other : Effect) : Prop where
  session : effect.session.Alike other.session
  outcome : Outcome.Alike action effect.outcome other.outcome
  dispatched : effect.events.filter Event.isDispatching = other.events.filter Event.isDispatching

structure Closing.Alike (closing other : Closing) : Prop where
  settled : closing.settled.Alike other.settled
  counts : closing.counts = other.counts
  quiet : closing.events.filter Event.isDispatching = [] ∧ other.events.filter Event.isDispatching = []

namespace Session

variable {s t : Session} {b c : Builder}

theorem builder_cases (alike : s.Alike t) (index : Nat) :
    (s.builders[index]? = none ∧ t.builders[index]? = none) ∨
      ∃ b c, s.builders[index]? = some b ∧ t.builders[index]? = some c ∧ b.redacted = c.redacted := by
  have same := congrArg (·[index]?) alike.builders
  simp only [List.getElem?_map] at same
  cases mine : s.builders[index]? with
  | none =>
    rw [mine] at same
    exact .inl ⟨rfl, Option.map_eq_none_iff.mp same.symm⟩
  | some b =>
    rw [mine] at same
    obtain ⟨c, there, redacted⟩ := Option.map_eq_some_iff.mp same.symm
    exact .inr ⟨b, c, rfl, there, redacted.symm⟩

theorem builder_alike (alike : s.Alike t) (index : Nat) (builders : b.redacted = c.redacted) :
    (s.builders[index]?.getD b).redacted = (t.builders[index]?.getD c).redacted := by
  rcases builder_cases alike index with ⟨mine, theirs⟩ | ⟨x, y, mine, theirs, redacted⟩
  · simpa [mine, theirs] using builders
  · simpa [mine, theirs] using redacted

theorem answer_alike (alike : s.Alike t) (builders : b.redacted = c.redacted) (question : Question) :
    Outcome.Alike (.ask question) (s.answer b question) (t.answer c question) := by
  have clauses : b.clauses.redacted = c.clauses.redacted := congrArg Builder.clauses builders
  have compiled := Builder.compile_alike builders
  cases question with
  | statement =>
    simp only [answer]
    generalize b.compile = mine, c.compile = theirs at compiled
    cases compiled with
    | failed error => exact .same _ _
    | ok statements => exact .answered (.statement statements)
  | clauses => exact .answered (.clauses clauses)
  | boundValues =>
    refine .answered (.boundValues ?_)
    rw [← Clauses.length_values_redacted, clauses, Clauses.length_values_redacted]
  | isEmpty =>
    rw [answer, ← Clauses.isEmpty_redacted, clauses, Clauses.isEmpty_redacted]
    exact .same _ _
  | table =>
    rw [answer, show b.table = c.table from (congrArg Builder.table builders :)]
    exact .same _ _
  | config =>
    rw [answer, show b.config = c.config from (congrArg Builder.config builders :)]
    exact .same _ _
  | sameClauses other =>
    simp only [answer]
    rcases builder_cases alike other with ⟨mine, theirs⟩ | ⟨x, y, mine, theirs, -⟩
    · rw [mine, theirs]
      exact .same _ _
    · rw [mine, theirs]
      exact .answered (.sameClauses other _ _)
  | sameStatement other =>
    simp only [answer]
    rcases builder_cases alike other with ⟨mine, theirs⟩ | ⟨x, y, mine, theirs, redacted⟩
    · rw [mine, theirs]
      exact .same _ _
    · have others := Builder.compile_alike redacted
      simp only [mine, theirs]
      generalize b.compile = own, c.compile = own', x.compile = second, y.compile = second' at compiled others
      cases compiled with
      | failed error => exact .same _ _
      | ok _ =>
        cases others with
        | failed error => exact .same _ _
        | ok _ => exact .answered (.sameStatement other _ _)

theorem execute_alike (alike : s.Alike t) (index : Nat) (builders : b.redacted = c.redacted) (reset : Option Bool)
    (inRuntime : Bool) :
    Effect.Alike (.execute reset inRuntime) (s.execute index b reset inRuntime)
      (t.execute index c reset inRuntime) := by
  have config : b.config = c.config := (congrArg Builder.config builders :)
  cases inRuntime with
  | false => exact ⟨alike, .same _ _, rfl⟩
  | true =>
    rcases Builder.take_alike builders (reset.getD b.config.resetAfterExecute) with
      ⟨error, mine, theirs⟩ | ⟨taken, other, mine, theirs, statement, event, left⟩
    · rw [execute_error mine, execute_error (config ▸ theirs)]
      exact ⟨alike, .same _ _, rfl⟩
    · rw [execute_ok mine, execute_ok (config ▸ theirs), event]
      refine ⟨defer_alike (setBuilder_alike alike index left) ?_, .same _ _, rfl⟩
      exact congrArg (fun q => Dispatch.mk .callback (.ok q)) statement

theorem fetch_alike (alike : s.Alike t) (index : Nat) (builders : b.redacted = c.redacted) (fate : Fate) :
    Effect.Alike (.fetch fate) (s.fetch index b fate) (t.fetch index c fate) := by
  obtain ⟨prepared, works, events⟩ := prepare_alike alike index builders
  cases fate with
  | drop => exact ⟨prepared, .same _ _, congrArg _ events⟩
  | hold => exact ⟨defer_alike prepared works, .same _ _, congrArg _ events⟩
  | await =>
    obtain ⟨settled, results⟩ := settle_alike prepared
    have own := result_alike settled.channel works
    obtain ⟨read, sent⟩ := readSent_alike (perform_alike settled works)
    have counts : ((s.prepare index b).1.builders[index]?.getD b).clauses.counts =
        ((t.prepare index c).1.builders[index]?.getD c).clauses.counts :=
      Clauses.counts_alike (congrArg Builder.clauses (builder_alike prepared index builders))
    refine ⟨read, ?_, ?_⟩
    · simp only [fetch, awaitThen, counts]
      exact .fetched _ own ⟨results, read.runs, sent⟩
    · simp only [fetch, List.filter_append, awaitThen_dispatching, events]

theorem call_alike (alike : s.Alike t) (index : Nat) (builders : b.redacted = c.redacted) {call other : Call}
    (calls : call.redacted = other.redacted) :
    Effect.Alike (.call (.ok call)) (s.act index b (.call (.ok call))) (t.act index c (.call (.ok other))) := by
  simp only [act]
  rcases Builder.apply_alike builders calls with ⟨error, mine, theirs⟩ | ⟨after, other, mine, theirs, redacted⟩
  · rw [mine, theirs]
    exact ⟨alike, .same _ _, rfl⟩
  · rw [mine, theirs]
    exact ⟨setBuilder_alike alike index redacted, .same _ _, rfl⟩

theorem act_alike (alike : s.Alike t) (index : Nat) (builders : b.redacted = c.redacted) {action other : Action}
    (actions : action.redacted = other.redacted) :
    Effect.Alike action (s.act index b action) (t.act index c other) := by
  rcases Action.redacted_cases actions with rfl | ⟨call, call', rfl, rfl, calls⟩
  · cases action with
    | call call =>
      cases call with
      | error error => exact ⟨alike, .same _ _, rfl⟩
      | ok call => exact call_alike alike index builders rfl
    | ask question => exact ⟨alike, answer_alike alike builders question, rfl⟩
    | clone =>
      have count : s.builders.length = t.builders.length := by simpa using congrArg List.length alike.builders
      refine ⟨⟨?_, alike.channel, alike.outstanding, alike.runs⟩, ?_, rfl⟩
      · simp [act, alike.builders, builders]
      · simp only [act, count]
        exact .same _ _
    | execute reset inRuntime => exact execute_alike alike index builders reset inRuntime
    | fetch fate => exact fetch_alike alike index builders fate
    | settle =>
      obtain ⟨session, settled⟩ := await_alike alike
      exact ⟨session, .settled settled, by rw [act_dispatching, act_dispatching]; rfl⟩
  · exact call_alike alike index builders calls

theorem step_alike (alike : s.Alike t) {step other : Step} (steps : step.redacted = other.redacted) :
    (s.step step).1.Alike (t.step other).1 ∧ Entry.Alike (step, (s.step step).2) (other, (t.step other).2) := by
  obtain ⟨index, action⟩ := step
  obtain ⟨index', action'⟩ := other
  obtain ⟨rfl, actions⟩ : index = index' ∧ action.redacted = action'.redacted := by
    simpa only [Step.redacted, Step.mk.injEq] using steps
  rcases builder_cases alike index with ⟨mine, theirs⟩ | ⟨b, c, mine, theirs, builders⟩
  · simp only [Session.step, mine, theirs]
    exact ⟨alike, .same _ _, rfl, rfl, rfl⟩
  · obtain ⟨session, outcome, dispatched⟩ := act_alike alike index builders actions
    have after := congrArg Builder.clauses (builder_alike session index builders)
    simp only [Session.step, mine, theirs]
    refine ⟨session, outcome, Clauses.counts_alike after, ?_, dispatched⟩
    change (Clauses.beyond _ _).redacted = (Clauses.beyond _ _).redacted
    rw [← Clauses.beyond_redacted, ← Clauses.beyond_redacted]
    exact congrArg₂ Clauses.beyond after (congrArg Builder.clauses builders)

theorem runSteps_alike (alike : s.Alike t) {steps others : List Step}
    (same : steps.map Step.redacted = others.map Step.redacted) :
    (s.runSteps steps).1.Alike (t.runSteps others).1 ∧
      List.Forall₂ Entry.Alike (steps.zip (s.runSteps steps).2) (others.zip (t.runSteps others).2) := by
  induction steps generalizing s t others with
  | nil =>
    obtain rfl := List.map_eq_nil_iff.mp same.symm
    exact ⟨alike, .nil⟩
  | cons step rest ih =>
    cases others with
    | nil => cases same
    | cons other later =>
      obtain ⟨first, same⟩ := List.cons.inj same
      obtain ⟨next, entry⟩ := step_alike alike first
      obtain ⟨last, entries⟩ := ih next same
      exact ⟨last, .cons entry entries⟩

theorem alike_refl (s : Session) : s.Alike s := ⟨rfl, rfl, rfl, rfl⟩

theorem close_alike (alike : s.Alike t) : s.close.Alike t.close := by
  obtain ⟨session, settled⟩ := await_alike alike
  have quiet (s : Session) : s.close.events.filter Event.isDispatching = [] := s.act_dispatching 0 ⟨"", {}, {}⟩ .settle
  refine ⟨settled, ?_, quiet s, quiet t⟩
  have counts (s : Session) :
      s.close.counts = (s.await.1.builders.map Builder.redacted).map fun b => b.clauses.counts := by
    simp [close, Builder.redacted, Builder.modify, Clauses.counts_redacted]
  rw [counts, counts, session.builders]

theorem Alike.compiled (alike : s.Alike t) :
    List.Forall₂ (fun b c => Compiled.Alike b.compile c.compile) s.builders t.builders ∧
      List.Forall₂ (fun work other => work.path = other.path ∧ Compiled.Alike work.prepared other.prepared)
        s.outstanding t.outstanding := by
  have builders := alike.builders
  have outstanding := alike.outstanding
  rw [← List.forall₂_eq_eq_eq, List.forall₂_map_left_iff, List.forall₂_map_right_iff] at builders outstanding
  refine ⟨builders.imp fun b c => Builder.compile_alike, outstanding.imp fun work other same => ?_⟩
  exact ⟨(congrArg Dispatch.path same :), Compiled.alike_of_redacted (congrArg Dispatch.prepared same)⟩

end Session

theorem Entry.dispatching_alike {entries others : List Entry} (alike : List.Forall₂ Entry.Alike entries others) :
    ((entries.map Prod.snd).flatMap Report.events).filter Event.isDispatching =
      ((others.map Prod.snd).flatMap Report.events).filter Event.isDispatching := by
  induction alike with
  | nil => rfl
  | cons first _ ih => simp only [List.map_cons, List.flatMap_cons, List.filter_append, first.dispatched, ih]

theorem Outcome.Alike.failed_iff {action : Action} {outcome other : Outcome}
    (alike : Outcome.Alike action outcome other) (error : Error) : outcome = .failed error ↔ other = .failed error := by
  cases alike with
  | same => exact .rfl
  | _ => exact ⟨nofun, nofun⟩

/-- Whatever values the steps of a session bind, it goes the same way: each step ends alike, every statement has the
    same texts but for the literals, and the dispatch events are the same. -/
theorem values_reach_params_only (s : Session) {steps others : List Step}
    (same : steps.map Step.redacted = others.map Step.redacted) :
    let run := s.runSteps steps
    let other := s.runSteps others
    List.Forall₂ Entry.Alike (steps.zip run.2) (others.zip other.2) ∧
      List.Forall₂ (fun report other => ∀ error, report.outcome = .failed error ↔ other.outcome = .failed error)
        run.2 other.2 ∧
      (run.2.flatMap Report.events).filter Event.isDispatching =
        (other.2.flatMap Report.events).filter Event.isDispatching ∧
      List.Forall₂ (fun b c => Compiled.Alike b.compile c.compile) run.1.builders other.1.builders ∧
      List.Forall₂ (fun work other => work.path = other.path ∧ Compiled.Alike work.prepared other.prepared)
        run.1.outstanding other.1.outstanding ∧
      run.1.runs = other.1.runs ∧ run.1.close.Alike other.1.close := by
  intro run other
  obtain ⟨alike, entries⟩ := Session.runSteps_alike s.alike_refl same
  have reports (steps : List Step) : (steps.zip (s.runSteps steps).2).map Prod.snd = (s.runSteps steps).2 :=
    List.map_snd_zip (Nat.le_of_eq (s.length_runSteps steps))
  have events := Entry.dispatching_alike entries
  have failing : List.Forall₂
      (fun report other => ∀ error, report.outcome = .failed error ↔ other.outcome = .failed error)
      ((steps.zip run.2).map Prod.snd) ((others.zip other.2).map Prod.snd) := by
    rw [List.forall₂_map_left_iff, List.forall₂_map_right_iff]
    exact entries.imp fun entry other alike => alike.outcome.failed_iff
  rw [reports, reports] at events failing
  exact ⟨entries, failing, events, alike.compiled.1, alike.compiled.2, alike.runs, Session.close_alike alike⟩

def secretSteps (first second : String) : List Step :=
  [⟨0, .call (.ok (.refine .and "name" .eq first))⟩, ⟨0, .call (.ok (.filterEq "password" first))⟩,
    ⟨0, .call (.ok (.refine .or "token" .ne second))⟩, ⟨0, .execute (some false) true⟩, ⟨0, .fetch .drop⟩]

theorem values_reach_params_only_secretSteps :
    let config : Config := { logLevel := .error, maxSqlLength := some 13 }
    let s : Session := { builders := [{ table := "users", config }], executor := .server (.available true) [] }
    let other := s.runSteps (secretSteps "\x00" "? $1 \' --")
    (secretSteps "hunter2" "").map Step.redacted = (secretSteps "\x00" "? $1 \' --").map Step.redacted ∧
      (other.2.flatMap Report.events).filter Event.isDispatching =
        [.dispatching .error "users" 2 false "SELECT * FROM...",
          .dispatching .error "users" 2 true "SELECT * FROM..."] := by
  intro config s other
  have same : (secretSteps "hunter2" "").map Step.redacted = (secretSteps "\x00" "? $1 \' --").map Step.redacted := rfl
  obtain ⟨-, -, events, -⟩ := values_reach_params_only s same
  exact ⟨same, events.symm.trans (by decide +kernel)⟩

end SqlSelect
