import SqlSelect.Clause.Record
import SqlSelect.Session.Basic

namespace SqlSelect

/-- What can be asked of a builder without changing anything. -/
inductive Question where
  | statement
  | clauses
  | boundValues
  | isEmpty
  | table
  | config
  /-- Whether another builder has equal clauses; the tables are not compared. -/
  | sameClauses (other : Nat)
  /-- Whether another builder compiles to an equal statement, marks included. -/
  | sameStatement (other : Nat)
deriving DecidableEq, Repr

inductive Answer where
  | statement (q : Statement)
  | clauses (record : ClauseRecord)
  | values (values : List String)
  | truth (b : Bool)
  | text (text : String)
  | config (config : Config)
deriving DecidableEq, Repr

inductive Fate where
  | await
  | hold
  /-- It is thrown away before it has been driven at all. -/
  | drop
deriving DecidableEq, Repr

inductive Action where
  /-- Performs a call, unless one of its keywords could not be read; then the call is not made. -/
  | call (call : Except Error Call)
  | ask (question : Question)
  | clone
  /-- Dispatches on the callback path. Without an explicit choice the configuration decides on the reset. -/
  | execute (reset : Option Bool) (inRuntime : Bool)
  | fetch (fate : Fate)
  | settle

structure Step where
  builder : Nat
  action : Action

/-- Results of outstanding work in the order of its dispatch, the number of runs so far, and the texts that the
    server has received since they were read last. -/
structure Settled where
  results : List Result
  runs : Nat
  sent : Option (List String)

inductive Outcome where
  | done
  | failed (error : Error)
  | answered (answer : Answer)
  | cloned (index : Nat)
  | dispatched
  | held
  | dropped
  /-- The result of a fetch. The counts are those of the builder before anything was awaited. -/
  | fetched (result : Result) (counts : List Nat) (settled : Settled)
  | settled (settled : Settled)
  | noSuchBuilder

structure Effect where
  session : Session
  outcome : Outcome
  events : List Event := []

/-- What is seen of a step: its outcome, the counts and the new entries of its builder, and the events. -/
structure Report where
  outcome : Outcome
  counts : List Nat
  added : Clauses
  events : List Event

structure Closing where
  settled : Settled
  counts : List (List Nat)
  events : List Event

namespace Session

/-- The answer to a question about a builder. Of two statements the builder's own is compiled first. -/
def answer (s : Session) (b : Builder) : Question → Outcome
  | .statement =>
    match b.compile with
    | .ok statement => .answered (.statement statement)
    | .error error => .failed error
  | .clauses => .answered (.clauses b.clauses.record)
  | .boundValues => .answered (.values b.clauses.values)
  | .isEmpty => .answered (.truth b.clauses.isEmpty)
  | .table => .answered (.text b.table)
  | .config => .answered (.config b.config)
  | .sameClauses other =>
    match s.builders[other]? with
    | some other => .answered (.truth (b.clauses == other.clauses))
    | none => .noSuchBuilder
  | .sameStatement other =>
    match s.builders[other]? with
    | some other =>
      match b.compile, other.compile with
      | .ok mine, .ok theirs => .answered (.truth (mine == theirs))
      | .error error, _ => .failed error
      | _, .error error => .failed error
    | none => .noSuchBuilder

/-- Dispatches on the callback path. Outside a runtime nothing is looked at. -/
def execute (s : Session) (index : Nat) (b : Builder) (reset : Option Bool) (inRuntime : Bool) : Effect :=
  if inRuntime then
    match b.take (reset.getD b.config.resetAfterExecute) with
    | .error error => ⟨s, .failed error, []⟩
    | .ok taken =>
      ⟨(s.setBuilder index taken.builder).defer ⟨.callback, .ok taken.statement⟩, .dispatched, [taken.event]⟩
  else ⟨s, .failed .noRuntime, []⟩

/-- The future for the statement of a builder. The statement is taken at once, whatever becomes of the future. -/
def prepare (s : Session) (index : Nat) (b : Builder) : Session × Dispatch × List Event :=
  match b.take b.config.resetAfterExecute with
  | .error error => (s, ⟨.future, .error error⟩, [])
  | .ok taken => (s.setBuilder index taken.builder, ⟨.future, .ok taken.statement⟩, [taken.event])

/-- Awaits the outstanding work and reads back what the server has received. -/
def await (s : Session) : Session × Settled × List Event :=
  let (s, works) := s.settle
  let (s, sent) := s.readSent
  (s, ⟨works.map Finished.result, s.runs, sent⟩, works.flatMap Finished.events)

def awaitThen (s : Session) (work : Dispatch) (counts : List Nat) : Effect :=
  let (s, works) := s.settle
  let (s, own) := s.perform work
  let (s, sent) := s.readSent
  { session := s
    outcome := .fetched own.result counts ⟨works.map Finished.result, s.runs, sent⟩
    events := works.flatMap Finished.events ++ own.events }

def fetch (s : Session) (index : Nat) (b : Builder) (fate : Fate) : Effect :=
  let (s, work, events) := s.prepare index b
  match fate with
  | .drop => ⟨s, .dropped, events⟩
  | .hold => ⟨s.defer work, .held, events⟩
  | .await =>
    let effect := s.awaitThen work ((s.builders[index]?.getD b).clauses.counts)
    { effect with events := events ++ effect.events }

def act (s : Session) (index : Nat) (b : Builder) : Action → Effect
  | .call (.error error) => ⟨s, .failed error, []⟩
  | .call (.ok call) =>
    match b.apply call with
    | .ok b => ⟨s.setBuilder index b, .done, []⟩
    | .error error => ⟨s, .failed error, []⟩
  | .ask question => ⟨s, s.answer b question, []⟩
  | .clone => ⟨{ s with builders := s.builders ++ [b] }, .cloned s.builders.length, []⟩
  | .execute reset inRuntime => s.execute index b reset inRuntime
  | .fetch fate => s.fetch index b fate
  | .settle =>
    let (session, settled, events) := s.await
    ⟨session, .settled settled, events⟩

def step (s : Session) (step : Step) : Session × Report :=
  match s.builders[step.builder]? with
  | none => (s, ⟨.noSuchBuilder, [], {}, []⟩)
  | some before =>
    let effect := s.act step.builder before step.action
    let after := effect.session.builders[step.builder]?.getD before
    let added := after.clauses.beyond before.clauses
    (effect.session, ⟨effect.outcome, after.clauses.counts, added, effect.events⟩)

def runSteps (s : Session) : List Step → Session × List Report
  | [] => (s, [])
  | step :: rest =>
    let (next, report) := s.step step
    let (last, reports) := next.runSteps rest
    (last, report :: reports)

def close (s : Session) : Closing :=
  let (session, settled, events) := s.await
  ⟨settled, session.builders.map fun b => b.clauses.counts, events⟩

end Session

end SqlSelect
