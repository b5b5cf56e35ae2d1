import SqlSelect.Builder
import SqlSelect.Session.Dispatch

namespace SqlSelect

/-- Builders that share one executor, and the work that was dispatched but not awaited yet. -/
structure Session where
  builders : List Builder
  executor : Executor
  outstanding : List Dispatch := []
  /-- How many runs of the executor there have been, failed ones included. -/
  runs : Nat := 0
  /-- The texts that the server has received and that nobody has read back yet. -/
  unread : List String := []

/-- What a piece of work comes to: its result and what is reported of its run. -/
structure Finished where
  result : Result
  events : List Event

namespace Session

def run (s : Session) (q : Statement) : Session × Finished :=
  let run := s.executor.run q
  ({ s with executor := run.executor, runs := s.runs + 1, unread := s.unread ++ run.sent }, ⟨run.result, run.events⟩)

/-- What is reported of a result besides the events of its run: the failures that only a callback learns of. -/
def failureEvents : Path → Result → List Event
  | .callback, .error error => [.failed error]
  | _, _ => []

/-- Does a piece of work. Work whose statement did not compile ends with that error and without a run. -/
def perform (s : Session) (work : Dispatch) : Session × Finished :=
  match work.prepared with
  | .error error => (s, ⟨.error error, []⟩)
  | .ok statement =>
    let (s, finished) := s.run statement
    (s, { finished with events := finished.events ++ failureEvents work.path finished.result })

def performAll (s : Session) : List Dispatch → Session × List Finished
  | [] => (s, [])
  | work :: rest =>
    let (next, first) := s.perform work
    let (last, others) := next.performAll rest
    (last, first :: others)

/-- Does numbered pieces of work in the order given, and lists what they come to by their numbers. -/
def performNumbered (s : Session) (works : List (Dispatch × Nat)) : Session × List Finished :=
  let (s, finished) := s.performAll (works.map Prod.fst)
  let done := (works.map Prod.snd).zip finished
  (s, (List.range works.length).filterMap fun number => done.lookup number)

/-- Awaits all outstanding work. Whatever the order in which the work started, what it comes to is listed in the
    order in which it was dispatched. -/
def settle (s : Session) : Session × List Finished :=
  let works := s.outstanding.zipIdx
  { s with outstanding := [] }.performNumbered
    (startOrder (fun work => work.1.givesWay s.executor) (fun work => work.1.isTask) works)

/-- Reads back what the server has received since the last reading, if there is a server. -/
def readSent (s : Session) : Session × Option (List String) :=
  if s.executor.hasServer then ({ s with unread := [] }, some s.unread) else (s, none)

def setBuilder (s : Session) (index : Nat) (b : Builder) : Session :=
  { s with builders := s.builders.set index b }

def defer (s : Session) (work : Dispatch) : Session :=
  { s with outstanding := s.outstanding ++ [work] }

end Session

end SqlSelect
