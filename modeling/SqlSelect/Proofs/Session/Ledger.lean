import SqlSelect.Proofs.Session.Frame

namespace SqlSelect

/-- A dispatch call that came to something: the builder as it stood at the call, and how the result comes back. -/
structure Request where
  builder : Builder
  path : Path

def Request.work (request : Request) : Dispatch :=
  ⟨request.path, request.builder.compile⟩

/-- A run of the executor: the request it was for, the statement it was called on and what came of it. -/
structure RunRecord where
  number : Nat
  statement : Statement
  result : Result

def RunRecord.of (number : Nat) (result : Result) : Except Error Statement → List RunRecord
  | .ok q => [⟨number, q, result⟩]
  | .error _ => []

/-- One thing that happens in a session whose work may be done in any order. -/
inductive Move where
  /-- A step that awaits nothing. -/
  | step (step : Step) (prompt : step.action.awaits = false)
  /-- A task or a held future begins; this is where the executor is called. -/
  | start (number : Nat)
  | finish (number : Nat)
  /-- A held future is thrown away before it has begun. -/
  | discard (number : Nat)
  /-- The texts that the server has received are read back. -/
  | read

/-- A session with a record of its dispatch calls, numbered in the order of the calls. Every request is waiting in the
    session, or thrown away, or running, or its result has been delivered. -/
structure Ledger where
  session : Session
  requests : List Request := []
  waiting : List Nat := []
  dropped : List Nat := []
  running : List (Nat × Result) := []
  runs : List RunRecord := []
  delivered : List (Nat × Result) := []

def Executor.runAll (executor : Executor) : List Statement → Executor × List Result
  | [] => (executor, [])
  | q :: rest =>
    let run := executor.run q
    let (last, results) := run.executor.runAll rest
    (last, run.result :: results)

def Outcome.path? : Outcome → Option Path
  | .dispatched => some .callback
  | .held | .dropped => some .future
  | _ => none

namespace Ledger

def wait (l : Ledger) (request : Request) : Ledger :=
  { l with requests := l.requests ++ [request], waiting := l.waiting ++ [l.requests.length] }

def drop (l : Ledger) (request : Request) : Ledger :=
  { l with requests := l.requests ++ [request], dropped := l.dropped ++ [l.requests.length] }

/-- Enters what a step on a builder came to. A call that failed enters nothing. -/
def record (l : Ledger) (b : Builder) : Outcome → Ledger
  | .dispatched => l.wait ⟨b, .callback⟩
  | .held => l.wait ⟨b, .future⟩
  | .dropped => l.drop ⟨b, .future⟩
  | _ => l

@[simp] theorem record_session (l : Ledger) (b : Builder) (outcome : Outcome) :
    (l.record b outcome).session = l.session := by
  cases outcome <;> rfl

@[simp] theorem record_running (l : Ledger) (b : Builder) (outcome : Outcome) :
    (l.record b outcome).running = l.running := by
  cases outcome <;> rfl

@[simp] theorem record_delivered (l : Ledger) (b : Builder) (outcome : Outcome) :
    (l.record b outcome).delivered = l.delivered := by
  cases outcome <;> rfl

@[simp] theorem record_runs (l : Ledger) (b : Builder) (outcome : Outcome) : (l.record b outcome).runs = l.runs := by
  cases outcome <;> rfl

theorem record_requests (l : Ledger) (b : Builder) (outcome : Outcome) :
    (l.record b outcome).requests = l.requests ++ (outcome.path?.map (Request.mk b)).toList := by
  cases outcome <;> simp [record, wait, drop, Outcome.path?]

theorem record_dropped (l : Ledger) (b : Builder) (outcome : Outcome) : l.dropped <+: (l.record b outcome).dropped := by
  cases outcome <;> simp [record, wait, drop]

/-- Without a request among those that wait and without its work in the session. -/
def without (l : Ledger) (number : Nat) : Ledger :=
  { l with
    session := { l.session with outstanding := l.session.outstanding.eraseIdx (l.waiting.idxOf number) }
    waiting := l.waiting.eraseIdx (l.waiting.idxOf number) }

def waitingWork? (l : Ledger) (number : Nat) : Option Dispatch :=
  l.session.outstanding[l.waiting.idxOf number]?

def begin (l : Ledger) (number : Nat) (work : Dispatch) : Ledger :=
  { l with
    session := (l.session.perform work).1
    running := l.running ++ [(number, (l.session.perform work).2.result)]
    runs := l.runs ++ RunRecord.of number (l.session.perform work).2.result work.prepared }

def move (l : Ledger) : Move → Ledger
  | .step step _ =>
    let next : Ledger := { l with session := (l.session.step step).1 }
    match l.session.builders[step.builder]? with
    | some b => next.record b (l.session.step step).2.outcome
    | none => next
  | .start number =>
    match l.waitingWork? number with
    | some work => (l.without number).begin number work
    | none => l
  | .finish number =>
    match l.running.find? fun entry => entry.1 == number with
    | some entry =>
      { l with running := l.running.eraseP fun entry => entry.1 == number, delivered := l.delivered ++ [entry] }
    | none => l
  | .discard number =>
    match l.waitingWork? number with
    | some work => if work.isTask then l else { l.without number with dropped := l.dropped ++ [number] }
    | none => l
  | .read => { l with session := l.session.readSent.1 }

def play (l : Ledger) (moves : List Move) : Ledger :=
  moves.foldl move l

def runsOf (l : Ledger) (number : Nat) : List RunRecord :=
  l.runs.filter fun run => run.number == number

def resultsOf (l : Ledger) (number : Nat) : List Result :=
  (l.delivered.filter fun entry => entry.1 == number).map Prod.snd

/-- What holds of a ledger that began with an executor, at every point. -/
structure Accounted (executor : Executor) (l : Ledger) : Prop where
  once : (l.waiting ++ l.dropped ++ l.running.map Prod.fst ++ l.delivered.map Prod.fst).Perm
    (List.range l.requests.length)
  snapshot : l.session.outstanding.map some = l.waiting.map fun number => l.requests[number]?.map Request.work
  counted : l.session.runs = l.runs.length
  served : executor.runAll (l.runs.map RunRecord.statement) = (l.session.executor, l.runs.map RunRecord.result)
  begun : ∀ entry ∈ l.running ++ l.delivered, ∀ request, l.requests[entry.1]? = some request →
    l.runsOf entry.1 = RunRecord.of entry.1 entry.2 request.builder.compile
  owned : ∀ run ∈ l.runs, run.number ∈ (l.running ++ l.delivered).map Prod.fst
  refused : ∀ entry ∈ l.running ++ l.delivered, ∀ request, l.requests[entry.1]? = some request →
    ∀ error, request.builder.compile = .error error → entry.2 = .error error
  compiled : ∀ request ∈ l.requests, request.path = .callback → ∃ q, request.builder.compile = .ok q
  futures : ∀ number ∈ l.dropped, ∃ b, l.requests[number]? = some ⟨b, .future⟩

end Ledger

end SqlSelect
