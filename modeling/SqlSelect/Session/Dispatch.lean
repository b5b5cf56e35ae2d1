import SqlSelect.Executor

namespace SqlSelect

inductive Path where
  /-- A task of its own runs the statement and hands the result to a callback. -/
  | callback
  /-- Whoever asked holds a future and drives it. -/
  | future
deriving DecidableEq, Repr

/-- A piece of dispatched work. The statement was compiled when the work was dispatched, so no later call on any
    builder reaches it. -/
structure Dispatch where
  path : Path
  prepared : Except Error Statement

namespace Dispatch

def isTask (work : Dispatch) : Bool :=
  work.path == .callback

/-- Whether tasks get their turn while the work is awaited. A task is awaited by letting tasks run; a future lets them
    run only if it has to wait for a server itself. -/
def givesWay (executor : Executor) (work : Dispatch) : Bool :=
  work.isTask ||
    match work.prepared with
    | .ok statement => executor.waits statement
    | .error _ => false

end Dispatch

/-- The order in which pieces of work start when they are awaited one after the other. Futures start when they are
    awaited. All tasks start together, in the order of their dispatch, as soon as something awaited gives way. -/
def startOrder {α : Type} (givesWay isTask : α → Bool) : List α → List α
  | [] => []
  | work :: rest =>
    if givesWay work then work :: (rest.filter isTask ++ rest.filter fun other => !isTask other)
    else work :: startOrder givesWay isTask rest

/-- All work starts, and each piece of it once. -/
theorem startOrder_perm {α : Type} (givesWay isTask : α → Bool) (works : List α) :
    (startOrder givesWay isTask works).Perm works := by
  induction works with
  | nil => exact .refl _
  | cons work rest ih =>
    simp only [startOrder]
    split
    · exact .cons work (List.filter_append_perm isTask rest)
    · exact .cons work ih

end SqlSelect
