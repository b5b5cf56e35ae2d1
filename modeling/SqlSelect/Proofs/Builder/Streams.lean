import SqlSelect.Proofs.Session.Evolution

namespace SqlSelect

inductive ClauseKind where
  | select
  | condition
  | join
  | sortKey
  | group
deriving DecidableEq, Repr

/-- The kind of clause that a call adds. Emptying the builder has no kind of its own. -/
def Call.kind? : Call → Option ClauseKind
  | select _ => some .select
  | filter .. => some .condition
  | refine .. => some .condition
  | join .. => some .join
  | orderBy .. => some .sortKey
  | groupBy _ => some .group
  | reset => none

def Call.isOf (kind : ClauseKind) (call : Call) : Bool :=
  call.kind? == some kind

namespace Clauses

def only (kind : ClauseKind) (clauses : Clauses) : Clauses :=
  match kind with
  | .select => { selects := clauses.selects }
  | .condition => { conditions := clauses.conditions }
  | .join => { joins := clauses.joins }
  | .sortKey => { sortKeys := clauses.sortKeys }
  | .group => { groups := clauses.groups }

theorem eq_of_only {clauses other : Clauses} (same : ∀ kind, clauses.only kind = other.only kind) :
    clauses = other := by
  have selects := congrArg selects (same .select)
  have conditions := congrArg conditions (same .condition)
  have joins := congrArg joins (same .join)
  have sortKeys := congrArg sortKeys (same .sortKey)
  have groups := congrArg groups (same .group)
  simp only [only] at selects conditions joins sortKeys groups
  cases clauses
  cases other
  simp_all

end Clauses

namespace Builder

/-- The builder after a call, as a session goes on with it, and whether the call failed. -/
def attempt (b : Builder) (call : Call) : Builder × Except Error Unit :=
  (b.after (.call (.ok call)), (b.apply call).map fun _ => ())

/-- Makes the calls in order, and lists each with what came of it. -/
def attemptAll (b : Builder) : List Call → Builder × List (Call × Except Error Unit)
  | [] => (b, [])
  | call :: rest =>
    let (next, result) := b.attempt call
    let (last, others) := next.attemptAll rest
    (last, (call, result) :: others)

variable {b c : Builder} {call : Call} {kind : ClauseKind}

theorem attemptAll_cons (b : Builder) (call : Call) (rest : List Call) :
    b.attemptAll (call :: rest) =
      (((b.attempt call).1.attemptAll rest).1,
        (call, (b.attempt call).2) :: ((b.attempt call).1.attemptAll rest).2) := rfl

theorem attempt_table (b : Builder) (call : Call) : (b.attempt call).1.table = b.table := by
  cases call with
  | refine conjunction field operator value =>
    simp only [attempt, after, apply]
    cases b.clauses.conditions.isEmpty <;> rfl
  | _ => rfl

theorem attemptAll_table (b : Builder) (calls : List Call) : (b.attemptAll calls).1.table = b.table := by
  induction calls generalizing b with
  | nil => rfl
  | cons call rest ih => rw [attemptAll_cons, ih, attempt_table]

theorem attempt_other (keeping : call ≠ .reset) (other : call.isOf kind = false) :
    (b.attempt call).1.clauses.only kind = b.clauses.only kind := by
  cases call with
  | refine conjunction field operator value =>
    simp only [attempt, after, apply]
    cases b.clauses.conditions.isEmpty with
    | true => rfl
    | false => cases kind <;> first | rfl | cases other
  | reset => contradiction
  | _ => cases kind <;> first | rfl | cases other

theorem attempt_own (own : call.isOf kind = true) (same : b.clauses.only kind = c.clauses.only kind) :
    (b.attempt call).2 = (c.attempt call).2 ∧
      (b.attempt call).1.clauses.only kind = (c.attempt call).1.clauses.only kind := by
  have known : call.kind? = some kind := beq_iff_eq.mp own
  cases call with
  | refine conjunction field operator value =>
    obtain rfl := Option.some.inj known
    have conditions : b.clauses.conditions = c.clauses.conditions := (congrArg Clauses.conditions same :)
    simp only [attempt, after, apply, conditions]
    cases c.clauses.conditions.isEmpty with
    | true => exact ⟨rfl, same⟩
    | false => exact ⟨rfl, by simp [Except.toOption, addCondition, modify, Clauses.only, conditions]⟩
  | reset => cases known
  | _ =>
    obtain rfl := Option.some.inj known
    simp only [Clauses.only, Clauses.mk.injEq, and_true, true_and] at same
    exact ⟨rfl, by simp [attempt, after, apply, Except.toOption, addCondition, modify, Clauses.only, same]⟩

/-- Of the clauses of one kind, and of the results of their calls, a run of calls makes what those calls make alone. -/
theorem attemptAll_stream (kind : ClauseKind) {calls : List Call} (keeping : ∀ call ∈ calls, call ≠ .reset)
    (same : b.clauses.only kind = c.clauses.only kind) :
    (b.attemptAll calls).1.clauses.only kind = (c.attemptAll (calls.filter (Call.isOf kind))).1.clauses.only kind ∧
      (b.attemptAll calls).2.filter (fun entry => entry.1.isOf kind) =
        (c.attemptAll (calls.filter (Call.isOf kind))).2 := by
  induction calls generalizing b c with
  | nil => exact ⟨same, rfl⟩
  | cons call rest ih =>
    have others : ∀ call ∈ rest, call ≠ .reset := fun other member => keeping other (List.mem_cons_of_mem _ member)
    rw [attemptAll_cons]
    cases own : call.isOf kind with
    | true =>
      obtain ⟨result, clauses⟩ := attempt_own own same
      obtain ⟨last, results⟩ := ih others clauses
      rw [List.filter_cons_of_pos own, attemptAll_cons]
      exact ⟨last, by simp only [List.filter_cons, own, if_true, results, result]⟩
    | false =>
      -- A call of another kind is made on one side only, where it leaves this kind alone.
      have kept := attempt_other (b := b) (keeping call (List.mem_cons_self ..)) own
      obtain ⟨last, results⟩ := ih others (kept.trans same)
      simp only [List.filter_cons, own, Bool.false_eq_true, if_false]
      exact ⟨last, results⟩

end Builder

/-- How calls of different kinds are mixed makes no difference. If two runs of calls that empty nothing agree in the
    calls of each kind, then each call comes to the same, and the builders end with equal clauses and compile alike. -/
theorem kinds_are_independent {b c : Builder} (table : b.table = c.table) (clauses : b.clauses = c.clauses)
    {calls others : List Call} (keeping : ∀ call ∈ calls ++ others, call ≠ .reset)
    (streams : ∀ kind, calls.filter (Call.isOf kind) = others.filter (Call.isOf kind)) :
    let one := b.attemptAll calls
    let two := c.attemptAll others
    (∀ kind, one.2.filter (fun entry => entry.1.isOf kind) = two.2.filter (fun entry => entry.1.isOf kind)) ∧
      one.1.clauses = two.1.clauses ∧ one.1.compile = two.1.compile := by
  intro one two
  have mine (kind : ClauseKind) := Builder.attemptAll_stream (b := b) (c := b) kind
    (fun call member => keeping call (List.mem_append_left _ member)) rfl
  have theirs (kind : ClauseKind) := Builder.attemptAll_stream (b := c) (c := b) kind
    (fun call member => keeping call (List.mem_append_right _ member)) (by rw [clauses])
  have same : one.1.clauses = two.1.clauses := by
    apply Clauses.eq_of_only
    intro kind
    rw [(mine kind).1, (theirs kind).1, streams kind]
  have tables : one.1.table = two.1.table := by
    rw [Builder.attemptAll_table, Builder.attemptAll_table, table]
  refine ⟨fun kind => ?_, same, ?_⟩
  · rw [(mine kind).2, (theirs kind).2, streams kind]
  · simp only [Builder.compile, same, tables]

/-- The condition that comes too early is refused in both orders, although in one of them other clauses are there. -/
theorem kinds_are_independent_earlyCondition :
    let calls : List Call := [.refine .or "a" .gt "0", .select "x, y", .filterEq "a" "1", .innerJoin "u" "u.a = t.a",
      .refine .or "b" .ne "2", .orderByDesc "x", .select "z", .groupBy "x", .outerJoin "o" "o.a = t.a"]
    let others : List Call := [.groupBy "x", .select "x, y", .orderByDesc "x", .innerJoin "u" "u.a = t.a",
      .outerJoin "o" "o.a = t.a", .select "z", .refine .or "a" .gt "0", .filterEq "a" "1", .refine .or "b" .ne "2"]
    let b : Builder := { table := "t" }
    (∀ call ∈ calls ++ others, call ≠ .reset) ∧
      (∀ kind, calls.filter (Call.isOf kind) = others.filter (Call.isOf kind)) ∧
      (b.attemptAll others).2.filter (fun entry => entry.1.isOf .condition) =
        [(.refine .or "a" .gt "0", .error (.invalidUsage (.noCondition .or))), (.filterEq "a" "1", .ok ()),
          (.refine .or "b" .ne "2", .ok ())] ∧
      (b.attemptAll others).1.compile = .error (.unsupportedJoin "o" .outer) := by
  intro calls others b
  have keeping : ∀ call ∈ calls ++ others, call ≠ .reset := by decide
  have streams : ∀ kind, calls.filter (Call.isOf kind) = others.filter (Call.isOf kind) := by
    intro kind
    cases kind <;> rfl
  obtain ⟨results, -, compiled⟩ := kinds_are_independent (b := b) rfl rfl keeping streams
  exact ⟨keeping, streams, (results .condition).symm.trans rfl, compiled.symm.trans rfl⟩

end SqlSelect
