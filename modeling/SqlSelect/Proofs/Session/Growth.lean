import SqlSelect.Proofs.Session.History
import SqlSelect.Proofs.Statement.Growth

namespace SqlSelect

namespace Statement

/-- Values have been added at the end only, and the text has not become shorter. -/
structure GrownFrom (r q : Statement) : Prop where
  params : q.params <+: r.params
  size : q.sql.utf8ByteSize ≤ r.sql.utf8ByteSize

theorem GrownFrom.refl (q : Statement) : q.GrownFrom q := ⟨List.prefix_rfl, Nat.le_refl _⟩

theorem GrownFrom.trans {p q r : Statement} (later : r.GrownFrom q) (earlier : q.GrownFrom p) : r.GrownFrom p :=
  ⟨earlier.params.trans later.params, Nat.le_trans earlier.size later.size⟩

theorem grownFrom_of_effect {call : Call} {growth : Nat} {q r : Statement}
    (size : r.sql.utf8ByteSize = q.sql.utf8ByteSize + growth) (effect : call.Effect growth q r) : r.GrownFrom q := by
  have longer : q.sql.utf8ByteSize ≤ r.sql.utf8ByteSize := by omega
  cases call with
  | filter field operator value => exact ⟨effect.1 ▸ List.prefix_append .., longer⟩
  | refine conjunction field operator value => exact ⟨effect.1 ▸ List.prefix_append .., longer⟩
  | reset => exact effect.elim
  | _ => exact ⟨effect.1 ▸ List.prefix_rfl, longer⟩

end Statement

namespace Builder

/-- Whatever the later builder compiles to has grown from what the earlier one compiled to. -/
def GrownFrom (later b : Builder) : Prop :=
  ∀ r, later.compile = .ok r → ∃ q, b.compile = .ok q ∧ r.GrownFrom q

theorem GrownFrom.refl (b : Builder) : b.GrownFrom b := fun q compiled => ⟨q, compiled, .refl q⟩

theorem GrownFrom.trans {a b c : Builder} (later : c.GrownFrom b) (earlier : b.GrownFrom a) : c.GrownFrom a := by
  intro r compiled
  obtain ⟨q, between, last⟩ := later r compiled
  obtain ⟨p, first, start⟩ := earlier q between
  exact ⟨p, first, last.trans start⟩

theorem grownFrom_contribution (b : Builder) {call : Call} (keeping : call ≠ .reset) :
    ({ b with clauses := b.clauses.append call.contribution } : Builder).GrownFrom b := by
  intro r compiled
  have outerFree := outerFree_of_compile compiled
  have earlier : b.clauses.OuterFree := fun join member => outerFree join (List.mem_append_left _ member)
  obtain ⟨growth, size, effect⟩ := b.clauses.effect_contribution b.table keeping
  have recompiled := compile_eq_layout b.table _ outerFree
  rw [show r = _ from Except.ok.inj (compiled.symm.trans recompiled)]
  exact ⟨_, compile_eq_layout b.table b.clauses earlier, Statement.grownFrom_of_effect size effect⟩

end Builder

namespace Session

theorem grownFrom_after {s : Session} {index : Nat} {b : Builder} (there : s.builders[index]? = some b)
    (action : Action) (kept : Entry.clears b.config (⟨index, action⟩, (s.step ⟨index, action⟩).2) = false) :
    (b.after action).GrownFrom b := by
  have left := after_eq there action
  simp only [kept, Bool.false_eq_true, if_false] at left
  rw [left]
  cases accepted : Entry.accepted? (⟨index, action⟩, (s.step ⟨index, action⟩).2) with
  | none => exact .refl b
  | some call =>
    have made : action = .call (.ok call) := Entry.accepted_action accepted
    have keeping : call ≠ .reset := by
      rintro rfl
      subst made
      cases kept
    exact b.grownFrom_contribution keeping

/-- Steps that do not empty a builder, be they its calls, its dispatches or anything done to other builders, only let
    its statement grow. -/
theorem grownFrom_runSteps {s : Session} {index : Nat} {b : Builder} (there : s.builders[index]? = some b)
    (steps : List Step)
    (keeping : ∀ entry ∈ historyOf index steps (s.runSteps steps).2, entry.clears b.config = false) :
    ∃ later, (s.runSteps steps).1.builders[index]? = some later ∧ later.config = b.config ∧ later.GrownFrom b := by
  induction steps using List.reverseRecOn with
  | nil => exact ⟨b, there, rfl, .refl b⟩
  | append_singleton steps step ih =>
    rw [history_concat] at keeping
    obtain ⟨between, now, config, grown⟩ := ih fun entry member => keeping entry (List.mem_append_left _ member)
    have stepped := step_builder now step
    have last : (s.runSteps (steps ++ [step])).1 = ((s.runSteps steps).1.step step).1 := by
      rw [runSteps_append]
      rfl
    rw [last, stepped]
    by_cases own : step.builder = index
    · subst own
      have kept := keeping _ (List.mem_append_right _ (by rw [if_pos rfl]; exact List.mem_singleton_self _))
      rw [← config] at kept
      have settings : (between.after step.action).config = between.config := by rw [after_eq now step.action]
      rw [if_pos rfl]
      exact ⟨_, rfl, settings.trans config, (grownFrom_after now step.action kept).trans grown⟩
    · rw [if_neg own]
      exact ⟨between, rfl, config, grown⟩

end Session

/-- One more call moves the markers by what the text in front of them has grown, or adds one marker and its value at the
    end, or leaves markers and values alone. From any point of a session on, as long as a builder is not emptied, its
    values are only added to at the end and its statement does not become shorter. -/
theorem calls_grow_statement (s : Session) (index : Nat) (b : Builder) (there : s.builders[index]? = some b) :
    (∀ call after, b.clauses.OuterFree → b.apply call = .ok after → call ≠ .reset →
      (∀ table condition, call ≠ .outerJoin table condition) →
        ∃ q r growth, b.compile = .ok q ∧ after.compile = .ok r ∧
          r.sql.utf8ByteSize = q.sql.utf8ByteSize + growth ∧ call.Effect growth q r) ∧
    ∀ steps, (∀ entry ∈ historyOf index steps (s.runSteps steps).2, entry.clears b.config = false) →
      ∃ later, (s.runSteps steps).1.builders[index]? = some later ∧
        ∀ r, later.compile = .ok r → ∃ q, b.compile = .ok q ∧
          q.params <+: r.params ∧ q.sql.utf8ByteSize ≤ r.sql.utf8ByteSize := by
  refine ⟨fun call after outerFree applied keeping inner => ?_, fun steps keeping => ?_⟩
  · have added : call.contribution.OuterFree := by
      cases call with
      | join table condition kind =>
        cases kind with
        | inner => simp [Clauses.OuterFree, Call.contribution]
        | outer => exact absurd rfl (inner table condition)
      | _ => exact List.forall_mem_nil _
    obtain rfl := Builder.apply_ok applied
    rw [if_neg keeping]
    have later : (b.clauses.append call.contribution).OuterFree := List.forall_mem_append.mpr ⟨outerFree, added⟩
    obtain ⟨growth, size, effect⟩ := b.clauses.effect_contribution b.table keeping
    exact ⟨_, _, growth, compile_eq_layout b.table b.clauses outerFree, compile_eq_layout b.table _ later, size, effect⟩
  · obtain ⟨later, now, -, grown⟩ := Session.grownFrom_runSteps there steps keeping
    refine ⟨later, now, fun r compiled => ?_⟩
    obtain ⟨q, before, grown⟩ := grown r compiled
    exact ⟨q, before, grown.params, grown.size⟩

/-- The star makes room for a three-byte letter, and a dispatch that keeps the clauses does not count. -/
theorem calls_grow_statement_starReplaced :
    let b : Builder := { table := "t", clauses := { conditions := [⟨"é", .eq, .and, "1"⟩] } }
    let s : Session := { builders := [b], executor := .echo none }
    let steps : List Step := [⟨0, .call (.ok (.select "日"))⟩, ⟨0, .execute (some false) true⟩,
      ⟨0, .call (.ok (.refine .or "x" .gt "2"))⟩, ⟨0, .call (.ok (.groupBy "?"))⟩]
    s.builders[0]? = some b ∧ b.clauses.OuterFree ∧
      (∃ after q r growth, b.apply (.select "日") = .ok after ∧ b.compile = .ok q ∧ after.compile = .ok r ∧
        r.sql.utf8ByteSize = q.sql.utf8ByteSize + growth ∧ r.params = q.params ∧
        r.marks = q.marks.map (· + growth)) ∧
      (∀ entry ∈ historyOf 0 steps (s.runSteps steps).2, entry.clears b.config = false) ∧
      ∃ later, (s.runSteps steps).1.builders[0]? = some later ∧ later.clauses.values = ["1", "2"] ∧
        ∀ r, later.compile = .ok r → ∃ q, b.compile = .ok q ∧ q.params <+: r.params := by
  intro b s steps
  have there : s.builders[0]? = some b := rfl
  have outerFree : b.clauses.OuterFree := by decide
  have keeping : ∀ entry ∈ historyOf 0 steps (s.runSteps steps).2, entry.clears b.config = false := by decide
  obtain ⟨effects, grown⟩ := calls_grow_statement s 0 b there
  obtain ⟨q, r, growth, compiled, recompiled, size, params, marks⟩ :=
    effects (.select "日") _ outerFree rfl (by decide) fun table condition => by simp [Call.outerJoin]
  obtain ⟨later, now, grown⟩ := grown steps keeping
  have values : later.clauses.values = ["1", "2"] := by
    rw [show later = _ from Option.some.inj (now.symm.trans rfl)]
    decide
  refine ⟨there, outerFree, ⟨_, q, r, growth, rfl, compiled, recompiled, size, params, marks⟩, keeping,
    later, now, values, fun r last => ?_⟩
  obtain ⟨q, first, params, -⟩ := grown r last
  exact ⟨q, first, params⟩

end SqlSelect
