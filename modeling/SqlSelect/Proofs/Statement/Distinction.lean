import SqlSelect.Proofs.Builder.Redaction
import SqlSelect.Proofs.Statement.Containment
import SqlSelect.Proofs.Statement.Markers

namespace SqlSelect

theorem Layout.eq_of_segments_values {layout other : Layout} (segments : layout.segments = other.segments)
    (values : layout.values = other.values) : layout = other := by
  have rebuilt (stretches : List Stretch) :
      List.zipWith Stretch.mk (stretches.map Stretch.text) (stretches.map Stretch.value) = stretches := by
    induction stretches with
    | nil => rfl
    | cons stretch rest ih => simp [ih]
  obtain ⟨stretches, last⟩ := layout
  obtain ⟨others, otherLast⟩ := other
  obtain ⟨texts, ending⟩ := List.append_inj' segments rfl
  have same : stretches = others :=
    (rebuilt stretches).symm.trans ((congrArg₂ (List.zipWith Stretch.mk) texts values).trans (rebuilt others))
  exact congrArg₂ Layout.mk same (List.singleton_inj.mp ending)

namespace Literal

variable {form : Form} {s rest more : List Char}

/-- The quote that closes a literal cannot be taken for one that belongs to a value. -/
theorem closing_ne_double (next : rest.head? ≠ some '\'') (c : Char) :
    '\'' :: rest ≠ double form.doubles (c :: s) ++ '\'' :: more := by
  intro same
  by_cases quote : c = '\''
  · have doubled : form.doubles c = true := by cases form <;> simp [Form.doubles, quote]
    subst quote
    simp only [double, doubled, if_true, List.cons_append, List.cons.injEq, true_and] at same
    exact next (same ▸ rfl)
  · cases doubled : form.doubles c <;> simp [double, doubled, Ne.symm quote] at same

/-- Where no quote comes right after it, a literal says by itself where it ends and what its value is. -/
theorem double_closed_inj {value other : List Char} (next : rest.head? ≠ some '\'') (nextOther : more.head? ≠ some '\'')
    (same : double form.doubles value ++ '\'' :: rest = double form.doubles other ++ '\'' :: more) :
    value = other ∧ rest = more := by
  induction value generalizing other with
  | nil =>
    cases other with
    | nil => exact ⟨rfl, List.tail_eq_of_cons_eq same⟩
    | cons d other => exact absurd same (closing_ne_double next d)
  | cons c value ih =>
    cases other with
    | nil => exact absurd same.symm (closing_ne_double nextOther c)
    | cons d other =>
      have first : c = d := by
        have heads := congrArg List.head? same
        cases own : form.doubles c <;> cases others : form.doubles d <;> simpa [double, own, others] using heads
      subst first
      have rest : double form.doubles value ++ '\'' :: rest = double form.doubles other ++ '\'' :: more := by
        cases own : form.doubles c <;> simpa [double, own] using same
      obtain ⟨values, follow⟩ := ih rest
      exact ⟨by rw [values], follow⟩

theorem values_of_filled {stretches others : List Stretch} {last : String}
    (texts : stretches.map Stretch.text = others.map Stretch.text) (parted : (Layout.mk stretches last).Parted)
    (partedOther : (Layout.mk others last).Parted)
    (same : filled form ⟨stretches, last⟩ = filled form ⟨others, last⟩) :
    stretches.map Stretch.value = others.map Stretch.value := by
  induction stretches generalizing others with
  | nil =>
    rw [List.map_nil, eq_comm, List.map_eq_nil_iff] at texts
    rw [texts]
  | cons stretch rest ih =>
    cases others with
    | nil => cases texts
    | cons other more =>
      obtain ⟨text, later⟩ := List.cons.inj texts
      have notQuote {stretch : Stretch} {rest : List Stretch} (parted : (Layout.mk (stretch :: rest) last).Parted) :
          (filled form ⟨rest, last⟩).head? ≠ some '\'' := fun quote =>
        absurd (parted.head _ '\'' quote) (by decide)
      rw [filled_cons, filled_cons, text] at same
      have literals := List.append_cancel_left (List.append_cancel_left same)
      obtain ⟨values, follow⟩ := double_closed_inj (notQuote parted) (notQuote partedOther) literals
      rw [List.map_cons, List.map_cons, ih later parted.tail partedOther.tail follow, String.toList_inj.mp values]

/-- Whatever stands in the text between the literals, each of them is followed by a blank or the end, and so they can be
    told apart one after the other. -/
theorem filled_eq_iff {layout other : Layout} (segments : layout.segments = other.segments) (parted : layout.Parted)
    (partedOther : other.Parted) : filled form layout = filled form other ↔ layout.values = other.values := by
  constructor
  · intro same
    obtain ⟨stretches, last⟩ := layout
    obtain ⟨others, otherLast⟩ := other
    obtain ⟨texts, ending⟩ := List.append_inj' segments rfl
    obtain rfl : last = otherLast := List.singleton_inj.mp ending
    exact values_of_filled texts parted partedOther same
  · intro values
    rw [Layout.eq_of_segments_values segments values]

end Literal

namespace Clauses

theorem segments_redacted (clauses : Clauses) (table : String) :
    (clauses.redacted.layout table).segments = (clauses.layout table).segments := by
  obtain ⟨selects, conditions, joins, sortKeys, groups⟩ := clauses
  cases conditions with
  | nil => rfl
  | cons first rest =>
    simp only [redacted, layout, List.map_cons, Layout.segments, List.map_map]
    rfl

end Clauses

/-- Statements that differ in their values only have different texts with literals, also where quotes and backslashes
    stand in the fragments as callers left them. -/
theorem literals_tell_values_apart (table : String) (clauses others : Clauses) (outerFree : clauses.OuterFree)
    (alike : others.redacted = clauses.redacted) :
    ∃ q r, compile table clauses = .ok q ∧ compile table others = .ok r ∧
      (q.escaped = r.escaped ↔ clauses.values = others.values) ∧
      (q.inlined = r.inlined ↔ clauses.values = others.values) := by
  have otherOuterFree : others.OuterFree := by
    have joins : others.joins = clauses.joins := (congrArg Clauses.joins alike :)
    rwa [Clauses.OuterFree, joins]
  let mine := clauses.layout table
  let theirs := others.layout table
  have segments : mine.segments = theirs.segments := by
    rw [← clauses.segments_redacted table, ← alike, others.segments_redacted table]
  have written (form : Literal.Form) :
      Literal.filled form mine = Literal.filled form theirs ↔ clauses.values = others.values := by
    rw [← clauses.values_layout table, ← others.values_layout table]
    exact Literal.filled_eq_iff segments (clauses.parted_layout table) (others.parted_layout table)
  refine ⟨mine.statement, theirs.statement, compile_eq_layout table clauses outerFree,
    compile_eq_layout table others otherOuterFree, ?_, ?_⟩
  · rw [← written .escape, Statement.escaped, Statement.escaped, Layout.fill_statement, Layout.fill_statement,
      ← String.toList_inj]
    rfl
  · rw [← written .plain, Statement.inlined, Statement.inlined, Layout.fill_statement, Layout.fill_statement,
      ← String.toList_inj]
    rfl

def brokenQuotes (first second : String) : Clauses where
  selects := ["E'"]
  conditions := [⟨"'", .eq, .and, first⟩, ⟨"\\", .eq, .or, second⟩]
  groups := ["'' = E'"]

theorem literals_tell_values_apart_brokenQuotes :
    let clauses := brokenQuotes "' OR \\ = '" ""
    let others := brokenQuotes "" "' OR \\ = '"
    clauses.OuterFree ∧ others.redacted = clauses.redacted ∧
      ∃ q r, compile "t" clauses = .ok q ∧ compile "t" others = .ok r ∧ q.escaped ≠ r.escaped ∧ q.inlined ≠ r.inlined := by
  intro clauses others
  have outerFree : clauses.OuterFree := by decide
  have alike : others.redacted = clauses.redacted := rfl
  have different : clauses.values ≠ others.values := by decide
  obtain ⟨q, r, compiled, recompiled, escaped, inlined⟩ := literals_tell_values_apart "t" clauses others outerFree alike
  exact ⟨outerFree, alike, q, r, compiled, recompiled, different ∘ escaped.mp, different ∘ inlined.mp⟩

end SqlSelect
