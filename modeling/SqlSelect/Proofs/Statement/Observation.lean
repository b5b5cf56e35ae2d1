import SqlSelect.Proofs.Statement.Distinction

namespace SqlSelect

/-- Where one mark follows in a first reading and another one in a second, both readings have the same text before it:
    at a first difference one text would go on with both marks. -/
theorem Text.eq_of_two_marks {a b : Char} (different : a ≠ b) {s t rest more later others : List Char}
    (first : s ++ a :: rest = t ++ a :: more) (second : s ++ b :: later = t ++ b :: others) : s = t := by
  induction s generalizing t with
  | nil =>
    cases t with
    | nil => rfl
    | cons d t => exact absurd ((List.cons.inj first).1.trans (List.cons.inj second).1.symm) different
  | cons c s ih =>
    cases t with
    | nil => exact absurd ((List.cons.inj first).1.symm.trans (List.cons.inj second).1) different
    | cons d t =>
      obtain ⟨head, first⟩ := List.cons.inj first
      rw [head, ih first (List.cons.inj second).2]

namespace Layout

theorem markedText_nil (last : String) : (Layout.mk [] last).markedText = last := by
  simp [markedText, fill]

theorem markedText_ne_numberedFrom (start : Nat) (stretch : Stretch) (rest : List Stretch) (last : String) :
    (Layout.mk (stretch :: rest) last).markedText ≠ numberedFrom start ⟨stretch :: rest, last⟩ := by
  intro same
  rw [markedText_cons, numberedFrom_cons, ← String.toList_inj] at same
  simp only [String.toList_append, List.append_assoc, List.append_cancel_left_eq] at same
  exact absurd (List.cons.inj same).1 (by decide)

/-- The text with markers and the text with numbers give away together where the markers are, whatever question marks
    and dollar signs the fragments hold. -/
theorem segments_eq_of_texts {start : Nat} {stretches others : List Stretch} {last ending : String}
    (marked : (Layout.mk stretches last).markedText = (Layout.mk others ending).markedText)
    (numbered : numberedFrom start ⟨stretches, last⟩ = numberedFrom start ⟨others, ending⟩) :
    (Layout.mk stretches last).segments = (Layout.mk others ending).segments := by
  induction stretches generalizing start others with
  | nil =>
    rw [markedText_nil] at marked
    rw [numberedFrom_nil] at numbered
    cases others with
    | nil => rw [marked, markedText_nil]
    | cons other more => exact absurd (marked.symm.trans numbered) (markedText_ne_numberedFrom start other more ending)
  | cons stretch rest ih =>
    cases others with
    | nil =>
      rw [markedText_nil] at marked
      rw [numberedFrom_nil] at numbered
      exact absurd (marked.trans numbered.symm) (markedText_ne_numberedFrom start stretch rest last)
    | cons other more =>
      rw [markedText_cons, markedText_cons] at marked
      rw [numberedFrom_cons, numberedFrom_cons] at numbered
      have text : stretch.text = other.text := by
        have first := congrArg String.toList marked
        have second := congrArg String.toList numbered
        simp only [String.toList_append, List.append_assoc] at first second
        exact String.toList_inj.mp (Text.eq_of_two_marks (by decide) first second)
      rw [text, String.append_right_inj] at marked numbered
      have later := ih marked numbered
      simp only [segments, List.map_cons, List.cons_append, text] at later ⊢
      rw [later]

theorem eq_of_texts {layout other : Layout} (sql : layout.statement.sql = other.statement.sql)
    (params : layout.statement.params = other.statement.params)
    (numbered : layout.statement.numbered = other.statement.numbered) : layout = other := by
  rw [numbered_statement, numbered_statement] at numbered
  exact eq_of_segments_values (segments_eq_of_texts sql numbered) params

end Layout

/-- A marker, and after it a group that looks like one more condition. -/
def markerBefore : Clauses where
  conditions := [⟨"a", .eq, .and, "1"⟩]
  groups := ["b = ?"]

/-- The same text, but now the condition is the part at the end. -/
def markerBehind : Clauses where
  conditions := [⟨"a = ? GROUP BY b", .eq, .and, "1"⟩]

/-- Statements are equal, the offsets of their markers included, as soon as callers cannot tell them apart by text,
    values and the text with numbers. Text and values alone do not tell where the markers are. -/
theorem equality_is_observable :
    (∀ (table otherTable : String) (clauses others : Clauses) (q r : Statement),
      compile table clauses = .ok q → compile otherTable others = .ok r →
        (q = r ↔ q.sql = r.sql ∧ q.params = r.params ∧ q.numbered = r.numbered)) ∧
    ∃ table clauses others q r, compile table clauses = .ok q ∧ compile table others = .ok r ∧
      q.sql = r.sql ∧ q.params = r.params ∧ q.numbered ≠ r.numbered := by
  refine ⟨fun table otherTable clauses others q r compiled recompiled => ⟨fun same => ?_, fun observed => ?_⟩, ?_⟩
  · rw [same]
    exact ⟨rfl, rfl, rfl⟩
  · rw [compile_eq_layout table clauses (outerFree_of_compile compiled)] at compiled
    rw [compile_eq_layout otherTable others (outerFree_of_compile recompiled)] at recompiled
    obtain ⟨sql, params, numbered⟩ := observed
    rw [← Except.ok.inj compiled, ← Except.ok.inj recompiled] at sql params numbered ⊢
    rw [Layout.eq_of_texts sql params numbered]
  · refine ⟨"t", markerBefore, markerBehind, _, _, compile_eq_layout _ _ (by decide), compile_eq_layout _ _ (by decide),
      ?_, ?_, ?_⟩
    · decide
    · decide
    · decide

theorem equality_is_observable_likeMarkers :
    ∃ q r, compile "t" markerBefore = .ok q ∧ compile "t" markerBehind = .ok r ∧
      q.sql = r.sql ∧ q.params = r.params ∧ q.marks = [26] ∧ r.marks = [41] ∧ q.numbered ≠ r.numbered := by
  have compiled := compile_eq_layout "t" markerBefore (by decide)
  have recompiled := compile_eq_layout "t" markerBehind (by decide)
  have sql : (markerBefore.layout "t").statement.sql = (markerBehind.layout "t").statement.sql := by decide
  have params : (markerBefore.layout "t").statement.params = (markerBehind.layout "t").statement.params := by decide
  have different : (markerBefore.layout "t").statement ≠ (markerBehind.layout "t").statement := by decide
  have observed := equality_is_observable.1 "t" "t" markerBefore markerBehind _ _ compiled recompiled
  exact ⟨_, _, compiled, recompiled, sql, params, by decide, by decide, fun numbered =>
    different (observed.mpr ⟨sql, params, numbered⟩)⟩

end SqlSelect
