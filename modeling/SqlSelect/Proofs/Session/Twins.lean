import SqlSelect.Proofs.Session.Stage

namespace SqlSelect

/-- A run, whichever request it was for. -/
def RunRecord.body (run : RunRecord) : Statement × Result :=
  (run.statement, run.result)

theorem RunRecord.body_of (number other : Nat) (result : Result) (prepared : Except Error Statement) :
    (RunRecord.of number result prepared).map body = (RunRecord.of other result prepared).map body := by
  cases prepared <;> rfl

namespace Ledger

/-- Two sessions that have done the same so far and differ at most in the work that waits. -/
structure Level (l m : Ledger) : Prop where
  session : l.session.bare = m.session.bare
  runs : l.runs.map RunRecord.body = m.runs.map RunRecord.body

/-- Two requests of one builder that stand alike, on the same path unless they are apart. -/
inductive Twins (apart : Bool) (l m : Ledger) (number other : Nat) : Prop
  | intro {b : Builder} {path path' : Path} {stage : Stage} (recorded : l.requests[number]? = some ⟨b, path⟩)
    (matching : m.requests[other]? = some ⟨b, path'⟩) (paths : apart = false → path = path')
    (stands : l.At number stage) (alike : m.At other stage)

/-- A future that has no statement and can only fail with the error of its builder. -/
inductive Doomed (l : Ledger) (error : Error) (number : Nat) : Prop
  | intro {b : Builder} {stage : Stage} (recorded : l.requests[number]? = some ⟨b, .future⟩)
    (failing : b.compile = .error error) (stands : l.At number stage) (kept : stage ≠ .dropped)

variable {executor : Executor} {apart : Bool} {l m : Ledger} {number other : Nat} {error : Error} {request : Request}
  {stage : Stage}

theorem Level.refl (l : Ledger) : l.Level l :=
  ⟨rfl, rfl⟩

theorem Level.symm (level : l.Level m) : m.Level l :=
  ⟨level.session.symm, level.runs.symm⟩

theorem Level.trans {n : Ledger} (one : l.Level m) (two : m.Level n) : l.Level n :=
  ⟨one.session.trans two.session, one.runs.trans two.runs⟩

theorem Twins.symm (twins : Twins apart l m number other) : Twins apart m l other number := by
  obtain ⟨recorded, matching, paths, stands, alike⟩ := twins
  exact ⟨matching, recorded, fun same => (paths same).symm, alike, stands⟩

theorem recorded_move (recorded : l.requests[number]? = some request) (move : Move) :
    (l.move move).requests[number]? = some request :=
  (l.grows_move move).recorded recorded

theorem Accounted.start_of_waiting (acc : l.Accounted executor) (recorded : l.requests[number]? = some request)
    (stands : l.At number .waiting) :
    (l.move (.start number)).session.bare = (l.session.perform request.work).1.bare ∧
      (l.move (.start number)).runs =
        l.runs ++ RunRecord.of number (l.session.perform request.work).2.result request.builder.compile := by
  rw [move_start acc (at_waiting.mp stands) recorded]
  exact ⟨rfl, rfl⟩

theorem Accounted.start_of_begun (acc : l.Accounted executor) (stands : l.At number stage) (begun : stage ≠ .waiting) :
    l.move (.start number) = l :=
  start_idle acc fun waits => begun (acc.at_unique stands (at_waiting.mpr waits))

section Twins

theorem Twins.start (twins : Twins apart l m number other) (acc : l.Accounted executor) (acc' : m.Accounted executor)
    (level : l.Level m) : (l.move (.start number)).Level (m.move (.start other)) ∧
      Twins apart (l.move (.start number)) (m.move (.start other)) number other := by
  obtain @⟨b, path, path', stage, recorded, matching, paths, stands, alike⟩ := twins
  obtain ⟨performed, result⟩ : (l.session.perform (Request.mk b path).work).1.bare =
      (m.session.perform (Request.mk b path').work).1.bare ∧ (l.session.perform (Request.mk b path).work).2.result =
        (m.session.perform (Request.mk b path').work).2.result :=
    Session.perform_of_bare level.session path path' b.compile
  have after := acc.at_start recorded stands
  rw [result] at after
  refine ⟨?_, recorded_move recorded _, recorded_move matching _, paths, after, acc'.at_start matching alike⟩
  by_cases waits : stage = .waiting
  · subst waits
    obtain ⟨session, runs⟩ := acc.start_of_waiting recorded stands
    obtain ⟨session', runs'⟩ := acc'.start_of_waiting matching alike
    refine ⟨by rw [session, session', performed], ?_⟩
    rw [runs, runs', List.map_append, List.map_append, level.runs, result, RunRecord.body_of number other]
  · rwa [acc.start_of_begun stands waits, acc'.start_of_begun alike waits]

theorem Twins.finish (twins : Twins apart l m number other) (acc : l.Accounted executor) (acc' : m.Accounted executor)
    (level : l.Level m) : (l.move (.finish number)).Level (m.move (.finish other)) ∧
      Twins apart (l.move (.finish number)) (m.move (.finish other)) number other := by
  obtain ⟨recorded, matching, paths, stands, alike⟩ := twins
  obtain ⟨session, runs⟩ := l.finish_session number
  obtain ⟨session', runs'⟩ := m.finish_session other
  refine ⟨⟨by rw [session, session', level.session], by rw [runs, runs', level.runs]⟩, ?_⟩
  exact ⟨recorded_move recorded _, recorded_move matching _, paths, acc.at_finish stands, acc'.at_finish alike⟩

theorem Twins.discard (twins : Twins false l m number other) (acc : l.Accounted executor) (acc' : m.Accounted executor)
    (level : l.Level m) : (l.move (.discard number)).Level (m.move (.discard other)) ∧
      Twins false (l.move (.discard number)) (m.move (.discard other)) number other := by
  obtain ⟨recorded, matching, paths, stands, alike⟩ := twins
  -- Only a future can be thrown away, so the two have to be on the same path.
  obtain rfl := paths rfl
  obtain ⟨outstanding, session, runs⟩ := l.discard_session number
  obtain ⟨outstanding', session', runs'⟩ := m.discard_session other
  refine ⟨⟨?_, by rw [runs, runs', level.runs]⟩, ?_⟩
  · rw [session, session']
    exact level.session
  · exact ⟨recorded_move recorded _, recorded_move matching _, paths, acc.at_discard recorded stands,
      acc'.at_discard matching alike⟩

theorem Twins.resultsOf_eq (twins : Twins apart l m number other) (acc : l.Accounted executor)
    (acc' : m.Accounted executor) : l.resultsOf number = m.resultsOf other := by
  obtain ⟨-, -, -, stands, alike⟩ := twins
  rw [acc.resultsOf_at stands, acc'.resultsOf_at alike]

theorem Twins.runsOf_eq (twins : Twins apart l m number other) (acc : l.Accounted executor)
    (acc' : m.Accounted executor) : (l.runsOf number).map RunRecord.body = (m.runsOf other).map RunRecord.body := by
  obtain @⟨b, path, path', stage, recorded, matching, -, stands, alike⟩ := twins
  rw [acc.runsOf_at recorded stands, acc'.runsOf_at matching alike]
  cases stage with
  | running result => exact RunRecord.body_of number other result b.compile
  | delivered result => exact RunRecord.body_of number other result b.compile
  | _ => rfl

end Twins

section Doomed

theorem Doomed.start (doomed : l.Doomed error number) (acc : l.Accounted executor) :
    l.Level (l.move (.start number)) ∧ (l.move (.start number)).Doomed error number := by
  obtain @⟨b, stage, recorded, failing, stands, kept⟩ := doomed
  refine ⟨?_, recorded_move recorded _, failing, acc.at_start recorded stands, Stage.started_ne_dropped kept⟩
  by_cases waits : stage = .waiting
  · subst waits
    obtain ⟨session, runs⟩ := acc.start_of_waiting recorded stands
    constructor
    · rw [session]
      simp [Request.work, failing, Session.perform]
    · rw [runs, failing, RunRecord.of, List.append_nil]
  · rw [acc.start_of_begun stands waits]
    exact .refl l

theorem Doomed.finish (doomed : l.Doomed error number) (acc : l.Accounted executor) :
    l.Level (l.move (.finish number)) ∧ (l.move (.finish number)).Doomed error number := by
  obtain ⟨recorded, failing, stands, kept⟩ := doomed
  obtain ⟨session, runs⟩ := l.finish_session number
  exact ⟨⟨by rw [session], by rw [runs]⟩, recorded_move recorded _, failing, acc.at_finish stands,
    Stage.finished_ne_dropped kept⟩

theorem Doomed.runsOf_eq_nil (doomed : l.Doomed error number) (acc : l.Accounted executor) : l.runsOf number = [] := by
  obtain @⟨b, stage, recorded, failing, stands, -⟩ := doomed
  rw [acc.runsOf_at recorded stands, failing]
  cases stage <;> rfl

theorem Doomed.resultsOf_cases (doomed : l.Doomed error number) (acc : l.Accounted executor) :
    l.resultsOf number = [] ∨ l.resultsOf number = [.error error] := by
  obtain @⟨b, stage, recorded, failing, stands, -⟩ := doomed
  rw [acc.resultsOf_at stands]
  cases stage with
  | delivered result =>
    have among := List.mem_append_right l.running (at_delivered.mp stands)
    obtain rfl : result = .error error := acc.refused _ among _ recorded error failing
    exact .inr rfl
  | _ => exact .inl rfl

theorem Doomed.resultsOf_drive (doomed : l.Doomed error number) (acc : l.Accounted executor) :
    (l.play [.start number, .finish number]).resultsOf number = [.error error] := by
  obtain @⟨b, stage, recorded, failing, stands, kept⟩ := doomed
  have next := accounted_move acc (.start number)
  have last := accounted_move next (.finish number)
  have handed := next.at_finish (acc.at_start recorded stands)
  obtain ⟨result, delivered⟩ := Stage.finished_started (l.session.perform _).2.result kept
  rw [delivered] at handed
  have among := List.mem_append_right ((l.move (.start number)).move (.finish number)).running (at_delivered.mp handed)
  obtain rfl : result = .error error :=
    last.refused _ among _ (recorded_move (recorded_move recorded _) _) error failing
  exact last.resultsOf_at handed

end Doomed

end Ledger

end SqlSelect
