import SqlSelect.Proofs.Session.Alike
import SqlSelect.Proofs.Session.Journal

namespace SqlSelect

def Move.isStep : Move → Bool
  | .step .. => true
  | _ => false

namespace Executor

theorem hasServer_run (executor : Executor) (q : Statement) :
    (executor.run q).executor.hasServer = executor.hasServer := by
  cases executor with
  | echo failure => cases failure <;> rfl
  | server access replies client =>
    cases access with
    | available connected =>
      simp only [run, send]
      repeat' split
      all_goals rfl
    | _ => rfl

theorem isRows_of_run {executor : Executor} {q : Statement} {output : Output}
    (came : (executor.run q).result = .ok output) : (∃ rows, output = .rows rows) ↔ executor.hasServer = true := by
  cases executor with
  | echo failure =>
    cases failure with
    | none =>
      obtain rfl : Output.statement q = output := Except.ok.inj came
      simp [hasServer]
    | some error => cases came
  | server access replies client =>
    cases access with
    | available connected =>
      simp only [run, send] at came
      split at came
      · cases came
      · split at came
        · rename_i messages _
          obtain rfl : Output.rows (collectRows messages) = output := Except.ok.inj came
          simp [hasServer]
        · cases came
    | _ => cases came

theorem isRows_of_runAll (executor : Executor) (statements : List Statement) {output : Output}
    (came : .ok output ∈ (executor.runAll statements).2) :
    (∃ rows, output = .rows rows) ↔ executor.hasServer = true := by
  induction statements generalizing executor with
  | nil => cases came
  | cons q rest ih =>
    rcases List.mem_cons.mp came with first | later
    · exact isRows_of_run first.symm
    · rw [← executor.hasServer_run q]
      exact ih _ later

end Executor

namespace Session

theorem settle_completion (s : Session)
    (compiled : ∀ work ∈ s.outstanding, work.path = .callback → ∃ q, work.prepared = .ok q) :
    List.Forall₂ (fun work finished => finished.events = work.path.completion finished.result)
      s.outstanding s.settle.2 := by
  have yields := s.settle_yields
  generalize s.outstanding = works at compiled yields
  generalize s.settle.2 = finished at yields
  induction yields with
  | nil => exact .nil
  | cons first _ ih =>
    obtain ⟨own, -, rfl⟩ := first
    exact .cons (own.perform_completion (compiled _ (List.mem_cons_self ..)))
      (ih fun work member => compiled work (List.mem_cons_of_mem _ member))

end Session

namespace Ledger

variable {executor : Executor} {l later : Ledger}

theorem announcements_of_work (l : Ledger) {moves : List Move} (work : ∀ move ∈ moves, move.isStep = false) :
    l.announcements moves = [] := by
  induction moves generalizing l with
  | nil => rfl
  | cons move rest ih =>
    rw [announcements, ih _ fun other member => work other (List.mem_cons_of_mem _ member), List.append_nil]
    have first := work move (List.mem_cons_self ..)
    cases move with
    | step step prompt => cases first
    | _ => rfl

theorem isStep_of_settling {s : Session} {waiting : List Nat} {rest : List Move}
    (others : ∀ move ∈ rest, move.isStep = false) : ∀ move ∈ settleMoves s waiting ++ rest, move.isStep = false := by
  intro move member
  rcases List.mem_append.mp member with settling | other
  · rcases List.mem_append.mp settling with started | finished
    · obtain ⟨number, -, rfl⟩ := List.mem_map.mp started
      rfl
    · obtain ⟨number, -, rfl⟩ := List.mem_map.mp finished
      rfl
  · exact others move other

theorem Accounted.settled_events (acc : l.Accounted executor) (grown : l.requests <+: later.requests) :
    ((l.waiting.zip (l.session.settle.2.map Finished.result)).flatMap later.completionEntries).map Prod.snd =
      l.session.settle.2.flatMap Finished.events := by
  have compiled : ∀ work ∈ l.session.outstanding, work.path = .callback → ∃ q, work.prepared = .ok q := by
    intro work member callback
    have listed := List.mem_map_of_mem (f := some) member
    rw [acc.snapshot] at listed
    obtain ⟨number, -, found⟩ := List.mem_map.mp listed
    obtain ⟨request, recorded, rfl⟩ := Option.map_eq_some_iff.mp found
    exact acc.compiled request (List.mem_of_getElem? recorded) callback
  have reported := l.session.settle_completion compiled
  have snapshot : l.session.outstanding.map some =
      l.waiting.map fun number => later.requests[number]?.map Request.work := by
    rw [acc.snapshot]
    apply List.map_congr_left
    intro number member
    rw [request_kept grown (acc.bound (by simp [member]))]
  generalize l.session.outstanding = works at snapshot reported
  generalize l.session.settle.2 = finished at reported
  generalize l.waiting = numbers at snapshot
  induction reported generalizing numbers with
  | nil => simp
  | cons first _ ih =>
    cases numbers with
    | nil => cases snapshot
    | cons number rest =>
      obtain ⟨own, others⟩ := List.cons.inj snapshot
      obtain ⟨request, recorded, rfl⟩ := Option.map_eq_some_iff.mp own.symm
      have after := ih rest others
      have entered : later.completion number _ = _ := (congrArg (fun r => Option.elim r _ _) recorded).trans first.symm
      rw [List.map_cons, List.zip_cons_cons, List.flatMap_cons, List.map_append, after, List.flatMap_cons,
        completionEntries, List.map_map, entered]
      simp [Function.comp_def]

end Ledger

namespace Journal

variable {executor : Executor} {j : Journal}

theorem Faithful.play_awaitMoves (faithful : j.Faithful executor) :
    (j.play j.ledger.awaitMoves).entries.map Prod.snd = j.entries.map Prod.snd ++ j.ledger.session.await.2.2 := by
  have work : ∀ move ∈ j.ledger.awaitMoves, move.isStep = false :=
    Ledger.isStep_of_settling (by simp [Move.isStep])
  obtain ⟨-, -, -, delivered⟩ := Ledger.play_awaitMoves faithful.acc
  rw [faithful.entries_of_silent (Ledger.announcements_of_work _ work) delivered, List.map_append]
  exact congrArg _ (faithful.acc.settled_events (j.ledger.grows_play _).requests)

section Fetch

variable {index : Nat} {b : Builder} (hold : (⟨index, .fetch .hold⟩ : Step).action.awaits = false)

include hold

theorem entries_hold (there : j.ledger.session.builders[index]? = some b) :
    (j.move (.step _ hold)).entries.map Prod.snd =
      j.entries.map Prod.snd ++ (j.ledger.session.prepare index b).2.2 := by
  have announced : (j.ledger.session.step ⟨index, .fetch .hold⟩).2.events = (j.ledger.session.prepare index b).2.2 :=
    (Session.step_eq there _).2.2
  rw [move_entries, ← Ledger.move_announces hold, announced]
  simp [reported, Function.comp_def]

theorem recorded_hold (there : j.ledger.session.builders[index]? = some b) (rest : List Move) :
    (j.ledger.play (.step _ hold :: rest)).requests[j.ledger.requests.length]? = some ⟨b, .future⟩ := by
  have entered : (j.ledger.held index b).requests[j.ledger.requests.length]? = some ⟨b, .future⟩ :=
    List.getElem?_concat_length
  rw [Ledger.play_cons, Ledger.move_hold there hold]
  exact (Ledger.grows_play _ rest).recorded entered

end Fetch

theorem Faithful.play_fetch (faithful : j.Faithful executor) {index : Nat} {b : Builder}
    (there : j.ledger.session.builders[index]? = some b) :
    (j.play (j.ledger.stepMoves ⟨index, .fetch .await⟩)).entries.map Prod.snd =
      j.entries.map Prod.snd ++ (j.ledger.session.fetch index b .await).events := by
  obtain ⟨-, -, events⟩ := j.ledger.session.fetch_await index b
  obtain ⟨-, -, -, -, delivered⟩ := Ledger.play_fetch faithful.acc there
  have stepMoves := Ledger.stepMoves_fetch there
  generalize settling : Ledger.settleMoves j.ledger.session j.ledger.waiting ++
    [.start j.ledger.requests.length, .finish j.ledger.requests.length, .read] = rest at stepMoves
  rw [stepMoves] at delivered ⊢
  -- First the future is asked for and announced. What follows is work, so all it enters is what results call for.
  have hold : (⟨index, .fetch .hold⟩ : Step).action.awaits = false := rfl
  have silent : (j.move (.step _ hold)).ledger.announcements rest = [] := by
    rw [← settling]
    exact Ledger.announcements_of_work _ (Ledger.isStep_of_settling (by simp [Move.isStep]))
  have last : (j.move (.step _ hold)).ledger.play rest = j.ledger.play (.step _ hold :: rest) := by
    rw [move_ledger, Ledger.play_cons]
  have before : (j.move (.step _ hold)).ledger.delivered = j.ledger.delivered := by
    rw [move_ledger, Ledger.move_hold there hold]
    rfl
  let own := ((j.ledger.session.prepare index b).1.settle.1.perform ⟨.future, b.compile⟩).2
  have reported : own.events = Path.future.completion own.result := Session.perform_completion _ (by simp)
  have others := faithful.acc.settled_events (j.ledger.grows_play (.step _ hold :: rest)).requests
  rw [play_cons, (faithful.move _).entries_of_silent silent (by rw [last, delivered, before, List.append_assoc]),
    List.map_append, entries_hold hold there, events, last, List.flatMap_append, List.map_append, others,
    List.flatMap_singleton, Ledger.completionEntries, Ledger.completion, recorded_hold hold there, List.map_map,
    List.append_assoc]
  simp [Function.comp_def, reported, own]

theorem Faithful.play_stepMoves (faithful : j.Faithful executor) (step : Step) :
    (j.play (j.ledger.stepMoves step)).entries.map Prod.snd =
      j.entries.map Prod.snd ++ (j.ledger.session.step step).2.events := by
  obtain ⟨index, action⟩ := step
  cases there : j.ledger.session.builders[index]? with
  | none =>
    have nothing : j.ledger.stepMoves ⟨index, action⟩ = [] := by simp [Ledger.stepMoves, there]
    rw [nothing]
    simp [Session.step, there]
  | some b =>
    rw [(Session.step_eq there action).2.2]
    cases prompt : action.awaits with
    | false =>
      rw [Ledger.stepMoves_prompt there prompt, play_cons, play_nil, move_entries, ← Ledger.move_announces prompt,
        (Session.step_eq there action).2.2]
      simp [reported, Function.comp_def]
    | true =>
      rcases Action.eq_of_awaits prompt with rfl | rfl
      · rw [Ledger.stepMoves_settle there]
        exact faithful.play_awaitMoves
      · exact faithful.play_fetch there

theorem Faithful.play_runMoves (faithful : j.Faithful executor) (steps : List Step) :
    (j.play (j.ledger.runMoves steps)).entries.map Prod.snd =
      j.entries.map Prod.snd ++ (j.ledger.session.runSteps steps).2.flatMap Report.events := by
  induction steps generalizing j with
  | nil => simp [Ledger.runMoves, Session.runSteps]
  | cons step rest ih =>
    obtain ⟨session, -, -⟩ := Ledger.play_stepMoves faithful.acc step
    have others := ih (faithful.play (j.ledger.stepMoves step))
    rw [play_ledger, session, faithful.play_stepMoves] at others
    rw [Ledger.runMoves, play_append, others, Session.runSteps, List.flatMap_cons, List.append_assoc]

/-- A session of steps and its close are a way of playing in which everything that waits is done. -/
theorem Faithful.play_session (faithful : j.Faithful executor) (steps : List Step) :
    let run := j.ledger.session.runSteps steps
    let played := j.play (j.ledger.runMoves steps)
    let closed := played.play played.ledger.awaitMoves
    played.ledger.session = run.1 ∧
      played.entries.map Prod.snd = j.entries.map Prod.snd ++ run.2.flatMap Report.events ∧
      closed.entries.map Prod.snd = j.entries.map Prod.snd ++ run.2.flatMap Report.events ++ run.1.close.events ∧
      closed.ledger.waiting = [] ∧ closed.ledger.running = j.ledger.running ∧
      closed.ledger.delivered.map Prod.snd = j.ledger.delivered.map Prod.snd ++
        (run.2.flatMap fun report => report.outcome.results) ++ run.1.close.settled.results := by
  intro run played closed
  have next : played.Faithful executor := faithful.play _
  have events := faithful.play_runMoves steps
  obtain ⟨session, running, results⟩ := Ledger.play_runMoves faithful.acc steps
  rw [← play_ledger] at session running results
  obtain ⟨-, quiet, rests, delivered⟩ := Ledger.play_awaitMoves next.acc
  rw [← play_ledger] at quiet rests delivered
  have listed : (played.ledger.waiting.zip played.ledger.session.await.2.1.results).map Prod.snd = _ :=
    List.map_snd_zip (Nat.le_of_eq (by
      simp only [Session.await, List.length_map]
      rw [Session.length_settle, Ledger.count_waiting next.acc]))
  refine ⟨session, events, ?_, quiet, rests.trans running, ?_⟩
  · rw [next.play_awaitMoves, events, session]
    rfl
  · rw [delivered, List.map_append, listed, results, session]
    rfl

end Journal

namespace Ledger

variable {executor : Executor} {l : Ledger}

theorem Accounted.isRows_of_ok (acc : l.Accounted executor) {number : Nat} {output : Output}
    (member : (number, .ok output) ∈ l.running ++ l.delivered) :
    (∃ rows, output = .rows rows) ↔ executor.hasServer = true := by
  obtain ⟨request, recorded⟩ := acc.request_of_entry member
  have runs := acc.runs_of_begun member recorded
  cases compiled : request.builder.compile with
  | error error => simp [compiled] at runs
  | ok q =>
    rw [compiled] at runs
    have own : (⟨number, q, .ok output⟩ : RunRecord) ∈ l.runsOf number := by rw [runs]; exact List.mem_singleton_self _
    have among : .ok output ∈ l.runs.map RunRecord.result := List.mem_map_of_mem (List.mem_filter.mp own).1
    have served : (executor.runAll (l.runs.map RunRecord.statement)).2 = l.runs.map RunRecord.result :=
      congrArg Prod.snd acc.served
    rw [← served] at among
    exact executor.isRows_of_runAll _ among

theorem Accounted.report_of_delivered (acc : l.Accounted executor) {number : Nat} {result : Result}
    (member : (number, result) ∈ l.delivered) : ∃ request, l.requests[number]? = some request ∧
      l.completion number result = request.path.completion result ∧
      (request.path.completion result ≠ [] → ∃ q, request.builder.compile = .ok q ∧
        l.runsOf number = [⟨number, q, result⟩]) ∧
      ∀ output, result = .ok output → ((∃ rows, output = .rows rows) ↔ executor.hasServer = true) := by
  have begun := List.mem_append_right l.running member
  obtain ⟨request, recorded⟩ := acc.request_of_entry begun
  have calls : l.completion number result = request.path.completion result := by rw [completion, recorded]; rfl
  refine ⟨request, recorded, calls, ?_, ?_⟩
  · intro reported
    have compiles := acc.compiles_of_completion begun (calls ▸ reported)
    have runs := acc.runs_of_begun begun recorded
    cases compiled : request.builder.compile with
    | ok q =>
      rw [compiled] at runs
      exact ⟨q, rfl, runs⟩
    | error error => simp [Ledger.compiles, recorded, compiled, Except.isOk, Except.toBool] at compiles
  · rintro output rfl
    exact acc.isRows_of_ok begun

end Ledger

namespace Journal

variable {executor : Executor} {j : Journal}

theorem entries_of_failed (j : Journal) {step : Step} (prompt : step.action.awaits = false) {error : Error}
    (failed : (j.ledger.session.step step).2.outcome = .failed error) :
    (j.move (.step step prompt)).entries = j.entries := by
  have nothing : j.ledger.entered? (.step step prompt) = none := by
    cases there : j.ledger.session.builders[step.builder]? <;> simp [Ledger.entered?, there, failed, Outcome.path?]
  have silent := j.ledger.announced_number (.step step prompt)
  rw [nothing] at silent
  rw [move_entries, Option.map_eq_none_iff.mp silent]
  simp [reported]

theorem Faithful.silent_of_idle (faithful : j.Faithful executor) {number : Nat}
    (idle : number ∈ j.ledger.waiting ++ j.ledger.dropped) : ∀ entry ∈ j.completed, entry.1 ≠ number := by
  intro entry member same
  rw [faithful.completed] at member
  obtain ⟨result, delivered, among⟩ := List.mem_flatMap.mp member
  obtain ⟨event, -, rfl⟩ := List.mem_map.mp among
  exact faithful.acc.not_begun idle (same ▸ List.mem_map_of_mem (List.mem_append_right _ delivered))

end Journal

/-- However the work of a session is put in order, it reports each statement that is taken, when it is taken and as its
    builder stood, and each result that calls for a report, when it is delivered, and nothing else. -/
theorem every_report_accounted (builders : List Builder) (executor : Executor) (moves : List Move) :
    let j := (Journal.opening builders executor).play moves
    let l := j.ledger
    l = (Ledger.opening builders executor).play moves ∧
    (∀ move, (j.move move).entries =
      j.entries ++ ((l.announcement? move).toList ++ (l.ended? move).toList.flatMap l.completionEntries)) ∧
    j.announced = (Ledger.opening builders executor).announcements moves ∧
    j.announced.map Prod.fst = (List.range l.requests.length).filter l.compiles ∧
    (∀ step prompt error, (l.session.step step).2.outcome = .failed error →
      (j.move (.step step prompt)).entries = j.entries) ∧
    j.completed = l.delivered.flatMap l.completionEntries ∧
    (∀ number result, (number, result) ∈ l.delivered → ∃ request, l.requests[number]? = some request ∧
      l.completion number result = request.path.completion result ∧
      (request.path.completion result ≠ [] → ∃ q, request.builder.compile = .ok q ∧
        l.runsOf number = [⟨number, q, result⟩]) ∧
      ∀ output, result = .ok output → ((∃ rows, output = .rows rows) ↔ executor.hasServer = true)) ∧
    (∀ number ∈ l.waiting ++ l.dropped, ∀ entry ∈ j.completed, entry.1 ≠ number) ∧
    (∀ earlier entry later, j.entries = earlier ++ entry :: later → entry.2.isDispatching = false →
      ∃ cause ∈ earlier, cause.1 = entry.1 ∧ cause.2.isDispatching = true) ∧
    (∀ steps,
      let run := l.session.runSteps steps
      let played := j.play (l.runMoves steps)
      let closed := played.play played.ledger.awaitMoves
      played.ledger.session = run.1 ∧
        played.entries.map Prod.snd = j.entries.map Prod.snd ++ run.2.flatMap Report.events ∧
        closed.entries.map Prod.snd = j.entries.map Prod.snd ++ run.2.flatMap Report.events ++ run.1.close.events ∧
        closed.ledger.waiting = [] ∧ closed.ledger.running = l.running ∧
        closed.ledger.delivered.map Prod.snd = l.delivered.map Prod.snd ++
          (run.2.flatMap fun report => report.outcome.results) ++ run.1.close.settled.results) := by
  have opened := Journal.faithful_opening builders executor
  have faithful := opened.play moves
  intro j l
  refine ⟨Journal.play_ledger _ moves, ?_, opened.announced_play moves, faithful.numbered,
    fun _ prompt _ => j.entries_of_failed prompt, faithful.completed, fun _ _ => faithful.acc.report_of_delivered,
    fun _ => faithful.silent_of_idle, faithful.ordered, faithful.play_session⟩
  intro move
  rw [Journal.move_entries, faithful.reported_eq]

-- The dispatch of a future is announced though the future is thrown away; the callback's failure is reported when it is
-- told, behind both announcements.
example :
    ((Journal.opening [{ table := "t" }] (.server .poolClosed [])).play
      [.step ⟨0, .execute none true⟩ rfl, .step ⟨0, .fetch .hold⟩ rfl, .start 0, .discard 1, .finish 0]).entries =
      [(0, .dispatching .debug "t" 0 true "SELECT * FROM t"), (1, .dispatching .debug "t" 0 true "SELECT * FROM t"),
        (0, .failed (.pool .closed))] := by
  cbv

end SqlSelect
