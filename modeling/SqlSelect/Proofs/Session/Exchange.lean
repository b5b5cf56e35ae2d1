import SqlSelect.Proofs.Session.Matching
import SqlSelect.Proofs.Session.Turns

namespace SqlSelect

namespace Course

variable {exchanged : Nat → Bool} {apart : Bool} {c d : Course} {executor : Executor} {place number : Nat}

theorem length_run (c : Course) (turns : List Move) :
    (c.run turns).tickets.length = c.tickets.length + turns.length := by
  induction turns generalizing c with
  | nil => rfl
  | cons move rest ih =>
    rw [run, List.foldl_cons, ← run, ih, List.length_cons]
    simp only [Course.turn, List.length_append, List.length_singleton]
    omega

theorem matched_run (builders : List Builder) (executor : Executor) {turns : List Move}
    (driven : ∀ place, exchanged place = true → .discard place ∉ turns) :
    Matched exchanged ((opening builders executor).run turns)
      ((opening builders executor).run (exchange exchanged turns)) := by
  -- From the end, since the place of a turn is the number of turns before it.
  induction turns using List.reverseRecOn with
  | nil => exact ⟨rfl, .refl _, rfl, fun _ => .silent rfl rfl⟩
  | append_singleton turns move ih =>
    have earlier := ih fun place apart member => driven place apart (List.mem_append_left _ member)
    have sound := (sound_opening builders executor).run turns
    have sound' := (sound_opening builders executor).run (exchange exchanged turns)
    have places : ((opening builders executor).run turns).tickets.length = turns.length := by
      simp [length_run, opening]
    have undropped : ∀ place, exchanged place = true → move ≠ .discard place := fun place apart same =>
      driven place apart (List.mem_append_right _ (List.mem_singleton.mpr same.symm))
    have last := earlier.turn sound sound' undropped
    rw [places] at last
    rw [exchange, List.mapIdx_concat, run_concat, run_concat]
    exact last

/-- What whoever made the call of a turn has been told so far. -/
def resultsAt (c : Course) (place : Nat) : List Result :=
  match c.tickets[place]?.join with
  | some (.ok number) => c.ledger.resultsOf number
  | some (.error error) => [.error error]
  | none => []

def runsAt (c : Course) (place : Nat) : List (Statement × Result) :=
  (c.number? place).elim [] fun number => (c.ledger.runsOf number).map RunRecord.body

/-- The call of a turn has failed here at once. There it has made a future, which will fail with the same error once it
    is driven. -/
def Forestalls (c d : Course) (place : Nat) : Prop :=
  ∃ error, c.tickets[place]? = some (some (.error error)) ∧ d.resultsAt place = [] ∧
    (d.run [.start place, .finish place]).resultsAt place = [.error error]

theorem resultsAt_of_number (here : c.number? place = some number) :
    c.resultsAt place = c.ledger.resultsOf number := by
  rw [number?] at here
  obtain ⟨ticket, found, isOk⟩ := Option.bind_eq_some_iff.mp here
  cases ticket with
  | error error => cases isOk
  | ok other =>
    obtain rfl := Option.some.inj isOk
    rw [resultsAt, found]

theorem runsAt_of_number (here : c.number? place = some number) :
    c.runsAt place = (c.ledger.runsOf number).map RunRecord.body := by
  rw [runsAt, here, Option.elim_some]

theorem resultsAt_of_error {error : Error} (failed : c.tickets[place]? = some (some (.error error))) :
    c.resultsAt place = [.error error] := by
  rw [resultsAt, failed]
  rfl

theorem Refused.runsAt_eq (refused : Refused c d place) (sound : d.Sound executor) :
    c.runsAt place = d.runsAt place := by
  obtain ⟨failed, there, doomed⟩ := refused
  rw [runsAt_of_number there, doomed.runsOf_eq_nil sound.acc, runsAt, number_of_error failed]
  rfl

theorem Linked.runsAt_eq (linked : Linked apart c d place) (sound : c.Sound executor) (sound' : d.Sound executor) :
    c.runsAt place = d.runsAt place := by
  cases linked with
  | paired here there twins =>
    rw [runsAt_of_number here, runsAt_of_number there, twins.runsOf_eq sound.acc sound'.acc]
  | silent same nothing =>
    rw [runsAt, runsAt, nothing, number_of_same same nothing]
    rfl
  | refused parted refused => exact refused.runsAt_eq sound'
  | refusing parted refusing => exact (refusing.runsAt_eq sound).symm

theorem drive_located (here : c.number? place = some number) :
    (c.run [.start place, .finish place]).ledger = c.ledger.play [.start number, .finish number] ∧
      (c.run [.start place, .finish place]).number? place = some number := by
  have next := number_kept here (.start place)
  have started : (c.turn (.start place)).ledger = c.ledger.move (.start number) :=
    ledger_located (located_number rfl here)
  have finished : ((c.turn (.start place)).turn (.finish place)).ledger =
      (c.turn (.start place)).ledger.move (.finish number) :=
    ledger_located (located_number rfl next)
  exact ⟨finished.trans (by rw [started]; rfl), number_kept next (.finish place)⟩

theorem Refused.results_cases (refused : Refused c d place) (sound : d.Sound executor) :
    c.resultsAt place = d.resultsAt place ∨ c.Forestalls d place := by
  obtain @⟨error, other, failed, there, doomed⟩ := refused
  obtain ⟨ledger, last⟩ := drive_located there
  have driven : (d.run [.start place, .finish place]).resultsAt place = [.error error] := by
    rw [resultsAt_of_number last, ledger, doomed.resultsOf_drive sound.acc]
  have results := resultsAt_of_number there
  rcases doomed.resultsOf_cases sound.acc with untold | told
  · exact .inr ⟨error, failed, results.trans untold, driven⟩
  · exact .inl ((resultsAt_of_error failed).trans (results.trans told).symm)

theorem Linked.results_cases (linked : Linked apart c d place) (sound : c.Sound executor) (sound' : d.Sound executor) :
    c.resultsAt place = d.resultsAt place ∨ apart = true ∧ (c.Forestalls d place ∨ d.Forestalls c place) := by
  cases linked with
  | paired here there twins =>
    left
    rw [resultsAt_of_number here, resultsAt_of_number there, twins.resultsOf_eq sound.acc sound'.acc]
  | silent same nothing =>
    left
    rw [resultsAt, resultsAt, ← same]
    rw [number?] at nothing
    cases found : c.tickets[place]?.join with
    | none => rfl
    | some ticket =>
      cases ticket with
      | error error => rfl
      | ok number => simp [found, Except.toOption] at nothing
  | refused parted refused => exact (refused.results_cases sound').imp id fun forestalls => ⟨parted, .inl forestalls⟩
  | refusing parted refusing =>
    exact (refusing.results_cases sound).imp Eq.symm fun forestalls => ⟨parted, .inr forestalls⟩

/-- Failures are reported of callbacks, with the errors that these are told, and of nothing else. -/
def ReportsFailures (c : Course) : Prop :=
  ∀ place error, (place, .failed error) ∈ c.log ↔ ∃ number b, c.number? place = some number ∧
    c.ledger.requests[number]? = some ⟨b, .callback⟩ ∧ .error error ∈ c.ledger.resultsOf number

theorem Sound.files_biUnique (sound : c.Sound executor) : Relator.BiUnique c.Files := by
  constructor
  · rintro ⟨place, event⟩ ⟨other, same⟩ entry ⟨here, rfl⟩ ⟨there, rfl⟩
    obtain rfl := sound.distinct _ _ _ here there
    rfl
  · rintro logged entry other ⟨here, same⟩ ⟨there, same'⟩
    exact Prod.ext (Option.some.inj (here.symm.trans there)) (same.symm.trans same')

theorem Sound.logged_iff (sound : c.Sound executor) (here : c.number? place = some number) (event : Event) :
    (place, event) ∈ c.log ↔ (number, event) ∈ c.journal.entries := by
  have files : c.Files (place, event) (number, event) := ⟨here, rfl⟩
  exact List.rel_mem sound.files_biUnique files sound.filed

theorem Sound.known_of_logged (sound : c.Sound executor) {logged : Nat × Event} (member : logged ∈ c.log) :
    ∃ number, c.number? logged.1 = some number := by
  have known : List.Forall₂ (fun logged entry => (∃ number, c.number? logged.1 = some number) ∧ c.Files logged entry)
      c.log c.journal.entries :=
    sound.filed.imp fun _ _ filed => ⟨⟨_, filed.1⟩, filed⟩
  exact ((List.forall₂_and_left _ _).mp known).1 logged member

theorem Sound.reportsFailures (sound : c.Sound executor) : c.ReportsFailures := by
  have completed := sound.faithful.completed
  intro place error
  constructor
  · intro logged
    obtain ⟨number, here⟩ := sound.known_of_logged logged
    have among : (number, .failed error) ∈ c.journal.completed :=
      List.mem_filter.mpr ⟨(sound.logged_iff here _).mp logged, rfl⟩
    rw [completed] at among
    obtain ⟨⟨other, result⟩, delivered, reported⟩ := List.mem_flatMap.mp among
    obtain ⟨event, calls, same⟩ := List.mem_map.mp reported
    obtain ⟨rfl, rfl⟩ := Prod.mk.inj same
    obtain ⟨⟨b, path⟩, recorded⟩ := sound.acc.request_of_entry (List.mem_append_right _ delivered)
    rw [Ledger.completion, recorded, Option.elim_some] at calls
    have told := sound.acc.resultsOf_delivered delivered
    cases result with
    | ok output => cases output <;> simp [Path.completion] at calls
    | error other =>
      cases path with
      | future => cases calls
      | callback =>
        obtain rfl := Event.failed.inj (List.mem_singleton.mp calls)
        exact ⟨_, b, here, recorded, by rw [told]; exact List.mem_singleton_self _⟩
  · rintro ⟨number, b, here, recorded, told⟩
    obtain ⟨entry, member, equal⟩ := List.mem_map.mp told
    obtain ⟨delivered, same⟩ := List.mem_filter.mp member
    obtain rfl := beq_iff_eq.mp same
    have among : (entry.1, .failed error) ∈ c.journal.completed := by
      rw [completed]
      refine List.mem_flatMap.mpr ⟨entry, delivered, List.mem_map.mpr ⟨_, ?_, rfl⟩⟩
      rw [Ledger.completion, recorded, equal]
      exact List.mem_singleton_self _
    exact (sound.logged_iff here _).mpr (List.mem_filter.mp among).1

/-- Awaiting a fetch is a course of turns in which its future is driven last, and hands over what the fetch comes
    to. -/
theorem Sound.fetch_driven (sound : c.Sound executor) {index : Nat} {b : Builder}
    (there : c.ledger.session.builders[index]? = some b) :
    ∃ settling result counts settled,
      c.stepTurns ⟨index, .fetch .await⟩ = .step ⟨index, .fetch .hold⟩ rfl ::
        (settling ++ [.start c.tickets.length, .finish c.tickets.length, .read]) ∧
      (c.ledger.session.step ⟨index, .fetch .await⟩).2.outcome = .fetched result counts settled ∧
      (c.run (c.stepTurns ⟨index, .fetch .await⟩)).resultsAt c.tickets.length = [result] := by
  obtain ⟨settling, turns⟩ := sound.stepTurns_fetch there
  obtain ⟨-, result, counts, settled, outcome, -, told⟩ := sound.acc.fetch_served there
  refine ⟨settling, result, counts, settled, turns, outcome, ?_⟩
  have here : (c.run (c.stepTurns ⟨index, .fetch .await⟩)).number? c.tickets.length =
      some c.ledger.requests.length := by
    rw [turns]
    exact number_run (number_hold there) _
  rw [resultsAt_of_number here, sound.ledger_stepTurns, told]

end Course

/-- Wherever a dispatch goes by the other path, with its future driven in its place, the session goes on in the same
    way: the same builders, announcements, runs and results, in the same order. A call that fails at once on the
    callback path has a future that fails with the same error, and the failures of runs are reported on the callback
    path alone. The turns include those that any steps of the session are made of, where an awaited fetch is a future
    that is driven last. -/
theorem paths_agree (builders : List Builder) (executor : Executor) {turns : List Move} {exchanged : Nat → Bool}
    (driven : ∀ place, exchanged place = true → Move.discard place ∉ turns) :
    let c := (Course.opening builders executor).run turns
    let d := (Course.opening builders executor).run (exchange exchanged turns)
    c.ledger.session.builders = d.ledger.session.builders ∧
    c.ledger.session.executor = d.ledger.session.executor ∧
    c.ledger.session.runs = d.ledger.session.runs ∧
    c.ledger.session.unread = d.ledger.session.unread ∧
    (∀ step, step.action.awaits = false → (c.ledger.session.step step).2 = (d.ledger.session.step step).2) ∧
    c.ledger.runs.map RunRecord.body = d.ledger.runs.map RunRecord.body ∧
    (∀ place, c.runsAt place = d.runsAt place) ∧
    (∀ place, c.resultsAt place = d.resultsAt place ∨
      exchanged place = true ∧ (c.Forestalls d place ∨ d.Forestalls c place)) ∧
    Course.shared exchanged c.log = Course.shared exchanged d.log ∧
    c.ReportsFailures ∧ d.ReportsFailures ∧
    c.log.map Prod.snd = c.journal.entries.map Prod.snd ∧ d.log.map Prod.snd = d.journal.entries.map Prod.snd ∧
    c.tickets.length = turns.length ∧
    (∀ index b, c.ledger.session.builders[index]? = some b → ∃ settling result counts settled,
      c.stepTurns ⟨index, .fetch .await⟩ = .step ⟨index, .fetch .hold⟩ rfl ::
        (settling ++ [.start turns.length, .finish turns.length, .read]) ∧
      (c.ledger.session.step ⟨index, .fetch .await⟩).2.outcome = .fetched result counts settled ∧
      (c.run (c.stepTurns ⟨index, .fetch .await⟩)).resultsAt turns.length = [result]) ∧
    (∀ step,
      let next := c.run (c.stepTurns step)
      (∀ place, Move.discard place ∉ c.stepTurns step) ∧
        next.journal = c.journal.play (c.ledger.stepMoves step) ∧
        next.ledger.session = (c.ledger.session.step step).1) ∧
    (∀ steps,
      let last := c.run (c.runTurns steps)
      (∀ place, Move.discard place ∉ c.runTurns steps) ∧
        last.journal = c.journal.play (c.ledger.runMoves steps) ∧
        last.ledger.session = (c.ledger.session.runSteps steps).1) ∧
    ∀ moves, ∃ turns,
      ((Course.opening builders executor).run turns).journal = (Journal.opening builders executor).play moves := by
  have matched := Course.matched_run builders executor driven
  have sound := (Course.sound_opening builders executor).run turns
  have sound' := (Course.sound_opening builders executor).run (exchange exchanged turns)
  intro c d
  have events {c : Course} (sound : c.Sound executor) : c.log.map Prod.snd = c.journal.entries.map Prod.snd := by
    have filed := sound.filed.imp fun _ _ same => same.2
    exact (List.forall₂_eq_eq_eq ▸ List.forall₂_map_left_iff.mpr (List.forall₂_map_right_iff.mpr filed))
  have places : c.tickets.length = turns.length := by simp [c, Course.length_run, Course.opening]
  obtain ⟨session, runs⟩ := matched.level
  refine ⟨(congrArg Session.builders session :), (congrArg Session.executor session :),
    (congrArg Session.runs session :), (congrArg Session.unread session :), ?_, runs,
    fun place => (matched.linked place).runsAt_eq sound sound',
    fun place => (matched.linked place).results_cases sound sound', matched.log, sound.reportsFailures,
    sound'.reportsFailures, events sound, events sound', places, ?_, ?_, ?_, Course.exists_run builders executor⟩
  · intro step prompt
    rw [← (c.ledger.session.step_bare step prompt).2, ← (d.ledger.session.step_bare step prompt).2, session]
  · intro index b there
    rw [← places]
    exact sound.fetch_driven there
  · intro step
    refine ⟨c.discard_not_mem_stepTurns step, sound.run_stepTurns step, ?_⟩
    rw [sound.ledger_stepTurns, (Ledger.play_stepMoves sound.acc step).1]
  · intro steps
    refine ⟨c.discard_not_mem_runTurns steps, sound.run_runTurns steps, ?_⟩
    rw [sound.ledger_runTurns, (Ledger.play_runMoves sound.acc steps).1]

/-- Both dispatches change their paths, and so does one that has nothing to compile to. -/
theorem paths_agree_closedPool :
    let builders : List Builder := [{ table := "t" }, { table := "u", clauses := { joins := [⟨"v", "on", .outer⟩] } }]
    let turns : List Move :=
      [.step ⟨0, .execute none true⟩ rfl, .step ⟨1, .execute none true⟩ rfl, .step ⟨0, .fetch .hold⟩ rfl,
        .start 2, .start 0, .start 1, .finish 0, .finish 1, .finish 2]
    let exchanged (place : Nat) : Bool := place < 3
    let c := (Course.opening builders (.server .poolClosed [])).run turns
    let d := (Course.opening builders (.server .poolClosed [])).run (exchange exchanged turns)
    let announced : Event := .dispatching .debug "t" 0 true "SELECT * FROM t"
    (∀ place, exchanged place = true → Move.discard place ∉ turns) ∧
      Course.shared exchanged c.log = Course.shared exchanged d.log ∧
      c.log = [(0, announced), (2, announced), (0, .failed (.pool .closed))] ∧
      d.log = [(0, announced), (2, announced), (2, .failed (.pool .closed))] := by
  intro builders turns exchanged c d announced
  have driven : ∀ place, exchanged place = true → Move.discard place ∉ turns := by
    intro place _
    simp [turns]
  obtain ⟨-, -, -, -, -, -, -, -, log, -⟩ := paths_agree builders (.server .poolClosed []) driven
  exact ⟨driven, log, by decide, by decide⟩

end SqlSelect
