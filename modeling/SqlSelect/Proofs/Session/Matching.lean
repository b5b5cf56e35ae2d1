import SqlSelect.Proofs.Session.Course
import SqlSelect.Proofs.Session.Twins

namespace SqlSelect

def Event.isFailed : Event → Bool
  | .failed _ => true
  | _ => false

/-- The other path for a dispatch that follows the configuration of its builder. -/
def Move.exchanged : Move → Move
  | .step ⟨index, .execute none true⟩ _ => .step ⟨index, .fetch .hold⟩ rfl
  | .step ⟨index, .fetch .hold⟩ _ => .step ⟨index, .execute none true⟩ rfl
  | move => move

def exchange (exchanged : Nat → Bool) (turns : List Move) : List Move :=
  turns.mapIdx fun place move => if exchanged place then move.exchanged else move

namespace Course

/-- What is left of a log without the failures that are reported of exchanged turns. -/
def shared (exchanged : Nat → Bool) (log : List (Nat × Event)) : List (Nat × Event) :=
  log.filter fun entry => !(exchanged entry.1 && entry.2.isFailed)

/-- The call of a turn has failed in one course. In the other it has made a future, which will fail with the same
    error. -/
inductive Refused (c d : Course) (place : Nat) : Prop
  | intro {error : Error} {other : Nat} (failed : c.tickets[place]? = some (some (.error error)))
    (there : d.number? place = some other) (doomed : d.ledger.Doomed error other)

/-- How a turn has fared in two courses that differ in the paths of dispatches. -/
inductive Linked (apart : Bool) (c d : Course) (place : Nat) : Prop
  | paired {number other : Nat} (here : c.number? place = some number) (there : d.number? place = some other)
    (twins : Ledger.Twins apart c.ledger d.ledger number other)
  | silent (same : c.tickets[place]? = d.tickets[place]?) (nothing : c.number? place = none)
  | refused (parted : apart = true) (refused : Refused c d place)
  | refusing (parted : apart = true) (refusing : Refused d c place)

/-- Two courses that differ in the paths of exchanged dispatches, at the same point. -/
structure Matched (exchanged : Nat → Bool) (c d : Course) : Prop where
  length : c.tickets.length = d.tickets.length
  level : c.ledger.Level d.ledger
  log : shared exchanged c.log = shared exchanged d.log
  linked : ∀ place, Linked (exchanged place) c d place

variable {exchanged : Nat → Bool} {apart : Bool} {c d : Course} {executor : Executor} {place : Nat}

theorem number_of_same (same : c.tickets[place]? = d.tickets[place]?) (nothing : c.number? place = none) :
    d.number? place = none := by
  rw [number?, ← same, ← number?, nothing]

theorem number_of_error {error : Error} (failed : c.tickets[place]? = some (some (.error error))) :
    c.number? place = none := by
  simp [number?, failed, Except.toOption]

theorem Linked.symm (linked : Linked apart c d place) : Linked apart d c place := by
  cases linked with
  | paired here there twins => exact .paired there here twins.symm
  | silent same nothing => exact .silent same.symm (number_of_same same nothing)
  | refused parted refused => exact .refusing parted refused
  | refusing parted refusing => exact .refused parted refusing

theorem Matched.symm (matched : Matched exchanged c d) : Matched exchanged d c where
  length := matched.length.symm
  level := matched.level.symm
  log := matched.log.symm
  linked place := (matched.linked place).symm

section Others

variable {move twin : Move}

theorem ticket_kept (old : place ≠ c.tickets.length) : (c.turn move).tickets[place]? = c.tickets[place]? :=
  (c.ticket_turn move place).trans (if_neg old)

theorem Refused.turn (refused : Refused c d place) (sound : d.Sound executor) (old : place ≠ c.tickets.length)
    (other : twin.target? ≠ some place) : Refused (c.turn move) (d.turn twin) place := by
  obtain ⟨failed, there, recorded, failing, stands, kept⟩ := refused
  exact ⟨(ticket_kept old).trans failed, number_kept there twin, recorded_turn recorded twin, failing,
    sound.at_turn there other stands, kept⟩

theorem Linked.turn (linked : Linked apart c d place) (sound : c.Sound executor) (sound' : d.Sound executor)
    (length : c.tickets.length = d.tickets.length) (old : place ≠ c.tickets.length)
    (other : move.target? ≠ some place) (other' : twin.target? ≠ some place) :
    Linked apart (c.turn move) (d.turn twin) place := by
  have old' : place ≠ d.tickets.length := length ▸ old
  cases linked with
  | paired here there twins =>
    obtain ⟨recorded, matching, paths, stands, alike⟩ := twins
    exact .paired (number_kept here move) (number_kept there twin)
      ⟨recorded_turn recorded move, recorded_turn matching twin, paths, sound.at_turn here other stands,
        sound'.at_turn there other' alike⟩
  | silent same nothing =>
    exact .silent ((ticket_kept old).trans (same.trans (ticket_kept old').symm))
      ((c.number_turn move place).trans ((if_neg old).trans nothing))
  | refused parted refused => exact .refused parted (refused.turn sound' old other')
  | refusing parted refusing => exact .refusing parted (refusing.turn sound old' other)

theorem Linked.own (plain : move.isStep = false) (length : c.tickets.length = d.tickets.length) :
    Linked apart (c.turn move) (d.turn move) c.tickets.length := by
  have nothing (l : Ledger) : l.ticket? move = none := by
    cases move with
    | step step prompt => cases plain
    | _ => rfl
  refine .silent ?_ ?_
  · rw [ticket_turn, if_pos rfl, ticket_turn, if_pos length, nothing, nothing]
  · rw [number_turn, if_pos rfl, c.ledger.entered_of_work plain]
    rfl

/-- After a turn there are only two turns to look at, the new one and the one that it is about. -/
theorem Matched.linked_turn (matched : Matched exchanged c d) (sound : c.Sound executor) (sound' : d.Sound executor)
    (own : Linked (exchanged c.tickets.length) (c.turn move) (d.turn twin) c.tickets.length)
    (aimed : ∀ place, place ≠ c.tickets.length → move.target? = some place ∨ twin.target? = some place →
      Linked (exchanged place) (c.turn move) (d.turn twin) place) (place : Nat) :
    Linked (exchanged place) (c.turn move) (d.turn twin) place := by
  by_cases new : place = c.tickets.length
  · rwa [new]
  · by_cases aims : move.target? = some place ∨ twin.target? = some place
    · exact aimed place new aims
    · obtain ⟨other, other'⟩ := not_or.mp aims
      exact (matched.linked place).turn sound sound' matched.length new other other'

end Others

section Targets

variable {number other : Nat} {request : Request} {stage : Stage} {move : Move} {own : Nat → Move}

theorem Refused.target (refused : Refused c d place) (sound : d.Sound executor) (target : move.target? = some place)
    (alone : ∀ {d : Course} {error number}, d.Sound executor → d.number? place = some number →
      d.ledger.Doomed error number → d.ledger.Level (d.ledger.move (move.toward number)) ∧
        (d.ledger.move (move.toward number)).Doomed error number ∧ (d.turn move).log = d.log) :
    c.ledger = (c.turn move).ledger ∧ c.log = (c.turn move).log ∧ d.ledger.Level (d.turn move).ledger ∧
      d.log = (d.turn move).log ∧ (place ≠ c.tickets.length → Refused (c.turn move) (d.turn move) place) := by
  obtain ⟨failed, there, doomed⟩ := refused
  obtain ⟨ledger, log⟩ := turn_nothing (located_none target (number_of_error failed))
  have ledger' := ledger_located (located_number target there)
  obtain ⟨level, doomed, log'⟩ := alone sound there doomed
  rw [← ledger'] at level doomed
  exact ⟨ledger.symm, log.symm, level, log'.symm, fun old =>
    ⟨(ticket_kept old).trans failed, number_kept there move, doomed⟩⟩

/-- A turn about an earlier turn keeps two courses together if it does the same to two requests that stand alike, and
    if nothing comes of it for a future that has no statement. -/
theorem Matched.target (matched : Matched exchanged c d) (sound : c.Sound executor) (sound' : d.Sound executor)
    (target : move.target? = some place)
    (both : ∀ {number other}, c.number? place = some number → d.number? place = some other →
      Ledger.Twins (exchanged place) c.ledger d.ledger number other →
      (c.ledger.move (move.toward number)).Level (d.ledger.move (move.toward other)) ∧
        Ledger.Twins (exchanged place) (c.ledger.move (move.toward number)) (d.ledger.move (move.toward other))
          number other ∧
        shared exchanged (c.turn move).log = shared exchanged (d.turn move).log)
    (alone : exchanged place = true → ∀ {c : Course} {error number}, c.Sound executor → c.number? place = some number →
      c.ledger.Doomed error number → c.ledger.Level (c.ledger.move (move.toward number)) ∧
        (c.ledger.move (move.toward number)).Doomed error number ∧ (c.turn move).log = c.log) :
    Matched exchanged (c.turn move) (d.turn move) := by
  have length : (c.turn move).tickets.length = (d.turn move).tickets.length := by simp [Course.turn, matched.length]
  have linked (aimed : place ≠ c.tickets.length → Linked (exchanged place) (c.turn move) (d.turn move) place) :
      ∀ other, Linked (exchanged other) (c.turn move) (d.turn move) other := by
    refine matched.linked_turn sound sound' (.own (Move.isStep_of_target target) matched.length) ?_
    intro other old aims
    obtain rfl : place = other := Option.some.inj (target.symm.trans (or_self_iff.mp aims))
    exact aimed old
  cases matched.linked place with
  | paired here there twins =>
    obtain ⟨level, twins, log⟩ := both here there twins
    rw [← ledger_located (located_number target here), ← ledger_located (located_number target there)] at level twins
    exact ⟨length, level, log, linked fun _ => .paired (number_kept here move) (number_kept there move) twins⟩
  | silent same nothing =>
    obtain ⟨ledger, log⟩ := turn_nothing (located_none target nothing)
    obtain ⟨ledger', log'⟩ := turn_nothing (located_none target (number_of_same same nothing))
    refine ⟨length, by rw [ledger, ledger']; exact matched.level, by rw [log, log', matched.log], linked fun old => ?_⟩
    exact .silent ((ticket_kept old).trans (same.trans (ticket_kept (matched.length ▸ old)).symm))
      ((c.number_turn move place).trans ((if_neg old).trans nothing))
  | refused parted refused =>
    obtain ⟨ledger, log, level, log', refused⟩ := refused.target sound' target (alone parted)
    refine ⟨length, ?_, by rw [← log, ← log', matched.log], linked fun old => .refused parted (refused old)⟩
    rw [← ledger]
    exact matched.level.trans level
  | refusing parted refusing =>
    obtain ⟨ledger, log, level, log', refusing⟩ := refusing.target sound target (alone parted)
    refine ⟨length, ?_, by rw [← log, ← log', matched.log], linked fun old =>
      .refusing parted (refusing (matched.length ▸ old))⟩
    rw [← ledger]
    exact level.symm.trans matched.level

theorem log_silent (target : move.target? = some place) (unfinished : ∀ place, move ≠ .finish place) :
    (c.turn move).log = c.log := by
  cases here : c.number? place with
  | none => exact (turn_nothing (located_none target here)).2
  | some number =>
    rw [log_located (located_number target here)]
    cases move with
    | step step prompt => cases target
    | finish place => exact absurd rfl (unfinished place)
    | read => cases target
    | _ => simp [Move.toward, Ledger.announcement?, Journal.reported]

theorem Matched.start (matched : Matched exchanged c d) (sound : c.Sound executor) (sound' : d.Sound executor)
    (place : Nat) : Matched exchanged (c.turn (.start place)) (d.turn (.start place)) := by
  have log (c : Course) : (c.turn (.start place)).log = c.log := log_silent rfl (by simp)
  refine matched.target sound sound' rfl ?_ ?_
  · intro number other _ _ twins
    obtain ⟨level, twins⟩ := twins.start sound.acc sound'.acc matched.level
    exact ⟨level, twins, by rw [log, log, matched.log]⟩
  · intro _ c error number sound _ doomed
    obtain ⟨level, doomed⟩ := doomed.start sound.acc
    exact ⟨level, doomed, log c⟩

theorem Matched.discard (matched : Matched exchanged c d) (sound : c.Sound executor) (sound' : d.Sound executor)
    (driven : exchanged place = false) :
    Matched exchanged (c.turn (.discard place)) (d.turn (.discard place)) := by
  have log (c : Course) : (c.turn (.discard place)).log = c.log := log_silent rfl (by simp)
  refine matched.target sound sound' rfl ?_ ?_
  · rw [driven]
    intro number other _ _ twins
    obtain ⟨level, twins⟩ := twins.discard sound.acc sound'.acc matched.level
    exact ⟨level, twins, by rw [log, log, matched.log]⟩
  · intro parted
    exact absurd parted (by simp [driven])

theorem Sound.log_finish (sound : c.Sound executor) (here : c.number? place = some number)
    (recorded : c.ledger.requests[number]? = some request) (stands : c.ledger.At number stage) :
    (c.turn (.finish place)).log =
      c.log ++ (stage.result?.elim [] fun result => (request.path.completion result).map (Prod.mk place)) := by
  rw [log_located (located_number rfl here), sound.faithful.reported_eq, Move.toward, sound.acc.ended_at stands]
  cases stage with
  | running result =>
    simp [Ledger.announcement?, Stage.result?, Ledger.completionEntries, Ledger.completion, recorded, Move.target?,
      Function.comp_def]
  | _ => simp [Ledger.announcement?, Stage.result?]

theorem shared_append (exchanged : Nat → Bool) (log more : List (Nat × Event)) :
    shared exchanged (log ++ more) = shared exchanged log ++ shared exchanged more :=
  List.filter_append _ _

theorem shared_completion {path path' : Path} (paths : exchanged place = false → path = path') (result : Result) :
    shared exchanged ((path.completion result).map (Prod.mk place)) =
      shared exchanged ((path'.completion result).map (Prod.mk place)) := by
  cases parted : exchanged place with
  | false => rw [paths parted]
  | true =>
    cases result with
    | ok output => cases output <;> rfl
    | error error => cases path <;> cases path' <;> simp [Path.completion, shared, Event.isFailed, parted]

theorem Matched.finish (matched : Matched exchanged c d) (sound : c.Sound executor) (sound' : d.Sound executor)
    (place : Nat) : Matched exchanged (c.turn (.finish place)) (d.turn (.finish place)) := by
  refine matched.target sound sound' rfl ?_ ?_
  · intro number other here there twins
    obtain ⟨level, twins'⟩ := twins.finish sound.acc sound'.acc matched.level
    obtain @⟨b, path, path', stage, recorded, matching, paths, stands, alike⟩ := twins
    refine ⟨level, twins', ?_⟩
    rw [sound.log_finish here recorded stands, sound'.log_finish there matching alike, shared_append, shared_append,
      matched.log]
    cases stage.result? with
    | none => rfl
    | some result => rw [Option.elim_some, Option.elim_some, shared_completion paths]
  · intro _ c error number sound here doomed
    obtain ⟨level, doomed'⟩ := doomed.finish sound.acc
    obtain @⟨b, stage, recorded, failing, stands, -⟩ := doomed
    refine ⟨level, doomed', ?_⟩
    rw [sound.log_finish here recorded stands]
    cases stage with
    | running result =>
      have among := List.mem_append_left c.ledger.delivered (Ledger.at_running.mp stands)
      obtain rfl : result = .error error := sound.acc.refused _ among _ recorded error failing
      exact List.append_nil _
    | _ => exact List.append_nil _

end Targets

section Steps

variable {step twin : Step} {prompt : step.action.awaits = false} {prompt' : twin.action.awaits = false}

theorem step_turn (c : Course) (step : Step) (prompt : step.action.awaits = false) :
    (c.turn (.step step prompt)).ledger = c.ledger.move (.step step prompt) :=
  ledger_located (located_plain rfl)

/-- What has to be looked at when a step is taken: the builders it leaves, what it announces and what it enters. -/
theorem Matched.steps (matched : Matched exchanged c d) (sound : c.Sound executor) (sound' : d.Sound executor)
    (session : (c.ledger.session.step step).1.bare = (d.ledger.session.step twin).1.bare)
    (announced : (c.ledger.announcement? (.step step prompt)).map Prod.snd =
      (d.ledger.announcement? (.step twin prompt')).map Prod.snd)
    (linked : Linked (exchanged c.tickets.length) (c.turn (.step step prompt)) (d.turn (.step twin prompt'))
      c.tickets.length) :
    Matched exchanged (c.turn (.step step prompt)) (d.turn (.step twin prompt')) where
  length := by simp [Course.turn, matched.length]
  level := by
    have kept (l : Ledger) (step : Step) (prompt : step.action.awaits = false) :
        (l.move (.step step prompt)).runs = l.runs := by
      simp only [Ledger.move]
      cases l.session.builders[step.builder]? <;> simp
    rw [step_turn, step_turn]
    refine ⟨?_, by rw [kept, kept, matched.level.runs]⟩
    rw [(c.ledger.step_of_prompt step prompt).1, (d.ledger.step_of_prompt twin prompt').1, session]
  log := by
    have events := congrArg (fun event : Option Event => event.toList.map (Prod.mk c.tickets.length)) announced
    simp only [Option.toList_map, List.map_map] at events
    rw [log_located (located_plain rfl), log_located (located_plain rfl), shared_append, shared_append, matched.log]
    simp only [Journal.reported, List.append_nil, Move.target?, Option.getD_none, ← matched.length]
    exact congrArg (shared exchanged d.log ++ shared exchanged ·) events
  linked := matched.linked_turn sound sound' linked (by simp [Move.target?])

theorem entered_turn (prompt : step.action.awaits = false) {b : Builder} {path : Path}
    (there : c.ledger.session.builders[step.builder]? = some b)
    (entered : (c.ledger.session.step step).2.outcome.path? = some path) :
    (c.turn (.step step prompt)).number? c.tickets.length = some c.ledger.requests.length ∧
      (c.turn (.step step prompt)).ledger.requests[c.ledger.requests.length]? = some ⟨b, path⟩ ∧
      (c.turn (.step step prompt)).ledger.At c.ledger.requests.length (c.ledger.session.step step).2.outcome.stage := by
  have request : c.ledger.entered? (.step step prompt) = some ⟨b, path⟩ := by
    simp [Ledger.entered?, there, entered]
  refine ⟨?_, ?_, ?_⟩
  · rw [number_turn, if_pos rfl, request, Option.map_some]
  · rw [step_turn, Ledger.move_requests, request]
    exact List.getElem?_concat_length
  · rw [step_turn]
    simp only [Ledger.move, there]
    cases came : (c.ledger.session.step step).2.outcome with
    | dispatched => simp [Outcome.stage, Ledger.record, Ledger.wait]
    | held => simp [Outcome.stage, Ledger.record, Ledger.wait]
    | dropped => simp [Outcome.stage, Ledger.record, Ledger.drop]
    | _ =>
      rw [came] at entered
      cases entered

theorem Matched.same_step (matched : Matched exchanged c d) (sound : c.Sound executor) (sound' : d.Sound executor) :
    Matched exchanged (c.turn (.step step prompt)) (d.turn (.step step prompt)) := by
  obtain ⟨mine, report⟩ := c.ledger.session.step_bare step prompt
  obtain ⟨theirs, report'⟩ := d.ledger.session.step_bare step prompt
  have builders : c.ledger.session.builders = d.ledger.session.builders :=
    (congrArg Session.builders matched.level.session :)
  have outcome : (c.ledger.session.step step).2.outcome = (d.ledger.session.step step).2.outcome := by
    rw [← report, ← report', matched.level.session]
  refine matched.steps sound sound' ?_ ?_ ?_
  · rw [← mine, ← theirs, matched.level.session]
  · simp only [Ledger.announcement?, builders, Option.map_map, Function.comp_def]
  · cases path : (c.ledger.session.step step).2.outcome.path? with
    | none =>
      have ticket : c.ledger.ticket? (.step step prompt) = d.ledger.ticket? (.step step prompt) := by
        simp only [Ledger.ticket?, ← outcome]
        cases came : (c.ledger.session.step step).2.outcome with
        | dispatched => simp [came, Outcome.path?] at path
        | held => simp [came, Outcome.path?] at path
        | dropped => simp [came, Outcome.path?] at path
        | _ => rfl
      have nothing : c.ledger.entered? (.step step prompt) = none := by
        cases there : c.ledger.session.builders[step.builder]? <;> simp [Ledger.entered?, there, path]
      refine .silent ?_ ?_
      · rw [ticket_turn, if_pos rfl, ticket_turn, if_pos matched.length, ticket]
      · rw [number_turn, if_pos rfl, nothing, Option.map_none]
    | some path =>
      cases there : c.ledger.session.builders[step.builder]? with
      | none => simp [Session.step, there, Outcome.path?] at path
      | some b =>
        obtain ⟨here, recorded, stands⟩ := entered_turn prompt there path
        obtain ⟨here', matching, alike⟩ := entered_turn prompt (builders ▸ there) (outcome ▸ path)
        rw [← matched.length] at here'
        rw [← outcome] at alike
        exact .paired here here' ⟨recorded, matching, fun _ => rfl, stands, alike⟩

theorem Matched.execute_hold (matched : Matched exchanged c d) (sound : c.Sound executor) (sound' : d.Sound executor)
    (parted : exchanged c.tickets.length = true) {index : Nat}
    (prompt : (⟨index, .execute none true⟩ : Step).action.awaits = false)
    (prompt' : (⟨index, .fetch .hold⟩ : Step).action.awaits = false) :
    Matched exchanged (c.turn (.step ⟨index, .execute none true⟩ prompt))
      (d.turn (.step ⟨index, .fetch .hold⟩ prompt')) := by
  have builders : c.ledger.session.builders = d.ledger.session.builders :=
    (congrArg Session.builders matched.level.session :)
  have announced : (c.ledger.announcement? (.step ⟨index, .execute none true⟩ prompt)).map Prod.snd =
      (d.ledger.announcement? (.step ⟨index, .fetch .hold⟩ prompt')).map Prod.snd := by
    simp only [Ledger.announcement?, builders, Option.map_map]
    rfl
  cases there : c.ledger.session.builders[index]? with
  | none =>
    have there' : d.ledger.session.builders[index]? = none := builders ▸ there
    refine matched.steps sound sound' ?_ announced (.silent ?_ ?_)
    · simpa [Session.step, there, there'] using matched.level.session
    · rw [ticket_turn, if_pos rfl, ticket_turn, if_pos matched.length]
      simp [Ledger.ticket?, Session.step, there, there', Outcome.path?]
    · rw [number_turn, if_pos rfl]
      simp [Ledger.entered?, there]
  | some b =>
    have there' : d.ledger.session.builders[index]? = some b := builders ▸ there
    obtain ⟨session, -, -, executed⟩ := c.ledger.session.execute_or_hold index b
    obtain ⟨-, -, held, -⟩ := d.ledger.session.execute_or_hold index b
    rw [← (Session.step_eq there _).1, ← (Session.step_eq there _).1] at session
    rw [← (Session.step_eq there _).2.1] at executed
    rw [← (Session.step_eq there' _).2.1] at held
    obtain ⟨mine, -⟩ := c.ledger.session.step_bare ⟨index, .fetch .hold⟩ prompt'
    obtain ⟨theirs, -⟩ := d.ledger.session.step_bare ⟨index, .fetch .hold⟩ prompt'
    obtain ⟨number, matching, alike⟩ := entered_turn prompt' there' (congrArg Outcome.path? held)
    rw [← matched.length] at number
    rw [held] at alike
    refine matched.steps sound sound' (by rw [session, ← mine, ← theirs, matched.level.session]) announced ?_
    -- Both have entered a request, or the call has failed here and the future will fail there.
    rcases executed with dispatched | ⟨error, failing, failed⟩
    · obtain ⟨here, recorded, stands⟩ := entered_turn prompt there (congrArg Outcome.path? dispatched)
      rw [dispatched] at stands
      exact .paired here number ⟨recorded, matching, by simp [parted], stands, alike⟩
    · refine .refused parted ⟨?_, number, matching, failing, alike, by simp [Outcome.stage]⟩
      rw [ticket_turn, if_pos rfl, Ledger.ticket?, failed]

theorem Matched.read (matched : Matched exchanged c d) (sound : c.Sound executor) (sound' : d.Sound executor) :
    Matched exchanged (c.turn .read) (d.turn .read) where
  length := by simp [Course.turn, matched.length]
  level := by
    have session (c : Course) : (c.turn .read).ledger.session.bare = c.ledger.session.bare.readSent.1 := by
      rw [ledger_turn, c.ledger.session.readSent_bare.1]
      rfl
    refine ⟨by rw [session, session, matched.level.session], ?_⟩
    rw [ledger_turn, ledger_turn]
    exact matched.level.runs
  log := by
    have log (c : Course) : (c.turn .read).log = c.log := by
      rw [log_located (located_plain rfl)]
      simp [Ledger.announcement?, Journal.reported]
    rw [log, log, matched.log]
  linked := matched.linked_turn sound sound' (.own rfl matched.length) (by simp [Move.target?])

end Steps

theorem exchanged_cases (move : Move) :
    move.exchanged = move ∨
      (∃ index, move = .step ⟨index, .execute none true⟩ rfl ∧ move.exchanged = .step ⟨index, .fetch .hold⟩ rfl) ∨
      ∃ index, move = .step ⟨index, .fetch .hold⟩ rfl ∧ move.exchanged = .step ⟨index, .execute none true⟩ rfl := by
  unfold Move.exchanged
  split
  · exact .inr (.inl ⟨_, rfl, rfl⟩)
  · exact .inr (.inr ⟨_, rfl, rfl⟩)
  · exact .inl rfl

theorem Matched.turn (matched : Matched exchanged c d) (sound : c.Sound executor) (sound' : d.Sound executor)
    {move : Move} (driven : ∀ place, exchanged place = true → move ≠ .discard place) :
    Matched exchanged (c.turn move) (d.turn (if exchanged c.tickets.length then move.exchanged else move)) := by
  have same : Matched exchanged (c.turn move) (d.turn move) := by
    cases move with
    | step step prompt => exact matched.same_step sound sound'
    | start place => exact matched.start sound sound' place
    | finish place => exact matched.finish sound sound' place
    | discard place =>
      have kept : exchanged place = false := Bool.eq_false_iff.mpr fun parted => driven place parted rfl
      exact matched.discard sound sound' kept
    | read => exact matched.read sound sound'
  cases parted : exchanged c.tickets.length with
  | false => exact same
  | true =>
    rw [if_pos rfl]
    rcases exchanged_cases move with equal | ⟨index, rfl, equal⟩ | ⟨index, rfl, equal⟩
    · rwa [equal]
    · rw [equal]
      exact matched.execute_hold sound sound' parted rfl rfl
    · rw [equal]
      exact (matched.symm.execute_hold sound' sound (matched.length ▸ parted) rfl rfl).symm

end Course

end SqlSelect
