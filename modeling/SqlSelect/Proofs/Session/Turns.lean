import SqlSelect.Proofs.Session.Course

namespace SqlSelect

namespace Move

variable {move : Move} {names : Nat → Nat} {number : Nat}

/-- The move about the work of another name. -/
def renamed (names : Nat → Nat) (move : Move) : Move :=
  move.target?.elim move fun number => move.toward (names number)

theorem renamed_plain (target : move.target? = none) : move.renamed names = move := by
  rw [renamed, target, Option.elim_none]

theorem renamed_number (target : move.target? = some number) : move.renamed names = move.toward (names number) := by
  rw [renamed, target, Option.elim_some]

theorem renamed_eq_discard {place : Nat} (same : move.renamed names = .discard place) :
    ∃ number, move = .discard number := by
  cases move with
  | discard number => exact ⟨number, rfl⟩
  | _ => cases same

end Move

namespace Ledger

variable {executor : Executor} {l : Ledger}

theorem target_of_settling (acc : l.Accounted executor) {move : Move}
    (member : move ∈ settleMoves l.session l.waiting) : ∃ number ∈ l.waiting, move.target? = some number := by
  rcases List.mem_append.mp member with started | finished
  · obtain ⟨number, listed, rfl⟩ := List.mem_map.mp started
    exact ⟨number, (startNumbers_perm (count_waiting acc)).mem_iff.mp listed, rfl⟩
  · obtain ⟨number, listed, rfl⟩ := List.mem_map.mp finished
    exact ⟨number, listed, rfl⟩

theorem discard_not_mem_settling (s : Session) (waiting : List Nat) (number : Nat) :
    .discard number ∉ settleMoves s waiting := by
  simp [settleMoves]

/-- Steps throw nothing away that they have not thrown away at once. -/
theorem discard_not_mem_stepMoves (l : Ledger) (step : Step) (number : Nat) : .discard number ∉ l.stepMoves step := by
  have settling := discard_not_mem_settling l.session l.waiting number
  obtain ⟨index, action⟩ := step
  cases there : l.session.builders[index]? with
  | none => simp [stepMoves, there]
  | some b =>
    cases prompt : action.awaits with
    | false =>
      have alone : l.stepMoves ⟨index, action⟩ = [.step ⟨index, action⟩ prompt] := stepMoves_prompt there prompt
      simp [alone]
    | true =>
      rcases Action.eq_of_awaits prompt with rfl | rfl
      · simp [stepMoves_settle there, awaitMoves, settling]
      · simp [stepMoves_fetch there, settling]

end Ledger

namespace Course

variable {executor : Executor} {c : Course} {place number : Nat}

/-- The turn that a request was entered by. What has not been entered yet can only be entered by the next one. -/
def placeOf (c : Course) (number : Nat) : Nat :=
  ((List.range c.tickets.length).find? fun place => c.number? place == some number).getD c.tickets.length

/-- The turns that make up a step. -/
def stepTurns (c : Course) (step : Step) : List Move :=
  (c.ledger.stepMoves step).map (Move.renamed c.placeOf)

def runTurns (c : Course) : List Step → List Move
  | [] => []
  | step :: rest => c.stepTurns step ++ (c.run (c.stepTurns step)).runTurns rest

theorem run_append (c : Course) (first second : List Move) : c.run (first ++ second) = (c.run first).run second :=
  List.foldl_append

theorem number_run (here : c.number? place = some number) (turns : List Move) :
    (c.run turns).number? place = some number := by
  induction turns generalizing c with
  | nil => exact here
  | cons move rest ih => exact ih (number_kept here move)

theorem Sound.placeOf_eq (sound : c.Sound executor) (here : c.number? place = some number) :
    c.placeOf number = place := by
  have among : place ∈ List.range c.tickets.length := List.mem_range.mpr (number_place here)
  rw [placeOf]
  cases found : (List.range c.tickets.length).find? fun place => c.number? place == some number with
  | some other =>
    have there : (c.number? other == some number) = true := by simpa using List.find?_some found
    exact sound.distinct other place number (beq_iff_eq.mp there) here
  | none =>
    have missing := List.find?_eq_none.mp found place among
    exact absurd (beq_iff_eq.mpr here) missing

theorem Sound.placeOf_new (sound : c.Sound executor) : c.placeOf c.ledger.requests.length = c.tickets.length := by
  have missing : (List.range c.tickets.length).find?
      (fun place => c.number? place == some c.ledger.requests.length) = none := by
    apply List.find?_eq_none.mpr
    intro place _ same
    exact absurd (sound.known place _ (beq_iff_eq.mp same)) (Nat.lt_irrefl _)
  rw [placeOf, missing, Option.getD_none]

theorem Sound.number_placeOf (sound : c.Sound executor) (bound : number < c.ledger.requests.length) :
    c.number? (c.placeOf number) = some number := by
  obtain ⟨place, here⟩ := sound.complete number bound
  rwa [sound.placeOf_eq here]

/-- Moves become turns by a renaming that is right when they begin: the names of requests do not change. -/
theorem run_renamed {names : Nat → Nat} {moves : List Move}
    (right : ∀ move ∈ moves, ∀ number, move.target? = some number → c.number? (names number) = some number) :
    (c.run (moves.map (Move.renamed names))).journal = c.journal.play moves := by
  induction moves generalizing c with
  | nil => rfl
  | cons move rest ih =>
    have located : c.located (move.renamed names) = [move] := by
      cases target : move.target? with
      | none =>
        rw [Move.renamed_plain target]
        exact located_plain target
      | some number =>
        have here := right move (List.mem_cons_self ..) number target
        rw [Move.renamed_number target, located_number (Move.target_toward target _) here, Move.toward_target target]
    have first : (c.turn (move.renamed names)).journal = c.journal.move move := by
      rw [turn, located, Journal.play_cons, Journal.play_nil]
    have others := ih (c := c.turn (move.renamed names)) fun other member number target =>
      number_kept (right other (List.mem_cons_of_mem _ member) number target) _
    rw [List.map_cons, run, List.foldl_cons, ← run, others, first, Journal.play_cons]

theorem Sound.number_of_settling (sound : c.Sound executor) {move : Move}
    (member : move ∈ Ledger.settleMoves c.ledger.session c.ledger.waiting) (target : move.target? = some number) :
    c.number? (c.placeOf number) = some number := by
  obtain ⟨other, waits, aim⟩ := Ledger.target_of_settling sound.acc member
  obtain rfl := Option.some.inj (aim.symm.trans target)
  exact sound.number_placeOf (sound.acc.bound (by simp [waits]))

section Fetch

variable {index : Nat} {b : Builder} (there : c.ledger.session.builders[index]? = some b)

include there

theorem number_hold :
    (c.turn (.step ⟨index, .fetch .hold⟩ rfl)).number? c.tickets.length = some c.ledger.requests.length := by
  have entered : c.ledger.entered? (.step ⟨index, .fetch .hold⟩ rfl) = some ⟨b, .future⟩ := by
    simp only [Ledger.entered?, there, Option.bind_some, (Session.step_eq there _).2.1]
    rfl
  rw [number_turn, if_pos rfl, entered, Option.map_some]

/-- A future that is awaited at once is driven last of all. -/
theorem Sound.stepTurns_fetch (sound : c.Sound executor) : ∃ settling, c.stepTurns ⟨index, .fetch .await⟩ =
    .step ⟨index, .fetch .hold⟩ rfl :: (settling ++ [.start c.tickets.length, .finish c.tickets.length, .read]) := by
  refine ⟨(Ledger.settleMoves c.ledger.session c.ledger.waiting).map (Move.renamed c.placeOf), ?_⟩
  rw [stepTurns, Ledger.stepMoves_fetch there, List.map_cons, List.map_append]
  simp [Move.renamed, Move.target?, Move.toward, sound.placeOf_new]

theorem Sound.run_fetch (sound : c.Sound executor) :
    (c.run (c.stepTurns ⟨index, .fetch .await⟩)).journal =
      c.journal.play (c.ledger.stepMoves ⟨index, .fetch .await⟩) := by
  let hold : Move := .step ⟨index, .fetch .hold⟩ rfl
  have moves : c.ledger.stepMoves ⟨index, .fetch .await⟩ = hold :: (Ledger.settleMoves c.ledger.session c.ledger.waiting
      ++ [.start c.ledger.requests.length, .finish c.ledger.requests.length, .read]) := Ledger.stepMoves_fetch there
  have first : (c.turn hold).journal = c.journal.move hold := by
    rw [Course.turn, located_plain rfl, Journal.play_cons, Journal.play_nil]
  rw [stepTurns, moves, List.map_cons, Move.renamed_plain (rfl : hold.target? = none), Journal.play_cons, ← first]
  apply run_renamed
  intro move member number target
  rcases List.mem_append.mp member with settling | last
  · exact number_kept (sound.number_of_settling settling target) _
  · have new : number = c.ledger.requests.length := by
      simp only [List.mem_cons, List.not_mem_nil, or_false] at last
      rcases last with rfl | rfl | rfl
      · exact (Option.some.inj target).symm
      · exact (Option.some.inj target).symm
      · cases target
    rw [new, sound.placeOf_new]
    exact number_hold there

end Fetch

theorem Sound.run_stepTurns (sound : c.Sound executor) (step : Step) :
    (c.run (c.stepTurns step)).journal = c.journal.play (c.ledger.stepMoves step) := by
  obtain ⟨index, action⟩ := step
  cases there : c.ledger.session.builders[index]? with
  | none =>
    have nothing : c.ledger.stepMoves ⟨index, action⟩ = [] := by simp [Ledger.stepMoves, there]
    rw [stepTurns, nothing]
    rfl
  | some b =>
    cases prompt : action.awaits with
    | false =>
      rw [stepTurns, Ledger.stepMoves_prompt there prompt]
      apply run_renamed
      intro move member number target
      rw [List.mem_singleton.mp member] at target
      cases target
    | true =>
      rcases Action.eq_of_awaits prompt with rfl | rfl
      · rw [stepTurns, Ledger.stepMoves_settle there]
        apply run_renamed
        intro move member number target
        rcases List.mem_append.mp member with settling | read
        · exact sound.number_of_settling settling target
        · rw [List.mem_singleton.mp read] at target
          cases target
      · exact sound.run_fetch there

theorem Sound.ledger_stepTurns (sound : c.Sound executor) (step : Step) :
    (c.run (c.stepTurns step)).ledger = c.ledger.play (c.ledger.stepMoves step) := by
  rw [Course.ledger, sound.run_stepTurns, Journal.play_ledger]

theorem Sound.run_runTurns (sound : c.Sound executor) (steps : List Step) :
    (c.run (c.runTurns steps)).journal = c.journal.play (c.ledger.runMoves steps) := by
  induction steps generalizing c with
  | nil => rfl
  | cons step rest ih =>
    rw [runTurns, run_append, ih (sound.run _), sound.ledger_stepTurns, sound.run_stepTurns, Ledger.runMoves,
      Journal.play_append]

theorem Sound.ledger_runTurns (sound : c.Sound executor) (steps : List Step) :
    (c.run (c.runTurns steps)).ledger = c.ledger.play (c.ledger.runMoves steps) := by
  rw [Course.ledger, sound.run_runTurns, Journal.play_ledger]

theorem discard_not_mem_stepTurns (c : Course) (step : Step) (place : Nat) : .discard place ∉ c.stepTurns step := by
  intro member
  obtain ⟨move, among, same⟩ := List.mem_map.mp member
  obtain ⟨number, rfl⟩ := Move.renamed_eq_discard same
  exact c.ledger.discard_not_mem_stepMoves step number among

theorem discard_not_mem_runTurns (c : Course) (steps : List Step) (place : Nat) :
    .discard place ∉ c.runTurns steps := by
  induction steps generalizing c with
  | nil => exact List.not_mem_nil
  | cons step rest ih =>
    intro member
    rcases List.mem_append.mp member with first | later
    · exact c.discard_not_mem_stepTurns step place first
    · exact ih _ later

end Course

end SqlSelect
