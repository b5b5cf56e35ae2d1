import SqlSelect.Proofs.Session.Events
import SqlSelect.Proofs.Session.Stage

namespace SqlSelect

/-- What a move that is a step comes to: the number of the request it enters, or the error it fails with. -/
def Ledger.ticket? (l : Ledger) : Move → Option (Except Error Nat)
  | .step step _ =>
    match (l.session.step step).2.outcome with
    | .failed error => some (.error error)
    | outcome => outcome.path?.map fun _ => .ok l.requests.length
  | _ => none

theorem Ledger.ticket_entered (l : Ledger) (move : Move) :
    (l.ticket? move).bind Except.toOption = (l.entered? move).map fun _ => l.requests.length := by
  cases move with
  | step step prompt =>
    cases there : l.session.builders[step.builder]? with
    | none =>
      have nothing : (l.session.step step).2.outcome = .noSuchBuilder := by simp [Session.step, there]
      simp [ticket?, entered?, there, nothing, Outcome.path?]
    | some b =>
      rw [ticket?, entered?, there]
      cases (l.session.step step).2.outcome <;> rfl
  | _ => rfl

theorem Ledger.entered_of_work (l : Ledger) {move : Move} (work : move.isStep = false) : l.entered? move = none := by
  cases move with
  | step step prompt => cases work
  | _ => rfl

/-- A journal that is kept by turns. Each turn is a move, but work is named by the turn that dispatched it, so that the
    same turns make sense where one of the dispatches enters no request. -/
structure Course where
  journal : Journal
  tickets : List (Option (Except Error Nat)) := []
  /-- Each event under the turn it is about. -/
  log : List (Nat × Event) := []

def Move.toward (move : Move) (place : Nat) : Move :=
  match move with
  | .start _ => .start place
  | .finish _ => .finish place
  | .discard _ => .discard place
  | move => move

namespace Move

variable {move : Move} {place other : Nat}

theorem target_toward (target : move.target? = some other) (place : Nat) :
    (move.toward place).target? = some place := by
  cases move with
  | step step prompt => cases target
  | read => cases target
  | _ => rfl

theorem toward_target (target : move.target? = some place) : (move.toward other).toward place = move := by
  cases move with
  | step step prompt => cases target
  | read => cases target
  | _ =>
    obtain rfl := Option.some.inj target
    rfl

theorem isStep_of_target (target : move.target? = some place) : move.isStep = false := by
  cases move with
  | step step prompt => cases target
  | _ => rfl

end Move

namespace Course

def opening (builders : List Builder) (executor : Executor) : Course :=
  { journal := .opening builders executor }

abbrev ledger (c : Course) : Ledger :=
  c.journal.ledger

def number? (c : Course) (place : Nat) : Option Nat :=
  c.tickets[place]?.join.bind Except.toOption

/-- The move that a turn makes. There is none if it names a turn that has entered no request. -/
def located (c : Course) (move : Move) : List Move :=
  match move.target? with
  | none => [move]
  | some place => (c.number? place).toList.map move.toward

def turn (c : Course) (move : Move) : Course :=
  let journal := c.journal.play (c.located move)
  { journal
    tickets := c.tickets ++ [c.ledger.ticket? move]
    log := c.log ++ (journal.entries.drop c.journal.entries.length).map fun entry =>
      (move.target?.getD c.tickets.length, entry.2) }

def run (c : Course) (turns : List Move) : Course :=
  turns.foldl turn c

variable {executor : Executor} {c : Course} {move : Move} {place number : Nat}

theorem run_concat (c : Course) (turns : List Move) (move : Move) : c.run (turns ++ [move]) = (c.run turns).turn move :=
  List.foldl_concat _ _ _ _

section Tickets

theorem ticket_turn (c : Course) (move : Move) (place : Nat) :
    (c.turn move).tickets[place]? =
      if place = c.tickets.length then some (c.ledger.ticket? move) else c.tickets[place]? := by
  have tickets : (c.turn move).tickets = c.tickets ++ [c.ledger.ticket? move] := rfl
  rw [tickets]
  split
  · rename_i same
    rw [same]
    exact List.getElem?_concat_length
  · rename_i other
    rcases Nat.lt_or_gt_of_ne other with before | behind
    · exact List.getElem?_append_left before
    · rw [List.getElem?_eq_none (by simp; omega), List.getElem?_eq_none (by omega)]

theorem number_turn (c : Course) (move : Move) (place : Nat) :
    (c.turn move).number? place =
      if place = c.tickets.length then (c.ledger.entered? move).map fun _ => c.ledger.requests.length
      else c.number? place := by
  rw [number?, ticket_turn, ← Ledger.ticket_entered]
  split <;> rfl

theorem number_place (here : c.number? place = some number) : place < c.tickets.length := by
  rw [number?] at here
  by_contra beyond
  rw [List.getElem?_eq_none (Nat.le_of_not_lt beyond)] at here
  cases here

theorem number_kept (here : c.number? place = some number) (move : Move) : (c.turn move).number? place = some number :=
  (c.number_turn move place).trans ((if_neg (Nat.ne_of_lt (number_place here))).trans here)

end Tickets

section Effects

theorem located_plain (target : move.target? = none) : c.located move = [move] := by
  rw [located, target]

theorem located_number (target : move.target? = some place) (here : c.number? place = some number) :
    c.located move = [move.toward number] := by
  rw [located, target]
  simp [here]

theorem located_none (target : move.target? = some place) (nothing : c.number? place = none) : c.located move = [] := by
  rw [located, target]
  simp [nothing]

theorem located_cases (c : Course) (move : Move) : c.located move = [] ∨ ∃ own, c.located move = [own] := by
  cases target : move.target? with
  | none => exact .inr ⟨move, located_plain target⟩
  | some place =>
    cases here : c.number? place with
    | none => exact .inl (located_none target here)
    | some number => exact .inr ⟨_, located_number target here⟩

theorem ledger_turn (c : Course) (move : Move) : (c.turn move).ledger = c.ledger.play (c.located move) :=
  Journal.play_ledger _ _

theorem ledger_located {own : Move} (located : c.located move = [own]) : (c.turn move).ledger = c.ledger.move own := by
  rw [ledger_turn, located, Ledger.play_cons, Ledger.play_nil]

theorem log_located {own : Move} (located : c.located move = [own]) :
    (c.turn move).log = c.log ++ ((c.ledger.announcement? own).toList ++ c.journal.reported own).map fun entry =>
      (move.target?.getD c.tickets.length, entry.2) := by
  simp only [turn, located, Journal.play_cons, Journal.play_nil, Journal.move_entries, List.drop_left]

theorem turn_nothing (located : c.located move = []) :
    (c.turn move).ledger = c.ledger ∧ (c.turn move).log = c.log := by
  simp [turn, located]

theorem grows_turn (c : Course) (move : Move) : c.ledger.Grows (c.turn move).ledger := by
  rw [ledger_turn]
  exact c.ledger.grows_play _

theorem recorded_turn {request : Request} (recorded : c.ledger.requests[number]? = some request) (move : Move) :
    (c.turn move).ledger.requests[number]? = some request :=
  (c.grows_turn move).recorded recorded

theorem requests_turn (c : Course) (move : Move) :
    (c.turn move).ledger.requests = c.ledger.requests ++ (c.ledger.entered? move).toList := by
  cases target : move.target? with
  | none => rw [ledger_located (located_plain target), Ledger.move_requests]
  | some place =>
    rw [c.ledger.entered_of_work (Move.isStep_of_target target)]
    cases here : c.number? place with
    | none => rw [(turn_nothing (located_none target here)).1, Option.toList_none, List.append_nil]
    | some number =>
      have plain := Move.isStep_of_target (Move.target_toward target number)
      rw [ledger_located (located_number target here), Ledger.move_requests, c.ledger.entered_of_work plain]

end Effects

/-- The same event, in the log under its turn and in the journal under its request. -/
def Files (c : Course) (logged entry : Nat × Event) : Prop :=
  c.number? logged.1 = some entry.1 ∧ logged.2 = entry.2

/-- What holds of a course that began with an executor, at every point. -/
structure Sound (executor : Executor) (c : Course) : Prop where
  faithful : c.journal.Faithful executor
  known : ∀ place number, c.number? place = some number → number < c.ledger.requests.length
  distinct : ∀ place other number, c.number? place = some number → c.number? other = some number → place = other
  complete : ∀ number < c.ledger.requests.length, ∃ place, c.number? place = some number
  filed : List.Forall₂ c.Files c.log c.journal.entries

theorem Sound.acc (sound : c.Sound executor) : c.ledger.Accounted executor :=
  sound.faithful.acc

theorem number_cases (here : (c.turn move).number? place = some number) :
    (place = c.tickets.length ∧ number = c.ledger.requests.length ∧
      (c.turn move).ledger.requests.length = c.ledger.requests.length + 1) ∨
    c.number? place = some number := by
  rw [number_turn] at here
  split at here
  · rename_i own
    obtain ⟨request, entered, rfl⟩ := Option.map_eq_some_iff.mp here
    exact .inl ⟨own, rfl, by rw [requests_turn, entered]; simp⟩
  · exact .inr here

theorem Sound.complete_turn (sound : c.Sound executor) (move : Move) :
    ∀ number < (c.turn move).ledger.requests.length, ∃ place, (c.turn move).number? place = some number := by
  intro number bound
  by_cases old : number < c.ledger.requests.length
  · obtain ⟨place, here⟩ := sound.complete number old
    exact ⟨place, number_kept here move⟩
  · rw [requests_turn, List.length_append] at bound
    refine ⟨c.tickets.length, ?_⟩
    rw [number_turn, if_pos rfl]
    cases entered : c.ledger.entered? move with
    | none =>
      simp only [entered, Option.toList_none, List.length_nil] at bound
      omega
    | some request =>
      simp only [entered, Option.toList_some, List.length_singleton] at bound
      rw [Option.map_some]
      congr 1
      omega

theorem number_of_entry {own : Move} (located : c.located move = [own]) {entry : Nat × Event}
    (member : entry ∈ (c.ledger.announcement? own).toList ++ c.journal.reported own) :
    (c.turn move).number? (move.target?.getD c.tickets.length) = some entry.1 := by
  cases target : move.target? with
  | none =>
    obtain rfl := List.singleton_inj.mp ((located_plain target).symm.trans located)
    have silent : c.journal.reported move = [] := by
      cases move with
      | finish number => cases target
      | _ => rfl
    rw [silent, List.append_nil, Option.mem_toList] at member
    have number := c.ledger.announced_number move
    rw [show c.ledger.announcement? move = some entry from member, Option.map_some] at number
    split at number
    · rename_i entered
      obtain ⟨request, found, -⟩ := Option.any_eq_true _ _ |>.mp entered
      rw [Option.getD_none, number_turn, if_pos rfl, found, number]
      rfl
    · cases number
  | some place =>
    cases here : c.number? place with
    | none =>
      rw [located_none target here] at located
      cases located
    | some number =>
      obtain rfl := List.singleton_inj.mp ((located_number target here).symm.trans located)
      rw [Option.getD_some, number_kept here]
      cases move with
      | finish _ =>
        have reported : entry ∈ c.journal.reported (.finish number) := member
        obtain ⟨event, -, rfl⟩ := List.mem_map.mp reported
        rfl
      | start _ => cases member
      | discard _ => cases member
      | step step prompt => cases target
      | read => cases target

theorem Sound.filed_turn (sound : c.Sound executor) (move : Move) :
    List.Forall₂ (c.turn move).Files (c.turn move).log (c.turn move).journal.entries := by
  have old : List.Forall₂ (c.turn move).Files c.log c.journal.entries :=
    sound.filed.imp fun _ _ filed => ⟨number_kept filed.1 move, filed.2⟩
  rcases c.located_cases move with located | ⟨own, located⟩
  · rw [(turn_nothing located).2, Course.turn, located]
    exact old
  · have entries : (c.turn move).journal.entries =
        c.journal.entries ++ ((c.ledger.announcement? own).toList ++ c.journal.reported own) := by
      rw [Course.turn, located, Journal.play_cons, Journal.play_nil, Journal.move_entries]
    rw [log_located located, entries]
    have new : ∀ entry ∈ (c.ledger.announcement? own).toList ++ c.journal.reported own,
        (c.turn move).Files (move.target?.getD c.tickets.length, entry.2) entry :=
      fun entry member => ⟨number_of_entry located member, rfl⟩
    exact List.rel_append old (List.forall₂_map_left_iff.mpr (List.forall₂_same.mpr new))

theorem Sound.turn (sound : c.Sound executor) (move : Move) : (c.turn move).Sound executor where
  faithful := sound.faithful.play _
  known place number here := by
    rcases number_cases here with ⟨-, rfl, grown⟩ | before
    · omega
    · exact Nat.lt_of_lt_of_le (sound.known place number before) (c.grows_turn move).requests.length_le
  distinct place other number here there := by
    rcases number_cases here with ⟨rfl, rfl, -⟩ | before <;> rcases number_cases there with ⟨rfl, same, -⟩ | earlier
    · rfl
    · exact absurd (sound.known _ _ earlier) (Nat.lt_irrefl _)
    · exact absurd (sound.known _ _ before) (same ▸ Nat.lt_irrefl _)
    · exact sound.distinct place other number before earlier
  complete := sound.complete_turn move
  filed := sound.filed_turn move

theorem sound_opening (builders : List Builder) (executor : Executor) : (opening builders executor).Sound executor where
  faithful := Journal.faithful_opening builders executor
  known _ _ here := absurd (number_place here) (Nat.not_lt_zero _)
  distinct _ _ _ here := absurd (number_place here) (Nat.not_lt_zero _)
  complete _ bound := absurd bound (Nat.not_lt_zero _)
  filed := .nil

theorem Sound.run (sound : c.Sound executor) (turns : List Move) : (c.run turns).Sound executor := by
  induction turns generalizing c with
  | nil => exact sound
  | cons move rest ih => exact ih (sound.turn move)

theorem Sound.at_turn (sound : c.Sound executor) {stage : Stage} (here : c.number? place = some number)
    (other : move.target? ≠ some place) (stands : c.ledger.At number stage) : (c.turn move).ledger.At number stage := by
  cases target : move.target? with
  | none =>
    rw [ledger_located (located_plain target)]
    exact sound.acc.at_move_of_ne (by simp [target]) stands
  | some aim =>
    cases there : c.number? aim with
    | none => rwa [(turn_nothing (located_none target there)).1]
    | some aimed =>
      rw [ledger_located (located_number target there)]
      refine sound.acc.at_move_of_ne ?_ stands
      rw [Move.target_toward target]
      rintro same
      obtain rfl := Option.some.inj same
      exact other (target.trans (congrArg some (sound.distinct _ _ _ there here)))

/-- Whatever is done in a session can be told by turns. -/
theorem exists_run (builders : List Builder) (executor : Executor) (moves : List Move) :
    ∃ turns, ((opening builders executor).run turns).journal = (Journal.opening builders executor).play moves := by
  induction moves using List.reverseRecOn with
  | nil => exact ⟨[], rfl⟩
  | append_singleton moves move ih =>
    obtain ⟨turns, same⟩ := ih
    have sound := (sound_opening builders executor).run turns
    have told {turn : Move} (located : ((opening builders executor).run turns).located turn = [move]) :
        ∃ turns, ((opening builders executor).run turns).journal =
          (Journal.opening builders executor).play (moves ++ [move]) := by
      refine ⟨turns ++ [turn], ?_⟩
      rw [run_concat, Journal.play_append, ← same, Course.turn, located]
    cases target : move.target? with
    | none => exact told (located_plain target)
    | some number =>
      by_cases known : number < ((opening builders executor).run turns).ledger.requests.length
      · obtain ⟨place, here⟩ := sound.complete number known
        exact told (by rw [located_number (Move.target_toward target place) here, Move.toward_target target])
      · refine ⟨turns, ?_⟩
        rw [Journal.play_append, ← same]
        exact (sound.faithful.move_unknown target (Nat.le_of_not_lt known)).symm

end Course

end SqlSelect
