import SqlSelect.Proofs.Session.ExactlyOnce
import SqlSelect.Proofs.Session.Reports

namespace SqlSelect

/-- A ledger with all that is reported in the session. Each event is entered under the number of the request that it is
    about. -/
structure Journal where
  ledger : Ledger
  /-- What will be reported of work that is running, once its result is there. -/
  pending : List (Nat × List Event) := []
  entries : List (Nat × Event) := []

namespace Ledger

def completion (l : Ledger) (number : Nat) (result : Result) : List Event :=
  l.requests[number]?.elim [] fun request => request.path.completion result

def completionEntries (l : Ledger) (entry : Nat × Result) : List (Nat × Event) :=
  (l.completion entry.1 entry.2).map (Prod.mk entry.1)

/-- The event of the statement that a move takes, if it takes one, under the number of its request. -/
def announcement? (l : Ledger) : Move → Option (Nat × Event)
  | .step step _ =>
    (l.session.builders[step.builder]?.bind fun b => b.announcement? step.action).map (Prod.mk l.requests.length)
  | _ => none

def announcements (l : Ledger) : List Move → List (Nat × Event)
  | [] => []
  | move :: rest => (l.announcement? move).toList ++ (l.move move).announcements rest

end Ledger

namespace Journal

def opening (builders : List Builder) (executor : Executor) : Journal :=
  { ledger := .opening builders executor }

def move (j : Journal) (move : Move) : Journal :=
  let next := { j with ledger := j.ledger.move move }
  match move with
  | .step step _ =>
    { next with
      entries := j.entries ++ (j.ledger.session.step step).2.events.map (Prod.mk j.ledger.requests.length) }
  | .start number =>
    match j.ledger.waitingWork? number with
    | some work => { next with pending := j.pending ++ [(number, (j.ledger.session.perform work).2.events)] }
    | none => next
  | .finish number =>
    { next with
      pending := j.pending.eraseP fun work => work.1 == number
      entries := j.entries ++ ((j.pending.lookup number).getD []).map (Prod.mk number) }
  | .discard _ => next
  | .read => next

def play (j : Journal) (moves : List Move) : Journal :=
  moves.foldl move j

def announced (j : Journal) : List (Nat × Event) :=
  j.entries.filter fun entry => entry.2.isDispatching

def completed (j : Journal) : List (Nat × Event) :=
  j.entries.filter fun entry => !entry.2.isDispatching

/-- What holds of a journal that began with an executor, at every point. -/
structure Faithful (executor : Executor) (j : Journal) : Prop where
  acc : j.ledger.Accounted executor
  pending : j.pending = j.ledger.running.map fun entry => (entry.1, j.ledger.completion entry.1 entry.2)
  numbered : j.announced.map Prod.fst = (List.range j.ledger.requests.length).filter j.ledger.compiles
  completed : j.completed = j.ledger.delivered.flatMap j.ledger.completionEntries
  ordered : ∀ earlier entry later, j.entries = earlier ++ entry :: later → entry.2.isDispatching = false →
    ∃ cause ∈ earlier, cause.1 = entry.1 ∧ cause.2.isDispatching = true

end Journal

namespace Ledger

variable {executor : Executor} {l later : Ledger}

theorem request_kept (grown : l.requests <+: later.requests) {number : Nat} (bound : number < l.requests.length) :
    later.requests[number]? = l.requests[number]? := by
  obtain ⟨more, same⟩ := grown
  rw [← same, List.getElem?_append_left bound]

theorem Grows.recorded {number : Nat} {request : Request} (grows : l.Grows later)
    (recorded : l.requests[number]? = some request) : later.requests[number]? = some request := by
  obtain ⟨bound, -⟩ := List.getElem?_eq_some_iff.mp recorded
  rw [request_kept grows.requests bound, recorded]

theorem completion_kept (grown : l.requests <+: later.requests) {number : Nat}
    (bound : number < l.requests.length) (result : Result) :
    later.completion number result = l.completion number result := by
  rw [completion, completion, request_kept grown bound]

theorem Accounted.bound_of_entry (acc : l.Accounted executor) {entry : Nat × Result}
    (member : entry ∈ l.running ++ l.delivered) : entry.1 < l.requests.length := by
  obtain ⟨request, recorded⟩ := acc.request_of_entry member
  exact (List.getElem?_eq_some_iff.mp recorded).1

theorem Accounted.completions_kept (acc : l.Accounted executor) (grown : l.requests <+: later.requests)
    {ended : List (Nat × Result)} (among : ended ⊆ l.running ++ l.delivered) :
    ended.flatMap later.completionEntries = ended.flatMap l.completionEntries := by
  apply List.flatMap_congr
  intro entry member
  rw [completionEntries, completionEntries, completion_kept grown (acc.bound_of_entry (among member))]

theorem Accounted.compiles_of_completion (acc : l.Accounted executor) {entry : Nat × Result}
    (member : entry ∈ l.running ++ l.delivered) (reported : l.completion entry.1 entry.2 ≠ []) :
    l.compiles entry.1 = true := by
  obtain ⟨⟨b, path⟩, recorded⟩ := acc.request_of_entry member
  cases compiled : b.compile with
  | ok q => simp [compiles, recorded, compiled, Except.isOk, Except.toBool]
  | error error =>
    have result := acc.refused entry member _ recorded error compiled
    have future : path = .future := by
      cases path with
      | future => rfl
      | callback =>
        obtain ⟨q, impossible⟩ := acc.compiled _ (List.mem_of_getElem? recorded) rfl
        rw [compiled] at impossible
        cases impossible
    rw [completion, recorded, result, future] at reported
    exact absurd rfl reported

theorem move_announces {step : Step} (prompt : step.action.awaits = false) :
    (l.session.step step).2.events.map (Prod.mk l.requests.length) = (l.announcement? (.step step prompt)).toList := by
  rw [announcement?]
  cases there : l.session.builders[step.builder]? with
  | none => simp [Session.step, there]
  | some b =>
    have reported := l.session.act_prompt_events step.builder b step.action prompt
    rw [(Session.step_eq there step.action).2.2, reported]
    simp [Option.toList_map]

theorem isDispatching_of_announcement {move : Move} {entry : Nat × Event}
    (announced : l.announcement? move = some entry) :
    entry.2.isDispatching = true := by
  cases move with
  | step step prompt =>
    obtain ⟨event, found, rfl⟩ := Option.map_eq_some_iff.mp announced
    obtain ⟨b, -, reported⟩ := Option.bind_eq_some_iff.mp found
    rw [Builder.announcement?] at reported
    split at reported
    · obtain ⟨q, -, rfl⟩ := Option.map_eq_some_iff.mp reported
      rfl
    · cases reported
  | _ => cases announced

def entered? (l : Ledger) : Move → Option Request
  | .step step _ =>
    l.session.builders[step.builder]?.bind fun b => (l.session.step step).2.outcome.path?.map (Request.mk b)
  | _ => none

theorem move_requests (l : Ledger) (move : Move) :
    (l.move move).requests = l.requests ++ (l.entered? move).toList := by
  have same : l.requests = l.requests ++ [] := (List.append_nil _).symm
  cases move with
  | step step prompt =>
    cases there : l.session.builders[step.builder]? with
    | none => simp [Ledger.move, entered?, there]
    | some b => simp [Ledger.move, entered?, there, record_requests]
  | start number =>
    simp only [Ledger.move]
    cases l.waitingWork? number <;> exact same
  | finish number =>
    simp only [Ledger.move]
    cases l.running.find? fun entry => entry.1 == number <;> exact same
  | discard number =>
    simp only [Ledger.move]
    cases l.waitingWork? number with
    | none => exact same
    | some work =>
      simp only
      split <;> exact same
  | read => exact same

theorem announced_number (l : Ledger) (move : Move) :
    (l.announcement? move).map Prod.fst =
      if (l.entered? move).any fun request => request.builder.compile.isOk then some l.requests.length else none := by
  cases move with
  | step step prompt =>
    cases there : l.session.builders[step.builder]? with
    | none => simp [announcement?, entered?, there]
    | some b =>
      have paths := l.session.act_prompt_path step.builder b step.action prompt
      rw [← (Session.step_eq there step.action).2.1, ← b.isSome_taken?, ← Option.isSome_map (f := Builder.Taken.event),
        b.taken_event] at paths
      simp only [announcement?, entered?, there, Option.bind_some]
      cases path : (l.session.step step).2.outcome.path? <;> cases event : b.announcement? step.action <;>
        simp_all
  | _ => rfl

theorem compiles_move (l : Ledger) (move : Move) :
    (List.range (l.move move).requests.length).filter (l.move move).compiles =
      (List.range l.requests.length).filter l.compiles ++ (l.announcement? move).toList.map Prod.fst := by
  have requests := l.move_requests move
  have earlier : (List.range l.requests.length).filter (l.move move).compiles =
      (List.range l.requests.length).filter l.compiles := by
    apply List.filter_congr
    intro number member
    rw [Ledger.compiles, request_kept ⟨_, requests.symm⟩ (List.mem_range.mp member), Ledger.compiles]
  rw [← Option.toList_map, l.announced_number move, ← earlier]
  cases entered : l.entered? move with
  | none => simp [requests, entered]
  | some request =>
    have own : (l.move move).compiles l.requests.length = request.builder.compile.isOk := by
      simp [Ledger.compiles, requests, entered]
    rw [requests, entered, Option.toList_some, List.length_append, List.length_singleton, List.range_succ,
      List.filter_append, List.filter_singleton, own, Option.any_some]
    cases request.builder.compile.isOk <;> rfl

def ended? (l : Ledger) : Move → Option (Nat × Result)
  | .finish number => l.running.find? fun entry => entry.1 == number
  | _ => none

theorem move_delivered (l : Ledger) (move : Move) :
    (l.move move).delivered = l.delivered ++ (l.ended? move).toList := by
  have same : l.delivered = l.delivered ++ [] := (List.append_nil _).symm
  cases move with
  | step step prompt => exact (l.step_of_prompt step prompt).2.2.trans same
  | start number =>
    simp only [Ledger.move]
    cases l.waitingWork? number <;> exact same
  | finish number =>
    simp only [Ledger.move, ended?]
    cases l.running.find? fun entry => entry.1 == number with
    | none => exact same
    | some entry => rfl
  | discard number =>
    simp only [Ledger.move]
    cases l.waitingWork? number with
    | none => exact same
    | some work =>
      simp only
      split <;> exact same
  | read => exact same

theorem running_finish (l : Ledger) (number : Nat) :
    (l.move (.finish number)).running = l.running.eraseP fun entry => entry.1 == number := by
  simp only [Ledger.move]
  cases found : l.running.find? fun entry => entry.1 == number with
  | some entry => rfl
  | none => exact (List.eraseP_of_forall_not (List.find?_eq_none.mp found)).symm

theorem running_discard (l : Ledger) (number : Nat) : (l.move (.discard number)).running = l.running := by
  simp only [Ledger.move]
  cases l.waitingWork? number with
  | none => rfl
  | some work =>
    simp only
    split <;> rfl

theorem mem_of_ended {move : Move} {entry : Nat × Result} (ended : l.ended? move = some entry) :
    entry ∈ l.running := by
  cases move with
  | finish number => exact List.mem_of_find?_eq_some ended
  | _ => cases ended

theorem isDispatching_of_completion {ended : List (Nat × Result)} :
    ∀ entry ∈ ended.flatMap l.completionEntries, entry.2.isDispatching = false := by
  intro entry member
  obtain ⟨⟨number, result⟩, -, among⟩ := List.mem_flatMap.mp member
  obtain ⟨event, reported, rfl⟩ := List.mem_map.mp among
  rw [completion] at reported
  cases recorded : l.requests[number]? with
  | none =>
    rw [recorded] at reported
    cases reported
  | some request =>
    rw [recorded, Option.elim_some, Path.completion.eq_def] at reported
    split at reported
    · rw [List.mem_singleton.mp reported]
      rfl
    · cases reported
    · rw [List.mem_singleton.mp reported]
      rfl
    · cases reported

end Ledger

namespace Journal

variable {executor : Executor} {j : Journal}

@[simp] theorem move_ledger (j : Journal) (move : Move) : (j.move move).ledger = j.ledger.move move := by
  cases move with
  | start number =>
    simp only [Journal.move]
    cases j.ledger.waitingWork? number <;> rfl
  | _ => rfl

@[simp] theorem play_nil (j : Journal) : j.play [] = j := rfl

theorem play_cons (j : Journal) (move : Move) (rest : List Move) :
    j.play (move :: rest) = (j.move move).play rest := rfl

theorem play_append (j : Journal) (first second : List Move) : j.play (first ++ second) = (j.play first).play second :=
  List.foldl_append

@[simp] theorem play_ledger (j : Journal) (moves : List Move) : (j.play moves).ledger = j.ledger.play moves := by
  induction moves generalizing j with
  | nil => rfl
  | cons move rest ih => rw [play_cons, ih, move_ledger, Ledger.play_cons]

/-- What is reported when the work that a move brings to its end is over. -/
def reported (j : Journal) : Move → List (Nat × Event)
  | .finish number => ((j.pending.lookup number).getD []).map (Prod.mk number)
  | _ => []

theorem move_entries (j : Journal) (move : Move) :
    (j.move move).entries = j.entries ++ ((j.ledger.announcement? move).toList ++ j.reported move) := by
  have none : j.entries = j.entries ++ ([] ++ []) := by simp
  cases move with
  | step step prompt =>
    simp only [Journal.move, reported, List.append_nil, ← Ledger.move_announces prompt]
  | start number =>
    simp only [Journal.move]
    cases j.ledger.waitingWork? number <;> exact none
  | finish number => rfl
  | discard number => exact none
  | read => exact none

theorem lookup_pending (l : Ledger) (running : List (Nat × Result)) (number : Nat) :
    (running.map fun entry => (entry.1, l.completion entry.1 entry.2)).lookup number =
      (running.find? fun entry => entry.1 == number).map fun entry => l.completion entry.1 entry.2 := by
  induction running with
  | nil => rfl
  | cons entry rest ih =>
    by_cases same : entry.1 = number
    · subst same
      simp
    · have other : (number == entry.1) = false := beq_eq_false_iff_ne.mpr (Ne.symm same)
      simp [List.lookup_cons, same, other, ih]

theorem Faithful.reported_eq (faithful : j.Faithful executor) (move : Move) :
    j.reported move = (j.ledger.ended? move).toList.flatMap j.ledger.completionEntries := by
  cases move with
  | finish number =>
    rw [reported, faithful.pending, lookup_pending, Ledger.ended?]
    cases found : j.ledger.running.find? fun entry => entry.1 == number with
    | none => rfl
    | some entry =>
      have same : (entry.1 == number) = true := by simpa using List.find?_some found
      obtain rfl := beq_iff_eq.mp same
      simp [Ledger.completionEntries]
  | _ => rfl

theorem Faithful.pending_move (faithful : j.Faithful executor) (move : Move) :
    (j.move move).pending =
      (j.move move).ledger.running.map fun entry => (entry.1, (j.move move).ledger.completion entry.1 entry.2) := by
  have grown := (j.ledger.grows_move move).requests
  -- What running work calls for was fixed when its request was entered, so the old notes are good for the new ledger.
  have same : j.pending =
      j.ledger.running.map fun entry => (entry.1, (j.ledger.move move).completion entry.1 entry.2) := by
    rw [faithful.pending]
    apply List.map_congr_left
    intro entry member
    rw [Ledger.completion_kept grown (faithful.acc.bound_of_entry (List.mem_append_left _ member))]
  rw [move_ledger]
  cases move with
  | step step prompt => rwa [(j.ledger.step_of_prompt step prompt).2.1]
  | start number =>
    by_cases member : number ∈ j.ledger.waiting
    · obtain ⟨request, recorded, work⟩ := faithful.acc.waitingWork? member
      have events : (j.ledger.session.perform request.work).2.events = (j.ledger.move (.start number)).completion number
          (j.ledger.session.perform request.work).2.result := by
        rw [Ledger.completion, Ledger.move_start faithful.acc member recorded,
          show (j.ledger.without number).requests = j.ledger.requests from rfl, recorded]
        exact j.ledger.session.perform_completion (faithful.acc.compiled request (List.mem_of_getElem? recorded))
      have running : (j.ledger.move (.start number)).running =
          j.ledger.running ++ [(number, (j.ledger.session.perform request.work).2.result)] := by
        rw [Ledger.move_start faithful.acc member recorded]
      simp only [Journal.move, work]
      rw [running, List.map_append, ← same, events]
      rfl
    · have none := faithful.acc.waitingWork?_eq_none member
      have still : j.ledger.move (.start number) = j.ledger := by simp only [Ledger.move, none]
      simp only [Journal.move, none]
      rw [same, still]
  | finish number =>
    have pending : (j.move (.finish number)).pending = j.pending.eraseP fun work => work.1 == number := rfl
    rw [Ledger.running_finish, pending, same, List.eraseP_map]
    rfl
  | discard number => rwa [Ledger.running_discard]
  | read => exact same

theorem Faithful.announced_move (faithful : j.Faithful executor) (move : Move) :
    (j.move move).announced = j.announced ++ (j.ledger.announcement? move).toList := by
  have announcing : (j.ledger.announcement? move).toList.filter (fun entry => entry.2.isDispatching) =
      (j.ledger.announcement? move).toList :=
    List.filter_eq_self.mpr fun entry member => Ledger.isDispatching_of_announcement (Option.mem_toList.mp member)
  have completing : (j.reported move).filter (fun entry => entry.2.isDispatching) = [] := by
    rw [faithful.reported_eq]
    exact List.filter_eq_nil_iff.mpr fun entry member => by simp [Ledger.isDispatching_of_completion entry member]
  rw [announced, move_entries, List.filter_append, List.filter_append, announcing, completing, List.append_nil]
  rfl

theorem Faithful.completed_move (faithful : j.Faithful executor) (move : Move) :
    (j.move move).completed = j.completed ++ (j.ledger.ended? move).toList.flatMap j.ledger.completionEntries := by
  have announcing : (j.ledger.announcement? move).toList.filter (fun entry => !entry.2.isDispatching) = [] := by
    apply List.filter_eq_nil_iff.mpr
    intro entry member
    simp [Ledger.isDispatching_of_announcement (Option.mem_toList.mp member)]
  have completing : (j.reported move).filter (fun entry => !entry.2.isDispatching) = j.reported move := by
    rw [faithful.reported_eq]
    exact List.filter_eq_self.mpr fun entry member => by simp [Ledger.isDispatching_of_completion entry member]
  rw [Journal.completed, move_entries, List.filter_append, List.filter_append, announcing, completing, List.nil_append,
    faithful.reported_eq]
  rfl

/-- Whatever is reported at the end of work comes after the announcement of its statement. -/
theorem Faithful.caused (faithful : j.Faithful executor) {result : Nat × Result} (member : result ∈ j.ledger.running)
    {entry : Nat × Event} (reported : entry ∈ j.ledger.completionEntries result) :
    ∃ cause ∈ j.entries, cause.1 = entry.1 ∧ cause.2.isDispatching = true := by
  obtain ⟨event, among, rfl⟩ := List.mem_map.mp reported
  have begun := List.mem_append_left j.ledger.delivered member
  have compiles := faithful.acc.compiles_of_completion begun (List.ne_nil_of_mem among)
  have numbered : result.1 ∈ j.announced.map Prod.fst := by
    rw [faithful.numbered]
    exact List.mem_filter.mpr ⟨List.mem_range.mpr (faithful.acc.bound_of_entry begun), compiles⟩
  obtain ⟨cause, announced, same⟩ := List.mem_map.mp numbered
  obtain ⟨entered, dispatching⟩ := List.mem_filter.mp announced
  exact ⟨cause, entered, same, dispatching⟩

theorem Faithful.ordered_move (faithful : j.Faithful executor) (move : Move) :
    ∀ earlier entry later, (j.move move).entries = earlier ++ entry :: later → entry.2.isDispatching = false →
      ∃ cause ∈ earlier, cause.1 = entry.1 ∧ cause.2.isDispatching = true := by
  intro earlier entry later split silent
  have fresh : entry ∈ (j.ledger.announcement? move).toList ++ j.reported move →
      ∃ cause ∈ j.entries, cause.1 = entry.1 ∧ cause.2.isDispatching = true := by
    intro member
    rcases List.mem_append.mp member with announced | reported
    · rw [Ledger.isDispatching_of_announcement (Option.mem_toList.mp announced)] at silent
      cases silent
    · rw [faithful.reported_eq] at reported
      obtain ⟨result, ended, among⟩ := List.mem_flatMap.mp reported
      exact faithful.caused (Ledger.mem_of_ended (Option.mem_toList.mp ended)) among
  rw [move_entries] at split
  -- The entry is a new one, or the first of the new ones, or it was there before.
  rcases List.append_eq_append_iff.mp split with ⟨between, rfl, new⟩ | ⟨between, old, new⟩
  · obtain ⟨cause, member, about⟩ := fresh (by rw [new]; simp)
    exact ⟨cause, List.mem_append_left _ member, about⟩
  · cases between with
    | nil =>
      obtain ⟨cause, member, about⟩ := fresh (by rw [← List.nil_append (_ ++ _), ← new]; simp)
      exact ⟨cause, by simpa [old] using member, about⟩
    | cons first rest =>
      obtain ⟨rfl, -⟩ := List.cons.inj new
      exact faithful.ordered earlier entry rest old silent

theorem Faithful.move (faithful : j.Faithful executor) (move : Move) : (j.move move).Faithful executor := by
  have acc := Ledger.accounted_move faithful.acc move
  have grown := (j.ledger.grows_move move).requests
  refine ⟨by rwa [move_ledger], faithful.pending_move move, ?_, ?_, faithful.ordered_move move⟩
  · rw [faithful.announced_move, List.map_append, faithful.numbered, move_ledger, Ledger.compiles_move]
  · rw [faithful.completed_move, faithful.completed, move_ledger, Ledger.move_delivered, List.flatMap_append,
      faithful.acc.completions_kept grown (List.subset_append_right _ _),
      faithful.acc.completions_kept grown]
    intro entry member
    exact List.mem_append_left _ (Ledger.mem_of_ended (Option.mem_toList.mp member))

theorem Faithful.play (faithful : j.Faithful executor) (moves : List Move) : (j.play moves).Faithful executor := by
  induction moves generalizing j with
  | nil => exact faithful
  | cons move rest ih => exact ih (faithful.move move)

theorem faithful_opening (builders : List Builder) (executor : Executor) :
    (opening builders executor).Faithful executor where
  acc := Ledger.accounted_open builders executor
  pending := rfl
  numbered := rfl
  completed := rfl
  ordered earlier entry later split := by
    cases earlier <;> cases split

theorem Faithful.announced_play (faithful : j.Faithful executor) (moves : List Move) :
    (j.play moves).announced = j.announced ++ j.ledger.announcements moves := by
  induction moves generalizing j with
  | nil => exact (List.append_nil _).symm
  | cons move rest ih =>
    rw [play_cons, ih (faithful.move move), faithful.announced_move, move_ledger, Ledger.announcements,
      List.append_assoc]

theorem entries_grow (j : Journal) (moves : List Move) : j.entries <+: (j.play moves).entries := by
  induction moves generalizing j with
  | nil => exact List.prefix_rfl
  | cons move rest ih =>
    rw [play_cons]
    exact List.IsPrefix.trans ⟨_, (j.move_entries move).symm⟩ (ih (j.move move))

/-- Where nothing is dispatched, what is entered is what the results call for that are delivered meanwhile. -/
theorem Faithful.entries_of_silent (faithful : j.Faithful executor) {moves : List Move} {ended : List (Nat × Result)}
    (silent : j.ledger.announcements moves = [])
    (delivered : (j.ledger.play moves).delivered = j.ledger.delivered ++ ended) :
    (j.play moves).entries = j.entries ++ ended.flatMap (j.ledger.play moves).completionEntries := by
  obtain ⟨more, grown⟩ := j.entries_grow moves
  have announced := faithful.announced_play moves
  have completed := (faithful.play moves).completed
  have earlier : j.ledger.delivered.flatMap (j.ledger.play moves).completionEntries = j.completed := by
    rw [faithful.completed, faithful.acc.completions_kept (j.ledger.grows_play moves).requests
      (List.subset_append_right _ _)]
  rw [silent, List.append_nil, Journal.announced, Journal.announced, ← grown, List.filter_append] at announced
  have plain := List.filter_eq_nil_iff.mp (List.append_cancel_left (announced.trans (List.append_nil _).symm))
  have kept : more.filter (fun entry => !entry.2.isDispatching) = more :=
    List.filter_eq_self.mpr fun entry member => by simpa using plain entry member
  rw [play_ledger, delivered, List.flatMap_append, earlier, Journal.completed, Journal.completed, ← grown,
    List.filter_append, kept] at completed
  rw [← grown, List.append_cancel_left completed]

end Journal

end SqlSelect
