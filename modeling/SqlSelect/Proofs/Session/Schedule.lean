import SqlSelect.Proofs.Session.Accounting
import Mathlib.Data.List.Basic

namespace SqlSelect

theorem lookup_of_mem {β : Type} {done : List (Nat × β)} (once : (done.map Prod.fst).Nodup) {entry : Nat × β}
    (member : entry ∈ done) : done.lookup entry.1 = some entry.2 := by
  obtain ⟨earlier, later, rfl⟩ := List.append_of_mem member
  refine List.lookup_eq_some_iff.mpr ⟨earlier, later, rfl, ?_⟩
  intro other among
  exact bne_iff_ne.mpr (fst_ne_of_nodup once other among).symm

theorem zip_lookup_perm {β : Type} {done : List (Nat × β)} {keys : List Nat} (perm : (done.map Prod.fst).Perm keys)
    (once : keys.Nodup) : (keys.zip (keys.filterMap fun key => done.lookup key)).Perm done := by
  have distinct := perm.nodup_iff.mpr once
  have paired : ∀ keys : List Nat, (∀ key ∈ keys, ∃ value, done.lookup key = some value) →
      keys.zip (keys.filterMap fun key => done.lookup key) =
        keys.filterMap fun key => (done.lookup key).map fun value => (key, value) := by
    intro keys found
    induction keys with
    | nil => rfl
    | cons key rest ih =>
      obtain ⟨value, there⟩ := found key (List.mem_cons_self ..)
      have others := ih fun other member => found other (List.mem_cons_of_mem _ member)
      simp [there, others]
  have found : ∀ key ∈ keys, ∃ value, done.lookup key = some value := by
    intro key member
    obtain ⟨entry, among, rfl⟩ := List.mem_map.mp (perm.mem_iff.mpr member)
    exact ⟨entry.2, lookup_of_mem distinct among⟩
  have own : (done.map Prod.fst).filterMap (fun key => (done.lookup key).map fun value => (key, value)) = done := by
    rw [List.filterMap_map, List.filterMap_congr (g := some), List.filterMap_some]
    intro entry member
    simp [lookup_of_mem distinct member]
  rw [paired keys found]
  exact (perm.symm.filterMap _).trans (.of_eq own)

theorem Session.settle_perm (s : Session) :
    ((List.range s.outstanding.length).zip s.settle.2).Perm
      ((s.startList.map Prod.snd).zip (s.performAll (s.startList.map Prod.fst)).2) := by
  have indices := s.startList_perm.map Prod.snd
  rw [List.zipIdx_map_snd, ← List.range_eq_range'] at indices
  have lengths : (s.performAll (s.startList.map Prod.fst)).2.length = s.startList.length := by
    rw [length_performAll, List.length_map]
  rw [settle_finished]
  refine zip_lookup_perm ?_ List.nodup_range
  rw [List.map_fst_zip (by simp [lengths])]
  exact indices

theorem Session.length_settle (s : Session) : s.settle.2.length = s.outstanding.length := by
  have whole := s.settle_perm.length_eq
  have listed : s.settle.2.length ≤ s.outstanding.length := by
    rw [settle_finished]
    exact Nat.le_trans (List.length_filterMap_le ..) (by simp)
  have started := s.startList_perm.length_eq
  simp only [List.length_zip, List.length_range, List.length_map, length_performAll, List.length_zipIdx]
    at whole started
  omega

namespace Ledger

variable {executor : Executor} {l : Ledger}

theorem play_append (l : Ledger) (first second : List Move) : l.play (first ++ second) = (l.play first).play second :=
  List.foldl_append

@[simp] theorem play_nil (l : Ledger) : l.play [] = l := rfl

theorem play_cons (l : Ledger) (move : Move) (rest : List Move) : l.play (move :: rest) = (l.move move).play rest := rfl

def worksOf (l : Ledger) (numbers : List Nat) : List Dispatch :=
  numbers.filterMap fun number => l.requests[number]?.map Request.work

/-- Requests that come first among those that wait may be started in any order. -/
theorem play_starts (acc : l.Accounted executor) {numbers first rest : List Nat} (split : l.waiting = first ++ rest)
    (all : numbers.Perm first) :
    let played := l.play (numbers.map .start)
    let done := l.session.performAll (l.worksOf numbers)
    { played.session with outstanding := [] } = { done.1 with outstanding := [] } ∧ played.requests = l.requests ∧
      played.waiting = rest ∧ played.delivered = l.delivered ∧
      played.running = l.running ++ numbers.zip (done.2.map Finished.result) := by
  induction numbers generalizing l first with
  | nil =>
    obtain rfl : first = [] := all.nil_eq.symm
    exact ⟨rfl, rfl, split, rfl, by simp [worksOf, Session.performAll, play]⟩
  | cons number later ih =>
    have among : number ∈ first := all.mem_iff.mp (List.mem_cons_self ..)
    have member : number ∈ l.waiting := by
      rw [split]
      exact List.mem_append_left _ among
    obtain ⟨request, recorded, -⟩ := acc.waitingWork? member
    have moved := move_start acc member recorded
    have next := accounted_start acc number
    have remaining : (l.move (.start number)).waiting = first.erase number ++ rest := by
      rw [moved, show (l.without number).waiting = l.waiting.erase number from
        (List.erase_eq_eraseIdx_of_idxOf rfl).symm, split, List.erase_append_left _ among]
    obtain ⟨session, requests, waiting, delivered, running⟩ :=
      ih next remaining (List.cons_perm_iff_perm_erase.mp all).2
    have works : l.worksOf (number :: later) = request.work :: l.worksOf later := by
      simp [worksOf, recorded]
    have others : (l.move (.start number)).session.performAll ((l.move (.start number)).worksOf later) =
        ({ ((l.session.perform request.work).1.performAll (l.worksOf later)).1 with
          outstanding := (l.without number).session.outstanding },
          ((l.session.perform request.work).1.performAll (l.worksOf later)).2) := by
      rw [moved]
      exact Session.performAll_deferred _ _ _
    rw [others] at session running
    rw [List.map_cons, play_cons, works, Session.performAll_cons]
    refine ⟨session, requests.trans (by rw [moved]; rfl), waiting, delivered.trans (by rw [moved]; rfl),
      running.trans ?_⟩
    rw [moved, List.map_cons, List.zip_cons_cons, List.append_assoc, List.singleton_append]

/-- Work that began last may be brought to its end in any order. What began before goes on running. -/
theorem play_finishes {kept started entries : List (Nat × Result)} (split : l.running = kept ++ started)
    (once : (l.running.map Prod.fst).Nodup) (all : entries.Perm started) :
    l.play (entries.map fun entry => .finish entry.1) =
      { l with running := kept, delivered := l.delivered ++ entries } := by
  induction entries generalizing l started with
  | nil =>
    obtain rfl : started = [] := all.nil_eq.symm
    rw [List.append_nil] at split
    change l = { l with running := kept, delivered := l.delivered ++ [] }
    rw [List.append_nil, ← split]
  | cons entry rest ih =>
    obtain ⟨earlier, later, rfl⟩ := List.append_of_mem (all.mem_iff.mp (List.mem_cons_self ..))
    rw [← List.append_assoc] at split
    have finished : l.move (.finish entry.1) = _ := move_finish split (fst_ne_of_nodup (split ▸ once))
    have remaining : (l.move (.finish entry.1)).running = kept ++ (earlier ++ later) := by
      rw [finished, List.append_assoc]
    have fewer : ((l.move (.finish entry.1)).running.map Prod.fst).Nodup := by
      rw [finished]
      rw [split, (List.perm_middle.map Prod.fst).nodup_iff, List.map_cons] at once
      exact (List.nodup_cons.mp once).2
    rw [List.map_cons, play_cons, ih remaining fewer (List.Perm.cons_inv (all.trans List.perm_middle)), finished]
    simp

/-- The requests behind the outstanding work of a session, in the order in which settling it starts them. -/
def startNumbers (s : Session) (waiting : List Nat) : List Nat :=
  s.startList.map fun work => waiting.getD work.2 0

/-- Settling starts everything first and then hands the results over in the order of the requests. -/
def settleMoves (s : Session) (waiting : List Nat) : List Move :=
  (startNumbers s waiting).map .start ++ waiting.map .finish

section Settling

variable {s : Session} {waiting : List Nat}

theorem waiting_eq_map (count : waiting.length = s.outstanding.length) :
    (List.range s.outstanding.length).map (fun index => waiting.getD index 0) = waiting := by
  rw [← count]
  apply List.ext_getElem
  · simp
  · intro index first second
    simp [List.getD, List.getElem?_eq_getElem second]

theorem startNumbers_perm (count : waiting.length = s.outstanding.length) : (startNumbers s waiting).Perm waiting := by
  have perm := (s.startList_perm.map Prod.snd).map fun index => waiting.getD index 0
  rw [List.zipIdx_map_snd, ← List.range_eq_range', waiting_eq_map count, List.map_map] at perm
  exact perm

theorem worksOf_startNumbers
    (works : s.outstanding.map some = waiting.map fun number => l.requests[number]?.map Request.work) :
    l.worksOf (startNumbers s waiting) = s.startList.map Prod.fst := by
  have recorded : ∀ work ∈ s.startList, l.requests[waiting.getD work.2 0]?.map Request.work = some work.1 := by
    intro work member
    have there := List.mem_zipIdx_iff_getElem?.mp (s.startList_perm.mem_iff.mp member)
    have same := congrArg (·[work.2]?) works
    simp only [List.getElem?_map, there, Option.map_some] at same
    obtain ⟨number, waits, recorded⟩ := Option.map_eq_some_iff.mp same.symm
    rw [List.getD, waits, Option.getD_some, recorded]
  rw [worksOf, startNumbers, List.filterMap_map]
  exact (List.filterMap_congr recorded).trans (congrFun List.filterMap_eq_map' _)

theorem settled_perm (count : waiting.length = s.outstanding.length) :
    (waiting.zip (s.settle.2.map Finished.result)).Perm
      ((startNumbers s waiting).zip ((s.performAll (s.startList.map Prod.fst)).2.map Finished.result)) := by
  have renamed := s.settle_perm.map (Prod.map (fun index => waiting.getD index 0) Finished.result)
  rw [← List.zip_map, ← List.zip_map, waiting_eq_map count, List.map_map] at renamed
  exact renamed

/-- Settling does the work that came first, whatever waits behind it. -/
theorem play_settleMoves (acc : l.Accounted executor) {more : List Dispatch} {rest : List Nat}
    (session : l.session = { s with outstanding := s.outstanding ++ more }) (split : l.waiting = waiting ++ rest)
    (count : waiting.length = s.outstanding.length) :
    let played := l.play (settleMoves s waiting)
    { played.session with outstanding := [] } = s.settle.1 ∧ played.requests = l.requests ∧ played.waiting = rest ∧
      played.running = l.running ∧ played.delivered = l.delivered ++ waiting.zip (s.settle.2.map Finished.result) := by
  have works : s.outstanding.map some = waiting.map fun number => l.requests[number]?.map Request.work := by
    have snapshot := acc.snapshot
    rw [session, split, List.map_append, List.map_append] at snapshot
    exact (List.append_inj snapshot (by simp [count])).1
  have starts := play_starts acc split (startNumbers_perm count)
  have framed : l.session.performAll (s.startList.map Prod.fst) = _ :=
    session ▸ s.performAll_deferred (s.startList.map Prod.fst) (s.outstanding ++ more)
  rw [worksOf_startNumbers works, framed] at starts
  obtain ⟨started, requests, left, delivered, running⟩ := starts
  have distinct := (accounted_play acc ((startNumbers s waiting).map .start)).running_nodup
  have finishes := play_finishes running distinct (settled_perm count)
  have firsts : (waiting.zip (s.settle.2.map Finished.result)).map Prod.fst = waiting :=
    List.map_fst_zip (Nat.le_of_eq (by rw [List.length_map, Session.length_settle, count]))
  have numbers : (waiting.zip (s.settle.2.map Finished.result)).map (fun entry => Move.finish entry.1) =
      waiting.map .finish :=
    List.map_map.symm.trans (congrArg (List.map Move.finish) firsts)
  rw [numbers] at finishes
  intro played
  have all : played = _ := (play_append l _ _).trans finishes
  rw [all, s.settle_session]
  exact ⟨started, requests, left, rfl, by rw [delivered]⟩

end Settling

theorem drive (acc : l.Accounted executor) {number : Nat} {request : Request} (member : number ∈ l.waiting)
    (recorded : l.requests[number]? = some request) :
    let done := l.session.perform request.work
    l.play [.start number, .finish number] =
      { l.without number with
        session := { done.1 with outstanding := (l.without number).session.outstanding }
        runs := l.runs ++ RunRecord.of number done.2.result request.builder.compile
        delivered := l.delivered ++ [(number, done.2.result)] } := by
  intro done
  have absent := acc.not_begun (List.mem_append_left _ member)
  have first : ∀ other ∈ l.running, other.1 ≠ number := by
    intro other among same
    exact absent (same ▸ List.mem_map_of_mem (List.mem_append_left _ among))
  have split : (l.move (.start number)).running = l.running ++ (number, done.2.result) :: [] := by
    rw [move_start acc member recorded]
  have last : (l.move (.start number)).move (.finish number) = _ := move_finish split first
  rw [play_cons, play_cons, last, move_start acc member recorded, List.append_nil]
  rfl

/-- After a future has been asked for and put aside. -/
def held (l : Ledger) (index : Nat) (b : Builder) : Ledger :=
  ({ l with session := (l.session.prepare index b).1.defer ⟨.future, b.compile⟩ } : Ledger).wait ⟨b, .future⟩

theorem move_hold {index : Nat} {b : Builder} (there : l.session.builders[index]? = some b)
    (prompt : (⟨index, .fetch .hold⟩ : Step).action.awaits = false) :
    l.move (.step ⟨index, .fetch .hold⟩ prompt) = l.held index b := by
  rw [held, ← l.session.prepare_work index b]
  simp only [move, Session.step, there]
  rfl

theorem step_of_prompt (l : Ledger) (step : Step) (prompt : step.action.awaits = false) :
    (l.move (.step step prompt)).session = (l.session.step step).1 ∧
      (l.move (.step step prompt)).running = l.running ∧ (l.move (.step step prompt)).delivered = l.delivered := by
  simp only [move]
  cases l.session.builders[step.builder]? <;> simp

/-- The moves by which everything that waits is awaited. -/
def awaitMoves (l : Ledger) : List Move :=
  settleMoves l.session l.waiting ++ [.read]

/-- The moves that make up a step. A future that is awaited at once takes its statement first and is driven last. -/
def stepMoves (l : Ledger) (step : Step) : List Move :=
  if l.session.builders[step.builder]?.isNone then []
  else if prompt : step.action.awaits = false then [.step step prompt]
  else match step.action with
    | .fetch _ => .step ⟨step.builder, .fetch .hold⟩ rfl :: (settleMoves l.session l.waiting ++
        [.start l.requests.length, .finish l.requests.length, .read])
    | _ => l.awaitMoves

def runMoves (l : Ledger) : List Step → List Move
  | [] => []
  | step :: rest => l.stepMoves step ++ (l.play (l.stepMoves step)).runMoves rest

theorem stepMoves_prompt {step : Step} {b : Builder} (there : l.session.builders[step.builder]? = some b)
    (prompt : step.action.awaits = false) : l.stepMoves step = [.step step prompt] := by
  simp [stepMoves, there, prompt]

theorem stepMoves_settle {index : Nat} {b : Builder} (there : l.session.builders[index]? = some b) :
    l.stepMoves ⟨index, .settle⟩ = l.awaitMoves := by
  simp [stepMoves, there, Action.awaits]

theorem stepMoves_fetch {index : Nat} {b : Builder} (there : l.session.builders[index]? = some b) :
    l.stepMoves ⟨index, .fetch .await⟩ = .step ⟨index, .fetch .hold⟩ rfl :: (settleMoves l.session l.waiting ++
      [.start l.requests.length, .finish l.requests.length, .read]) := by
  simp [stepMoves, there, Action.awaits]

theorem session_of_quiet (acc : l.Accounted executor) (quiet : l.waiting = []) :
    { l.session with outstanding := [] } = l.session := by
  have nothing : l.session.outstanding = [] := by simpa [quiet] using acc.snapshot
  rw [← nothing]

theorem count_waiting (acc : l.Accounted executor) : l.waiting.length = l.session.outstanding.length := by
  have lengths := congrArg List.length acc.snapshot
  simpa only [List.length_map] using lengths.symm

theorem play_settle (acc : l.Accounted executor) :
    let played := l.play (settleMoves l.session l.waiting)
    played.session = l.session.settle.1 ∧ played.waiting = [] ∧ played.running = l.running ∧
      played.delivered = l.delivered ++ l.waiting.zip (l.session.settle.2.map Finished.result) := by
  obtain ⟨session, -, quiet, rests, delivered⟩ := play_settleMoves acc
    (show l.session = { l.session with outstanding := l.session.outstanding ++ [] } by rw [List.append_nil])
    (List.append_nil _).symm (count_waiting acc)
  rw [session_of_quiet (accounted_play acc _) quiet] at session
  exact ⟨session, quiet, rests, delivered⟩

theorem drive_last (acc : l.Accounted executor) {number : Nat} {request : Request} (only : l.waiting = [number])
    (recorded : l.requests[number]? = some request) :
    let own := { l.session with outstanding := [] }.perform request.work
    let played := l.play [.start number, .finish number]
    played.session = own.1 ∧ played.requests = l.requests ∧ played.waiting = [] ∧ played.running = l.running ∧
      played.delivered = l.delivered ++ [(number, own.2.result)] := by
  intro own played
  have driven := drive acc (by rw [only]; exact List.mem_singleton_self _) recorded
  have quiet : played.waiting = [] := by
    rw [show played = _ from driven]
    simp [without, only]
  have session := session_of_quiet (accounted_play acc _) quiet
  have alone : own = _ := l.session.perform_deferred request.work []
  rw [alone, show played = _ from driven]
  rw [driven] at session
  refine ⟨session.symm, rfl, ?_, rfl, rfl⟩
  rwa [show played = _ from driven] at quiet

theorem play_drive_read (l : Ledger) (number : Nat) :
    let driven := l.play [.start number, .finish number]
    l.play [.start number, .finish number, .read] = { driven with session := driven.session.readSent.1 } := rfl

/-- Awaiting everything that waits leaves alone what has begun before. -/
theorem play_awaitMoves (acc : l.Accounted executor) :
    let played := l.play l.awaitMoves
    played.session = l.session.await.1 ∧ played.waiting = [] ∧ played.running = l.running ∧
      played.delivered = l.delivered ++ l.waiting.zip l.session.await.2.1.results := by
  obtain ⟨session, quiet, running, delivered⟩ := play_settle acc
  rw [awaitMoves, play_append, play_cons, play_nil, move]
  refine ⟨?_, quiet, running, delivered⟩
  rw [session]
  rfl

/-- A future that is awaited takes its statement at once and is driven when everything before it is done. -/
theorem play_fetch (acc : l.Accounted executor) {index : Nat} {b : Builder}
    (there : l.session.builders[index]? = some b) :
    let own := (l.session.prepare index b).1.settle.1.perform ⟨.future, b.compile⟩
    let played := l.play (l.stepMoves ⟨index, .fetch .await⟩)
    played.session = own.1.readSent.1 ∧ played.requests = l.requests ++ [⟨b, .future⟩] ∧ played.waiting = [] ∧
      played.running = l.running ∧
      played.delivered = l.delivered ++ l.waiting.zip (l.session.settle.2.map Finished.result) ++
        [(l.requests.length, own.2.result)] := by
  intro own played
  obtain ⟨executors, -, kept⟩ := l.session.prepare_session index b
  have settled := congrArg Prod.snd (l.session.settle_prepare index b)
  have order : settleMoves l.session l.waiting = settleMoves (l.session.prepare index b).1 l.waiting := by
    simp only [settleMoves, startNumbers, Session.startList, executors, kept]
  have entered := accounted_move acc (.step ⟨index, .fetch .hold⟩ rfl)
  rw [move_hold there rfl] at entered
  obtain ⟨session, requests, waiting, running, delivered⟩ := play_settleMoves entered
    (show (l.held index b).session = _ from rfl) (show (l.held index b).waiting = l.waiting ++ [_] from rfl)
    (by rw [kept]; exact count_waiting acc)
  obtain ⟨last, recorded, quiet, rests, handed⟩ := drive_last (accounted_play entered _) waiting
    (by rw [requests]; exact List.getElem?_concat_length)
  rw [session] at last handed
  rw [requests] at recorded
  rw [running] at rests
  rw [delivered, settled] at handed
  have all : played = _ := congrArg l.play (stepMoves_fetch there)
  rw [all, play_cons, move_hold there rfl, order, play_append, play_drive_read, last, recorded, quiet, rests, handed]
  exact ⟨rfl, rfl, rfl, rfl, rfl⟩

/-- A step is a way of playing: what it awaits is started, and its own future last of all. -/
theorem play_stepMoves (acc : l.Accounted executor) (step : Step) :
    let played := l.play (l.stepMoves step)
    played.session = (l.session.step step).1 ∧ played.running = l.running ∧
      played.delivered.map Prod.snd = l.delivered.map Prod.snd ++ (l.session.step step).2.outcome.results := by
  obtain ⟨index, action⟩ := step
  cases there : l.session.builders[index]? with
  | none =>
    have nothing : l.stepMoves ⟨index, action⟩ = [] := by simp [stepMoves, there]
    rw [nothing]
    exact ⟨by simp [play, Session.step, there], rfl, by simp [play, Session.step, there, Outcome.results]⟩
  | some b =>
    cases prompt : action.awaits with
    | false =>
      obtain ⟨session, running, delivered⟩ := l.step_of_prompt ⟨index, action⟩ prompt
      have results := l.session.act_prompt_results index b action prompt
      rw [stepMoves_prompt there prompt, play_cons, play, List.foldl_nil]
      refine ⟨session, running, ?_⟩
      rw [delivered]
      simp [Session.step, there, results]
    | true =>
      have listed : (l.waiting.zip (l.session.settle.2.map Finished.result)).map Prod.snd = _ :=
        List.map_snd_zip (Nat.le_of_eq (by rw [List.length_map, Session.length_settle, count_waiting acc]))
      rcases Action.eq_of_awaits prompt with rfl | rfl
      · obtain ⟨session, -, running, delivered⟩ := play_awaitMoves acc
        rw [stepMoves_settle there]
        refine ⟨?_, running, ?_⟩
        · rw [session]
          simp only [Session.step, there]
          rfl
        · rw [delivered, List.map_append]
          simp only [Session.step, there]
          exact congrArg _ listed
      · obtain ⟨session, -, -, running, delivered⟩ := play_fetch acc there
        obtain ⟨after, ⟨counts, handed⟩, -⟩ := l.session.fetch_await index b
        refine ⟨?_, running, ?_⟩
        · rw [session]
          simp only [Session.step, there, Session.act, after]
        · rw [delivered, List.map_append, List.map_append, listed]
          simp only [Session.step, there, Session.act, handed]
          rw [List.append_assoc]
          rfl

theorem play_runMoves (acc : l.Accounted executor) (steps : List Step) :
    let played := l.play (l.runMoves steps)
    played.session = (l.session.runSteps steps).1 ∧ played.running = l.running ∧
      played.delivered.map Prod.snd =
        l.delivered.map Prod.snd ++ (l.session.runSteps steps).2.flatMap fun report => report.outcome.results := by
  induction steps generalizing l with
  | nil => exact ⟨rfl, rfl, by simp [runMoves, play, Session.runSteps]⟩
  | cons step rest ih =>
    obtain ⟨session, running, results⟩ := play_stepMoves acc step
    obtain ⟨last, rests, others⟩ := ih (accounted_play acc (l.stepMoves step))
    rw [session] at last others
    rw [runMoves, play_append]
    refine ⟨last, rests.trans running, ?_⟩
    rw [others, results]
    simp [Session.runSteps]

end Ledger

end SqlSelect
