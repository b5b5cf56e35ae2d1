import SqlSelect.Proofs.Session.Ledger
import Mathlib.Data.List.InsertIdx

namespace SqlSelect

theorem Executor.runAll_append (executor : Executor) (first second : List Statement) :
    executor.runAll (first ++ second) =
      (((executor.runAll first).1.runAll second).1,
        (executor.runAll first).2 ++ ((executor.runAll first).1.runAll second).2) := by
  induction first generalizing executor with
  | nil => rfl
  | cons q rest ih => simp [runAll, ih]

theorem fst_ne_of_nodup {β : Type} {entry : Nat × β} {earlier later : List (Nat × β)}
    (once : ((earlier ++ entry :: later).map Prod.fst).Nodup) : ∀ other ∈ earlier, other.1 ≠ entry.1 := by
  rw [List.map_append, List.nodup_append] at once
  intro other member
  exact once.2.2 other.1 (List.mem_map_of_mem member) entry.1 (List.mem_cons_self ..)

theorem RunRecord.number_of {number : Nat} {result : Result} {prepared : Except Error Statement} {run : RunRecord}
    (member : run ∈ RunRecord.of number result prepared) : run.number = number := by
  cases prepared with
  | error error => cases member
  | ok q => rw [List.mem_singleton.mp member]

theorem Session.perform_records (s : Session) (work : Dispatch) (number : Nat) :
    let records := RunRecord.of number (s.perform work).2.result work.prepared
    (s.perform work).1.runs = s.runs + records.length ∧
      s.executor.runAll (records.map RunRecord.statement) =
        ((s.perform work).1.executor, records.map RunRecord.result) := by
  obtain ⟨path, prepared⟩ := work
  cases prepared <;> exact ⟨rfl, rfl⟩

theorem Session.perform_refused (s : Session) {work : Dispatch} {error : Error}
    (refused : work.prepared = .error error) :
    (s.perform work).2.result = .error error := by
  simp [perform, refused]

namespace Ledger

variable {executor : Executor} {l : Ledger}

theorem Accounted.bound (acc : l.Accounted executor) {number : Nat}
    (member : number ∈ l.waiting ++ l.dropped ++ l.running.map Prod.fst ++ l.delivered.map Prod.fst) :
    number < l.requests.length :=
  List.mem_range.mp (acc.once.mem_iff.mp member)

theorem Accounted.count_le (acc : l.Accounted executor) (number : Nat) :
    l.waiting.count number + l.dropped.count number + (l.running.map Prod.fst).count number +
      (l.delivered.map Prod.fst).count number ≤ 1 := by
  have total := acc.once.count_eq number
  have single := List.nodup_iff_count.mp (List.nodup_range (n := l.requests.length)) number
  simp only [List.count_append] at total
  omega

theorem Accounted.running_nodup (acc : l.Accounted executor) : (l.running.map Prod.fst).Nodup := by
  rw [List.nodup_iff_count]
  intro number
  have single := acc.count_le number
  omega

theorem Accounted.not_begun (acc : l.Accounted executor) {number : Nat}
    (member : number ∈ l.waiting ++ l.dropped) : number ∉ (l.running ++ l.delivered).map Prod.fst := by
  intro begun
  have single := acc.count_le number
  have once := List.count_pos_iff.mpr member
  have again := List.count_pos_iff.mpr begun
  simp only [List.map_append, List.count_append] at once again
  omega

theorem Accounted.runsOf_eq_nil (acc : l.Accounted executor) {number : Nat}
    (absent : number ∉ (l.running ++ l.delivered).map Prod.fst) : l.runsOf number = [] := by
  apply List.filter_eq_nil_iff.mpr
  intro run member same
  exact absent (beq_iff_eq.mp same ▸ acc.owned run member)

theorem Accounted.request_of_entry (acc : l.Accounted executor) {entry : Nat × Result}
    (member : entry ∈ l.running ++ l.delivered) : ∃ request, l.requests[entry.1]? = some request := by
  have number := List.mem_map_of_mem (f := Prod.fst) member
  rw [List.map_append] at number
  have among : entry.1 ∈ l.waiting ++ l.dropped ++ l.running.map Prod.fst ++ l.delivered.map Prod.fst := by
    rw [List.append_assoc]
    exact List.mem_append_right _ number
  have bound := acc.bound among
  exact ⟨l.requests[entry.1], List.getElem?_eq_getElem bound⟩

theorem accounted_open (builders : List Builder) (executor : Executor) :
    ({ session := { builders, executor } } : Ledger).Accounted executor := by
  constructor <;> simp [Executor.runAll]

theorem requests_append {requests : List Request} {request : Request} {number : Nat}
    (bound : number < requests.length) : (requests ++ [request])[number]? = requests[number]? :=
  List.getElem?_append_left bound

theorem Accounted.begun_append (acc : l.Accounted executor) (request : Request) :
    ∀ entry ∈ l.running ++ l.delivered, ∀ found, (l.requests ++ [request])[entry.1]? = some found →
      l.requests[entry.1]? = some found := by
  intro entry member found there
  obtain ⟨old, recorded⟩ := acc.request_of_entry member
  obtain ⟨bound, _⟩ := List.getElem?_eq_some_iff.mp recorded
  rwa [requests_append bound] at there

theorem accounted_wait (acc : l.Accounted executor) {session : Session} {request : Request}
    (same : session.executor = l.session.executor) (runs : session.runs = l.session.runs)
    (kept : session.outstanding = l.session.outstanding ++ [request.work])
    (compiled : request.path = .callback → ∃ q, request.builder.compile = .ok q) :
    (({ l with session } : Ledger).wait request).Accounted executor where
  once := by
    rw [List.perm_iff_count]
    intro number
    have total := acc.once.count_eq number
    simp only [wait, List.count_append, List.length_append, List.length_singleton, List.range_succ] at total ⊢
    omega
  snapshot := by
    have earlier : (l.waiting.map fun number => (l.requests ++ [request])[number]?.map Request.work) =
        l.waiting.map fun number => l.requests[number]?.map Request.work := by
      apply List.map_congr_left
      intro number member
      rw [requests_append (acc.bound (by simp [member]))]
    simp [wait, kept, earlier, acc.snapshot]
  counted := runs.trans acc.counted
  served := by
    simp only [wait, same]
    exact acc.served
  begun entry member found there := acc.begun entry member found (acc.begun_append request entry member found there)
  owned := acc.owned
  refused entry member found there :=
    acc.refused entry member found (acc.begun_append request entry member found there)
  compiled found member := by
    rcases List.mem_append.mp member with member | member
    · exact acc.compiled found member
    · rw [List.mem_singleton.mp member]
      exact compiled
  futures number member := by
    obtain ⟨b, there⟩ := acc.futures number member
    exact ⟨b, by rw [wait, requests_append (acc.bound (by simp [show number ∈ l.dropped from member])), there]⟩

theorem accounted_drop (acc : l.Accounted executor) {session : Session} {b : Builder}
    (same : session.executor = l.session.executor) (runs : session.runs = l.session.runs)
    (kept : session.outstanding = l.session.outstanding) :
    (({ l with session } : Ledger).drop ⟨b, .future⟩).Accounted executor where
  once := by
    rw [List.perm_iff_count]
    intro number
    have total := acc.once.count_eq number
    simp only [drop, List.count_append, List.length_append, List.length_singleton, List.range_succ] at total ⊢
    omega
  snapshot := by
    simp only [drop, kept, acc.snapshot]
    apply List.map_congr_left
    intro number member
    rw [requests_append (acc.bound (by simp [member]))]
  counted := runs.trans acc.counted
  served := by
    simp only [drop, same]
    exact acc.served
  begun entry member found there := acc.begun entry member found (acc.begun_append _ entry member found there)
  owned := acc.owned
  refused entry member found there := acc.refused entry member found (acc.begun_append _ entry member found there)
  compiled found member callback := by
    rcases List.mem_append.mp member with member | member
    · exact acc.compiled found member callback
    · rw [List.mem_singleton.mp member] at callback
      cases callback
  futures number member := by
    rcases List.mem_append.mp member with member | member
    · obtain ⟨b, there⟩ := acc.futures number member
      exact ⟨b, by rw [drop, requests_append (acc.bound (by simp [member])), there]⟩
    · exact ⟨b, by simp [drop, List.mem_singleton.mp member]⟩

theorem accounted_unchanged (acc : l.Accounted executor) {session : Session}
    (same : session.executor = l.session.executor) (runs : session.runs = l.session.runs)
    (kept : session.outstanding = l.session.outstanding) : ({ l with session } : Ledger).Accounted executor :=
  { acc with
    snapshot := kept ▸ acc.snapshot
    counted := runs.trans acc.counted
    served := same ▸ acc.served }

theorem accounted_step (acc : l.Accounted executor) (step : Step) (prompt : step.action.awaits = false) :
    (l.move (.step step prompt)).Accounted executor := by
  cases here : l.session.builders[step.builder]? with
  | none =>
    have unchanged : (l.session.step step).1 = l.session := by simp [Session.step, here]
    simpa only [move, here, unchanged] using acc
  | some b =>
    have effect := l.session.act_prompt step.builder b step.action prompt
    have compiled := @Session.act_dispatched l.session step.builder b step.action
    have session : (l.session.step step).1 = (l.session.act step.builder b step.action).session := by
      simp [Session.step, here]
    have outcome : (l.session.step step).2.outcome = (l.session.act step.builder b step.action).outcome := by
      simp [Session.step, here]
    obtain ⟨same, runs, kept⟩ := effect
    simp only [move, here, session, outcome]
    -- Of all outcomes three enter a request, and two of these leave its work in the session.
    cases came : (l.session.act step.builder b step.action).outcome with
    | dispatched =>
      rw [came] at kept
      exact accounted_wait acc same runs kept fun _ => compiled came
    | held =>
      rw [came] at kept
      exact accounted_wait acc same runs kept fun callback => by cases callback
    | dropped =>
      rw [came] at kept
      exact accounted_drop acc same runs (kept.trans (List.append_nil _))
    | _ =>
      rw [came] at kept
      exact accounted_unchanged acc same runs (kept.trans (List.append_nil _))

theorem Accounted.waitingWork? (acc : l.Accounted executor) {number : Nat} (member : number ∈ l.waiting) :
    ∃ request, l.requests[number]? = some request ∧ l.waitingWork? number = some request.work := by
  have bound : number < l.requests.length := acc.bound (by simp [member])
  have there : l.waiting[l.waiting.idxOf number]? = some number := by
    rw [List.getElem?_eq_getElem (List.idxOf_lt_length_of_mem member), List.getElem_idxOf]
  have recorded := List.getElem?_eq_getElem bound
  have same := congrArg (·[l.waiting.idxOf number]?) acc.snapshot
  simp only [List.getElem?_map, there, recorded, Option.map_some] at same
  refine ⟨l.requests[number], recorded, ?_⟩
  obtain ⟨work, found, equal⟩ := Option.map_eq_some_iff.mp same
  rw [Ledger.waitingWork?, found]
  exact equal

theorem Accounted.waitingWork?_eq_none (acc : l.Accounted executor) {number : Nat} (absent : number ∉ l.waiting) :
    l.waitingWork? number = none := by
  have lengths := congrArg List.length acc.snapshot
  simp only [List.length_map] at lengths
  rw [Ledger.waitingWork?, List.idxOf_eq_length absent, ← lengths, List.getElem?_eq_none (Nat.le_refl _)]

theorem count_without {number : Nat} (member : number ∈ l.waiting) (other : Nat) :
    (l.without number).waiting.count other + [number].count other = l.waiting.count other := by
  have erased : (l.without number).waiting = l.waiting.erase number := (List.erase_eq_eraseIdx_of_idxOf rfl).symm
  have split := (List.perm_cons_erase member).count_eq other
  rw [← List.singleton_append, List.count_append] at split
  rw [erased]
  omega

theorem Accounted.snapshot_without (acc : l.Accounted executor) (number : Nat) :
    (l.without number).session.outstanding.map some =
      (l.without number).waiting.map fun number => l.requests[number]?.map Request.work := by
  simp only [without, ← List.eraseIdx_map, acc.snapshot]

theorem runsOf_begin_of_ne {number other : Nat} (differs : other ≠ number) (work : Dispatch) :
    (l.begin number work).runsOf other = l.runsOf other := by
  have none_entered : ((RunRecord.of number (l.session.perform work).2.result work.prepared).filter
      fun run => run.number == other) = [] := by
    apply List.filter_eq_nil_iff.mpr
    intro run member same
    exact differs ((beq_iff_eq.mp same).symm.trans (RunRecord.number_of member))
  simp only [runsOf, begin, List.filter_append, none_entered, List.append_nil]

theorem runsOf_begin_self {number : Nat} (fresh : l.runsOf number = []) (work : Dispatch) :
    (l.begin number work).runsOf number =
      RunRecord.of number (l.session.perform work).2.result work.prepared := by
  have all_entered := List.filter_eq_self.mpr fun run (member : run ∈ RunRecord.of number
      (l.session.perform work).2.result work.prepared) => beq_iff_eq.mpr (RunRecord.number_of member)
  rw [runsOf] at fresh
  simp only [runsOf, begin, List.filter_append, fresh, List.nil_append]
  exact all_entered

theorem mem_begin {number : Nat} {work : Dispatch} {entry : Nat × Result}
    (member : entry ∈ (l.begin number work).running ++ (l.begin number work).delivered) :
    entry ∈ l.running ++ l.delivered ∨ entry = (number, (l.session.perform work).2.result) := by
  simp only [begin, List.mem_append, List.mem_singleton] at member ⊢
  tauto

theorem accounted_begin (acc : l.Accounted executor) {number : Nat} {request : Request}
    (member : number ∈ l.waiting) (recorded : l.requests[number]? = some request) :
    ((l.without number).begin number request.work).Accounted executor := by
  have absent := acc.not_begun (List.mem_append_left _ member)
  have fresh : (l.without number).runsOf number = [] := acc.runsOf_eq_nil absent
  obtain ⟨counted, served⟩ := (l.without number).session.perform_records request.work number
  exact
    { -- The number leaves those that wait and joins those that run.
      once := by
        rw [List.perm_iff_count]
        intro other
        have total := acc.once.count_eq other
        have moved := count_without member other
        simp only [begin, without, List.map_append, List.map_cons, List.map_nil, List.count_append] at total moved ⊢
        omega
      snapshot := by
        simp only [begin, Session.perform_outstanding]
        exact acc.snapshot_without number
      counted := by
        have before : (l.without number).session.runs = (l.without number).runs.length := acc.counted
        simp only [begin, counted, before, List.length_append]
      served := by
        have before : executor.runAll ((l.without number).runs.map RunRecord.statement) =
            ((l.without number).session.executor, (l.without number).runs.map RunRecord.result) := acc.served
        simp only [begin, List.map_append, Executor.runAll_append, before, served]
      begun := by
        intro entry entered found there
        rcases mem_begin entered with earlier | rfl
        · have differs : entry.1 ≠ number := fun same => absent (same ▸ List.mem_map_of_mem earlier)
          rw [runsOf_begin_of_ne differs]
          exact acc.begun entry earlier found there
        · rw [runsOf_begin_self fresh, Option.some.inj (there.symm.trans recorded)]
          rfl
      owned := by
        intro run entered
        rcases List.mem_append.mp entered with earlier | entered
        · have owner := acc.owned run earlier
          simp only [begin, without, List.map_append, List.mem_append] at owner ⊢
          tauto
        · rw [RunRecord.number_of entered]
          simp [begin]
      refused := by
        intro entry entered found there error refused
        rcases mem_begin entered with earlier | rfl
        · exact acc.refused entry earlier found there error refused
        · rw [Option.some.inj (there.symm.trans recorded)] at refused
          exact Session.perform_refused _ refused
      compiled := acc.compiled
      futures := acc.futures }

theorem move_start (acc : l.Accounted executor) {number : Nat} {request : Request} (member : number ∈ l.waiting)
    (recorded : l.requests[number]? = some request) :
    let done := l.session.perform request.work
    l.move (.start number) =
      { l.without number with
        session := { done.1 with outstanding := (l.without number).session.outstanding }
        running := l.running ++ [(number, done.2.result)]
        runs := l.runs ++ RunRecord.of number done.2.result request.builder.compile } := by
  obtain ⟨found, there, work⟩ := acc.waitingWork? member
  obtain rfl := Option.some.inj (there.symm.trans recorded)
  have begun : (l.without number).session.perform found.work = _ := l.session.perform_deferred found.work _
  simp only [move, work, begin, begun]
  rfl

theorem accounted_start (acc : l.Accounted executor) (number : Nat) : (l.move (.start number)).Accounted executor := by
  by_cases member : number ∈ l.waiting
  · obtain ⟨request, recorded, work⟩ := acc.waitingWork? member
    simp only [move, work]
    exact accounted_begin acc member recorded
  · simpa only [move, acc.waitingWork?_eq_none member] using acc

theorem accounted_discard (acc : l.Accounted executor) (number : Nat) :
    (l.move (.discard number)).Accounted executor := by
  by_cases member : number ∈ l.waiting
  · obtain ⟨request, recorded, work⟩ := acc.waitingWork? member
    simp only [move, work]
    cases task : request.work.isTask with
    | true => exact acc
    | false =>
      rw [if_neg Bool.false_ne_true]
      have future : request.path = .future := by
        obtain ⟨b, path⟩ := request
        cases path with
        | callback => cases task
        | future => rfl
      exact
        { acc with
          once := by
            rw [List.perm_iff_count]
            intro other
            have total := acc.once.count_eq other
            have moved := count_without member other
            simp only [without, List.count_append] at total moved ⊢
            omega
          snapshot := acc.snapshot_without number
          futures := by
            intro other dropped
            rcases List.mem_append.mp dropped with earlier | added
            · exact acc.futures other earlier
            · rw [List.mem_singleton.mp added]
              exact ⟨request.builder, by rw [← future]; exact recorded⟩ }
  · simpa only [move, acc.waitingWork?_eq_none member] using acc

theorem move_finish {entry : Nat × Result} {earlier later : List (Nat × Result)}
    (split : l.running = earlier ++ entry :: later) (first : ∀ other ∈ earlier, other.1 ≠ entry.1) :
    l.move (.finish entry.1) = { l with running := earlier ++ later, delivered := l.delivered ++ [entry] } := by
  have others : ∀ other ∈ earlier, ¬(other.1 == entry.1) = true := by simpa using first
  have found : (l.running.find? fun other => other.1 == entry.1) = some entry :=
    List.find?_eq_some_iff_append.mpr ⟨beq_self_eq_true _, earlier, later, split, by simpa using first⟩
  have erased : (l.running.eraseP fun other => other.1 == entry.1) = earlier ++ later := by
    rw [split, List.eraseP_append_right _ others, List.eraseP_cons, beq_self_eq_true, cond_true]
  simp only [move, found, erased]

theorem accounted_finish (acc : l.Accounted executor) (number : Nat) :
    (l.move (.finish number)).Accounted executor := by
  cases found : l.running.find? fun entry => entry.1 == number with
  | none => simpa only [move, found] using acc
  | some entry =>
    obtain ⟨same, earlier, later, split, others⟩ := List.find?_eq_some_iff_append.mp found
    obtain rfl := beq_iff_eq.mp same
    rw [move_finish split (by simpa using others)]
    have perm : (earlier ++ later ++ (l.delivered ++ [entry])).Perm (l.running ++ l.delivered) := by
      rw [split, ← List.append_assoc]
      exact (List.perm_append_singleton entry _).trans (List.perm_middle.append_right _).symm
    exact
      { acc with
        once := by
          have once := acc.once
          rw [List.append_assoc, ← List.map_append] at once ⊢
          exact ((perm.map Prod.fst).append_left _).trans once
        begun := fun other member => acc.begun other (perm.mem_iff.mp member)
        owned := fun run member => (perm.map Prod.fst).mem_iff.mpr (acc.owned run member)
        refused := fun other member => acc.refused other (perm.mem_iff.mp member) }

theorem accounted_read (acc : l.Accounted executor) : (l.move .read).Accounted executor :=
  accounted_unchanged acc l.session.readSent_executor l.session.readSent_runs l.session.readSent_outstanding

theorem accounted_move (acc : l.Accounted executor) (move : Move) : (l.move move).Accounted executor := by
  cases move with
  | step step prompt => exact accounted_step acc step prompt
  | start number => exact accounted_start acc number
  | finish number => exact accounted_finish acc number
  | discard number => exact accounted_discard acc number
  | read => exact accounted_read acc

theorem accounted_play (acc : l.Accounted executor) (moves : List Move) : (l.play moves).Accounted executor := by
  induction moves generalizing l with
  | nil => exact acc
  | cons move rest ih => exact ih (accounted_move acc move)

end Ledger

end SqlSelect
