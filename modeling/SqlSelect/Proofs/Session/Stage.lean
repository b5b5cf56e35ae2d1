import SqlSelect.Proofs.Session.Journal

namespace SqlSelect

/-- Where a request stands. -/
inductive Stage where
  | waiting
  | dropped
  | running (result : Result)
  | delivered (result : Result)

namespace Stage

def started (result : Result) : Stage → Stage
  | .waiting => .running result
  | stage => stage

theorem started_ne_dropped {result : Result} {stage : Stage} (kept : stage ≠ .dropped) :
    stage.started result ≠ .dropped := by
  cases stage with
  | dropped => exact absurd rfl kept
  | _ => simp [started]

def finished : Stage → Stage
  | .running result => .delivered result
  | stage => stage

/-- What has been run ends with its result; a task cannot be thrown away. -/
def discarded (path : Path) : Stage → Stage
  | .waiting => if path = .future then .dropped else .waiting
  | stage => stage

theorem finished_ne_dropped {stage : Stage} (kept : stage ≠ .dropped) : stage.finished ≠ .dropped := by
  cases stage with
  | dropped => exact absurd rfl kept
  | _ => simp [finished]

theorem finished_started (result : Result) {stage : Stage} (kept : stage ≠ .dropped) :
    ∃ last, (stage.started result).finished = .delivered last := by
  cases stage with
  | dropped => exact absurd rfl kept
  | _ => exact ⟨_, rfl⟩

def result? : Stage → Option Result
  | .running result => some result
  | _ => none

def results : Stage → List Result
  | .delivered result => [result]
  | _ => []

def runs (number : Nat) (prepared : Except Error Statement) : Stage → List RunRecord
  | .running result | .delivered result => RunRecord.of number result prepared
  | _ => []

end Stage

def Outcome.stage : Outcome → Stage
  | .dropped => .dropped
  | _ => .waiting

def Move.target? : Move → Option Nat
  | .start number | .finish number | .discard number => some number
  | _ => none

namespace Ledger

variable {executor : Executor} {l : Ledger} {number : Nat} {request : Request} {stage : Stage}

def stages (l : Ledger) : List (Nat × Stage) :=
  l.waiting.map (·, .waiting) ++ l.dropped.map (·, .dropped) ++
    l.running.map (fun entry => (entry.1, .running entry.2)) ++
      l.delivered.map (fun entry => (entry.1, .delivered entry.2))

def At (l : Ledger) (number : Nat) (stage : Stage) : Prop :=
  (number, stage) ∈ l.stages

@[simp] theorem at_waiting : l.At number .waiting ↔ number ∈ l.waiting := by simp [At, stages]

@[simp] theorem at_dropped : l.At number .dropped ↔ number ∈ l.dropped := by simp [At, stages]

@[simp] theorem at_running {result : Result} : l.At number (.running result) ↔ (number, result) ∈ l.running := by
  simp [At, stages]

@[simp] theorem at_delivered {result : Result} : l.At number (.delivered result) ↔ (number, result) ∈ l.delivered := by
  simp [At, stages]

theorem Accounted.stages_perm (acc : l.Accounted executor) :
    (l.stages.map Prod.fst).Perm (List.range l.requests.length) := by
  have numbers : l.stages.map Prod.fst =
      l.waiting ++ l.dropped ++ l.running.map Prod.fst ++ l.delivered.map Prod.fst := by
    simp [stages, Function.comp_def]
  rw [numbers]
  exact acc.once

theorem Accounted.at_unique (acc : l.Accounted executor) (stands : l.At number stage) {other : Stage}
    (again : l.At number other) : stage = other := by
  have distinct := acc.stages_perm.nodup_iff.mpr List.nodup_range
  exact Option.some.inj ((lookup_of_mem distinct stands).symm.trans (lookup_of_mem distinct again))

theorem Accounted.request_of_at (acc : l.Accounted executor) (stands : l.At number stage) :
    ∃ request, l.requests[number]? = some request := by
  have bound := acc.stages_perm.mem_iff.mp (List.mem_map_of_mem (f := Prod.fst) stands)
  exact ⟨_, List.getElem?_eq_getElem (List.mem_range.mp bound)⟩

theorem start_idle (acc : l.Accounted executor) (absent : number ∉ l.waiting) : l.move (.start number) = l := by
  simp only [move, acc.waitingWork?_eq_none absent]

theorem discard_idle (acc : l.Accounted executor) (absent : number ∉ l.waiting) : l.move (.discard number) = l := by
  simp only [move, acc.waitingWork?_eq_none absent]

theorem finish_idle (absent : ∀ result, (number, result) ∉ l.running) : l.move (.finish number) = l := by
  have none : (l.running.find? fun entry => entry.1 == number) = none := by
    apply List.find?_eq_none.mpr
    intro entry member same
    obtain rfl := beq_iff_eq.mp same
    exact absent entry.2 member
  simp only [move, none]

theorem mem_without {other : Nat} (differs : number ≠ other) (member : number ∈ l.waiting) :
    number ∈ (l.without other).waiting := by
  have erased : (l.without other).waiting = l.waiting.erase other := (List.erase_eq_eraseIdx_of_idxOf rfl).symm
  rw [erased]
  exact (List.mem_erase_of_ne differs).mpr member

theorem At.of_subset {later : Ledger} (stands : l.At number stage)
    (waiting : number ∈ l.waiting → number ∈ later.waiting) (dropped : l.dropped ⊆ later.dropped)
    (running : ∀ result, (number, result) ∈ l.running → (number, result) ∈ later.running)
    (delivered : l.delivered ⊆ later.delivered) : later.At number stage := by
  cases stage with
  | waiting => exact at_waiting.mpr (waiting (at_waiting.mp stands))
  | dropped => exact at_dropped.mpr (dropped (at_dropped.mp stands))
  | running result => exact at_running.mpr (running result (at_running.mp stands))
  | delivered result => exact at_delivered.mpr (delivered (at_delivered.mp stands))

/-- A move leaves all requests where they are but the one it is about. -/
theorem Accounted.at_move_of_ne (acc : l.Accounted executor) {move : Move} (other : move.target? ≠ some number)
    (stands : l.At number stage) : (l.move move).At number stage := by
  cases move with
  | step step prompt =>
    simp only [Ledger.move]
    cases l.session.builders[step.builder]? with
    | none => exact stands
    | some b =>
      simp only
      cases (l.session.step step).2.outcome <;>
        exact stands.of_subset (by simp +contextual [record, wait, drop]) (by simp [record, wait, drop])
          (by simp [record, wait, drop]) (by simp [record, wait, drop])
  | start target =>
    by_cases waits : target ∈ l.waiting
    · obtain ⟨request, recorded, -⟩ := acc.waitingWork? waits
      have differs : number ≠ target := fun same => other (congrArg some same.symm)
      rw [move_start acc waits recorded]
      exact stands.of_subset (mem_without differs) (List.Subset.refl _) (fun _ => List.mem_append_left _)
        (List.Subset.refl _)
    · rwa [start_idle acc waits]
  | finish target =>
    simp only [Ledger.move]
    cases found : l.running.find? fun entry => entry.1 == target with
    | none => exact stands
    | some entry =>
      have differs : number ≠ target := fun same => other (congrArg some same.symm)
      refine stands.of_subset id (List.Subset.refl _) ?_ (List.subset_append_left _ _)
      intro result member
      exact (List.mem_eraseP_of_neg (by simpa using differs)).mpr member
  | discard target =>
    by_cases waits : target ∈ l.waiting
    · obtain ⟨request, -, work⟩ := acc.waitingWork? waits
      have differs : number ≠ target := fun same => other (congrArg some same.symm)
      simp only [Ledger.move, work]
      split
      · exact stands
      · exact stands.of_subset (mem_without differs) (List.subset_append_left _ _) (fun _ => id) (List.Subset.refl _)
    · rwa [discard_idle acc waits]
  | read => exact stands

theorem Accounted.at_start (acc : l.Accounted executor) (recorded : l.requests[number]? = some request)
    (stands : l.At number stage) :
    (l.move (.start number)).At number (stage.started (l.session.perform request.work).2.result) := by
  by_cases waits : number ∈ l.waiting
  · obtain rfl := acc.at_unique stands (at_waiting.mpr waits)
    rw [move_start acc waits recorded, Stage.started, at_running]
    exact List.mem_append_right _ (List.mem_singleton_self _)
  · rw [start_idle acc waits]
    cases stage with
    | waiting => exact absurd (at_waiting.mp stands) waits
    | _ => exact stands

theorem Accounted.at_finish (acc : l.Accounted executor) (stands : l.At number stage) :
    (l.move (.finish number)).At number stage.finished := by
  cases stage with
  | running result =>
    obtain ⟨earlier, later, split⟩ := List.append_of_mem (at_running.mp stands)
    have finished : l.move (.finish number) = _ := move_finish split (fst_ne_of_nodup (split ▸ acc.running_nodup))
    rw [finished, Stage.finished, at_delivered]
    exact List.mem_append_right _ (List.mem_singleton_self _)
  | _ =>
    rw [finish_idle]
    · exact stands
    · intro result member
      cases acc.at_unique stands (at_running.mpr member)

theorem Accounted.at_discard (acc : l.Accounted executor) (recorded : l.requests[number]? = some request)
    (stands : l.At number stage) : (l.move (.discard number)).At number (stage.discarded request.path) := by
  by_cases waits : number ∈ l.waiting
  · obtain rfl := acc.at_unique stands (at_waiting.mpr waits)
    obtain ⟨found, there, work⟩ := acc.waitingWork? waits
    obtain rfl := Option.some.inj (there.symm.trans recorded)
    simp only [Ledger.move, work]
    obtain ⟨b, path⟩ := found
    cases path with
    | callback => exact stands
    | future => exact at_dropped.mpr (List.mem_append_right _ (List.mem_singleton_self _))
  · rw [discard_idle acc waits]
    cases stage with
    | waiting => exact absurd (at_waiting.mp stands) waits
    | _ => exact stands

theorem Accounted.resultsOf_at (acc : l.Accounted executor) (stands : l.At number stage) :
    l.resultsOf number = stage.results := by
  cases stage with
  | delivered result => exact acc.resultsOf_delivered (at_delivered.mp stands)
  | waiting => exact acc.not_delivered (by simp [at_waiting.mp stands])
  | dropped => exact acc.not_delivered (by simp [at_dropped.mp stands])
  | running result =>
    apply acc.not_delivered
    exact List.mem_append_right _ (List.mem_map_of_mem (f := Prod.fst) (at_running.mp stands))

theorem Accounted.runsOf_at (acc : l.Accounted executor) (recorded : l.requests[number]? = some request)
    (stands : l.At number stage) : l.runsOf number = stage.runs number request.builder.compile := by
  cases stage with
  | waiting => exact acc.runsOf_eq_nil (acc.not_begun (List.mem_append_left _ (at_waiting.mp stands)))
  | dropped => exact acc.runsOf_eq_nil (acc.not_begun (List.mem_append_right _ (at_dropped.mp stands)))
  | running result => exact acc.begun _ (List.mem_append_left _ (at_running.mp stands)) _ recorded
  | delivered result => exact acc.begun _ (List.mem_append_right _ (at_delivered.mp stands)) _ recorded

theorem Accounted.ended_at (acc : l.Accounted executor) (stands : l.At number stage) :
    l.ended? (.finish number) = stage.result?.map (Prod.mk number) := by
  cases found : l.ended? (.finish number) with
  | some entry =>
    have same : entry.1 = number := by simpa using List.find?_some found
    have running : (number, entry.2) ∈ l.running := same ▸ mem_of_ended found
    obtain rfl := acc.at_unique stands (at_running.mpr running)
    rw [Stage.result?, Option.map_some, ← same]
  | none =>
    cases stage with
    | running result =>
      have other := List.find?_eq_none.mp found _ (at_running.mp stands)
      simp at other
    | _ => rfl

theorem finish_session (l : Ledger) (number : Nat) :
    (l.move (.finish number)).session = l.session ∧ (l.move (.finish number)).runs = l.runs := by
  simp only [Ledger.move]
  cases l.running.find? fun entry => entry.1 == number <;> exact ⟨rfl, rfl⟩

theorem discard_session (l : Ledger) (number : Nat) :
    ∃ outstanding, (l.move (.discard number)).session = { l.session with outstanding } ∧
      (l.move (.discard number)).runs = l.runs := by
  simp only [Ledger.move]
  cases l.waitingWork? number with
  | none => exact ⟨l.session.outstanding, rfl, rfl⟩
  | some work =>
    simp only
    split
    · exact ⟨l.session.outstanding, rfl, rfl⟩
    · exact ⟨_, rfl, rfl⟩

theorem Accounted.move_unknown (acc : l.Accounted executor) {move : Move} (target : move.target? = some number)
    (unknown : l.requests.length ≤ number) : l.move move = l ∧ l.ended? move = none := by
  have nowhere {stage : Stage} : ¬l.At number stage := by
    intro stands
    obtain ⟨request, recorded⟩ := acc.request_of_at stands
    exact absurd (List.getElem?_eq_some_iff.mp recorded).1 (Nat.not_lt_of_le unknown)
  have absent : number ∉ l.waiting := fun waits => nowhere (at_waiting.mpr waits)
  have still : ∀ result, (number, result) ∉ l.running := fun result runs => nowhere (at_running.mpr runs)
  cases move with
  | start other =>
    obtain rfl := Option.some.inj target
    exact ⟨start_idle acc absent, rfl⟩
  | finish other =>
    obtain rfl := Option.some.inj target
    refine ⟨finish_idle still, ?_⟩
    cases ended : l.ended? (.finish other) with
    | none => rfl
    | some entry =>
      obtain rfl : entry.1 = other := by simpa using List.find?_some ended
      exact absurd (mem_of_ended ended) (still entry.2)
  | discard other =>
    obtain rfl := Option.some.inj target
    exact ⟨discard_idle acc absent, rfl⟩
  | _ => cases target

end Ledger

theorem Journal.Faithful.move_unknown {executor : Executor} {j : Journal} (faithful : j.Faithful executor) {move : Move}
    {number : Nat} (target : move.target? = some number) (unknown : j.ledger.requests.length ≤ number) :
    j.move move = j := by
  obtain ⟨still, none⟩ := faithful.acc.move_unknown target unknown
  have silent : j.ledger.announcement? move = .none := by
    cases move with
    | step step prompt => cases target
    | _ => rfl
  have ledger := j.move_ledger move
  have pending := faithful.pending_move move
  have entries := j.move_entries move
  rw [still] at ledger
  rw [ledger, ← faithful.pending] at pending
  rw [silent, faithful.reported_eq, none] at entries
  rw [show j.move move = ⟨(j.move move).ledger, (j.move move).pending, (j.move move).entries⟩ from rfl, ledger, pending,
    entries]
  simp

end SqlSelect
