import SqlSelect.Proofs.Session.Schedule

namespace SqlSelect

namespace Ledger

variable {executor : Executor} {l : Ledger}

def opening (builders : List Builder) (executor : Executor) : Ledger :=
  { session := { builders, executor } }

def compiles (l : Ledger) (number : Nat) : Bool :=
  l.requests[number]?.any fun request => request.builder.compile.isOk

/-- Nothing was run for the request: it waits, or it is a future that was thrown away. -/
def Untouched (l : Ledger) (number : Nat) (request : Request) : Prop :=
  (number ∈ l.waiting ∨ number ∈ l.dropped ∧ request.path = .future) ∧
    l.runsOf number = [] ∧ l.resultsOf number = []

/-- The executor was called once for the request, on the statement that its builder compiled to at the call, and what
    came of that is on its way or was handed over once. Without such a statement the result is the compile error. -/
def Served (l : Ledger) (number : Nat) (request : Request) (result : Result) : Prop :=
  (match request.builder.compile with
    | .ok q => l.runsOf number = [⟨number, q, result⟩]
    | .error error => l.runsOf number = [] ∧ result = .error error) ∧
    ((number, result) ∈ l.running ∧ l.resultsOf number = [] ∨ l.resultsOf number = [result])

theorem resultsOf_eq_nil {number : Nat} (absent : number ∉ l.delivered.map Prod.fst) : l.resultsOf number = [] := by
  apply List.map_eq_nil_iff.mpr
  apply List.filter_eq_nil_iff.mpr
  intro entry member same
  exact absent (beq_iff_eq.mp same ▸ List.mem_map_of_mem member)

theorem Accounted.resultsOf_delivered (acc : l.Accounted executor) {entry : Nat × Result}
    (member : entry ∈ l.delivered) : l.resultsOf entry.1 = [entry.2] := by
  have single := acc.count_le entry.1
  have counted : (l.delivered.map Prod.fst).count entry.1 =
      (l.delivered.filter fun other => other.1 == entry.1).length := by
    rw [List.count, List.countP_map, List.countP_eq_length_filter]
    rfl
  have among : entry ∈ l.delivered.filter fun other => other.1 == entry.1 :=
    List.mem_filter.mpr ⟨member, beq_self_eq_true _⟩
  rw [resultsOf]
  generalize l.delivered.filter (fun other => other.1 == entry.1) = found at counted among
  have length : found.length ≤ 1 := by omega
  match found, among, length with
  | [other], among, _ => rw [← List.mem_singleton.mp among, List.map_singleton]

theorem Accounted.not_delivered (acc : l.Accounted executor) {number : Nat}
    (elsewhere : number ∈ l.waiting ++ l.dropped ++ l.running.map Prod.fst) : l.resultsOf number = [] := by
  apply resultsOf_eq_nil
  intro member
  have single := acc.count_le number
  have once := List.count_pos_iff.mpr elsewhere
  have again := List.count_pos_iff.mpr member
  simp only [List.count_append] at once
  omega

theorem Accounted.runs_of_begun (acc : l.Accounted executor) {number : Nat} {result : Result} {request : Request}
    (member : (number, result) ∈ l.running ++ l.delivered) (recorded : l.requests[number]? = some request) :
    match request.builder.compile with
    | .ok q => l.runsOf number = [⟨number, q, result⟩]
    | .error error => l.runsOf number = [] ∧ result = .error error := by
  have runs := acc.begun _ member _ recorded
  have refused := acc.refused _ member _ recorded
  cases compiled : request.builder.compile with
  | ok q => rwa [compiled] at runs
  | error error =>
    rw [compiled] at runs
    exact ⟨runs, refused error compiled⟩

theorem Accounted.request_cases (acc : l.Accounted executor) {number : Nat} {request : Request}
    (recorded : l.requests[number]? = some request) :
    l.Untouched number request ∨ ∃ result, l.Served number request result := by
  obtain ⟨bound, -⟩ := List.getElem?_eq_some_iff.mp recorded
  have somewhere := acc.once.mem_iff.mpr (List.mem_range.mpr bound)
  rcases List.mem_append.mp somewhere with earlier | delivered
  · have undelivered := acc.not_delivered earlier
    rcases List.mem_append.mp earlier with untouched | running
    · left
      refine ⟨?_, acc.runsOf_eq_nil (acc.not_begun untouched), undelivered⟩
      rcases List.mem_append.mp untouched with waiting | dropped
      · exact .inl waiting
      · obtain ⟨b, future⟩ := acc.futures number dropped
        exact .inr ⟨dropped, by rw [← Option.some.inj (future.symm.trans recorded)]⟩
    · obtain ⟨⟨other, result⟩, member, rfl⟩ := List.mem_map.mp running
      right
      exact ⟨result, acc.runs_of_begun (List.mem_append_left _ member) recorded, .inl ⟨member, undelivered⟩⟩
  · obtain ⟨⟨other, result⟩, member, rfl⟩ := List.mem_map.mp delivered
    right
    exact ⟨result, acc.runs_of_begun (List.mem_append_right _ member) recorded,
      .inr (acc.resultsOf_delivered member)⟩

/-- Nothing that has been entered is lost or changed later. -/
structure Grows (earlier later : Ledger) : Prop where
  requests : earlier.requests <+: later.requests
  runs : earlier.runs <+: later.runs
  delivered : earlier.delivered <+: later.delivered
  dropped : earlier.dropped <+: later.dropped

theorem Grows.refl (l : Ledger) : l.Grows l :=
  ⟨List.prefix_rfl, List.prefix_rfl, List.prefix_rfl, List.prefix_rfl⟩

theorem Grows.trans {first second third : Ledger} (one : first.Grows second) (two : second.Grows third) :
    first.Grows third :=
  ⟨one.requests.trans two.requests, one.runs.trans two.runs, one.delivered.trans two.delivered,
    one.dropped.trans two.dropped⟩

theorem grows_move (l : Ledger) (move : Move) : l.Grows (l.move move) := by
  have same := Grows.refl l
  cases move with
  | step step prompt =>
    simp only [move]
    cases l.session.builders[step.builder]? with
    | none => exact ⟨same.requests, same.runs, same.delivered, same.dropped⟩
    | some b =>
      have dropped := record_dropped { l with session := (l.session.step step).1 } b (l.session.step step).2.outcome
      exact ⟨by simp [record_requests], by simp, by simp, dropped⟩
  | start number =>
    simp only [move]
    cases l.waitingWork? number with
    | none => exact same
    | some work => exact ⟨same.requests, List.prefix_append .., same.delivered, same.dropped⟩
  | finish number =>
    simp only [move]
    cases l.running.find? fun entry => entry.1 == number with
    | none => exact same
    | some entry => exact ⟨same.requests, same.runs, List.prefix_append .., same.dropped⟩
  | discard number =>
    simp only [move]
    cases l.waitingWork? number with
    | none => exact same
    | some work =>
      simp only
      split
      · exact same
      · exact ⟨same.requests, same.runs, same.delivered, List.prefix_append ..⟩
  | read => exact ⟨same.requests, same.runs, same.delivered, same.dropped⟩

theorem grows_play (l : Ledger) (moves : List Move) : l.Grows (l.play moves) := by
  induction moves generalizing l with
  | nil => exact .refl l
  | cons move rest ih => exact (grows_move l move).trans (ih (l.move move))

theorem Accounted.resultsOf_drive (acc : l.Accounted executor) {number : Nat} (member : number ∈ l.waiting) :
    ∃ result, (l.play [.start number, .finish number]).resultsOf number = [result] := by
  obtain ⟨request, recorded, -⟩ := acc.waitingWork? member
  have delivered : (number, (l.session.perform request.work).2.result) ∈
      (l.play [.start number, .finish number]).delivered := by
    rw [drive acc member recorded]
    exact List.mem_append_right _ (List.mem_singleton_self _)
  exact ⟨_, (accounted_play acc _).resultsOf_delivered delivered⟩

/-- The future of an awaited fetch is one of those that are driven. -/
theorem Accounted.fetch_served (acc : l.Accounted executor) {index : Nat} {b : Builder}
    (there : l.session.builders[index]? = some b) :
    let played := l.play (l.stepMoves ⟨index, .fetch .await⟩)
    played.requests = l.requests ++ [⟨b, .future⟩] ∧ ∃ result counts settled,
      (l.session.step ⟨index, .fetch .await⟩).2.outcome = .fetched result counts settled ∧
        played.Served l.requests.length ⟨b, .future⟩ result ∧ played.resultsOf l.requests.length = [result] := by
  intro played
  obtain ⟨-, requests, -, -, delivered⟩ := play_fetch acc there
  obtain ⟨-, ⟨counts, outcome⟩, -⟩ := l.session.fetch_await index b
  have stepped : (l.session.step ⟨index, .fetch .await⟩).2.outcome = (l.session.fetch index b .await).outcome := by
    simp only [Session.step, there, Session.act]
  have later : played.Accounted executor := accounted_play acc _
  have handed : (l.requests.length, _) ∈ played.delivered :=
    delivered ▸ List.mem_append_right _ (List.mem_singleton_self _)
  have recorded : played.requests[l.requests.length]? = some ⟨b, .future⟩ := by
    rw [requests]
    exact List.getElem?_concat_length
  have told := later.resultsOf_delivered handed
  exact ⟨requests, _, counts, _, stepped.trans outcome,
    ⟨later.runs_of_begun (List.mem_append_right _ handed) recorded, .inr told⟩, told⟩

end Ledger

-- The callback learns of the statement as it stood at the call, not of the condition that came after it.
example :
    ((Ledger.opening [{ table := "t" }] (.echo none)).play
      [.step ⟨0, .call (.ok (.filterEq "a" "1"))⟩ rfl, .step ⟨0, .execute none true⟩ rfl,
        .step ⟨0, .call (.ok (.filterEq "b" "2"))⟩ rfl, .start 0, .finish 0]).resultsOf 0 =
      [.ok (.statement ⟨"SELECT * FROM t WHERE a = ?", ["1"], [26]⟩)] := by
  cbv

end SqlSelect
