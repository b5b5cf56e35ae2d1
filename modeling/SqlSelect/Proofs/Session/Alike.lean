import SqlSelect.Proofs.Builder.Redaction
import SqlSelect.Proofs.Session.Evolution
import SqlSelect.Proofs.Session.Schedule
import Mathlib.Data.List.Forall2

namespace SqlSelect

/-- An executor up to what has been sent over its connection. -/
def Executor.channel : Executor → Executor
  | .server (.available _) _ client => .server (.available true) [] client
  | executor => executor

/-- Results that differ in values at most, unless a server has seen the values. -/
inductive Result.Alike : Result → Result → Prop
  | failed (error : Error) : Alike (.error error) (.error error)
  | handedBack {q r : Statement} (statements : q.Alike r) : Alike (.ok (.statement q)) (.ok (.statement r))
  | received {q r : Statement} (statements : q.Alike r) (client : Client) (replies others : List Reply) :
      Alike (Executor.send client replies q.escaped).result (Executor.send client others r.escaped).result

namespace Executor

theorem channel_send (client : Client) (replies : List Reply) (text : String) :
    (send client replies text).executor.channel = .server (.available true) [] client := by
  unfold send
  repeat' split
  all_goals rfl

theorem channel_run (executor : Executor) (q : Statement) : (executor.run q).executor.channel = executor.channel := by
  cases executor with
  | echo failure => cases failure <;> rfl
  | server access replies client =>
    cases access with
    | available connected => exact channel_send client replies q.escaped
    | poolClosed => rfl
    | poolRefused => rfl

theorem run_alike {executor other : Executor} (channel : executor.channel = other.channel) {q r : Statement}
    (statements : q.Alike r) : Result.Alike (executor.run q).result (other.run r).result := by
  cases executor with
  | echo failure =>
    cases other with
    | echo _ =>
      obtain rfl := Executor.echo.inj channel
      cases failure with
      | none => exact .handedBack statements
      | some error => exact .failed error
    | server access _ _ => cases access <;> cases channel
  | server access replies client =>
    cases other with
    | echo _ => cases access <;> cases channel
    | server access' others _ =>
      cases access <;> cases access' <;> cases channel
      · exact .received statements client replies others
      · exact .failed _
      · exact .failed _

end Executor

def Dispatch.redacted (work : Dispatch) : Dispatch :=
  { work with prepared := work.prepared.map Statement.redacted }

def Dispatch.isPrepared (work : Dispatch) : Bool :=
  work.prepared.isOk

theorem Dispatch.isPrepared_redacted (work : Dispatch) : work.redacted.isPrepared = work.isPrepared := by
  obtain ⟨path, prepared⟩ := work
  cases prepared <;> rfl

def Dispatch.Yields (channel : Executor) (work : Dispatch) (finished : Finished) : Prop :=
  ∃ s : Session, s.executor.channel = channel ∧ (s.perform work).2 = finished

/-- What was settled in two sessions. The texts that a server has received hold values and may differ. -/
structure Settled.Alike (settled other : Settled) : Prop where
  results : List.Forall₂ Result.Alike settled.results other.results
  runs : settled.runs = other.runs
  sent : settled.sent.isSome = other.sent.isSome

namespace Session

/-- Sessions that differ in bound values at most, and in what a server was sent and answered because of them. -/
structure Alike (s t : Session) : Prop where
  builders : s.builders.map Builder.redacted = t.builders.map Builder.redacted
  channel : s.executor.channel = t.executor.channel
  outstanding : s.outstanding.map Dispatch.redacted = t.outstanding.map Dispatch.redacted
  runs : s.runs = t.runs

variable {s t : Session}

theorem channel_perform (s : Session) (work : Dispatch) :
    (s.perform work).1.executor.channel = s.executor.channel := by
  unfold perform
  cases work.prepared with
  | error error => rfl
  | ok q => exact s.executor.channel_run q

theorem runs_perform (s : Session) (work : Dispatch) :
    (s.perform work).1.runs = s.runs + if work.isPrepared then 1 else 0 := by
  obtain ⟨path, prepared⟩ := work
  cases prepared <;> rfl

theorem result_alike (channel : s.executor.channel = t.executor.channel) {work other : Dispatch}
    (works : work.redacted = other.redacted) :
    Result.Alike (s.perform work).2.result (t.perform other).2.result := by
  obtain ⟨path, prepared⟩ := work
  obtain ⟨path', prepared'⟩ := other
  cases Compiled.alike_of_redacted (congrArg Dispatch.prepared works) with
  | failed error => exact .failed error
  | ok statements => exact Executor.run_alike channel statements

theorem performAll_yields (s : Session) (works : List Dispatch) :
    (s.performAll works).1.executor.channel = s.executor.channel ∧
      (s.performAll works).1.runs = s.runs + works.countP Dispatch.isPrepared ∧
      List.Forall₂ (Dispatch.Yields s.executor.channel) works (s.performAll works).2 := by
  induction works generalizing s with
  | nil => exact ⟨rfl, rfl, .nil⟩
  | cons work rest ih =>
    obtain ⟨channel, runs, yields⟩ := ih (s.perform work).1
    rw [channel_perform] at channel yields
    rw [performAll_cons]
    refine ⟨channel, ?_, .cons ⟨s, rfl, rfl⟩ yields⟩
    rw [runs, runs_perform, List.countP_cons]
    omega

theorem channel_settle (s : Session) : s.settle.1.executor.channel = s.executor.channel := by
  rw [settle_session]
  exact (s.performAll_yields _).1

theorem runs_settle (s : Session) : s.settle.1.runs = s.runs + s.outstanding.countP Dispatch.isPrepared := by
  have works := s.startList_perm.map Prod.fst
  rw [List.zipIdx_map_fst] at works
  rw [settle_session, ← works.countP_eq]
  exact (s.performAll_yields _).2.1

/-- Whatever the order in which the work started, each result is one of the work in its place. -/
theorem settle_yields (s : Session) :
    List.Forall₂ (Dispatch.Yields s.executor.channel) s.outstanding s.settle.2 := by
  refine List.forall₂_iff_get.mpr ⟨s.length_settle.symm, fun index bound listed => ?_⟩
  -- Settling files each result under the number of its work, so it can be followed back to where that work started.
  have place : (index, s.settle.2[index]) ∈ (List.range s.outstanding.length).zip s.settle.2 :=
    List.mem_iff_getElem.mpr ⟨index, by simpa [Nat.lt_min] using ⟨bound, listed⟩, by simp⟩
  obtain ⟨start, begun, same⟩ := List.mem_iff_getElem.mp (s.settle_perm.mem_iff.mp place)
  obtain ⟨-, yields⟩ := List.forall₂_iff_get.mp (s.performAll_yields (s.startList.map Prod.fst)).2.2
  simp only [List.length_zip, List.length_map, length_performAll, Nat.min_self] at begun
  have own := yields start (by simpa using begun) (by simpa [length_performAll] using begun)
  have numbered := s.startList_perm.mem_iff.mp (List.getElem_mem begun)
  simp only [List.getElem_zip, List.getElem_map, Prod.mk.injEq] at same
  have there := List.mem_zipIdx_iff_getElem?.mp numbered
  rw [same.1, List.getElem?_eq_getElem bound] at there
  simpa [← Option.some.inj there, ← same.2] using own

theorem yields_alike {channel : Executor} {works others : List Dispatch} {finished finished' : List Finished}
    (same : works.map Dispatch.redacted = others.map Dispatch.redacted)
    (yields : List.Forall₂ (Dispatch.Yields channel) works finished)
    (yields' : List.Forall₂ (Dispatch.Yields channel) others finished') :
    List.Forall₂ Result.Alike (finished.map Finished.result) (finished'.map Finished.result) := by
  induction yields generalizing others finished' with
  | nil =>
    obtain rfl := List.map_eq_nil_iff.mp same.symm
    cases yields'
    exact .nil
  | cons first _ ih =>
    cases yields' with
    | nil => cases same
    | cons second rest =>
      obtain ⟨own, own_channel, rfl⟩ := first
      obtain ⟨other, other_channel, rfl⟩ := second
      obtain ⟨head, tail⟩ := List.cons.inj same
      exact .cons (result_alike (own_channel.trans other_channel.symm) head) (ih tail rest)

/-- Work done in two sessions and in two orders still comes to results that are alike in pairs. -/
theorem settle_alike (alike : s.Alike t) : s.settle.1.Alike t.settle.1 ∧
    List.Forall₂ Result.Alike (s.settle.2.map Finished.result) (t.settle.2.map Finished.result) := by
  have count (works : List Dispatch) :
      (works.map Dispatch.redacted).countP Dispatch.isPrepared = works.countP Dispatch.isPrepared := by
    rw [List.countP_map]
    exact List.countP_congr fun work _ => by simp [Dispatch.isPrepared_redacted]
  -- The two may start their work in different orders: a value with a NUL keeps a text from being sent, and then no
  -- task gets its turn where it would have otherwise.
  refine ⟨⟨?_, ?_, ?_, ?_⟩, ?_⟩
  · simpa using alike.builders
  · simpa only [channel_settle] using alike.channel
  · simp [settle_session]
  · rw [runs_settle, runs_settle, alike.runs, ← count, alike.outstanding, count]
  · exact yields_alike alike.outstanding s.settle_yields (alike.channel ▸ t.settle_yields)

theorem perform_alike (alike : s.Alike t) {work other : Dispatch} (works : work.redacted = other.redacted) :
    (s.perform work).1.Alike (t.perform other).1 := by
  refine ⟨?_, ?_, ?_, ?_⟩
  · simpa using alike.builders
  · simpa only [channel_perform] using alike.channel
  · simpa using alike.outstanding
  · rw [runs_perform, runs_perform, alike.runs, ← work.isPrepared_redacted, works, other.isPrepared_redacted]

theorem readSent_alike (alike : s.Alike t) :
    s.readSent.1.Alike t.readSent.1 ∧ s.readSent.2.isSome = t.readSent.2.isSome := by
  have server (executor : Executor) : executor.channel.hasServer = executor.hasServer := by
    cases executor with
    | echo failure => rfl
    | server access replies client => cases access <;> rfl
  refine ⟨⟨by simpa using alike.builders, by simpa using alike.channel, by simpa using alike.outstanding,
    by simpa using alike.runs⟩, ?_⟩
  unfold readSent
  rw [← server, alike.channel, server]
  cases t.executor.hasServer <;> rfl

theorem await_alike (alike : s.Alike t) : s.await.1.Alike t.await.1 ∧ s.await.2.1.Alike t.await.2.1 := by
  obtain ⟨settled, results⟩ := settle_alike alike
  obtain ⟨read, sent⟩ := readSent_alike settled
  exact ⟨read, results, read.runs, sent⟩

theorem setBuilder_alike (alike : s.Alike t) (index : Nat) {b c : Builder} (builders : b.redacted = c.redacted) :
    (s.setBuilder index b).Alike (t.setBuilder index c) := by
  refine ⟨?_, alike.channel, alike.outstanding, alike.runs⟩
  simp [setBuilder, List.map_set, alike.builders, builders]

theorem defer_alike (alike : s.Alike t) {work other : Dispatch} (works : work.redacted = other.redacted) :
    (s.defer work).Alike (t.defer other) := by
  refine ⟨alike.builders, alike.channel, ?_, alike.runs⟩
  simp [defer, alike.outstanding, works]

theorem prepare_alike (alike : s.Alike t) (index : Nat) {b c : Builder} (builders : b.redacted = c.redacted) :
    (s.prepare index b).1.Alike (t.prepare index c).1 ∧
      (s.prepare index b).2.1.redacted = (t.prepare index c).2.1.redacted ∧
      (s.prepare index b).2.2 = (t.prepare index c).2.2 := by
  have config : b.config = c.config := (congrArg Builder.config builders :)
  unfold prepare
  rw [← config]
  rcases Builder.take_alike builders b.config.resetAfterExecute with
    ⟨error, mine, theirs⟩ | ⟨taken, other, mine, theirs, statement, event, left⟩
  · rw [mine, theirs]
    exact ⟨alike, rfl, rfl⟩
  · rw [mine, theirs]
    exact ⟨setBuilder_alike alike index left, congrArg (fun q => Dispatch.mk .future (.ok q)) statement,
      congrArg List.singleton event⟩

end Session

end SqlSelect
