import AgminaRuntime.StoreRules

/-!
# Receipts, expiry and sessions under the live invariant

A receipt written by the coordinator ends its job, so no write makes a job
live; the sweep of `_expire` leaves only jobs of the current generation; and
every operation on sessions keeps what holds between two steps.
-/

namespace AgminaRuntime

open Durable Durable.Program Keyed

variable {who : Author} {lifetime : Lifetime} {self : Coordinator} {ledger : Ledger}
  {raised : PyExc → Ledger → Coordinator → Prop}

@[simp]
theorem wp_nowNs {guarantee : Ledger → Ledger → Prop} {normal : Ns → Ledger → Coordinator → Prop} :
    wp Runtime.nowNs guarantee normal raised ledger self ↔
      normal (self.clock.nowNs self.reads) ledger { self with reads := self.reads + 1 } := by
  simp [Runtime.nowNs]

/-- An operation has raised an exception that its caller sees. -/
def Refused (lifetime : Lifetime) (exception : PyExc) (ledger : Ledger) (self : Coordinator) :
    Prop :=
  Running lifetime ledger self ∧ exception ≠ .integrityError ∧ exception.endsProcess = false

namespace Running

theorem read (running : Running lifetime ledger self) :
    Running lifetime ledger { self with reads := self.reads + 1 } :=
  ⟨running.toLive.read, running.current⟩

theorem store (running : Running lifetime ledger self) (computed : List CacheEntry) :
    Running (lifetime.store computed) ledger self :=
  ⟨running.toLive.store computed, running.current⟩

theorem note (running : Running lifetime ledger self) (atNs : Ns) (kind : Event) :
    Running lifetime (ledger.note atNs kind) self :=
  ⟨running.toLive.note atNs kind, running.current⟩

end Running

/-! ## Writing a receipt -/

theorem JobState.isLive_of_isDead {state : JobState} (dead : state.isDead = true) :
    state.isLive = false := by
  cases state <;> simp_all [JobState.isDead, JobState.isLive]

/-- A dead receipt that nobody has claimed carries all it must. -/
theorem Receipt.complete_of_dead {receipt : Receipt} (dead : receipt.state.isDead = true)
    (unclaimed : receipt.consumedBy.isSome = false) : receipt.Complete := by
  have notLive : receipt.state.isLive ≠ true := by
    rw [JobState.isLive_of_isDead dead]
    simp
  have notResult : ¬ (receipt.state = .succeeded ∨ receipt.state = .consumed) := by
    rintro (succeeded | consumed)
    · rw [succeeded] at dead
      contradiction
    · rw [consumed] at dead
      contradiction
  refine
    { readable := fun live => absurd live notLive
      predicted := fun result => absurd result notResult
      claimed := ?_
      returnable := fun consumed => absurd (.inr consumed) notResult
      unanswered := fun live => absurd live notLive
      started := fun running => absurd (by rw [running]; rfl) notLive }
  rw [unclaimed]
  exact ⟨fun consumed => absurd (.inr consumed) notResult, fun claimed => by contradiction⟩

/-- A receipt that can still move has not been claimed. -/
theorem Receipt.Complete.unclaimed {receipt : Receipt} (complete : receipt.Complete)
    (unconsumed : receipt.state ≠ .consumed) : receipt.consumedBy.isSome = false := by
  rw [← Bool.not_eq_true, ← complete.claimed]
  exact unconsumed

theorem Receipt.Complete.moved {stored receipt : Receipt} {state : JobState}
    (complete : stored.Complete) (read : stored.reparse = some receipt)
    (edge : state ∈ stored.state.successors) (dead : state.isDead = true) (text : String) :
    Receipt.Complete { receipt with state := state, reason := some (PyStr.ofString text) } := by
  obtain ⟨reason, providerRequestId, -, -, -, rfl⟩ := Receipt.reparse_eq_some_iff.mp read
  refine Receipt.complete_of_dead dead (complete.unclaimed ?_)
  intro consumed
  rw [consumed] at edge
  simp [JobState.successors] at edge

theorem Ledger.subsides_write {before : Ledger} {row : JobRow} {receipt : Receipt}
    (found : before.jobs.lookup row.key = some row) (sameJob : receipt.jobId = row.job.id)
    (ended : receipt.state.isLive = false) :
    before.Subsides (before.writeReceipt row.job.tenant receipt) := by
  refine ⟨rfl, ?_⟩
  intro key stored storedFound live
  by_cases same : key = row.key
  · subst same
    rw [Ledger.lookup_writeReceipt_self found sameJob, Option.some.injEq] at storedFound
    subst storedFound
    rw [show (row.withReceipt receipt).receipt = receipt from rfl, ended] at live
    contradiction
  · rw [Ledger.lookup_writeReceipt_of_ne sameJob same] at storedFound
    exact ⟨stored, storedFound, live, rfl⟩

/-- What `_set` leaves: the receipt in its new state, and everything else as it
was. -/
structure Moved (lifetime : Lifetime) (before : Ledger) (job : Job) (state : JobState)
    (updated : Receipt) (after : Ledger) (memory : Coordinator) : Prop where
  live : Live lifetime after memory
  subsides : before.Subsides after
  others : before.SameBut job.key after
  stored : after.Stored (job, updated)
  state : updated.state = state
  attempts : after.attempts = before.attempts

theorem wp_setState {job : Job} {stored receipt : Receipt} {state : JobState} (text : String)
    (live : Live lifetime ledger self)
    (found : ledger.Stored (job, stored))
    (read : stored.reparse = some receipt)
    (edge : state ∈ stored.state.successors)
    (dead : state.isDead = true)
    (carried : stored.state = .running → state.inTask = true) :
    wp (Runtime.setState job receipt state text) (Commit who)
      (fun updated => Moved lifetime ledger job state updated) raised ledger self := by
  have rowSound := live.sound.rows _ _ found
  have ended : state.isLive = false := JobState.isLive_of_isDead dead
  obtain ⟨reason, providerRequestId, -, -, -, same⟩ := Receipt.reparse_eq_some_iff.mp read
  let row : JobRow := ⟨job, stored⟩
  let updated : Receipt := { receipt with state := state, reason := some (PyStr.ofString text) }
  have rowFound : ledger.jobs.lookup row.key = some row := found
  have sameJob : updated.jobId = row.job.id := by
    rw [show updated.jobId = receipt.jobId from rfl, same]
    exact rowSound.sameJob
  have sameAnswer : row.receipt.SameAnswer updated := by
    subst same
    exact ⟨rfl, rfl, rfl, rfl⟩
  have sameStart : updated.startedNs = stored.startedNs := by
    rw [show updated.startedNs = receipt.startedNs from rfl, same]
  have spared : updated.spared = true →
      row.receipt.spared = true ∨ ledger.attempts.lookup row.key = none := by
    by_cases refused : state = .rejected
    · have queued : stored.state = .queued := by
        rw [refused] at edge
        cases stateEq : stored.state <;> simp_all [JobState.successors]
      exact fun _ => .inr (live.unattempted _ row rowFound queued)
    · exact fun isSpared => .inl (Receipt.spared_of_moved sameAnswer.1 refused isSpared)
  have commit : Commit who ledger (ledger.writeReceipt row.job.tenant updated) :=
    .write rowFound sameJob (rowSound.complete.moved read edge dead text) (.inl edge)
      (fun _ succeeded => by
        rw [show state = .succeeded from succeeded] at dead
        contradiction) spared
      (fun _ => (Receipt.readable_of_reparse read).moved state text) (fun _ => .inl sameAnswer)
  have outside : stored.state ∉ [JobState.expired, .stale, .cancelled] := by
    intro ended
    simp only [List.mem_cons, List.not_mem_nil, or_false] at ended
    rcases ended with stateEq | stateEq | stateEq <;>
      simp [stateEq, JobState.successors] at edge
  have written : Live lifetime (ledger.writeReceipt row.job.tenant updated) self := by
    refine live.write rowFound sameJob commit ended outside ?_
    intro running
    exact ⟨carried running, (Receipt.readable_of_reparse read).moved state text,
      by rw [sameStart]; exact rowSound.complete.started running⟩
  simp only [Runtime.setState, wp_bind, wp_receipt, wp_nowNs, wp_event, wp_pure]
  exact ⟨commit, .note _ _, written.read.note _ _,
    (Ledger.subsides_write rowFound sameJob ended).note _ _,
    fun other differs => Ledger.lookup_writeReceipt_of_ne sameJob differs,
    Ledger.lookup_writeReceipt_self rowFound sameJob, rfl, rfl⟩

theorem wp_moveTo {job : Job} {stored receipt : Receipt} {state : JobState} (text : String)
    (live : Live lifetime ledger self)
    (found : ledger.Stored (job, stored))
    (read : stored.reparse = some receipt)
    (edge : state ∈ stored.state.successors)
    (dead : state.isDead = true)
    (carried : stored.state = .running → state.inTask = true) :
    wp (Runtime.moveTo job receipt state text) (Commit who)
      (fun _ after self => ∃ updated, Moved lifetime ledger job state updated after self)
      raised ledger self := by
  simp only [Runtime.moveTo, wp_bind]
  exact wp_post (wp_setState text live found read edge dead carried)
    (fun updated _ _ moved => (wp_pure ()).mpr ⟨updated, moved⟩) (fun _ _ _ failed => failed)

/-- A receipt that was read from a live row. -/
theorem Moved.dead {before after : Ledger} {job : Job} {state : JobState} {updated : Receipt}
    (moved : Moved lifetime before job state updated after self) (dead : state.isDead = true)
    {row : JobRow} (found : after.jobs.lookup job.key = some row) :
    row.receipt.state.isLive = false := by
  obtain rfl : row = ⟨job, updated⟩ := Option.some.inj (found.symm.trans moved.stored)
  rw [show (JobRow.mk job updated).receipt.state = state from moved.state]
  exact JobState.isLive_of_isDead dead

theorem Moved.running {before after : Ledger} {memory : Coordinator} {job : Job}
    {state : JobState} {updated : Receipt} (running : Running lifetime before self)
    (moved : Moved lifetime before job state updated after memory) :
    Running lifetime after memory := by
  refine ⟨moved.live, ?_⟩
  rw [moved.live.clock, ← running.clock]
  exact running.current.subsides moved.subsides

/-! ## Expiry -/

theorem InvalidReason.state_isDead (reason : InvalidReason) : reason.state.isDead = true := by
  rw [InvalidReason.state_eq]
  split <;> rfl

theorem InvalidReason.state_edge (reason : InvalidReason) {state : JobState}
    (live : state.isLive = true) : reason.state ∈ state.successors := by
  cases reason <;> cases state <;>
    simp_all [JobState.isLive, JobState.successors, InvalidReason.state_eq]

theorem InvalidReason.state_ends (reason : InvalidReason) :
    reason.state ∈ [JobState.expired, .stale] := by
  rw [InvalidReason.state_eq]
  split <;> simp

theorem InvalidReason.state_ne_queued (reason : InvalidReason) : reason.state ≠ .queued := by
  rw [InvalidReason.state_eq]
  split <;> simp

theorem InvalidReason.state_inTask (reason : InvalidReason) : reason.state.inTask = true := by
  rw [InvalidReason.state_eq]
  split <;> rfl

/-- A job that is valid now is of the current generation. -/
theorem Session.current_of_valid {job : Job} {session : Session} {nowNs : Ns} {clockId : Name}
    (valid : job.invalidReason session nowNs clockId = none) :
    session.Current job clockId := by
  obtain ⟨⟨-, clock⟩, ⟨generation, active⟩, -⟩ := Job.invalidReason_eq_none_iff.mp valid
  simp only [Prod.mk.injEq] at generation
  exact ⟨active, clock, generation.1.symm, generation.2.2.1.symm, generation.2.2.2.symm⟩

theorem Session.admits_of_valid {job : Job} {session : Session} {nowNs : Ns} {clockId : Name}
    (valid : job.invalidReason session nowNs clockId = none) : session.Admits job := by
  obtain ⟨⟨jobClock, sessionClock⟩, ⟨generation, -⟩, -⟩ :=
    Job.invalidReason_eq_none_iff.mp valid
  simp only [Prod.mk.injEq] at generation
  exact ⟨by rw [generation.2.2.1], fun _ => ⟨generation.2.2.2.symm, by rw [sessionClock, jobClock]⟩⟩

/-- The row of a job is of the current generation, if it is live. -/
def Ledger.RowCurrent (ledger : Ledger) (clockId : Name) (row : JobRow) : Prop :=
  row.receipt.state.isLive = true →
    ∃ session, ledger.sessions.lookup row.job.sessionKey = some session ∧
      session.Current row.job clockId

theorem wp_expireJob (now : Ns) {entry : Job × Receipt} (live : Live lifetime ledger self)
    (found : ledger.Stored entry) (alive : entry.2.state.isLive = true) :
    wp (Runtime.expireJob now entry) (Commit who)
      (fun _ after self => Live lifetime after self ∧ ledger.Subsides after ∧
        ledger.SameBut entry.1.key after ∧
          ∀ row, after.jobs.lookup entry.1.key = some row →
            after.RowCurrent lifetime.clock.id row)
      raised ledger self := by
  obtain ⟨job, receipt⟩ := entry
  have rowSound := live.sound.rows _ _ found
  obtain ⟨session, sessionFound⟩ := Option.isSome_iff_exists.mp rowSound.session
  simp only [Runtime.expireJob, wp_bind, wp_readVolatile, wp_session sessionFound]
  cases reasonEq : job.invalidReason session now self.clock.id with
  | none =>
      refine (wp_pure ()).mpr ⟨live, .refl ledger, fun _ _ => rfl, ?_⟩
      intro row rowFound _
      obtain rfl : row = ⟨job, receipt⟩ := Option.some.inj (rowFound.symm.trans found)
      exact ⟨session, sessionFound, by rw [← live.clock]; exact Session.current_of_valid reasonEq⟩
  | some reason =>
      refine wp_post (wp_moveTo _ live found (rowSound.complete.readable alive)
        (reason.state_edge alive) reason.state_isDead fun _ => reason.state_inTask) ?_
        (fun _ _ _ failed => failed)
      rintro _ after self ⟨updated, moved⟩
      refine ⟨moved.live, moved.subsides, moved.others, ?_⟩
      intro row rowFound rowLive
      rw [moved.dead reason.state_isDead rowFound] at rowLive
      contradiction

/-- The sweep leaves only live work of the current generation. -/
theorem wp_expire (live : Live lifetime ledger self) :
    wp Runtime.expire (Commit who)
      (fun _ after self => Running lifetime after self ∧ ledger.Subsides after)
      raised ledger self := by
  simp only [Runtime.expire, wp_bind, wp_readVolatile, wp_nowNs]
  refine wp_jobs live.sound live.tenant (by simp) (by simp [JobState.isLive]) ?_
  intro entries reads
  refine wp_post (wp_forEach_stored id
    (fun rest after self => Live lifetime after self ∧ ledger.Subsides after ∧
      (∀ entry ∈ rest, entry.2.state.isLive = true) ∧
      ∀ key row, after.jobs.lookup key = some row →
        (∃ entry ∈ rest, entry.1.key = key) ∨ after.RowCurrent lifetime.clock.id row)
    ?_ reads.stored reads.distinct ⟨live.read, .refl ledger, ?_, ?_⟩) ?_
    (fun _ _ _ failed => failed)
  · rintro entry rest middle self ⟨live, subsides, alive, current⟩ stored
    refine wp_post (wp_expireJob _ live stored (alive entry List.mem_cons_self)) ?_
      (fun _ _ _ failed => failed)
    rintro _ after self ⟨live, step, others, entryCurrent⟩
    refine ⟨⟨live, subsides.trans step,
      fun other member => alive other (List.mem_cons_of_mem _ member), ?_⟩, others⟩
    intro key row found
    by_cases same : key = entry.1.key
    · subst same
      exact .inr (entryCurrent row found)
    · rw [others key same] at found
      rcases current key row found with ⟨other, member, sameKey⟩ | current
      · rcases List.mem_cons.mp member with rfl | later
        · exact absurd sameKey.symm same
        · exact .inl ⟨other, later, sameKey⟩
      · refine .inr fun rowLive => ?_
        rw [step.sessions]
        exact current rowLive
  · intro entry member
    have state := reads.selected entry member
    simp only [List.mem_cons, List.not_mem_nil, or_false] at state
    rcases state with queued | running
    · rw [queued]; rfl
    · rw [running]; rfl
  · intro key row found
    by_cases rowLive : row.receipt.state.isLive = true
    · refine .inl ⟨(row.job, row.receipt), reads.complete key row found ?_, ?_⟩
      · cases stateEq : row.receipt.state <;> simp_all [JobState.isLive]
      · exact (Table.key_of_lookup found : row.key = key)
    · exact .inr fun live => absurd live rowLive
  · rintro _ after self ⟨live, subsides, -, current⟩
    refine ⟨⟨live, ?_⟩, subsides⟩
    intro key row found rowLive
    rcases current key row found with ⟨_, member, _⟩ | current
    · simp at member
    · rw [live.clock]
      exact current rowLive

end AgminaRuntime
