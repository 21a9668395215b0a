import AgminaRuntime.EvidenceLineage
import AgminaRuntime.SessionGenerations
import AgminaRuntime.TickTurns

/-!
# What a tick gathers

The journal keeps every dependency before the jobs that depend on it, and the
states of the dependencies are read again for each queued job, so one pass over
the queue rejects everything behind a failed job.  What is left with all its
dependencies delivered is ranked.
-/

namespace AgminaRuntime

open Durable Durable.Program Keyed

/-! ## Dependencies -/

/-- Every dependency of the job has delivered. -/
def Ledger.DependenciesMet (ledger : Ledger) (job : Job) : Prop :=
  ∀ dependency ∈ job.dependencies, ∃ row,
    ledger.jobs.lookup (job.tenant, dependency) = some row ∧
      row.receipt.state ∈ [JobState.succeeded, .consumed]

/-- The receipts of the dependencies of the queued jobs that are valid at a reading
of the clock can be read back. -/
def Ledger.DependenciesReadable (ledger : Ledger) (clock : Clock) (reading : Nat) : Prop :=
  ∀ child ∈ ledger.jobs.rows, child.receipt.state = .queued →
    ledger.invalidReason clock reading child.job = none →
      ∀ dependency ∈ child.job.dependencies,
        ∀ row ∈ ledger.jobs.lookup (child.job.tenant, dependency), row.receipt.Readable

instance (ledger : Ledger) (clock : Clock) (reading : Nat) :
    Decidable (ledger.DependenciesReadable clock reading) :=
  inferInstanceAs (Decidable (∀ child ∈ ledger.jobs.rows, child.receipt.state = .queued →
    ledger.invalidReason clock reading child.job = none →
      ∀ dependency ∈ child.job.dependencies,
        ∀ row ∈ ledger.jobs.lookup (child.job.tenant, dependency), row.receipt.Readable))

/-- A job has failed ancestors: a dependency is dead once the expired jobs are
swept, or one that was queued before has failed ancestors itself. -/
inductive Ledger.Doomed (before swept : Ledger) : Job → Prop
  | dead {job : Job} {dependency : Name} {row : JobRow}
      (depends : dependency ∈ job.dependencies)
      (found : swept.jobs.lookup (job.tenant, dependency) = some row)
      (dead : row.receipt.state.isDead = true) : Doomed before swept job
  | through {job : Job} {dependency : Name} {row : JobRow}
      (depends : dependency ∈ job.dependencies)
      (found : before.jobs.lookup (job.tenant, dependency) = some row)
      (queued : row.receipt.state = .queued)
      (doomed : Doomed before swept row.job) : Doomed before swept job

/-- A state is live, dead or delivered. -/
theorem JobState.cases_isLive (state : JobState) :
    state.isLive = true ∨ state.isDead = true ∨ state ∈ [JobState.succeeded, .consumed] := by
  cases state <;> simp [isLive, isDead]

theorem JobState.not_isLive_of_delivered {state : JobState}
    (delivered : state ∈ [JobState.succeeded, .consumed]) : state.isLive = false := by
  cases state <;> simp_all [isLive]

theorem JobState.not_isDead_of_delivered {state : JobState}
    (delivered : state ∈ [JobState.succeeded, .consumed]) : state.isDead = false := by
  cases state <;> simp_all [isDead]

/-! ## Sweeping the live rows -/

/-- Live rows may have died, and nothing else has happened to a row. -/
structure Ledger.Sweeps (before after : Ledger) : Prop where
  kept : ∀ key row, before.jobs.lookup key = some row →
    ∃ receipt, after.jobs.lookup key = some ⟨row.job, receipt⟩
  rests : ∀ key row, before.jobs.lookup key = some row → row.receipt.state.isLive = false →
    after.jobs.lookup key = some row
  ends : ∀ key row, after.jobs.lookup key = some row →
    before.jobs.lookup key = some row ∨ row.receipt.state.isDead = true

namespace Ledger.Sweeps

variable {before middle after : Ledger}

theorem refl (ledger : Ledger) : ledger.Sweeps ledger :=
  ⟨fun _ row found => ⟨row.receipt, found⟩, fun _ _ found _ => found, fun _ _ found => .inl found⟩

theorem trans (early : before.Sweeps middle) (late : middle.Sweeps after) :
    before.Sweeps after := by
  constructor
  · intro key row found
    obtain ⟨receipt, middleFound⟩ := early.kept key row found
    exact late.kept key ⟨row.job, receipt⟩ middleFound
  · intro key row found rests
    exact late.rests key row (early.rests key row found rests) rests
  · intro key row found
    rcases late.ends key row found with same | dead
    · exact early.ends key row same
    · exact .inr dead

/-- A row that is queued afterwards was there before. -/
theorem before_of_queued (sweeps : before.Sweeps after) {key : Name × Name} {row : JobRow}
    (found : after.jobs.lookup key = some row) (queued : row.receipt.state = .queued) :
    before.jobs.lookup key = some row := by
  rcases sweeps.ends key row found with same | dead
  · exact same
  · rw [queued] at dead
    contradiction

theorem met (sweeps : before.Sweeps after) {job : Job} :
    after.DependenciesMet job ↔ before.DependenciesMet job := by
  constructor
  · intro met dependency member
    obtain ⟨row, found, delivered⟩ := met dependency member
    rcases sweeps.ends _ row found with same | dead
    · exact ⟨row, same, delivered⟩
    · rw [JobState.not_isDead_of_delivered delivered] at dead
      contradiction
  · intro met dependency member
    obtain ⟨row, found, delivered⟩ := met dependency member
    exact ⟨row, sweeps.rests _ row found (JobState.not_isLive_of_delivered delivered), delivered⟩

end Ledger.Sweeps

/-- A sweep at a reading of the clock: the jobs that it leaves in the queue were
valid. -/
structure Ledger.Expires (before after : Ledger) (clock : Clock) (reading : Nat) : Prop
    extends before.Sweeps after where
  valid : ∀ key row, after.jobs.lookup key = some row → row.receipt.state = .queued →
    before.invalidReason clock reading row.job = none

section Sweeping

variable {who : Author} {lifetime : Lifetime} {self : Coordinator} {before after ledger : Ledger}
  {raised : PyExc → Ledger → Coordinator → Prop}

/-- One job has died. -/
theorem Ledger.SameBut.sweeps {job : Job} {stored updated : Receipt}
    (others : before.SameBut job.key after) (found : before.Stored (job, stored))
    (alive : stored.state.isLive = true) (died : after.Stored (job, updated))
    (dead : updated.state.isDead = true) : before.Sweeps after := by
  constructor
  · intro key row rowFound
    by_cases own : key = job.key
    · subst own
      obtain rfl : row = ⟨job, stored⟩ := Option.some.inj (rowFound.symm.trans found)
      exact ⟨updated, died⟩
    · exact ⟨row.receipt, (others key own).trans rowFound⟩
  · intro key row rowFound rests
    by_cases own : key = job.key
    · subst own
      obtain rfl : row = ⟨job, stored⟩ := Option.some.inj (rowFound.symm.trans found)
      rw [show stored.state.isLive = false from rests] at alive
      contradiction
    · exact (others key own).trans rowFound
  · intro key row rowFound
    by_cases own : key = job.key
    · subst own
      obtain rfl : row = ⟨job, updated⟩ := Option.some.inj (rowFound.symm.trans died)
      exact .inr dead
    · rw [others key own] at rowFound
      exact .inl rowFound

theorem Moved.sweeps {job : Job} {stored updated : Receipt} {state : JobState}
    (moved : Moved lifetime before job state updated after self)
    (found : before.Stored (job, stored)) (alive : stored.state.isLive = true)
    (dead : state.isDead = true) : before.Sweeps after :=
  moved.others.sweeps found alive moved.stored (by rw [moved.state]; exact dead)

/-- The sweep of expired jobs at a reading of the clock, with `rest` still to come. -/
structure Sweeping (lifetime : Lifetime) (before : Ledger) (reading : Nat)
    (rest : List (Job × Receipt)) (ledger : Ledger) (memory : Coordinator) : Prop where
  live : Live lifetime ledger memory
  sweeps : before.Sweeps ledger
  sessions : ledger.sessions = before.sessions
  alive : ∀ entry ∈ rest, entry.2.state.isLive = true
  valid : ∀ key row, ledger.jobs.lookup key = some row → row.receipt.state = .queued →
    (∃ entry ∈ rest, entry.1.key = key) ∨
      before.invalidReason lifetime.clock reading row.job = none

theorem wp_expireJob_sweeps (reading : Nat) {entry : Job × Receipt}
    (live : Live lifetime ledger self) (found : ledger.Stored entry)
    (alive : entry.2.state.isLive = true) :
    wp (Runtime.expireJob (lifetime.clock.nowNs reading) entry) (Commit who)
      (fun _ after next => Live lifetime after next ∧ ledger.Sweeps after ∧
        after.sessions = ledger.sessions ∧ ledger.SameBut entry.1.key after ∧
          ∀ row, after.jobs.lookup entry.1.key = some row → row.receipt.state = .queued →
            ledger.invalidReason lifetime.clock reading row.job = none)
      raised ledger self := by
  obtain ⟨job, receipt⟩ := entry
  have rowSound := live.sound.rows _ _ found
  obtain ⟨session, sessionFound⟩ := Option.isSome_iff_exists.mp rowSound.session
  simp only [Runtime.expireJob, wp_bind, wp_readVolatile, wp_session sessionFound]
  cases reasonEq :
    job.invalidReason session (lifetime.clock.nowNs reading) self.clock.id with
  | none =>
      refine (wp_pure ()).mpr ⟨live, .refl ledger, rfl, fun _ _ => rfl, ?_⟩
      intro row rowFound _
      obtain rfl : row = ⟨job, receipt⟩ := Option.some.inj (rowFound.symm.trans found)
      have stored : ledger.sessions.lookup job.sessionKey = some session := sessionFound
      rw [Ledger.invalidReason, stored, Option.bind_some, ← live.clock]
      rw [← live.clock] at reasonEq
      exact reasonEq
  | some reason =>
      apply wp_post (wp_moveTo _ live found (rowSound.complete.readable alive)
        (reason.state_edge alive) reason.state_isDead fun _ => reason.state_inTask) _
        (fun _ _ _ failed => failed)
      rintro _ after next ⟨updated, moved⟩
      refine ⟨moved.live, moved.sweeps found alive reason.state_isDead, moved.subsides.sessions,
        moved.others, ?_⟩
      intro row rowFound queued
      have dead := moved.dead reason.state_isDead rowFound
      rw [queued] at dead
      contradiction

/-- The sweep only ends jobs, and a job that it leaves in the queue was valid. -/
theorem wp_expire_sweeps (live : Live lifetime ledger self) :
    wp Runtime.expire (Commit who)
      (fun _ after _ => ledger.Expires after self.clock self.reads) raised ledger self := by
  have now : self.clock.nowNs self.reads = lifetime.clock.nowNs self.reads := by rw [live.clock]
  simp only [Runtime.expire, wp_bind, wp_readVolatile, wp_nowNs]
  rw [now]
  apply wp_jobs live.sound live.tenant (by simp) (by simp [JobState.isLive])
  intro entries reads
  apply wp_post (wp_forEach_stored id (Sweeping lifetime ledger self.reads) _ reads.stored
    reads.distinct ⟨live.read, .refl ledger, rfl, _, _⟩) _ (fun _ _ _ failed => failed)
  · rintro entry rest middle next sweeping stored
    apply wp_post (wp_expireJob_sweeps self.reads sweeping.live stored
      (sweeping.alive entry List.mem_cons_self)) _ (fun _ _ _ failed => failed)
    rintro _ after memory ⟨live, step, sessions, others, valid⟩
    refine ⟨⟨live, sweeping.sweeps.trans step, sessions.trans sweeping.sessions,
      fun other member => sweeping.alive other (List.mem_cons_of_mem _ member), ?_⟩, others⟩
    intro key row found queued
    by_cases same : key = entry.1.key
    · subst same
      have reason := valid row found queued
      rw [Ledger.invalidReason, sweeping.sessions] at reason
      exact .inr reason
    · rw [others key same] at found
      rcases sweeping.valid key row found queued with ⟨other, member, sameKey⟩ | reason
      · rcases List.mem_cons.mp member with rfl | later
        · exact absurd sameKey.symm same
        · exact .inl ⟨other, later, sameKey⟩
      · exact .inr reason
  · intro entry member
    have state := reads.selected entry member
    simp only [List.mem_cons, List.not_mem_nil, or_false] at state
    rcases state with queued | running
    · rw [queued]; rfl
    · rw [running]; rfl
  · intro key row found queued
    refine .inl ⟨(row.job, row.receipt), reads.complete key row found (by simp [queued]), ?_⟩
    exact (Table.key_of_lookup found : row.key = key)
  · rintro _ after next sweeping
    refine ⟨sweeping.sweeps, fun key row found queued => ?_⟩
    rcases sweeping.valid key row found queued with ⟨_, member, -⟩ | reason
    · simp at member
    · rw [live.clock]
      exact reason

end Sweeping

/-! ## What commits of the coordinator leave of a row -/

/-- A row is as it was, or its receipt can be read back. -/
def Ledger.Refreshed (before after : Ledger) : Prop :=
  ∀ key row, after.jobs.lookup key = some row →
    before.jobs.lookup key = some row ∨ row.receipt.Readable

theorem Commit.refreshed {who : Author} {before after : Ledger} (commit : Commit who before after)
    (legible : who.Legible) : before.Refreshed after := by
  intro key row found
  cases earlier : before.jobs.lookup key with
  | none => exact .inr (commit.row_new earlier found).1.readable
  | some old =>
      obtain ⟨next, nextFound, move, -⟩ := commit.row_kept earlier
      obtain rfl : next = row := Option.some.inj (nextFound.symm.trans found)
      cases move with
      | kept => exact .inl rfl
      | written _ _ _ _ readable _ => exact .inr (readable legible)

theorem Ledger.Refreshed.trans {before middle after : Ledger} (early : before.Refreshed middle)
    (late : middle.Refreshed after) : before.Refreshed after := by
  intro key row found
  rcases late key row found with same | readable
  · exact early key row same
  · exact .inr readable

theorem Lifetime.legible (lifetime : Lifetime) : lifetime.coordinator.Legible := trivial

/-- What a legible author commits refreshes the journal. -/
theorem wp_refreshed {α : Type} {who : Author} {program : RuntimeProgram α} {ledger : Ledger}
    {self : Coordinator} {normal : α → Ledger → Coordinator → Prop}
    {raised : PyExc → Ledger → Coordinator → Prop} (legible : who.Legible)
    (meets : wp program (Commit who) normal raised ledger self) :
    wp program (Commit who)
      (fun value after next => normal value after next ∧ ledger.Refreshed after)
      (fun exception after next => raised exception after next ∧ ledger.Refreshed after)
      ledger self :=
  wp_preserves ledger.Refreshed (fun _ _ commit early => early.trans (commit.refreshed legible))
    (fun _ _ found => .inl found) meets

/-! ## The verdict on a queued job -/

/-- What the first loop of a tick makes of a queued job. -/
inductive Verdict (ledger : Ledger) (entry : Job × Receipt) :
    Option (RankKey × Job × Receipt) → Ledger → Prop
  | refused {after : Ledger} {updated : Receipt} {dependency : Name} {row : JobRow}
      (depends : dependency ∈ entry.1.dependencies)
      (found : ledger.jobs.lookup (entry.1.tenant, dependency) = some row)
      (dead : row.receipt.state.isDead = true)
      (stored : after.Stored (entry.1, updated)) (rejected : updated.state = .rejected) :
      Verdict ledger entry none after
  | postponed {dependency : Name} {row : JobRow}
      (alive : ∀ dependency ∈ entry.1.dependencies, ∀ row,
        ledger.jobs.lookup (entry.1.tenant, dependency) = some row →
          row.receipt.state.isDead = false)
      (depends : dependency ∈ entry.1.dependencies)
      (found : ledger.jobs.lookup (entry.1.tenant, dependency) = some row)
      (live : row.receipt.state.isLive = true) : Verdict ledger entry none ledger
  | ranked (key : RankKey) (met : ledger.DependenciesMet entry.1) :
      Verdict ledger entry (some (key, entry)) ledger

section Verdicts

variable {lifetime : Lifetime} {self : Coordinator} {ledger : Ledger}

/-- The states of readable dependencies. -/
theorem dependencyStates_returns {job : Job}
    (readable : ∀ dependency ∈ job.dependencies, ∃ row,
      ledger.jobs.lookup (job.tenant, dependency) = some row ∧ row.receipt.Readable) :
    Returns (Runtime.dependencyStates job)
      (fun states after next => after = ledger ∧ next = self ∧
        ∀ state, state ∈ states ↔ ∃ dependency ∈ job.dependencies, ∃ row,
          ledger.jobs.lookup (job.tenant, dependency) = some row ∧ row.receipt.state = state)
      ledger self := by
  apply wp_post (wp_collect (fun rest states after next => after = ledger ∧ next = self ∧
    rest ⊆ job.dependencies ∧ ∀ state, (state ∈ states ∨ ∃ dependency ∈ rest, ∃ row,
      ledger.jobs.lookup (job.tenant, dependency) = some row ∧ row.receipt.state = state) ↔
        ∃ dependency ∈ job.dependencies, ∃ row,
          ledger.jobs.lookup (job.tenant, dependency) = some row ∧ row.receipt.state = state)
    _ ⟨rfl, rfl, List.Subset.refl _, by simp⟩) _ (fun _ _ _ failed => failed)
  · rintro dependency rest states after next ⟨rfl, rfl, within, same⟩
    obtain ⟨row, found, read⟩ := readable dependency (within List.mem_cons_self)
    simp only [wp_bind, wp_job found read]
    refine (wp_pure _).mpr ⟨rfl, rfl, fun other member => within (List.mem_cons_of_mem _ member), ?_⟩
    intro state
    rw [← same state]
    simp only [Option.toList_some, List.mem_append, List.mem_cons, exists_eq_or_imp, found,
      Option.some.injEq, exists_eq_left']
    tauto
  · rintro states after next ⟨rfl, rfl, -, same⟩
    exact ⟨rfl, rfl, by simpa using same⟩

theorem rankReady_verdict (now : Ns) {entry : Job × Receipt} (queued : ledger.Queued entry)
    (sound : ledger.Sound) (serves : self.Serves entry.1)
    (readable : ∀ dependency ∈ entry.1.dependencies, ∃ row,
      ledger.jobs.lookup (entry.1.tenant, dependency) = some row ∧ row.receipt.Readable) :
    Returns (Runtime.rankReady now entry) (fun ranked after _ => Verdict ledger entry ranked after)
      ledger self := by
  obtain ⟨job, receipt⟩ := entry
  have rowSound := sound.rows _ _ queued.1
  obtain ⟨session, sessionFound⟩ := Option.isSome_iff_exists.mp rowSound.session
  simp only [Runtime.rankReady, wp_bind, wp_readVolatile]
  apply wp_post (dependencyStates_returns readable) _ (fun _ _ _ failed => failed)
  rintro states after next ⟨rfl, rfl, same⟩
  rw [wp_ite]
  split
  · rename_i failed
    obtain ⟨state, member, outside⟩ := failed
    obtain ⟨dependency, depends, row, found, rfl⟩ := (same state).mp member
    have dead : row.receipt.state.isDead = true := by
      cases stateEq : row.receipt.state <;> simp_all [JobState.isDead]
    simp only [Runtime.moveTo, Runtime.setState, wp_bind, wp_receipt, wp_nowNs, wp_event, wp_pure,
      true_and]
    let row : JobRow := ⟨job, receipt⟩
    have rowFound : after.jobs.lookup row.key = some row := queued.1
    exact .refused depends found dead (Ledger.lookup_writeReceipt_self rowFound rowSound.sameJob)
      rfl
  · rename_i intact
    have alive : ∀ dependency ∈ job.dependencies, ∀ row,
        after.jobs.lookup (job.tenant, dependency) = some row →
          row.receipt.state.isDead = false := by
      intro dependency depends row found
      by_contra dead
      apply intact
      refine ⟨_, (same _).mpr ⟨dependency, depends, row, found, rfl⟩, ?_⟩
      cases stateEq : row.receipt.state <;> simp_all [JobState.isDead]
    rw [wp_ite]
    split
    · rename_i pending
      obtain ⟨state, member, outside⟩ := pending
      obtain ⟨dependency, depends, row, found, rfl⟩ := (same state).mp member
      apply (wp_pure _).mpr
      apply Verdict.postponed alive depends found
      rcases row.receipt.state.cases_isLive with live | dead | delivered
      · exact live
      · rw [alive dependency depends row found] at dead
        contradiction
      · contradiction
    · rename_i settled
      simp only [wp_bind, wp_session sessionFound]
      split
      · rename_i empty
        rw [List.min?_eq_none_iff, List.map_eq_nil_iff] at empty
        exact absurd empty serves.endpoints
      · apply (wp_pure _).mpr
        apply Verdict.ranked
        intro dependency depends
        obtain ⟨row, found, -⟩ := readable dependency depends
        refine ⟨row, found, ?_⟩
        by_contra pending
        exact settled ⟨_, (same _).mpr ⟨dependency, depends, row, found, rfl⟩, pending⟩

end Verdicts

/-! ## The whole queue -/

/-- The queue is read in journal order. -/
theorem Reads.inOrder {ledger : Ledger} {tenant : Name} {states : List JobState}
    {entries : List (Job × Receipt)} (reads : Reads ledger tenant states entries) :
    entries.Pairwise fun first second =>
      ledger.position first.1 < ledger.position second.1 := by
  have distinct : ledger.storedJobs.Nodup := by
    apply List.Nodup.of_map Job.key
    rw [Ledger.storedJobs, List.map_map]
    exact ledger.jobs.distinct
  have ordered : ledger.storedJobs.Pairwise fun first second =>
      ledger.position first < ledger.position second := by
    rw [List.pairwise_iff_getElem]
    intro first second firstBound secondBound before
    simp only [Ledger.position, distinct.idxOf_getElem]
    exact before
  have within : (entries.map Prod.fst).Sublist ledger.storedJobs := by
    rw [reads.rows, List.map_map]
    exact List.filter_sublist.map JobRow.job
  have sorted := ordered.sublist within
  rw [List.pairwise_map] at sorted
  exact sorted

/-- The journal after the sweep with which a tick begins. -/
def Runtime.afterExpiry (ledger : Ledger) (self : Coordinator) : Ledger :=
  (Runtime.expire ledger self).durable ledger

/-- The states in which a tick gathers: the journal that it finds, and that which
the sweep of expired jobs leaves with the queued jobs in it. -/
structure Swept (before swept : Ledger) (entries : List (Job × Receipt)) : Prop where
  sweeps : before.Sweeps swept
  traced : swept.Traced
  readable : ∀ entry ∈ entries, ∀ dependency ∈ entry.1.dependencies,
    ∀ row ∈ before.jobs.lookup (entry.1.tenant, dependency), row.receipt.Readable
  refreshed : before.Refreshed swept
  stored : ∀ entry ∈ entries, swept.Stored entry
  queued : ∀ entry ∈ entries, entry.2.state = .queued
  complete : ∀ key row, swept.jobs.lookup key = some row → row.receipt.state = .queued →
    (row.job, row.receipt) ∈ entries
  inOrder : entries.Pairwise fun first second =>
    swept.position first.1 < swept.position second.1

/-- The first loop of a tick, with what it has made of the jobs before `rest`. -/
structure Gathering (lifetime : Lifetime) (before swept : Ledger) (start : Ledger × Coordinator)
    (entries rest : List (Job × Receipt)) (ready : List (RankKey × Job × Receipt))
    (ledger : Ledger) (memory : Coordinator) : Prop where
  ranking : Ranking lifetime rest ready ledger memory
  rests : Rests start (ledger, memory)
  sweeps : swept.Sweeps ledger
  refreshed : before.Refreshed ledger
  met : ∀ item ∈ ready, swept.DependenciesMet item.2.1
  known : ∀ item ∈ ready, item.2 ∈ entries
  treated : ∃ done, entries = done ++ rest ∧ ∀ entry ∈ done,
    (before.Doomed swept entry.1 →
      ∃ updated, ledger.Stored (entry.1, updated) ∧ updated.state = .rejected) ∧
    (ledger.Queued entry → swept.DependenciesMet entry.1 → ∃ item ∈ ready, item.2 = entry)

section Gathering

variable {lifetime : Lifetime} {before swept ledger after : Ledger} {self next : Coordinator}
  {start : Ledger × Coordinator} {entries rest : List (Job × Receipt)}
  {ready : List (RankKey × Job × Receipt)} {entry : Job × Receipt}

/-- A queued job after the sweep was queued before it. -/
theorem Swept.earlier (state : Swept before swept entries) (member : entry ∈ entries) :
    before.Queued entry :=
  ⟨state.sweeps.before_of_queued (state.stored entry member) (state.queued entry member),
    state.queued entry member⟩

/-- The dependencies of a queued job are stored and readable, whatever has died. -/
theorem Swept.dependency (state : Swept before swept entries) (member : entry ∈ entries)
    (sweeps : swept.Sweeps ledger) (refreshed : before.Refreshed ledger) {dependency : Name}
    (depends : dependency ∈ entry.1.dependencies) :
    ∃ row, ledger.jobs.lookup (entry.1.tenant, dependency) = some row ∧ row.receipt.Readable := by
  have childStored : entry.1 ∈ swept.storedJobs :=
    swept.storedJob_of_lookup (state.stored entry member)
  obtain ⟨parent, parentStored, parentKey, -⟩ :=
    state.traced.dependencies entry.1 childStored dependency depends
  obtain ⟨row, rowMember, rfl⟩ := List.mem_map.mp parentStored
  have found : swept.jobs.lookup (entry.1.tenant, dependency) = some row := by
    rw [← parentKey]
    exact Table.lookup_of_mem rowMember
  obtain ⟨receipt, kept⟩ := sweeps.kept _ row found
  refine ⟨_, kept, ?_⟩
  rcases refreshed _ _ kept with same | readable
  · exact state.readable entry member dependency depends _ same
  · exact readable

/-- Behind a failed ancestor there is a failed dependency by the time the job is
reached. -/
theorem Swept.deadDependency (state : Swept before swept entries)
    {done : List (Job × Receipt)} (split : entries = done ++ entry :: rest)
    (sweeps : swept.Sweeps ledger)
    (treated : ∀ other ∈ done, before.Doomed swept other.1 →
      ∃ updated, ledger.Stored (other.1, updated) ∧ updated.state = .rejected)
    (doomed : before.Doomed swept entry.1) :
    ∃ dependency ∈ entry.1.dependencies, ∃ row,
      ledger.jobs.lookup (entry.1.tenant, dependency) = some row ∧
        row.receipt.state.isDead = true := by
  have deadStays : ∀ key row, swept.jobs.lookup key = some row →
      row.receipt.state.isDead = true → ledger.jobs.lookup key = some row :=
    fun key row found dead => sweeps.rests key row found (JobState.isLive_of_isDead dead)
  cases doomed with
  | dead depends found dead => exact ⟨_, depends, _, deadStays _ _ found dead, dead⟩
  | @through _ dependency row depends found queued ancestry =>
      obtain ⟨receipt, kept⟩ := state.sweeps.kept _ row found
      refine ⟨dependency, depends, ?_⟩
      rcases state.sweeps.ends _ _ kept with same | dead
      · -- the dependency is still queued, so it stands before this job in the queue
        obtain rfl : row.receipt = receipt :=
          congrArg JobRow.receipt (Option.some.inj (found.symm.trans same))
        have listed : (row.job, row.receipt) ∈ entries := state.complete _ _ kept queued
        have rowKey : row.key = (entry.1.tenant, dependency) := Table.key_of_lookup kept
        have parentKey : row.job.key = (entry.1.tenant, dependency) := rowKey
        have childMember : entry ∈ entries := by
          rw [split]
          exact List.mem_append_right _ List.mem_cons_self
        have precedes := state.traced.precedes
          ⟨swept.storedJob_of_lookup (state.stored entry childMember),
            swept.storedJob_of_lookup kept, congrArg Prod.fst parentKey, by
              rw [show row.job.id = dependency from congrArg Prod.snd parentKey]
              exact depends⟩
        have inOrder := state.inOrder
        rw [split] at listed inOrder
        have earlier : (row.job, row.receipt) ∈ done := by
          rcases List.mem_append.mp listed with early | late
          · exact early
          · have bound := precedes.earlier
            rcases List.mem_cons.mp late with rfl | later
            · exact absurd bound (lt_irrefl _)
            · have after := (List.pairwise_cons.mp (List.pairwise_append.mp inOrder).2.1).1 _ later
              dsimp only at after bound
              omega
        obtain ⟨updated, stored, rejected⟩ := treated _ earlier ancestry
        refine ⟨⟨row.job, updated⟩, ?_, ?_⟩
        · rw [← parentKey]
          exact stored
        · rw [show (JobRow.mk row.job updated).receipt.state = .rejected from rejected]
          rfl
      · exact ⟨_, deadStays _ _ kept dead, dead⟩

/-- The verdict on the next job of the queue extends what is known of the jobs
before it. -/
theorem Gathering.extend (state : Swept before swept entries)
    (gathering : Gathering lifetime before swept start entries (entry :: rest) ready ledger self)
    {value : Option (RankKey × Job × Receipt)} (verdict : Verdict ledger entry value after)
    (running : Running lifetime after next) (others : ledger.SameBut entry.1.key after)
    (added : ∀ item ∈ value, item.2 = entry ∧ after.Queued entry)
    (rests : Rests (ledger, self) (after, next)) (refreshed : ledger.Refreshed after) :
    Gathering lifetime before swept start entries rest (ready ++ value.toList) after next := by
  obtain ⟨done, split, treated⟩ := gathering.treated
  have queued := gathering.ranking.coming entry List.mem_cons_self
  have dead := state.deadDependency split gathering.sweeps fun other member =>
    (treated other member).1
  have member : entry ∈ entries := by
    rw [split]
    exact List.mem_append_right _ List.mem_cons_self
  have step : ledger.Sweeps after := by
    cases verdict with
    | @refused _ updated _ _ _ _ _ stored rejected =>
        refine others.sweeps queued.1 queued.alive stored ?_
        rw [rejected]
        rfl
    | postponed _ _ _ _ => exact .refl _
    | ranked _ _ => exact .refl _
  have apart : ∀ other ∈ done, other.1.key ≠ entry.1.key := by
    intro other otherMember same
    have inOrder := state.inOrder
    rw [split, List.pairwise_append] at inOrder
    have otherListed : other ∈ entries := by
      rw [split]
      exact List.mem_append_left _ otherMember
    have sameJob := swept.storedJob_eq (swept.storedJob_of_lookup (state.stored other otherListed))
      (swept.storedJob_of_lookup (state.stored entry member)) same
    have bound := inOrder.2.2 other otherMember entry List.mem_cons_self
    rw [show other.1 = entry.1 from sameJob] at bound
    exact lt_irrefl _ bound
  constructor
  · exact gathering.ranking.extend running others added
  · exact Rests.cumulative.trans gathering.rests rests
  · exact gathering.sweeps.trans step
  · exact gathering.refreshed.trans refreshed
  · intro item itemMember
    rcases List.mem_append.mp itemMember with old | new
    · exact gathering.met item old
    · cases verdict with
      | refused _ _ _ _ _ => simp at new
      | postponed _ _ _ _ => simp at new
      | ranked key met =>
          rw [Option.toList_some, List.mem_singleton] at new
          subst new
          exact gathering.sweeps.met.mp met
  · intro item itemMember
    rcases List.mem_append.mp itemMember with old | new
    · exact gathering.known item old
    · rw [(added item (Option.mem_toList.mp new)).1]
      exact member
  · refine ⟨done ++ [entry], by rw [split, List.append_assoc]; rfl, ?_⟩
    intro other otherMember
    rcases List.mem_append.mp otherMember with old | new
    · have untouched := others _ (apart other old)
      refine ⟨fun doomed => ?_, fun waits met => ?_⟩
      · obtain ⟨updated, stored, rejected⟩ := (treated other old).1 doomed
        exact ⟨updated, untouched.trans stored, rejected⟩
      · obtain ⟨item, itemMember, same⟩ :=
          (treated other old).2 ⟨untouched.symm.trans waits.1, waits.2⟩ met
        exact ⟨item, List.mem_append_left _ itemMember, same⟩
    · rw [List.mem_singleton] at new
      subst new
      cases verdict with
      | @refused _ updated _ _ _ _ _ stored rejected =>
          refine ⟨fun _ => ⟨updated, stored, rejected⟩, fun waits _ => ?_⟩
          have same : updated = other.2 :=
            congrArg JobRow.receipt (Option.some.inj (stored.symm.trans waits.1))
          rw [same, waits.2] at rejected
          contradiction
      | @postponed dependency row alive depends found live =>
          refine ⟨fun doomed => ?_, fun _ met => ?_⟩
          · obtain ⟨dependency, depends, row, found, ended⟩ := dead doomed
            rw [alive dependency depends row found] at ended
            contradiction
          · obtain ⟨delivered, deliveredFound, state⟩ := gathering.sweeps.met.mpr met _ depends
            obtain rfl : row = delivered := Option.some.inj (found.symm.trans deliveredFound)
            rw [JobState.not_isLive_of_delivered state] at live
            contradiction
      | ranked key met =>
          refine ⟨fun doomed => ?_, fun _ _ => ⟨(key, other), by simp, rfl⟩⟩
          obtain ⟨dependency, depends, row, found, ended⟩ := dead doomed
          obtain ⟨delivered, deliveredFound, state⟩ := met dependency depends
          obtain rfl : row = delivered := Option.some.inj (found.symm.trans deliveredFound)
          rw [JobState.not_isDead_of_delivered state] at ended
          contradiction

/-- The first loop of a tick passes its verdict on the whole queue. -/
theorem Swept.wp_rankAll (state : Swept before swept entries) (now : Ns)
    (gathering : Gathering lifetime before swept start entries entries [] ledger self)
    (serves : ∀ entry ∈ entries, start.2.Serves entry.1) :
    wp (collect entries (Runtime.rankReady now)) (Commit lifetime.coordinator)
      (fun ready after next => Gathering lifetime before swept start entries [] ready after next)
      (fun _ _ _ => False) ledger self := by
  apply wp_collect (fun rest ready after next =>
    Gathering lifetime before swept start entries rest ready after next) _ gathering
  intro entry rest ready ledger self gathering
  have running := gathering.ranking.running
  have queued := gathering.ranking.coming entry List.mem_cons_self
  obtain ⟨done, split, -⟩ := gathering.treated
  have member : entry ∈ entries := by
    rw [split]
    exact List.mem_append_right _ List.mem_cons_self
  have verdict := rankReady_verdict now queued running.sound
    ((serves entry member).fixed gathering.rests.fixed)
    fun dependency depends => state.dependency member gathering.sweeps gathering.refreshed depends
  have related := wp_refreshed lifetime.legible (wp_rankReady running now queued)
  have meets := (Runtime.rankReady_rests now entry).wp (wp_and related verdict)
  apply wp_mono meets (fun _ _ both => both.1) _ (fun _ _ _ failed => failed.1.2)
  rintro value after next ⟨⟨⟨⟨kept, others, added⟩, refreshed⟩, verdict⟩, rests⟩
  exact gathering.extend state verdict kept others added rests refreshed

/-- The first part of a tick raises nothing while the dependencies of the jobs that
its sweep leaves in the queue can be read. -/
theorem wp_gather (running : Running lifetime ledger self) (traced : ledger.Traced)
    (readable : ledger.DependenciesReadable self.clock self.reads)
    (served : ∀ key row, ledger.jobs.lookup key = some row → row.receipt.state = .queued →
      self.Serves row.job) :
    wp (Runtime.gather self.config.tenant) (Commit lifetime.coordinator)
      (fun ready after next => ∃ entries, Swept ledger (Runtime.afterExpiry ledger self) entries ∧
        Gathering lifetime ledger (Runtime.afterExpiry ledger self) (ledger, self) entries [] ready
          after next)
      (fun _ _ _ => False) ledger self := by
  have swept : wp Runtime.expire (Commit lifetime.coordinator)
      (fun _ after _ => ledger.Expires after self.clock self.reads) (fun _ _ _ => False)
      ledger self := wp_expire_sweeps running.toLive
  have current : wp Runtime.expire (Commit lifetime.coordinator)
      (fun _ after next => Running lifetime after next ∧ ledger.Subsides after)
      (fun _ _ _ => False) ledger self := wp_expire running.toLive
  have expires : wp Runtime.expire (Commit lifetime.coordinator)
      (fun _ after next => (Running lifetime after next ∧ ledger.Subsides after) ∧
        ledger.Expires after self.clock self.reads) (fun _ _ _ => False) ledger self :=
    wp_mono (wp_and current swept) (fun _ _ both => both.1) (fun _ _ _ both => both)
      (fun _ _ _ failed => failed.1)
  have traces := wp_preserves Ledger.Traced (fun _ _ commit => commit.traced) traced
    (wp_refreshed lifetime.legible expires)
  simp only [Runtime.gather, wp_bind]
  apply wp_post (wp_exact (Runtime.expire_rests.wp traces)) _ (fun _ _ _ failed => failed.1.1.1)
  rintro _ swept memory
    ⟨⟨⟨⟨⟨⟨fresh, -⟩, expires⟩, refreshed⟩, traces⟩, rests⟩, -, sweptEq, -⟩
  have bound : swept.tenant = some self.config.tenant := by
    rw [fresh.tenant, fresh.config, running.config]
  simp only [wp_bind, wp_nowNs]
  apply wp_jobs fresh.sound bound (by simp) (by simp [JobState.isLive])
  intro entries reads
  have queued : ∀ entry ∈ entries, entry.2.state = .queued := fun entry member => by
    simpa using reads.selected entry member
  have read : ∀ entry ∈ entries, ∀ dependency ∈ entry.1.dependencies,
      ∀ row ∈ ledger.jobs.lookup (entry.1.tenant, dependency), row.receipt.Readable := by
    intro entry member
    have stored := reads.stored entry member
    have earlier := expires.before_of_queued stored (queued entry member)
    exact readable _ (Table.mem_of_lookup earlier) (queued entry member)
      (expires.valid _ _ stored (queued entry member))
  have state : Swept ledger swept entries :=
    ⟨expires.toSweeps, traces, read, refreshed, reads.stored, queued,
      fun key row found waits => reads.complete key row found (by simp [waits]), reads.inOrder⟩
  rw [show Runtime.afterExpiry ledger self = swept from sweptEq]
  apply wp_post (state.wp_rankAll _ _ _) (fun _ _ _ gathered => ⟨entries, state, gathered⟩)
    (fun _ _ _ failed => failed)
  · refine ⟨⟨fresh.read, fun entry member => ⟨reads.stored entry member, queued entry member⟩,
      by simp, by simpa using reads.distinct⟩, ?_, .refl _, refreshed, by simp, by simp,
      [], rfl, by simp⟩
    exact Rests.cumulative.trans rests
      ⟨rfl, rfl, rfl, Nat.le_succ _, rfl, rfl, rfl⟩
  · intro entry member
    have earlier := state.earlier member
    exact served _ _ earlier.1 earlier.2

end Gathering

end AgminaRuntime
