import AgminaRuntime.CampaignInvariant

/-!
# Slot accounting

The counter of a pool, the reserved attempts on it and the unfinished tasks on
it are three representations of one number: every unfinished task has exactly
one reserved attempt, and every reserved attempt one unfinished task.  A job
that is cancelled, expired or made stale in flight keeps its slot.
-/

namespace AgminaRuntime

open Durable Durable.Program Keyed

/-! ## Reserved attempts and unfinished tasks -/

/-- The attempts on a pool that are still reserved. -/
def Ledger.reservedOn (ledger : Ledger) (pool : Name) : Nat :=
  ledger.attempts.rows.countP fun attempt =>
    decide (attempt.disposition = .reserved ∧ attempt.pool = pool)

/-- The unfinished tasks on a pool and on an endpoint. -/
def Coordinator.tasksOn (self : Coordinator) (pool : Name) : Nat :=
  self.running.countP fun task => decide (task.endpoint.pool = pool)

def Coordinator.tasksAt (self : Coordinator) (endpoint : Name) : Nat :=
  self.running.countP fun task => decide (task.endpoint.id = endpoint)

namespace Live

variable {lifetime : Lifetime} {ledger : Ledger} {self : Coordinator}

theorem distinct_keys (live : Live lifetime ledger self) :
    (self.running.map fun task => task.job.key).Nodup := by
  refine List.Nodup.of_map Prod.snd ?_
  rw [List.map_map]
  exact live.distinct

/-- An attempt is reserved on a pool exactly if its job has a task on the pool. -/
theorem reserved_iff (live : Live lifetime ledger self) (pool : Name) (key : Name × Name) :
    (∃ attempt ∈ ledger.attempts.rows,
        (attempt.disposition = .reserved ∧ attempt.pool = pool) ∧ attempt.key = key) ↔
      ∃ task ∈ self.running, task.endpoint.pool = pool ∧ task.job.key = key := by
  constructor
  · rintro ⟨attempt, member, ⟨reserved, onPool⟩, rfl⟩
    have found := Table.lookup_of_mem member
    obtain ⟨task, taskMember, sameKey⟩ := live.reserved _ attempt found reserved
    have reservation := (live.tasks task taskMember).attempt
    rw [sameKey] at reservation
    obtain rfl : attempt = .reservation task.job task.endpoint :=
      Option.some.inj (found.symm.trans reservation)
    exact ⟨task, taskMember, onPool, sameKey⟩
  · rintro ⟨task, member, onPool, rfl⟩
    exact ⟨_, Table.mem_of_lookup (live.tasks task member).attempt, ⟨rfl, onPool⟩, rfl⟩

theorem reservedOn_eq (live : Live lifetime ledger self) (pool : Name) :
    ledger.reservedOn pool = self.tasksOn pool := by
  rw [Ledger.reservedOn, Coordinator.tasksOn, List.countP_eq_length_filter,
    List.countP_eq_length_filter,
    ← List.length_map (f := Attempt.key), ← List.length_map (f := fun task : Task => task.job.key)]
  refine List.Perm.length_eq ((List.perm_ext_iff_of_nodup ?_ ?_).mpr fun key => ?_)
  · exact ledger.attempts.distinct.sublist (List.filter_sublist.map _)
  · exact live.distinct_keys.sublist (List.filter_sublist.map _)
  · simp only [List.mem_map, List.mem_filter, decide_eq_true_eq, and_assoc]
    simpa only [and_assoc] using live.reserved_iff pool key

end Live

/-! ## What leaves the slots alone -/

/-- The attempts, the counters and the tasks are as they were. -/
structure SlotsKept (before : Ledger) (start : Coordinator) (after : Ledger)
    (memory : Coordinator) : Prop where
  attempts : after.attempts = before.attempts
  poolUse : memory.poolUse = start.poolUse
  endpointUse : memory.endpointUse = start.endpointUse
  running : memory.running = start.running

namespace SlotsKept

variable {before after : Ledger} {self memory : Coordinator}

theorem refl (ledger : Ledger) (self : Coordinator) : SlotsKept ledger self ledger self :=
  ⟨rfl, rfl, rfl, rfl⟩

theorem read (kept : SlotsKept before self after memory) :
    SlotsKept before self after { memory with reads := memory.reads + 1 } :=
  ⟨kept.attempts, kept.poolUse, kept.endpointUse, kept.running⟩

theorem of_attempts (kept : SlotsKept before self after memory) {next : Ledger}
    (attempts : next.attempts = after.attempts) : SlotsKept before self next memory :=
  ⟨attempts.trans kept.attempts, kept.poolUse, kept.endpointUse, kept.running⟩

theorem wp_setState (kept : SlotsKept before self after memory) (job : Job) (receipt : Receipt)
    (state : JobState) (reason : PyStr) :
    wp (Runtime.setState job receipt state reason) (fun _ _ => True)
      (fun _ => SlotsKept before self) (fun _ => SlotsKept before self) after memory := by
  simp only [Runtime.setState, wp_bind, wp_receipt, wp_nowNs, wp_event, wp_pure]
  exact ⟨trivial, trivial, kept.read.of_attempts rfl⟩

theorem wp_moveTo (kept : SlotsKept before self after memory) (job : Job) (receipt : Receipt)
    (state : JobState) (reason : PyStr) :
    wp (Runtime.moveTo job receipt state reason) (fun _ _ => True)
      (fun _ => SlotsKept before self) (fun _ => SlotsKept before self) after memory := by
  simp only [Runtime.moveTo, wp_bind]
  exact wp_post (kept.wp_setState job receipt state reason)
    (fun _ _ _ kept => (wp_pure _).mpr kept) (fun _ _ _ kept => kept)

theorem wp_expireJob (kept : SlotsKept before self after memory) (now : Ns)
    (entry : Job × Receipt) :
    wp (Runtime.expireJob now entry) (fun _ _ => True)
      (fun _ => SlotsKept before self) (fun _ => SlotsKept before self) after memory := by
  obtain ⟨job, receipt⟩ := entry
  simp only [Runtime.expireJob, wp_bind, wp_readVolatile, wp_session_iff]
  split
  · exact kept
  · split
    · exact (wp_pure _).mpr kept
    · exact kept.wp_moveTo job receipt _ _

theorem wp_expire (kept : SlotsKept before self after memory) :
    wp Runtime.expire (fun _ _ => True)
      (fun _ => SlotsKept before self) (fun _ => SlotsKept before self) after memory := by
  simp only [Runtime.expire, wp_bind, wp_readVolatile, wp_nowNs, wp_jobs_iff]
  split
  · refine wp_post (wp_forEach (fun _ => SlotsKept before self) ?_ kept.read)
      (fun _ _ _ kept => kept) (fun _ _ _ kept => kept)
    exact fun entry rest after memory kept => kept.wp_expireJob _ entry
  · exact kept.read

theorem wp_cancel (kept : SlotsKept before self after memory) (jobId : Name) :
    wp (Runtime.cancel jobId) (fun _ _ => True)
      (fun _ => SlotsKept before self) (fun _ => SlotsKept before self) after memory := by
  simp only [Runtime.cancel, wp_bind, wp_readVolatile]
  refine wp_job_intro kept kept ?_
  intro row receipt _ _
  rw [wp_ite]
  split
  · exact kept.wp_setState _ _ _ _
  · exact (wp_pure _).mpr kept

theorem wp_advanceSession (kept : SlotsKept before self after memory) (sid : Name)
    (expectedEpoch : Int) (taskRevision : String) (close : Bool) :
    wp (Runtime.advanceSession sid expectedEpoch taskRevision close) (fun _ _ => True)
      (fun _ => SlotsKept before self) (fun _ => SlotsKept before self) after memory := by
  simp only [Runtime.advanceSession, wp_bind, wp_readVolatile, wp_session_iff]
  split
  · exact kept
  · split
    · exact (wp_raise _).mpr kept
    · simp only [wp_bind, wp_nowNs]
      split
      · simp only [wp_bind, wp_putSession, wp_nowNs, wp_event]
        refine ⟨trivial, trivial, ?_⟩
        refine wp_post (wp_expire ?_) (fun _ _ _ kept => (wp_pure _).mpr kept)
          (fun _ _ _ kept => kept)
        exact kept.read.read.of_attempts rfl
      · exact (wp_raise _).mpr kept.read

end SlotsKept

/-- What an execution that keeps the slots leaves, however it ends. -/
theorem slotsKept_of_wp {α : Type} {program : RuntimeProgram α} {ledger : Ledger}
    {self : Coordinator}
    (meets : wp program (fun _ _ => True) (fun _ => SlotsKept ledger self)
      (fun _ => SlotsKept ledger self) ledger self) :
    SlotsKept ledger self ((program ledger self).durable ledger)
      (program ledger self).volatile := by
  have ended := meets.2
  split at ended <;> exact ended

/-- What every reachable state shows of slots and reservations. -/
theorem slot_accounting (caps : BudgetCaps) (steps : List CampaignStep) :
    let campaign := (Campaign.fresh caps).run steps
    (∀ self ∈ campaign.live,
      (∀ pool, self.poolUse pool = campaign.ledger.reservedOn pool ∧
        campaign.ledger.reservedOn pool = self.tasksOn pool ∧
          0 ≤ self.poolUse pool ∧ self.poolUse pool ≤ self.config.poolSlots pool) ∧
      ∀ endpoint ∈ self.config.endpoints,
        self.endpointUse endpoint.id = self.tasksAt endpoint.id ∧
          0 ≤ self.endpointUse endpoint.id ∧ self.endpointUse endpoint.id ≤ endpoint.maxInflight) ∧
    (Campaign.history caps steps).IsChain (fun before after =>
      ∀ key attempt, before.attempts.lookup key = none →
        after.attempts.lookup key = some attempt → attempt.pool ∉ before.quarantined) ∧
    ∀ self ∈ campaign.live, (∀ jobId,
        let outcome := Runtime.cancel jobId campaign.ledger self
        SlotsKept campaign.ledger self (outcome.durable campaign.ledger) outcome.volatile) ∧
      (∀ sid expectedEpoch taskRevision close,
        let outcome := Runtime.advanceSession sid expectedEpoch taskRevision close
          campaign.ledger self
        SlotsKept campaign.ledger self (outcome.durable campaign.ledger) outcome.volatile) ∧
      let outcome := Runtime.expire campaign.ledger self
      SlotsKept campaign.ledger self (outcome.durable campaign.ledger) outcome.volatile := by
  intro campaign
  have sound : campaign.Sound := Campaign.sound_run caps steps
  refine ⟨?_, ?_, ?_⟩
  · intro self selfLive
    have live := (sound.live self selfLive).toLive
    refine ⟨fun pool => ?_, fun endpoint member => ?_⟩
    · have use : self.poolUse pool = self.tasksOn pool := live.poolUse pool
      have rows := live.reservedOn_eq pool
      exact ⟨by rw [use, rows], rows, by rw [use]; exact Int.natCast_nonneg _,
        live.poolBound pool⟩
    · have use : self.endpointUse endpoint.id = self.tasksAt endpoint.id :=
        live.endpointUse endpoint.id
      exact ⟨use, by rw [use]; exact Int.natCast_nonneg _, live.endpointBound endpoint member⟩
  · refine (Campaign.history_commits caps steps).imp ?_
    rintro before after ⟨who, commit⟩ key attempt absent found
    obtain ⟨row, endpoint, -, rfl, reserves⟩ := commit.attempt_new absent found
    exact reserves.pool
  · intro self _
    have kept := SlotsKept.refl campaign.ledger self
    refine ⟨fun jobId => ?_, fun sid expectedEpoch taskRevision close => ?_, ?_⟩
    · exact slotsKept_of_wp (kept.wp_cancel jobId)
    · exact slotsKept_of_wp (kept.wp_advanceSession sid expectedEpoch taskRevision close)
    · exact slotsKept_of_wp kept.wp_expire

end AgminaRuntime
