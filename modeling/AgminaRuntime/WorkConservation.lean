import AgminaRuntime.SubmissionAtomicity
import AgminaRuntime.TickGathering

/-!
# Work conservation and failed dependencies

In every tick that can read the dependencies of the valid jobs in the queue, no
ready job is left behind while an endpoint could take it, a job is only
overtaken on endpoints that it could not use, and everything behind a failed job
is rejected.
-/

namespace AgminaRuntime

open Durable Durable.Program Keyed

/-- Two members of an ordered list are related one way or the other. -/
theorem either_of_pairwise {α : Type} {related : α → α → Prop} {items : List α}
    (ordered : items.Pairwise related) {first second : α} (firstMember : first ∈ items)
    (secondMember : second ∈ items) (apart : first ≠ second) :
    related first second ∨ related second first := by
  have symmetric : Std.Symm fun first second => related first second ∨ related second first :=
    ⟨fun _ _ => Or.symm⟩
  have either : items.Pairwise fun first second => related first second ∨ related second first :=
    ordered.imp fun related => .inl related
  exact either.forall firstMember secondMember apart

/-! ## A whole tick -/

/-- What a tick of an open coordinator has done. -/
structure Ticked (lifetime : Lifetime) (before : Ledger) (memory : Coordinator)
    (entries : List (Job × Receipt)) (ready : List (RankKey × Job × Receipt))
    (middle : Ledger × Coordinator) (after : Ledger) (next : Coordinator) : Prop where
  swept : Swept before (Runtime.afterExpiry before memory) entries
  gathered : Gathering lifetime before (Runtime.afterExpiry before memory) (before, memory) entries
    [] ready middle.1 middle.2
  queued : ∀ key row, after.jobs.lookup key = some row → row.receipt.state = .queued →
    middle.1.jobs.lookup key = some row
  taken : Taken (sortByRank ready) middle (Runtime.turns before memory) (after, next)

section Tick

variable {lifetime : Lifetime} {before after : Ledger} {self next : Coordinator}
  {entries : List (Job × Receipt)} {ready : List (RankKey × Job × Receipt)}
  {middle : Ledger × Coordinator}

/-- A tick that can read the dependencies of the valid jobs raises nothing. -/
theorem wp_tick_ticked (running : Running lifetime before self) (awake : self.closed = false)
    (traced : before.Traced) (readable : before.DependenciesReadable self.clock self.reads)
    (served : ∀ key row, before.jobs.lookup key = some row → row.receipt.state = .queued →
      self.Serves row.job) :
    wp Runtime.tick (Commit lifetime.coordinator)
      (fun _ after next => ∃ entries ready middle,
        Ticked lifetime before self entries ready middle after next)
      (fun _ _ _ => False) before self := by
  simp only [Runtime.tick_eq, wp_bind, wp_readVolatile, awake, Bool.false_eq_true, if_false]
  apply wp_post (wp_exact (wp_gather running traced readable served)) _
    (fun _ _ _ failed => failed)
  rintro ready middle memory ⟨⟨entries, swept, gathered⟩, valueEq, rfl, rfl⟩
  have same : (sortByRank ready).Perm ready := sortByRank_perm ready
  have ranking := gathered.ranking
  have ranked : Ranked lifetime (sortByRank ready)
      ((Runtime.gather self.config.tenant before self).durable before)
      (Runtime.gather self.config.tenant before self).volatile := by
    refine ⟨ranking.running, ?_, ?_, ?_⟩
    · intro item member
      exact ranking.queued item (same.mem_iff.mp member)
    · intro item member
      have listed := gathered.known item (same.mem_iff.mp member)
      have earlier := swept.earlier listed
      exact (served _ _ earlier.1 earlier.2).fixed gathered.rests.fixed
    · have distinct := ranking.distinct
      rw [List.nil_append, List.map_map] at distinct
      exact (same.map _).nodup_iff.mpr distinct
  apply wp_post ranked.wp_turns _ (fun _ _ _ failed => failed)
  rintro _ after next ⟨-, queued, taken⟩
  refine ⟨entries, ready, (_, _), swept, gathered, queued, ?_⟩
  have turnsEq : Runtime.turns before self = rounds Runtime.dispatchReady (sortByRank ready)
      ((Runtime.gather self.config.tenant before self).durable before)
      (Runtime.gather self.config.tenant before self).volatile := by
    simp only [Runtime.turns, awake, Bool.false_eq_true, if_false, valueEq]
  rw [turnsEq]
  exact taken

namespace Ticked

/-- A job that is still queued was in the queue all the time. -/
theorem still (ticked : Ticked lifetime before self entries ready middle after next)
    {entry : Job × Receipt} (queued : after.Queued entry) :
    entry ∈ entries ∧ middle.1.Queued entry := by
  have gathered : middle.1.Queued entry := ⟨ticked.queued _ _ queued.1 queued.2, queued.2⟩
  refine ⟨?_, gathered⟩
  exact ticked.swept.complete _ _ (ticked.gathered.sweeps.before_of_queued gathered.1 queued.2)
    queued.2

/-- Nothing behind a failed job stays in the queue. -/
theorem not_doomed (ticked : Ticked lifetime before self entries ready middle after next)
    {entry : Job × Receipt} (queued : after.Queued entry) :
    ¬ before.Doomed (Runtime.afterExpiry before self) entry.1 := by
  intro doomed
  obtain ⟨listed, gathered⟩ := ticked.still queued
  obtain ⟨done, split, treated⟩ := ticked.gathered.treated
  rw [List.append_nil] at split
  rw [split] at listed
  obtain ⟨updated, stored, rejected⟩ := (treated entry listed).1 doomed
  have same : updated = entry.2 :=
    congrArg JobRow.receipt (Option.some.inj (stored.symm.trans gathered.1))
  rw [same, gathered.2] at rejected
  contradiction

/-- A ready job that is still queued has had a turn that found no endpoint. -/
theorem passed (ticked : Ticked lifetime before self entries ready middle after next)
    {entry : Job × Receipt} (queued : after.Queued entry)
    (met : before.DependenciesMet entry.1) :
    ∃ turn ∈ Runtime.turns before self, turn.job = entry.1 ∧ turn.Passed := by
  obtain ⟨listed, gathered⟩ := ticked.still queued
  obtain ⟨done, split, treated⟩ := ticked.gathered.treated
  rw [List.append_nil] at split
  rw [split] at listed
  obtain ⟨item, member, rfl⟩ :=
    (treated entry listed).2 gathered (ticked.swept.sweeps.met.mpr met)
  have inTurns : item ∈ (Runtime.turns before self).map Round.item := by
    rw [ticked.taken.inOrder]
    exact (sortByRank_perm ready).mem_iff.mpr member
  obtain ⟨turn, turnMember, rfl⟩ := List.mem_map.mp inTurns
  refine ⟨turn, turnMember, rfl, ?_⟩
  obtain ⟨-, -, -, left | passed⟩ := ticked.taken.each turn turnMember
  · exact absurd queued.2 (left _ queued.1)
  · exact passed

/-- A turn of a job that is still queued found no endpoint. -/
theorem passed_of_queued (ticked : Ticked lifetime before self entries ready middle after next)
    {turn : Turn} (member : turn ∈ Runtime.turns before self) {receipt : Receipt}
    (queued : after.Queued (turn.job, receipt)) : turn.Passed := by
  obtain ⟨-, -, -, left | passed⟩ := ticked.taken.each turn member
  · exact absurd queued.2 (left _ queued.1)
  · exact passed

/-- What a passed turn has seen stays out of reach until the tick ends. -/
theorem infeasible (ticked : Ticked lifetime before self entries ready middle after next)
    {turn : Turn} (member : turn ∈ Runtime.turns before self) (passed : turn.Passed)
    (steady : ∀ earlier later, self.reads ≤ earlier → earlier ≤ later →
      later < next.reads → self.clock.nowNs earlier ≤ self.clock.nowNs later) :
    ∃ session, after.sessions.lookup turn.job.sessionKey = some session ∧
      ∀ endpoint ∈ Runtime.allowedEndpoints self.config turn.job,
        feasible endpoint (self.clock.nowNs (next.reads - 1)) (turn.job.latestNs session)
          turn.job.allowedSites self.config.poolSlots next.poolUse next.endpointUse
          after.quarantined = false := by
  obtain ⟨early, late, read, -⟩ := ticked.taken.each turn member
  obtain ⟨session, found, absent⟩ := passed
  have whole : Proceeds (before, self) turn.start :=
    Proceeds.cumulative.trans ticked.gathered.rests.proceeds early
  have config : turn.volatile.config = self.config := whole.config
  have quarantined : after.quarantined = turn.durable.quarantined := late.quarantined
  refine ⟨session, ?_, fun endpoint allowed => ?_⟩
  · rw [show after.sessions = turn.durable.sessions from late.sessions]
    exact found
  have serves : endpoint ∈ turn.volatile.config.endpointsOf turn.job.model := by
    rw [config]
    exact (List.mem_filter.mp allowed).1
  have fails := chooseEndpoint_none absent serves
  rw [quarantined, ← config]
  apply feasible_antitone _ late.poolUse late.endpointUse fails
  have clock : turn.volatile.clock = self.clock := whole.clock
  have bound : turn.volatile.reads < next.reads := read
  rw [Turn.nowNs, clock]
  exact steady _ _ whole.reads (by omega) (by omega)

/-- Two turns of one job are one turn. -/
theorem turn_eq (ticked : Ticked lifetime before self entries ready middle after next)
    {first second : Turn} (firstMember : first ∈ Runtime.turns before self)
    (secondMember : second ∈ Runtime.turns before self) (same : first.job = second.job) :
    first = second := by
  have distinct := ticked.gathered.ranking.distinct
  rw [List.nil_append, List.map_map] at distinct
  have sorted : ((sortByRank ready).map fun item => item.2.1.key).Nodup :=
    ((sortByRank_perm ready).map _).nodup_iff.mpr distinct
  rw [← ticked.taken.inOrder, List.map_map] at sorted
  exact List.inj_on_of_nodup_map sorted firstMember secondMember (congrArg Job.key same)

/-- A turn of a lower rank comes first. -/
theorem before_of_rank (ticked : Ticked lifetime before self entries ready middle after next)
    {first second : Turn} (firstMember : first ∈ Runtime.turns before self)
    (secondMember : second ∈ Runtime.turns before self)
    (ranked : first.item.1 < second.item.1) : Proceeds first.start second.start := by
  have sorted := sortByRank_sorted ready
  rw [← ticked.taken.inOrder, List.pairwise_map] at sorted
  have apart : first ≠ second := by
    rintro rfl
    exact lt_irrefl _ ranked
  rcases either_of_pairwise (sorted.and ticked.taken.ordered) firstMember secondMember apart with
    ⟨-, proceeds⟩ | ⟨order, -⟩
  · exact proceeds
  · exact absurd ranked (not_lt.mpr order)

/-- A task that is new was started in the turn of its job. -/
theorem launched (ticked : Ticked lifetime before self entries ready middle after next)
    {task : Task} (member : task ∈ next.running) :
    task ∈ self.running ∨
      ∃ turn ∈ Runtime.turns before self, turn.job = task.job ∧ turn.Launched task.endpoint := by
  rcases ticked.taken.tasks task member with old | ⟨turn, turnMember, job, launched⟩
  · rw [show middle.2.running = self.running from ticked.gathered.rests.running] at old
    exact .inl old
  · exact .inr ⟨turn, turnMember, job.symm, launched⟩

/-- A ranked job had no task before its turn. -/
theorem launched_in (ticked : Ticked lifetime before self entries ready middle after next)
    {turn : Turn} (turnMember : turn ∈ Runtime.turns before self) {task : Task}
    (member : task ∈ next.running) (job : task.job = turn.job) :
    turn.Launched task.endpoint := by
  rcases ticked.launched member with old | ⟨other, otherMember, otherJob, launched⟩
  · have running := ticked.gathered.ranking.running
    have listed : turn.item ∈ ready := by
      apply (sortByRank_perm ready).mem_iff.mp
      rw [← ticked.taken.inOrder]
      exact List.mem_map_of_mem turnMember
    have queued := ticked.gathered.ranking.queued _ listed
    have unattempted := running.unattempted _ _ queued.1 queued.2
    rw [← show middle.2.running = self.running from ticked.gathered.rests.running] at old
    have attempt := (running.tasks task old).attempt
    rw [job] at attempt
    exact absurd (attempt.symm.trans unattempted) (by simp)
  · rw [← ticked.turn_eq otherMember turnMember (otherJob.trans job)]
    exact launched

/-- An endpoint that a later turn could use was out of time for a passed one. -/
theorem outOfTime (ticked : Ticked lifetime before self entries ready middle after next)
    {first second : Turn} (firstMember : first ∈ Runtime.turns before self)
    (passed : first.Passed) (proceeds : Proceeds first.start second.start) {endpoint : Endpoint}
    (launched : second.Launched endpoint) (serves : endpoint.model = first.job.model)
    (allowed : endpoint.site ∈ first.job.allowedSites) :
    ∃ session, after.sessions.lookup first.job.sessionKey = some session ∧
      first.job.latestNs session ≤ first.nowNs.val + endpoint.estimateNs := by
  obtain ⟨session, found, absent⟩ := passed
  obtain ⟨other, -, chosen⟩ := launched
  obtain ⟨known, -, free, slots, inflight, -⟩ := chooseEndpoint_spec chosen
  have late := (ticked.taken.each first firstMember).2.1
  have config : second.volatile.config = first.volatile.config := proceeds.config
  have quarantined : second.durable.quarantined = first.durable.quarantined :=
    proceeds.quarantined
  refine ⟨session, ?_, ?_⟩
  · rw [show after.sessions = first.durable.sessions from late.sessions]
    exact found
  rw [config] at known slots
  rw [quarantined] at free
  have endpoints : endpoint ∈ first.volatile.config.endpointsOf first.job.model :=
    List.mem_filter.mpr ⟨(List.mem_filter.mp known).1, by simpa using serves⟩
  have fails := chooseEndpoint_none absent endpoints
  rw [Bool.eq_false_iff, Ne, feasible_iff] at fails
  by_contra inTime
  apply fails
  have poolBound : first.volatile.poolUse endpoint.pool ≤ second.volatile.poolUse endpoint.pool :=
    proceeds.poolUse endpoint.pool
  have useBound : first.volatile.endpointUse endpoint.id ≤ second.volatile.endpointUse endpoint.id :=
    proceeds.endpointUse endpoint.id
  exact ⟨allowed, free, by omega, by omega, by omega⟩

end Ticked

end Tick

/-! ## Work conservation -/

/-- No job that was ready is left behind while an endpoint could take it, and
none is overtaken on an endpoint that it could have used. -/
structure WorkConserving (before : Ledger) (memory : Coordinator) (after : Ledger)
    (next : Coordinator) : Prop where
  idle : ∀ entry, after.Queued entry → before.DependenciesMet entry.1 →
    ∃ session, after.sessions.lookup entry.1.sessionKey = some session ∧
      ∀ endpoint ∈ Runtime.allowedEndpoints memory.config entry.1,
        feasible endpoint (memory.clock.nowNs (next.reads - 1)) (entry.1.latestNs session)
          entry.1.allowedSites memory.config.poolSlots next.poolUse next.endpointUse
          after.quarantined = false
  turned : ∀ entry, after.Queued entry → before.DependenciesMet entry.1 →
    ∃ turn ∈ Runtime.turns before memory, turn.job = entry.1
  dispatched : ∀ task ∈ next.running, task ∈ memory.running ∨
    ∃ turn ∈ Runtime.turns before memory, turn.job = task.job
  fair : ∀ first ∈ Runtime.turns before memory, ∀ second ∈ Runtime.turns before memory,
    (∃ receipt, after.Queued (first.job, receipt)) → first.item.1 < second.item.1 →
      ∀ task ∈ next.running, task.job = second.job →
        task.endpoint.model ≠ first.job.model ∨ task.endpoint.site ∉ first.job.allowedSites ∨
          ∃ session, after.sessions.lookup first.job.sessionKey = some session ∧
            first.job.latestNs session ≤ first.nowNs.val + task.endpoint.estimateNs

/-- A tick finds the dependencies readable of the queued jobs that are valid when it
first reads the clock. -/
def Campaign.TicksReadably (campaign : Campaign) : CampaignStep → Prop
  | .act .tick => ∀ self ∈ campaign.live,
      campaign.ledger.DependenciesReadable self.clock self.reads
  | _ => True

instance (campaign : Campaign) (label : CampaignStep) : Decidable (campaign.TicksReadably label) :=
  match label with
  | .act .tick => inferInstanceAs (Decidable (∀ self ∈ campaign.live,
      campaign.ledger.DependenciesReadable self.clock self.reads))
  | .act (.openSession ..) | .act (.advanceSession ..) | .act (.heartbeat ..) | .act (.submit ..)
  | .act (.startTask ..) | .act (.finishTask ..) | .act (.cancel ..) | .act (.consume ..)
  | .act (.recordOutcome ..) | .act .beginClose | .act .finishClose | .act (.reconcile ..)
  | .act (.releasePool ..) | .crash .. | .start .. | .crashStart .. | .operate ..
  | .crashOperate .. => .isTrue trivial

/-- A tick of a live coordinator conserves work when its clock does not go back. -/
def Campaign.ConservesWork (campaign : Campaign) : CampaignStep → Prop
  | .act .tick => ∀ self ∈ campaign.live,
      let outcome := Runtime.tick campaign.ledger self
      (∀ earlier later, self.reads ≤ earlier → earlier ≤ later →
        later < outcome.volatile.reads → self.clock.nowNs earlier ≤ self.clock.nowNs later) →
      WorkConserving campaign.ledger self (outcome.durable campaign.ledger) outcome.volatile
  | _ => True

/-- What a tick of an open coordinator has done, on a reachable campaign. -/
theorem Campaign.ticked {campaign : Campaign} (sound : campaign.Sound) (served : campaign.Served)
    (traced : campaign.ledger.Traced) {self : Coordinator} (live : self ∈ campaign.live)
    (readable : campaign.ledger.DependenciesReadable self.clock self.reads)
    (awake : self.closed = false) :
    ∃ entries ready middle,
      Ticked (self.lifetime campaign.calls) campaign.ledger self entries ready middle
        ((Runtime.tick campaign.ledger self).durable campaign.ledger)
        (Runtime.tick campaign.ledger self).volatile := by
  have ended := (wp_tick_ticked (sound.live self live) awake traced readable
    fun key row found queued => served self live key row found queued).2
  split at ended
  · exact ended
  · contradiction

/-- A closed coordinator has nothing queued. -/
theorem Campaign.Served.awake {campaign : Campaign} (served : campaign.Served)
    {self : Coordinator} (live : self ∈ campaign.live) {entry : Job × Receipt}
    (queued : campaign.ledger.Queued entry) : self.closed = false :=
  (served self live _ _ queued.1 queued.2).awake

/-- What every step keeps of a campaign, for the ticks that follow. -/
theorem Campaign.keeps_tickable {campaign : Campaign} (label : CampaignStep)
    (holds : campaign.Sound ∧ campaign.Served ∧ campaign.ledger.Traced) :
    (campaign.step label).1.Sound ∧ (campaign.step label).1.Served ∧
      (campaign.step label).1.ledger.Traced := by
  obtain ⟨sound, served, traced⟩ := holds
  refine ⟨sound.step label, served.step sound label, ?_⟩
  rw [Campaign.step_ledger]
  exact isChain_preserves Ledger.Traced (fun _ _ commit => commit.traced) (sound.chain label) traced
    _ (last_mem _ _)

theorem Campaign.fresh_tickable (caps : BudgetCaps) :
    (fresh caps).Sound ∧ (fresh caps).Served ∧ (fresh caps).ledger.Traced := by
  refine ⟨sound_fresh caps, by simp [Served, fresh], ?_⟩
  exact traced_history caps [] _ (by simp [history, fresh])

/-- A tick of a closed coordinator does nothing. -/
theorem Runtime.tick_closed {ledger : Ledger} {self : Coordinator} (closed : self.closed = true) :
    Runtime.tick ledger self = ⟨.ok (), self, []⟩ := by
  simp [Runtime.tick, readVolatile_bind, closed]
  rfl

/-- In a run whose ticks can read the dependencies of the valid jobs in the queue,
every tick conserves work and no later rank overtakes on an endpoint that was
free to the earlier one. -/
theorem ticks_conserve_work (caps : BudgetCaps) (steps : List CampaignStep)
    (readably : StepsMeet Campaign.step Campaign.TicksReadably (Campaign.fresh caps) steps) :
    StepsMeet Campaign.step Campaign.ConservesWork (Campaign.fresh caps) steps := by
  apply stepsMeet_of_invariant
    (fun campaign => campaign.Sound ∧ campaign.Served ∧ campaign.ledger.Traced)
    (fun _ label _ holds => Campaign.keeps_tickable label holds) _ readably
    (Campaign.fresh_tickable caps)
  rintro campaign label readable ⟨sound, served, traced⟩
  unfold Campaign.ConservesWork
  split
  · intro self live outcome steady
    cases closed : self.closed with
    | true =>
        have still : outcome = ⟨.ok (), self, []⟩ := Runtime.tick_closed closed
        have emptied : ∀ entry, ¬ campaign.ledger.Queued entry := by
          intro entry queued
          rw [served.awake live queued] at closed
          contradiction
        rw [still]
        constructor
        · exact fun entry queued => absurd queued (emptied entry)
        · exact fun entry queued => absurd queued (emptied entry)
        · exact fun task member => .inl member
        · rintro first - second - ⟨receipt, queued⟩
          exact absurd queued (emptied _)
    | false =>
        obtain ⟨entries, ready, middle, ticked⟩ :=
          Campaign.ticked sound served traced live (readable self live) closed
        constructor
        · intro entry queued met
          obtain ⟨turn, member, sameJob, passed⟩ := ticked.passed queued met
          rw [← sameJob]
          exact ticked.infeasible member passed steady
        · intro entry queued met
          obtain ⟨turn, member, sameJob, -⟩ := ticked.passed queued met
          exact ⟨turn, member, sameJob⟩
        · intro task member
          rcases ticked.launched member with old | ⟨turn, turnMember, sameJob, -⟩
          · exact .inl old
          · exact .inr ⟨turn, turnMember, sameJob⟩
        · rintro first firstMember second secondMember ⟨receipt, queued⟩ ranked task member sameJob
          by_cases serves : task.endpoint.model = first.job.model
          · by_cases allowed : task.endpoint.site ∈ first.job.allowedSites
            · exact .inr (.inr (ticked.outOfTime firstMember
                (ticked.passed_of_queued firstMember queued)
                (ticked.before_of_rank firstMember secondMember ranked)
                (ticked.launched_in secondMember member sameJob) serves allowed))
            · exact .inr (.inl allowed)
          · exact .inl serves
  · trivial

namespace Sample

/-- A job that depends on the first one, and one that depends on nothing. -/
def childFields : JobFields := { fields with id := ⟨"child", by decide⟩, dependencies := [job] }
def spareFields : JobFields := { fields with id := ⟨"spare", by decide⟩ }

def childJob : Job := ⟨childFields, by decide⟩
def spareJob : Job := ⟨spareFields, by decide⟩

/-- Three jobs compete for one slot. -/
def crowding : List CampaignStep :=
  opening (fun _ => 10) ++
    [.act (.submit fields), .act (.submit childFields), .act .tick, .act (.startTask job),
      .act (.submit spareFields)]

/-- The first job delivers before the next tick. -/
def flowing : List CampaignStep :=
  crowding ++ [.act (.finishTask job (reply 5)), .act .tick]

/-- The first job fails before the next tick, with a reason that cannot be read. -/
def stranding : List CampaignStep :=
  crowding ++ [.act (.finishTask job unpaired)]

end Sample

theorem ticks_conserve_work_flowing :
    StepsMeet Campaign.step Campaign.ConservesWork (Campaign.fresh Sample.config.caps)
      Sample.flowing :=
  ticks_conserve_work Sample.config.caps Sample.flowing (by decide +kernel)

/-- A tick of a live coordinator leaves a job in the queue that depends on nothing
and that an endpoint could take. -/
def Campaign.Strands (campaign : Campaign) (job : Job) : Prop :=
  ∃ self ∈ campaign.live,
    let outcome := Runtime.tick campaign.ledger self
    let after := outcome.durable campaign.ledger
    (∀ later < outcome.volatile.reads, ∀ earlier < later + 1,
      self.clock.nowNs earlier ≤ self.clock.nowNs later) ∧
    ∃ row ∈ after.jobs.lookup job.key, row.job = job ∧ row.receipt.state = .queued ∧
      ∃ session ∈ after.sessions.lookup job.sessionKey,
        ∃ endpoint ∈ Runtime.allowedEndpoints self.config job,
          feasible endpoint (self.clock.nowNs (outcome.volatile.reads - 1))
            (job.latestNs session) job.allowedSites self.config.poolSlots
            outcome.volatile.poolUse outcome.volatile.endpointUse after.quarantined = true

theorem Campaign.Strands.not_conserving {campaign : Campaign} {job : Job}
    (strands : campaign.Strands job) (independent : job.dependencies = []) :
    ¬ campaign.ConservesWork (.act .tick) := by
  intro conserves
  obtain ⟨self, live, steady, row, found, rfl, queued, session, sessionFound, endpoint, allowed,
    passes⟩ := strands
  have conserving := conserves self live fun earlier later _ ordered bound =>
    steady later bound earlier (by omega)
  obtain ⟨other, otherFound, fails⟩ := conserving.idle (row.job, row.receipt) ⟨found, queued⟩
    (by simp [Ledger.DependenciesMet, independent])
  obtain rfl : session = other := Option.some.inj (sessionFound.symm.trans otherFound)
  rw [fails endpoint allowed] at passes
  contradiction

/-- The slot is free again, and the tick leaves the spare job in the queue. -/
theorem Sample.stranded :
    ((Campaign.fresh Sample.config.caps).run Sample.stranding).Strands Sample.spareJob := by
  unfold Campaign.Strands
  decide +kernel

/-- A tick that cannot read a failed dependency leaves an idle slot unused. -/
theorem tick_leaves_slot_idle :
    ¬ StepsMeet Campaign.step Campaign.ConservesWork (Campaign.fresh Sample.config.caps)
      (Sample.stranding ++ [.act .tick]) := by
  intro meets
  rw [stepsMeet_append] at meets
  exact Sample.stranded.not_conserving rfl meets.2.1

end AgminaRuntime
