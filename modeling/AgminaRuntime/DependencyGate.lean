import AgminaRuntime.WorkConservation

/-!
# Dependencies gate and failures propagate

The first loop of a tick writes dead states only, and ranks a job only when all
its dependencies have delivered.  What has delivered stays delivered, so when a
turn reserves an attempt or answers from the cache it does so behind delivered
dependencies, whatever else the tick has done before.
-/

namespace AgminaRuntime

open Durable Durable.Program Keyed

/-- A commit reserves an attempt, or delivers a result, only for a job whose
dependencies have all delivered. -/
structure Ledger.Gates (before after : Ledger) : Prop where
  reserved : ∀ key, before.attempts.lookup key = none → after.attempts.lookup key ≠ none →
    ∃ row, before.jobs.lookup key = some row ∧ before.DependenciesMet row.job
  delivered : ∀ key row, after.jobs.lookup key = some row → row.receipt.state = .succeeded →
    before.jobs.lookup key = some row ∨ before.DependenciesMet row.job

/-! ## The first loop -/

/-- A commit reserves nothing and writes dead states only. -/
structure Ledger.Buries (before after : Ledger) : Prop where
  attempts : after.attempts = before.attempts
  rows : ∀ key row, after.jobs.lookup key = some row →
    before.jobs.lookup key = some row ∨ row.receipt.state.isDead = true

theorem Ledger.Buries.gates {before after : Ledger} (buries : before.Buries after) :
    before.Gates after := by
  constructor
  · intro key absent present
    rw [buries.attempts] at present
    exact absurd absent present
  · intro key row found succeeded
    rcases buries.rows key row found with same | dead
    · exact .inl same
    · rw [succeeded] at dead
      contradiction

namespace Runtime

theorem event_buries (atNs : Ns) (kind : Event) :
    Emits Ledger.Buries (Store.event atNs kind : RuntimeProgram Unit) :=
  emits_commit fun _ => ⟨rfl, fun _ _ found => .inl found⟩

theorem receipt_buries (tenant : Name) {receipt : Receipt} (dead : receipt.state.isDead = true) :
    Emits Ledger.Buries (Store.receipt tenant receipt : RuntimeProgram Unit) := by
  apply emits_commit
  intro ledger
  refine ⟨rfl, fun key row found => ?_⟩
  rw [Ledger.lookup_writeReceipt] at found
  split at found
  · obtain ⟨old, -, rfl⟩ := Option.map_eq_some_iff.mp found
    exact .inr dead
  · exact .inl found

theorem nowNs_emits {guarantee : Ledger → Ledger → Prop} : Emits guarantee nowNs := by
  intro ledger self
  rw [wp_nowNs]
  trivial

theorem session_emits {guarantee : Ledger → Ledger → Prop} (tenant sessionId : Name) :
    Emits guarantee (Store.session tenant sessionId : RuntimeProgram Session) := by
  apply emits_bind emits_readDurable
  intro ledger
  split
  · exact emits_raise _
  · exact emits_pure _

theorem moveTo_buries (job : Job) (receipt : Receipt) {state : JobState}
    (dead : state.isDead = true) (reason : PyStr) :
    Emits Ledger.Buries (moveTo job receipt state reason) := by
  apply emits_bind _ fun _ => emits_pure _
  apply emits_bind (receipt_buries job.tenant dead)
  intro _
  apply emits_bind nowNs_emits
  intro now
  exact emits_bind (event_buries _ _) fun _ => emits_pure _

theorem expireJob_buries (now : Ns) (entry : Job × Receipt) :
    Emits Ledger.Buries (expireJob now entry) := by
  apply emits_bind emits_readVolatile
  intro self
  apply emits_bind (session_emits _ _)
  intro session
  split
  · exact emits_pure _
  · rename_i reason _
    exact moveTo_buries _ _ reason.state_isDead _

theorem expire_buries : Emits Ledger.Buries expire := by
  apply emits_bind emits_readVolatile
  intro self
  apply emits_bind nowNs_emits
  intro now
  apply emits_bind (emits_bind emits_readDurable fun _ => emits_ofExcept _)
  exact fun live => emits_forEach (expireJob_buries now) live

theorem rankReady_buries (now : Ns) (entry : Job × Receipt) :
    Emits Ledger.Buries (rankReady now entry) := by
  apply emits_bind emits_readVolatile
  intro self
  apply emits_bind
  · apply emits_collect
    intro dependency
    refine emits_bind (emits_bind emits_readDurable fun ledger => ?_) fun _ => emits_pure _
    split
    · exact emits_raise _
    · exact emits_ofExcept _
  · intro states
    split
    · exact emits_bind (moveTo_buries _ _ rfl _) fun _ => emits_pure _
    · split
      · exact emits_pure _
      · apply emits_bind (session_emits _ _)
        intro session
        split
        · exact emits_raise _
        · exact emits_pure _

end Runtime

/-! ## The turns -/

/-- A commit leaves the rows and the attempts of all other jobs alone. -/
structure Ledger.Touches (key : Name × Name) (before after : Ledger) : Prop where
  rows : before.SameBut key after
  attempts : ∀ other, other ≠ key → after.attempts.lookup other = before.attempts.lookup other

namespace Runtime

variable {job : Job} {receipt : Receipt}

theorem event_touches (key : Name × Name) (atNs : Ns) (kind : Event) :
    Emits (Ledger.Touches key) (Store.event atNs kind : RuntimeProgram Unit) :=
  emits_commit fun _ => ⟨fun _ _ => rfl, fun _ _ => rfl⟩

theorem receipt_touches (sameJob : receipt.jobId = job.id) :
    Emits (Ledger.Touches job.key) (Store.receipt job.tenant receipt : RuntimeProgram Unit) :=
  emits_commit fun ledger => ⟨fun key differs =>
    @Ledger.lookup_writeReceipt_of_ne key ledger ⟨job, receipt⟩ receipt sameJob differs,
      fun _ _ => rfl⟩

theorem reserve_touches (job : Job) (endpoint : Endpoint) (nowNs : Ns) :
    Emits (Ledger.Touches job.key) (Store.reserve job endpoint nowNs : RuntimeProgram Unit) := by
  intro ledger self
  rw [Store.reserve, wp_transaction]
  cases reserved : ledger.reserve job endpoint nowNs with
  | error exception => trivial
  | ok after =>
      obtain ⟨-, -, attempts, inserted, rfl⟩ := ledger.reserve_ok reserved
      refine ⟨⟨fun _ _ => rfl, fun other differs => ?_⟩, trivial⟩
      exact (Table.lookup_insert? inserted).trans (if_neg differs.symm)

theorem moveTo_touches (sameJob : receipt.jobId = job.id) (state : JobState) (reason : PyStr) :
    Emits (Ledger.Touches job.key) (moveTo job receipt state reason) := by
  apply emits_bind _ fun _ => emits_pure _
  apply emits_bind
  · exact receipt_touches sameJob
  intro _
  apply emits_bind nowNs_emits
  intro now
  exact emits_bind (event_touches _ _ _) fun _ => emits_pure _

theorem launch_touches (sameJob : receipt.jobId = job.id) (endpoint : Endpoint)
    (cacheKey : Option CacheKey) (now : Ns) (latestNs : Int) :
    Emits (Ledger.Touches job.key) (launch job receipt endpoint cacheKey now latestNs) := by
  apply emits_bind
  · exact receipt_touches sameJob
  intro _
  apply emits_bind (emits_modifyVolatile _)
  intro _
  exact emits_bind (event_touches _ _ _) fun _ => emits_modifyVolatile _

theorem tryReserve_touches (job : Job) (endpoint : Endpoint) (now : Ns) :
    Emits (Ledger.Touches job.key) (tryReserve job endpoint now) := by
  intro ledger self
  apply (wp_tryExcept _ _).mpr
  apply wp_post (emits_bind (reserve_touches job endpoint now) (fun _ => emits_pure true) _ _)
    (fun _ _ _ ended => ended)
  intro exception middle memory _
  cases exception with
  | permissionError text => exact (wp_pure _).mpr trivial
  | _ => exact (wp_raise _).mpr trivial

theorem dispatchReady_touches (key : RankKey) (sameJob : receipt.jobId = job.id) :
    Emits (Ledger.Touches job.key) (dispatchReady (key, job, receipt)) := by
  apply emits_bind emits_readVolatile
  intro self
  apply emits_bind nowNs_emits
  intro now
  apply emits_bind (session_emits _ _)
  intro session
  split
  · exact moveTo_touches sameJob _ _
  · split
    · exact emits_raise _
    · apply emits_bind
      · apply emits_bind emits_readVolatile
        exact fun _ => emits_bind (emits_modifyVolatile _) fun _ => emits_pure _
      intro hit
      split
      · apply emits_bind
        · exact receipt_touches sameJob
        · exact fun _ => event_touches _ _ _
      · apply emits_bind emits_readVolatile
        intro memory
        apply emits_bind (emits_bind emits_readDurable fun _ => emits_pure _)
        intro quarantined
        split
        · exact emits_pure _
        · apply emits_bind (tryReserve_touches _ _ _)
          intro reserved
          split
          · exact launch_touches sameJob _ _ _ _
          · exact moveTo_touches sameJob _ _

end Runtime

/-! ## Delivered dependencies -/

/-- A dependency that has delivered is not a job that is still queued. -/
theorem Ledger.DependenciesMet.apart {ledger : Ledger} {job : Job}
    (met : ledger.DependenciesMet job)
    {entry : Job × Receipt} (queued : ledger.Queued entry) :
    ∀ dependency ∈ job.dependencies, (job.tenant, dependency) ≠ entry.1.key := by
  intro dependency member same
  obtain ⟨row, found, delivered⟩ := met dependency member
  rw [same] at found
  obtain rfl : row = ⟨entry.1, entry.2⟩ := Option.some.inj (found.symm.trans queued.1)
  rw [show (JobRow.mk entry.1 entry.2).receipt.state = .queued from queued.2] at delivered
  simp at delivered

/-- Writing another row leaves the dependencies as they are. -/
theorem Ledger.DependenciesMet.others {before after : Ledger} {job : Job} {key : Name × Name}
    (met : before.DependenciesMet job) (others : before.SameBut key after)
    (apart : ∀ dependency ∈ job.dependencies, (job.tenant, dependency) ≠ key) :
    after.DependenciesMet job := by
  intro dependency member
  obtain ⟨row, found, delivered⟩ := met dependency member
  exact ⟨row, (others _ (apart dependency member)).trans found, delivered⟩

/-- A commit that touches one job only, behind delivered dependencies. -/
theorem Ledger.Touches.gates {who : Author} {before after : Ledger} {job : Job} {receipt : Receipt}
    (touches : before.Touches job.key after) (commit : Commit who before after)
    (stored : before.Stored (job, receipt)) (met : before.DependenciesMet job) :
    before.Gates after := by
  constructor
  · intro key absent present
    by_cases own : key = job.key
    · subst own
      exact ⟨_, stored, met⟩
    · rw [touches.attempts key own] at present
      exact absurd absent present
  · intro key row found succeeded
    by_cases own : key = job.key
    · subst own
      obtain ⟨next, nextFound, move, -⟩ := commit.row_kept stored
      obtain rfl : next = row := Option.some.inj (nextFound.symm.trans found)
      rw [show next.job = job from move.job_eq]
      exact .inr met
    · rw [touches.rows key own] at found
      exact .inl found

section Gate

variable {lifetime : Lifetime} {ledger : Ledger} {self : Coordinator}

/-- Only a job whose dependencies have all delivered is ranked. -/
theorem rankReady_met (now : Ns) (entry : Job × Receipt) :
    wp (Runtime.rankReady now entry) (fun _ _ => True)
      (fun value after _ => ∀ item ∈ value, item.2 = entry ∧ after.DependenciesMet entry.1)
      (fun _ _ _ => True) ledger self := by
  obtain ⟨job, receipt⟩ := entry
  simp only [Runtime.rankReady, wp_bind, wp_readVolatile]
  have reads : wp (Runtime.dependencyStates job) (fun _ _ => True)
      (fun states after _ => after = ledger ∧ ((∀ state ∈ states,
        state ∈ [JobState.succeeded, .consumed]) → ledger.DependenciesMet job))
      (fun _ _ _ => True) ledger self := by
    apply wp_post (wp_collect (fun rest states after _ => after = ledger ∧
      ((∀ state ∈ states, state ∈ [JobState.succeeded, .consumed]) →
        ∀ dependency ∈ job.dependencies, dependency ∈ rest ∨ ∃ row,
          ledger.jobs.lookup (job.tenant, dependency) = some row ∧
            row.receipt.state ∈ [JobState.succeeded, .consumed])) _ ⟨rfl, ?_⟩) _
      (fun _ _ _ failed => failed)
    · rintro dependency rest states after memory ⟨rfl, known⟩
      rw [wp_bind]
      apply wp_job_intro trivial trivial
      intro row parsed found read
      refine (wp_pure _).mpr ⟨rfl, fun delivered other member => ?_⟩
      simp only [Option.toList_some, List.forall_mem_append, List.forall_mem_singleton]
        at delivered
      rcases known delivered.1 other member with listed | done
      · rcases List.mem_cons.mp listed with rfl | later
        · rw [Receipt.state_of_reparse read] at delivered
          exact .inr ⟨row, found, delivered.2⟩
        · exact .inl later
      · exact .inr done
    · exact fun _ dependency member => .inl member
    · rintro states after memory ⟨rfl, known⟩
      refine ⟨rfl, fun delivered dependency member => ?_⟩
      exact (known delivered dependency member).resolve_left (List.not_mem_nil)
  apply wp_post reads _ (fun _ _ _ failed => failed)
  rintro states after memory ⟨rfl, met⟩
  rw [wp_ite]
  split
  · have buries :
        Emits (fun _ _ => True) (Runtime.moveTo job receipt .rejected "dependency_failed") :=
      (Runtime.moveTo_buries job receipt rfl _).mono fun _ _ _ => trivial
    rw [wp_bind]
    apply wp_post (buries after memory) _ (fun _ _ _ failed => failed)
    exact fun _ _ _ _ => (wp_pure _).mpr (by simp)
  · rw [wp_ite]
    split
    · exact (wp_pure _).mpr (by simp)
    · rename_i settled
      simp only [not_exists, not_and, not_not] at settled
      have ready := met settled
      rw [wp_bind]
      simp only [Store.session, wp_bind, wp_readDurable]
      cases after.sessions.lookup (job.tenant, job.sessionId) with
      | none => exact (wp_raise _).mpr trivial
      | some session =>
          simp only [wp_pure]
          split
          · exact (wp_raise _).mpr trivial
          · refine (wp_pure _).mpr fun item same => ?_
            obtain rfl := Option.some.inj same
            exact ⟨rfl, ready⟩

/-- A turn of a ranked job. -/
theorem dispatchReady_gates (running : Running lifetime ledger self)
    {item : RankKey × Job × Receipt} (queued : ledger.Queued item.2)
    (met : ledger.DependenciesMet item.2.1) :
    wp (Runtime.dispatchReady item) Ledger.Gates (fun _ => Handled lifetime ledger item.2.1)
      (fun _ _ _ => True) ledger self := by
  obtain ⟨key, job, receipt⟩ := item
  have sameJob : receipt.jobId = job.id := (running.sound.rows _ _ queued.1).sameJob
  have apart := met.apart queued
  have both := wp_and (wp_dispatchReady running queued)
    (Runtime.dispatchReady_touches key sameJob ledger self)
  apply wp_mono (wp_guarded (fun state => (∃ updated, state.Stored (job, updated)) ∧
    state.DependenciesMet job) _ ⟨⟨receipt, queued.1⟩, met⟩ both) _
    (fun _ _ _ ended => ended.1) (fun _ _ _ _ => trivial)
  · rintro before after ⟨commit, touches⟩ ⟨⟨updated, stored⟩, met⟩
    refine ⟨?_, met.others touches.rows apart⟩
    obtain ⟨next, nextFound, move, -⟩ := commit.row_kept stored
    refine ⟨next.receipt, ?_⟩
    rw [Ledger.Stored, nextFound, ← show next.job = job from move.job_eq]
  · rintro before after ⟨⟨⟨updated, stored⟩, met⟩, commit, touches⟩
    exact touches.gates commit stored met

/-- The verdict of the first loop on a queued job. -/
theorem rankReady_gates (running : Running lifetime ledger self) (now : Ns)
    {entry : Job × Receipt} (queued : ledger.Queued entry) :
    wp (Runtime.rankReady now entry) Ledger.Gates
      (fun value after next => Running lifetime after next ∧ ledger.SameBut entry.1.key after ∧
        ∀ item ∈ value, item.2 = entry ∧ after.Queued entry ∧ after.DependenciesMet entry.1)
      (fun _ _ _ => True) ledger self := by
  have buries := Runtime.rankReady_buries now entry ledger self
  apply wp_mono (wp_and buries (wp_and (wp_rankReady running now queued) (rankReady_met now entry)))
    (fun _ _ both => both.1.gates) _ (fun _ _ _ _ => trivial)
  rintro value after next ⟨-, ⟨kept, others, added⟩, met⟩
  exact ⟨kept, others, fun item member =>
    ⟨(added item member).1, (added item member).2, (met item member).2⟩⟩

/-- A tick gates every reservation and every cached result. -/
theorem tick_gates (running : Running lifetime ledger self) :
    wp Runtime.tick Ledger.Gates (fun _ _ _ => True) (fun _ _ _ => True) ledger self := by
  simp only [Runtime.tick, wp_bind, wp_readVolatile]
  rw [wp_ite]
  split
  · exact (wp_pure _).mpr trivial
  simp only [wp_bind]
  have swept : wp Runtime.expire (Commit lifetime.coordinator)
      (fun _ after next => Running lifetime after next ∧ ledger.Subsides after)
      (fun _ _ _ => True) ledger self := wp_expire running.toLive
  apply wp_mono (wp_and swept (Runtime.expire_buries ledger self))
    (fun _ _ both => both.2.gates) _ (fun _ _ _ _ => trivial)
  rintro _ swept memory ⟨⟨fresh, -⟩, -⟩
  simp only [wp_bind, wp_nowNs]
  have bound : swept.tenant = some self.config.tenant := by
    rw [fresh.tenant, fresh.config, running.config]
  apply wp_jobs fresh.sound bound (by simp) (by simp [JobState.isLive])
  intro entries reads
  simp only [wp_bind]
  apply wp_post (wp_collect (fun rest ready after next => Ranking lifetime rest ready after next ∧
    ∀ item ∈ ready, after.DependenciesMet item.2.1) _ ⟨⟨fresh.read, _, by simp, _⟩, by simp⟩) _
    (fun _ _ _ failed => failed)
  · rintro entry rest ready before memory ⟨ranking, met⟩
    have queued := ranking.coming entry List.mem_cons_self
    apply wp_post (rankReady_gates ranking.running _ queued) _ (fun _ _ _ failed => failed)
    rintro value after next ⟨kept, others, added⟩
    refine ⟨ranking.extend kept others fun item member => ⟨(added item member).1,
      (added item member).2.1⟩, fun item member => ?_⟩
    rcases List.mem_append.mp member with old | new
    · exact (met item old).others others ((met item old).apart queued)
    · obtain ⟨same, -, ready⟩ := added item (Option.mem_toList.mp new)
      rw [same]
      exact ready
  · intro entry member
    exact ⟨reads.stored entry member, by simpa using reads.selected entry member⟩
  · simpa using reads.distinct
  · rintro ready before memory ⟨ranking, met⟩
    have same : (sortByRank ready).Perm ready := sortByRank_perm ready
    apply wp_post (wp_forEach_stored Prod.snd
      (fun rest after next => Running lifetime after next ∧
        ∀ item ∈ rest, item.2.2.state = .queued ∧ after.DependenciesMet item.2.1) _ _ _
        ⟨ranking.running, _⟩) (fun _ _ _ _ => trivial) (fun _ _ _ failed => failed)
    · rintro item rest after next ⟨kept, waiting⟩ stored
      have queued : after.Queued item.2 := ⟨stored, (waiting item List.mem_cons_self).1⟩
      apply wp_post (dispatchReady_gates kept queued (waiting item List.mem_cons_self).2) _
        (fun _ _ _ failed => failed)
      rintro _ later memory ⟨handled, others⟩
      refine ⟨⟨handled, fun other member => ?_⟩, others⟩
      obtain ⟨state, ready⟩ := waiting other (List.mem_cons_of_mem _ member)
      exact ⟨state, ready.others others (ready.apart queued)⟩
    · intro item member
      exact (ranking.queued item (same.mem_iff.mp member)).1
    · have distinct := ranking.distinct
      rw [List.nil_append, List.map_map] at distinct
      exact (same.map _).nodup_iff.mpr distinct
    · intro item member
      have listed := same.mem_iff.mp member
      exact ⟨(ranking.queued item listed).2, met item listed⟩

theorem Action.tick_gates (running : Running lifetime ledger self) :
    wp (Action.program .tick) Ledger.Gates (fun _ _ _ => True) (fun _ _ _ => True) ledger self := by
  simp only [Action.program, Action.quietly, wp_bind]
  exact wp_post (AgminaRuntime.tick_gates running) (fun _ _ _ ended => (wp_pure _).mpr ended)
    (fun _ _ _ ended => ended)

end Gate

/-! ## Runs -/

/-- Each commit of a tick, also of one that a crash cuts short, gates its job. -/
def Campaign.GatesDependencies (campaign : Campaign) : CampaignStep → Prop
  | .act .tick => List.IsChain Ledger.Gates
      (campaign.ledger :: (campaign.step (.act .tick)).2)
  | .crash .tick count => List.IsChain Ledger.Gates
      (campaign.ledger :: (campaign.step (.crash .tick count)).2)
  | _ => True

/-- No queued job with failed ancestors is still queued after a tick. -/
def Campaign.RejectsDoomed (campaign : Campaign) : CampaignStep → Prop
  | .act .tick => ∀ self ∈ campaign.live, ∀ entry, campaign.ledger.Queued entry →
      campaign.ledger.Doomed (Runtime.afterExpiry campaign.ledger self) entry.1 →
        ∀ row, ((Runtime.tick campaign.ledger self).durable campaign.ledger).jobs.lookup
            entry.1.key = some row → row.receipt.state ≠ .queued
  | _ => True

/-- Every tick of every run reserves attempts and delivers cached results behind
delivered dependencies only; and in a run whose ticks can read the dependencies
of the valid jobs in the queue, every tick takes all jobs with failed ancestors
out of it. -/
theorem ticks_gate_and_reject (caps : BudgetCaps) (steps : List CampaignStep) :
    StepsMeet Campaign.step Campaign.GatesDependencies (Campaign.fresh caps) steps ∧
      (StepsMeet Campaign.step Campaign.TicksReadably (Campaign.fresh caps) steps →
        StepsMeet Campaign.step Campaign.RejectsDoomed (Campaign.fresh caps) steps) := by
  constructor
  · apply stepsMeet_of_invariant Campaign.Sound (fun _ label _ sound => sound.step label) _
      (stepsMeet_true _ _) (Campaign.sound_fresh caps)
    intro campaign label _ sound
    have gates : ∀ self ∈ campaign.live, List.IsChain Ledger.Gates
        (campaign.ledger :: (Action.program .tick campaign.ledger self).commits) :=
      fun self live => (Action.tick_gates (sound.live self live)).1
    unfold Campaign.GatesDependencies
    split
    · cases live : campaign.live with
      | none => simp [Campaign.step, live]
      | some self => simpa [Campaign.step, live] using gates self live
    · rename_i count
      cases live : campaign.live with
      | none => simp [Campaign.step, live]
      | some self => simpa [Campaign.step, live] using isChain_take (gates self live) count
    · trivial
  · intro readably
    apply stepsMeet_of_invariant
      (fun campaign => campaign.Sound ∧ campaign.Served ∧ campaign.ledger.Traced)
      (fun _ label _ holds => Campaign.keeps_tickable label holds) _ readably
      (Campaign.fresh_tickable caps)
    rintro campaign label readable ⟨sound, served, traced⟩
    unfold Campaign.RejectsDoomed
    split
    · intro self live entry queued doomed row found waits
      obtain ⟨entries, ready, middle, ticked⟩ :=
        Campaign.ticked sound served traced live (readable self live) (served.awake live queued)
      have rowKey : row.key = entry.1.key := Table.key_of_lookup found
      rw [← rowKey] at found
      have left : Ledger.Queued _ (row.job, row.receipt) := ⟨found, waits⟩
      have earlier := (ticked.swept.earlier (ticked.still left).1).1
      have stored : campaign.ledger.jobs.lookup row.key = some ⟨entry.1, entry.2⟩ := by
        rw [rowKey]
        exact queued.1
      have sameJob : row.job = entry.1 :=
        congrArg JobRow.job (Option.some.inj (earlier.symm.trans stored))
      apply ticked.not_doomed left
      rw [show (row.job, row.receipt).1 = entry.1 from sameJob]
      exact doomed
    · trivial

theorem ticks_gate_and_reject_flowing :
    StepsMeet Campaign.step Campaign.RejectsDoomed (Campaign.fresh Sample.config.caps)
      Sample.flowing :=
  (ticks_gate_and_reject Sample.config.caps Sample.flowing).2 (by decide +kernel)

/-- A tick of a live coordinator leaves a job in the queue whose dependency has
failed. -/
def Campaign.LeavesBehind (campaign : Campaign) (job : Job) (dependency : Name) : Prop :=
  ∃ self ∈ campaign.live,
    let after := (Runtime.tick campaign.ledger self).durable campaign.ledger
    dependency ∈ job.dependencies ∧
    (∃ row ∈ campaign.ledger.jobs.lookup job.key, row.job = job ∧ row.receipt.state = .queued) ∧
    (∃ row ∈ (Runtime.afterExpiry campaign.ledger self).jobs.lookup (job.tenant, dependency),
      row.receipt.state.isDead = true) ∧
    ∃ row ∈ after.jobs.lookup job.key, row.receipt.state = .queued

theorem Campaign.LeavesBehind.not_rejecting {campaign : Campaign} {job : Job} {dependency : Name}
    (leaves : campaign.LeavesBehind job dependency) : ¬ campaign.RejectsDoomed (.act .tick) := by
  intro rejects
  obtain ⟨self, live, depends, ⟨row, found, rfl, queued⟩, ⟨dead, deadFound, ended⟩, after,
    afterFound, waits⟩ := leaves
  exact rejects self live (row.job, row.receipt) ⟨found, queued⟩ (.dead depends deadFound ended)
    after afterFound waits

theorem Sample.left_behind :
    ((Campaign.fresh Sample.config.caps).run Sample.stranding).LeavesBehind Sample.childJob
      Sample.job := by
  unfold Campaign.LeavesBehind
  decide +kernel

/-- A tick that cannot read a failed dependency leaves its dependents in the queue. -/
theorem tick_leaves_dependents_queued :
    ¬ StepsMeet Campaign.step Campaign.RejectsDoomed (Campaign.fresh Sample.config.caps)
      (Sample.stranding ++ [.act .tick]) := by
  intro meets
  rw [stepsMeet_append] at meets
  exact Sample.left_behind.not_rejecting meets.2.1

end AgminaRuntime
