import AgminaRuntime.MirrorStages

/-!
# A tick makes the greedy choice

The tick sorts every queued job and takes an endpoint for each in turn; the
replay first keeps the requests that are still feasible and then takes as
many as there are free slots.  Over a mirrored journal the two make the same
choice.
-/

namespace AgminaRuntime

open Durable Durable.Program Greedy Keyed

variable {trace : Trace} {mirror : Mirror trace} {now : Ns} {stage : Stage} {ledger : Ledger}
  {memory : Coordinator} {request : ReplayRequest}

/-! ## Rows -/

namespace Staged

/-- A stored row is that of a request. -/
theorem request_of_stored (staged : Staged mirror now stage ledger memory) {entry : Job × Receipt}
    (found : ledger.Stored entry) :
    ∃ request ∈ trace.requests, stage.released request.id ∧ request.releaseNs ≤ now ∧
      entry.1 = mirror.job request ∧ stage.Stands now request entry.2 := by
  obtain ⟨request, known, released, job⟩ := staged.rows _ _ found
  obtain ⟨past, receipt, stored, stands⟩ := staged.stored request known released
  have same : entry.1 = mirror.job request := job
  rw [Ledger.Stored, same, stored, Option.some.injEq, JobRow.mk.injEq] at found
  exact ⟨request, known, released, past, same, found.2 ▸ stands⟩

theorem readable (staged : Staged mirror now stage ledger memory) :
    ∀ row ∈ ledger.jobs.rows, row.receipt.Readable := by
  intro row member
  have found : ledger.Stored (row.job, row.receipt) := Table.lookup_of_mem member
  obtain ⟨_, _, _, _, _, stands⟩ := staged.request_of_stored found
  exact stands.readable

theorem tenants (staged : Staged mirror now stage ledger memory) :
    ∀ row ∈ ledger.jobs.rows, row.job.tenant = mirror.config.tenant := by
  intro row member
  obtain ⟨request, known, _, job⟩ := staged.rows _ row (Table.lookup_of_mem member)
  rw [job]
  exact (mirror.mirrored request known).tenant

/-- A queued job has not been started. -/
theorem unstarted {receipt : Receipt} (stands : stage.Stands now request receipt)
    (queued : receipt.state = .queued) : stage.start request.id = none := by
  cases started : stage.start request.id with
  | none => rfl
  | some began => exact absurd queued (stands.left (by rw [started]; rfl))

theorem wp_jobs (staged : Staged mirror now stage ledger memory) {tenant : Name}
    (own : tenant = mirror.config.tenant) {states : List JobState} (nonempty : states ≠ [])
    {normal : List (Job × Receipt) → Ledger → Coordinator → Prop}
    (returns : ∀ entries, Reads ledger tenant states entries → normal entries ledger memory) :
    Returns (Store.jobs tenant states) normal ledger memory := by
  subst own
  exact wp_jobs_readable staged.tenants nonempty (fun row member _ => staged.readable row member)
    returns

end Staged

/-! ## Expiry -/

/-- A receipt leaves the queue once the time of its request has passed. -/
theorem Stage.Stands.pass {receipt : Receipt} (stands : stage.Stands now request receipt)
    (passed : request.latestNs ≤ now.val) {state : JobState} (left : state ≠ .queued)
    (text : String) :
    stage.Stands now request
      { receipt with state := state, reason := some (PyStr.ofString text) } where
  job := stands.job
  readable := stands.readable.moved state text
  submitted := stands.submitted
  started := stands.started
  waits := fun _ => Or.inr (Or.inl passed)
  left := fun _ => left

theorem Staged.wp_expireJob (staged : Staged mirror now stage ledger memory)
    {entry : Job × Receipt} (found : ledger.Stored entry) :
    Returns (Runtime.expireJob now entry)
      (fun _ after next => (Staged mirror now stage after next ∧
        ∃ reads, next = { memory with reads := reads }) ∧ ledger.SameBut entry.1.key after)
      ledger memory := by
  obtain ⟨request, known, _, past, job, stands⟩ := staged.request_of_stored found
  obtain ⟨job', receipt⟩ := entry
  dsimp only at job
  subst job
  obtain ⟨session, sessionFound, reason⟩ := staged.session known past
  have clockId : memory.clock.id = mirror.clockId := by rw [staged.clock]
  simp only [Runtime.expireJob, wp_bind, wp_readVolatile, wp_session sessionFound, clockId, reason]
  split
  · exact (wp_pure ()).mpr ⟨⟨staged, memory.reads, rfl⟩, fun _ _ => rfl⟩
  · rename_i invalid
    split at invalid
    · rename_i passed
      exact wp_post (staged.wp_moveTo known found
        (stands.pass passed (InvalidReason.state_ne_queued _) _))
        (fun _ _ _ moved => ⟨⟨moved.1, _, moved.2.2.2⟩, moved.2.1⟩) (fun _ _ _ failed => failed)
    · contradiction

theorem Staged.wp_expire (staged : Staged mirror now stage ledger memory) :
    Returns Runtime.expire (fun _ after next => Staged mirror now stage after next ∧
      ∃ reads, next = { memory with reads := reads }) ledger memory := by
  simp only [Runtime.expire, wp_bind, wp_readVolatile, wp_nowNs, staged.nowNs]
  apply staged.read.wp_jobs (by rw [staged.config]) (by simp)
  intro entries reads
  apply wp_forEach_stored id (fun _ after next => Staged mirror now stage after next ∧
    ∃ reads, next = { memory with reads := reads }) _ reads.stored reads.distinct
    ⟨staged.read, _, rfl⟩
  rintro entry rest before self ⟨kept, earlier, rfl⟩ stored
  apply wp_post (kept.wp_expireJob stored) _ (fun _ _ _ failed => failed)
  rintro _ after next ⟨⟨swept, later, rfl⟩, others⟩
  exact ⟨⟨swept, later, rfl⟩, others⟩

/-! ## Ranking -/

theorem Staged.wp_rankReady (staged : Staged mirror now stage ledger memory)
    {entry : Job × Receipt} (found : ledger.Stored entry) :
    Returns (Runtime.rankReady now entry)
      (fun ranked after next => after = ledger ∧ next = memory ∧
        ranked = some (trace.rankAt mirror.config.scheduler now.val entry.1.id, entry))
      ledger memory := by
  obtain ⟨request, known, _, _, job, stands⟩ := staged.request_of_stored found
  obtain ⟨job', receipt⟩ := entry
  dsimp only at job
  subst job
  have mirrored := mirror.mirrored request known
  obtain ⟨session, sessionFound, _⟩ := staged.sessions request known
  have sessionStored : ledger.sessions.lookup
      ((mirror.job request).tenant, (mirror.job request).sessionId) = some session := sessionFound
  have ranked : trace.rankAt mirror.config.scheduler now.val (mirror.job request).id =
      rank request.candidate now.val mirror.config.scheduler := by
    rw [Trace.rankAt, mirrored.id, Trace.request?_of_mem known]
  simp only [Runtime.rankReady, wp_bind, wp_readVolatile, Runtime.dependencyStates,
    mirrored.independent, wp_collect_nil]
  rw [if_neg (by simp), if_neg (by simp)]
  simp only [wp_bind, wp_session sessionStored, staged.config, mirrored.allowedEndpoints,
    List.map_cons, List.map_nil, List.min?_singleton]
  apply (wp_pure _).mpr
  rw [ranked, mirrored.candidate session stands.submitted]
  exact ⟨rfl, rfl, rfl⟩

/-- The first loop of a tick ranks every queued job as the replay does. -/
theorem Staged.wp_rankAll (staged : Staged mirror now stage ledger memory)
    {queued : List (Job × Receipt)} (found : ∀ entry ∈ queued, ledger.Stored entry) :
    Returns (collect queued (Runtime.rankReady now))
      (fun ready after next => after = ledger ∧ next = memory ∧
        ready = queued.map fun entry =>
          (trace.rankAt mirror.config.scheduler now.val entry.1.id, entry))
      ledger memory := by
  let ranked : Job × Receipt → RankKey × Job × Receipt := fun entry =>
    (trace.rankAt mirror.config.scheduler now.val entry.1.id, entry)
  refine wp_post (wp_collect (fun rest ready after next => after = ledger ∧ next = memory ∧
    (∀ entry ∈ rest, ledger.Stored entry) ∧ ready ++ rest.map ranked = queued.map ranked)
    ?_ ⟨rfl, rfl, found, rfl⟩) ?_ (fun _ _ _ failed => failed)
  · rintro entry rest ready after next ⟨rfl, rfl, found, so_far⟩
    apply wp_post (staged.wp_rankReady (found entry List.mem_cons_self)) _
      (fun _ _ _ failed => failed)
    rintro _ after next ⟨rfl, rfl, rfl⟩
    refine ⟨rfl, rfl, fun other member => found other (List.mem_cons_of_mem _ member), ?_⟩
    rw [← so_far, Option.toList_some, List.append_assoc]
    rfl
  · rintro ready after next ⟨rfl, rfl, -, all⟩
    rw [List.map_nil, List.append_nil] at all
    exact ⟨rfl, rfl, all⟩

/-! ## Dispatching -/

/-- A request would still be in time if it were started now. -/
def Trace.feasible (trace : Trace) (now : Nat) (id : Name) : Bool :=
  decide (now + trace.reading (·.profileNs.val) id < trace.reading (·.latestNs) id)

theorem Trace.feasible_iff (known : request ∈ trace.requests) {instant : Nat} :
    trace.feasible instant request.id = true ↔
      instant + request.profileNs.val < request.latestNs := by
  rw [feasible, decide_eq_true_eq, Trace.reading_of_mem (·.profileNs.val) known,
    Trace.reading_of_mem (·.latestNs) known]

/-- The slot counters of a coordinator with one pool. -/
structure Tally (mirror : Mirror trace) (memory : Coordinator) : Prop where
  poolUse : memory.poolUse mirror.pool.id = memory.running.length
  endpointUse : ∀ request ∈ trace.requests,
    memory.endpointUse (mirror.endpoint request).id ≤ memory.running.length

/-- An endpoint is found for a job exactly when a slot is free and it would be
in time. -/
theorem Staged.chooseEndpoint (staged : Staged mirror now stage ledger memory)
    (tally : Tally mirror memory) (known : request ∈ trace.requests) (session : Session) :
    chooseEndpoint (memory.config.endpointsOf (mirror.job request).model) now
        ((mirror.job request).latestNs session) (mirror.job request).allowedSites
        memory.config.poolSlots memory.poolUse memory.endpointUse ledger.quarantined
        memory.config.placement =
      if memory.running.length < trace.slots ∧ trace.feasible now.val request.id then
        some (mirror.endpoint request)
      else none := by
  have mirrored := mirror.mirrored request known
  have inflight := mirror.inflight request known
  have uses := tally.endpointUse request known
  have passes : feasible (mirror.endpoint request) now ((mirror.job request).latestNs session)
      (mirror.job request).allowedSites memory.config.poolSlots memory.poolUse
      memory.endpointUse [] =
        decide (memory.running.length < trace.slots ∧ trace.feasible now.val request.id) := by
    rw [Bool.eq_iff_iff, decide_eq_true_eq, Trace.feasible_iff known, feasible,
      if_neg (by simp [mirrored.allowed]), mirror.endpoint_pool known, staged.config,
      mirror.poolSlots, tally.poolUse, mirrored.latestNs, mirrored.estimate]
    split
    · simp only [Bool.false_eq_true, false_iff]
      omega
    · split
      · simp only [Bool.false_eq_true, false_iff]
        omega
      · simp only [true_iff]
        omega
  rw [AgminaRuntime.chooseEndpoint, staged.quarantined, staged.config, mirrored.served,
    ← staged.config, List.filter_cons, passes]
  by_cases chosen : memory.running.length < trace.slots ∧ trace.feasible now.val request.id
  · rw [decide_eq_true chosen, if_pos rfl, if_pos chosen]
    rfl
  · rw [decide_eq_false chosen, if_neg (by simp), if_neg chosen]
    rfl

/-- Only the attempt of a started request has changed. -/
theorem Recorded.of_attempts {after : Ledger} (recorded : Recorded mirror now stage ledger)
    (known : request ∈ trace.requests) (started : (stage.start request.id).isSome)
    (quarantines : after.quarantines = ledger.quarantines)
    (sessions : after.sessions = ledger.sessions)
    (observations : after.observations = ledger.observations) (jobs : after.jobs = ledger.jobs)
    (others : ∀ key, key ≠ (mirror.job request).key →
      after.attempts.lookup key = ledger.attempts.lookup key) :
    Recorded mirror now stage after := by
  constructor
  · rw [Ledger.quarantined, quarantines]
    exact recorded.quarantined
  · rw [sessions]
    exact recorded.sessions
  · rw [observations]
    exact recorded.evidence
  · rw [jobs]
    exact recorded.rows
  · simp only [Ledger.Stored, jobs]
    exact recorded.stored
  · intro other otherKnown unstarted
    rw [others _ (Mirror.key_ne known otherKnown fun same => by
      rw [← same, unstarted] at started
      contradiction)]
    exact recorded.unattempted other otherKnown unstarted

/-- A new task takes a slot. -/
theorem Manned.launch (manned : Manned mirror now stage memory)
    (known : request ∈ trace.requests) (fresh : ¬ stage.occupied request.id)
    (cacheKey : Option CacheKey) {next : Coordinator} (config : next.config = memory.config)
    (clock : next.clock = memory.clock) (closed : next.closed = memory.closed)
    (network : next.allowNetwork = memory.allowNetwork)
    (backends : next.backends = memory.backends)
    (running : next.running = memory.running ++
      [⟨mirror.job request, mirror.endpoint request, cacheKey, .created⟩]) :
    Manned mirror now (stage.launch [request.id] now.val) next := by
  refine ⟨config.trans manned.config, clock.trans manned.clock, closed.trans manned.awake,
    network.trans manned.network, backends.trans manned.backends, ?_, ?_⟩
  · intro task member
    rw [running] at member
    rcases List.mem_append.mp member with old | new
    · obtain ⟨other, otherKnown, occupied, job, endpoint, phase⟩ := manned.tasks task old
      have differs : other.id ≠ request.id := by
        intro same
        rw [same] at occupied
        exact fresh occupied
      refine ⟨other, otherKnown, Or.inl occupied, job, endpoint, ?_⟩
      rw [phase]
      simp [Stage.launch, differs]
    · rw [List.mem_singleton] at new
      subst new
      exact ⟨request, known, by simp [Stage.launch], rfl, rfl, by simp [Stage.launch]⟩
  · intro other otherKnown occupied
    rw [running]
    rcases occupied with old | new
    · obtain ⟨task, member, job⟩ := manned.busy other otherKnown old
      exact ⟨task, List.mem_append_left _ member, job⟩
    · rw [List.mem_singleton] at new
      obtain rfl := Trace.eq_of_id otherKnown known new
      exact ⟨_, List.mem_append_right _ (List.mem_singleton_self _), rfl⟩

theorem Tally.launch (tally : Tally mirror memory) (known : request ∈ trace.requests)
    {next : Coordinator}
    (poolUse : next.poolUse =
      Runtime.increment memory.poolUse (mirror.endpoint request).pool)
    (endpointUse : next.endpointUse =
      Runtime.increment memory.endpointUse (mirror.endpoint request).id)
    (running : next.running.length = memory.running.length + 1) : Tally mirror next := by
  constructor
  · rw [poolUse, running, Runtime.increment, mirror.endpoint_pool known, Function.update_self,
      tally.poolUse]
    rfl
  · intro other otherKnown
    have before := tally.endpointUse other otherKnown
    rw [endpointUse, running, Runtime.increment]
    by_cases same : (mirror.endpoint other).id = (mirror.endpoint request).id
    · rw [same] at before ⊢
      rw [Function.update_self]
      omega
    · rw [Function.update_of_ne same]
      omega

/-- The receipt of a job that is dispatched. -/
theorem Stage.Stands.launch {receipt : Receipt} (stands : stage.Stands now request receipt)
    (endpoint : Name) :
    (stage.launch [request.id] now.val).Stands now request
      { receipt with state := .running, endpoint := some endpoint, startedNs := some now } where
  job := stands.job
  readable := stands.readable.congr rfl rfl rfl
  submitted := stands.submitted
  started := by simp [Stage.launch]
  waits := fun unstarted => by simp [Stage.launch] at unstarted
  left := fun _ => by simp

/-- What the tick has done with some of the queued jobs while a number of slots
was in use: it has launched those that the replay would start, unless a limit
has refused one. -/
structure Treated (mirror : Mirror trace) (now : Ns) (stage : Stage) (used : Nat)
    (candidates items : List Name) (after : Ledger) (next : Coordinator) : Prop where
  staged : Staged mirror now (stage.launch items now.val) after next
  tally : Tally mirror next
  length : next.running.length = used + items.length
  chosen : ¬ after.Unlimited ∨ items =
    (candidates.filter (trace.feasible now.val)).take (trace.slots - used)

theorem Stage.launch_nil (stage : Stage) (now : Nat) : stage.launch [] now = stage := by
  simp [Stage.launch]

/-- A job that is not launched leaves the stage. -/
theorem Treated.idle {candidates : List Name} {used : Nat} {after : Ledger} {next : Coordinator}
    (staged : Staged mirror now stage after next) (tally : Tally mirror next)
    (running : next.running.length = used)
    (chosen : ¬ after.Unlimited ∨
      (candidates.filter (trace.feasible now.val)).take (trace.slots - used) = []) :
    Treated mirror now stage used candidates [] after next where
  staged := by
    rw [Stage.launch_nil]
    exact staged
  tally := tally
  length := by rw [running, List.length_nil, Nat.add_zero]
  chosen := chosen.imp_right Eq.symm

theorem Tally.read (tally : Tally mirror memory) :
    Tally mirror { memory with reads := memory.reads + 1 } :=
  ⟨tally.poolUse, tally.endpointUse⟩

theorem Staged.wp_launch (staged : Staged mirror now stage ledger memory)
    (tally : Tally mirror memory) (known : request ∈ trace.requests)
    (released : stage.released request.id) {receipt : Receipt}
    (found : ledger.Stored (mirror.job request, receipt))
    (stands : stage.Stands now request receipt) (unstarted : stage.start request.id = none)
    {middle : Ledger}
    (reserved : ledger.reserve (mirror.job request) (mirror.endpoint request) now = .ok middle)
    (cacheKey : Option CacheKey) (latestNs : Int) :
    Returns (Runtime.launch (mirror.job request) receipt (mirror.endpoint request) cacheKey now
        latestNs)
      (fun _ after next => ledger.SameBut (mirror.job request).key after ∧
        Staged mirror now (stage.launch [request.id] now.val) after next ∧ Tally mirror next ∧
          next.running.length = memory.running.length + 1) middle memory := by
  have fresh : ¬ stage.occupied request.id := by
    intro occupied
    have begun := (staged.begun request known occupied).2
    rw [unstarted] at begun
    contradiction
  have started : ((stage.launch [request.id] now.val).start request.id).isSome := by
    simp [Stage.launch]
  obtain ⟨-, -, attempts, inserted, rfl⟩ := ledger.reserve_ok reserved
  obtain ⟨recorded, others, -⟩ := staged.toRecorded.write known found
    (stands.launch (mirror.endpoint request).id) rfl
    (fun id differs => by simp [Stage.launch, differs])
    fun impossible => by rw [impossible] at started; contradiction
  have untouched : ∀ key, key ≠ (mirror.job request).key →
      attempts.lookup key = ledger.attempts.lookup key := fun key differs =>
    (Table.lookup_insert? inserted).trans (if_neg (Ne.symm differs))
  simp only [Runtime.launch, wp_bind, wp_receipt, wp_modifyVolatile, wp_event, true_and]
  refine ⟨others, ⟨?_, ?_, ?_⟩, tally.launch known rfl rfl (by simp), by simp⟩
  · apply Recorded.note
    exact recorded.of_attempts known started rfl rfl rfl rfl untouched
  · exact staged.toManned.launch known fresh cacheKey rfl rfl rfl rfl rfl rfl
  · intro other otherKnown occupied
    rcases occupied with old | new
    · obtain ⟨otherReleased, otherStarted⟩ := staged.begun other otherKnown old
      refine ⟨otherReleased, ?_⟩
      simp only [Stage.launch]
      split
      · rfl
      · exact otherStarted
    · rw [List.mem_singleton] at new
      rw [new]
      exact ⟨released, started⟩

theorem Ledger.not_unlimited {entry : Job × Receipt} (found : ledger.Stored entry)
    (limited : entry.2.Limited) : ¬ ledger.Unlimited := fun unlimited =>
  unlimited _ (Table.mem_of_lookup found) limited

theorem Staged.wp_dispatch (staged : Staged mirror now stage ledger memory)
    (tally : Tally mirror memory) (known : request ∈ trace.requests)
    (released : stage.released request.id) {receipt : Receipt}
    (found : ledger.Stored (mirror.job request, receipt))
    (stands : stage.Stands now request receipt) (unstarted : stage.start request.id = none)
    (session : Session) (cacheKey : Option CacheKey) :
    Returns (Runtime.dispatch (mirror.job request) receipt session now cacheKey)
      (fun _ after next => ledger.SameBut (mirror.job request).key after ∧
        ∃ items, Treated mirror now stage memory.running.length [request.id] items after next) ledger memory := by
  simp only [Runtime.dispatch, wp_bind, wp_readVolatile, wp_quarantined,
    staged.chooseEndpoint tally known]
  by_cases chosen : memory.running.length < trace.slots ∧ trace.feasible now.val request.id
  · rw [if_pos chosen]
    have takes : ([request.id].filter (trace.feasible now.val)).take
        (trace.slots - memory.running.length) = [request.id] := by
      rw [List.filter_cons_of_pos chosen.2, List.filter_nil, List.take_of_length_le]
      rw [List.length_singleton]
      omega
    simp only [wp_bind, Runtime.tryReserve, wp_tryExcept, Store.reserve, wp_transaction]
    cases reserved : ledger.reserve (mirror.job request) (mirror.endpoint request) now with
    | ok middle =>
        refine ⟨trivial, (wp_pure true).mpr ?_⟩
        rw [if_pos rfl]
        apply wp_post (staged.wp_launch tally known released found stands unstarted reserved
          cacheKey _) _ (fun _ _ _ failed => failed)
        rintro _ after next ⟨others, launched, counted, length⟩
        exact ⟨others, [request.id], launched, counted, length, Or.inr takes.symm⟩
    | error exception =>
        have unattempted := staged.unattempted request known unstarted
        rw [ledger.reserve_error unattempted reserved]
        apply (wp_pure false).mpr
        rw [if_neg (by simp)]
        have refused : stage.Stands now request
            { receipt with state := .rejected, reason := some "attempt_or_cost_ceiling" } :=
          { job := stands.job
            readable := stands.readable.moved .rejected "attempt_or_cost_ceiling"
            submitted := stands.submitted
            started := stands.started
            waits := fun _ => Or.inr (Or.inr ⟨rfl, by simp⟩)
            left := fun _ => by simp }
        apply wp_post (staged.wp_moveTo known found refused) _ (fun _ _ _ failed => failed)
        rintro _ after next ⟨kept, others, stored, rfl⟩
        exact ⟨others, [], Treated.idle kept tally.read rfl
          (Or.inl (Ledger.not_unlimited stored ⟨rfl, by simp⟩))⟩
  · rw [if_neg chosen]
    refine (wp_pure ()).mpr ⟨fun _ _ => rfl, [], Treated.idle staged tally rfl (Or.inr ?_)⟩
    by_cases feasible : trace.feasible now.val request.id
    · have full : trace.slots - memory.running.length = 0 := by
        by_contra free
        exact chosen ⟨by omega, feasible⟩
      rw [full, List.take_zero]
    · rw [List.filter_cons_of_neg feasible, List.filter_nil, List.take_nil]

theorem Staged.wp_dispatchReady (staged : Staged mirror now stage ledger memory)
    (tally : Tally mirror memory) {item : RankKey × Job × Receipt}
    (found : ledger.Stored item.2) (queued : item.2.2.state = .queued) :
    Returns (Runtime.dispatchReady item)
      (fun _ after next => ledger.SameBut item.2.1.key after ∧
        ∃ items, Treated mirror now stage memory.running.length [item.2.1.id] items after next)
      ledger memory := by
  obtain ⟨request, known, released, past, job, stands⟩ := staged.request_of_stored found
  obtain ⟨rankKey, job', receipt⟩ := item
  dsimp only at job queued
  subst job
  have mirrored := mirror.mirrored request known
  obtain ⟨session, sessionFound, reason⟩ := staged.session known past
  obtain ⟨contract, registered⟩ := mirrored.registered
  rw [← staged.config] at registered
  have clockId : memory.clock.id = mirror.clockId := by rw [staged.clock]
  simp only [Runtime.dispatchReady, wp_bind, wp_readVolatile, wp_nowNs, wp_session sessionFound,
    staged.nowNs, clockId, reason, registered, mirrored.id]
  by_cases passed : request.latestNs ≤ now.val
  · rw [if_pos passed]
    apply wp_post (staged.read.wp_moveTo known found
      (stands.pass passed (InvalidReason.state_ne_queued _) _)) _ (fun _ _ _ failed => failed)
    rintro _ after next ⟨kept, others, -, rfl⟩
    refine ⟨others, [], Treated.idle kept tally.read.read rfl (Or.inr ?_)⟩
    have infeasible : ¬ trace.feasible now.val request.id = true := by
      rw [Trace.feasible_iff known]
      omega
    rw [List.filter_cons_of_neg infeasible, List.filter_nil, List.take_nil]
  · rw [if_neg passed]
    simp only [wp_bind, Runtime.cacheGet, mirrored.cacheKey, HistoricalCache.get, wp_readVolatile,
      wp_modifyVolatile]
    apply (wp_pure _).mpr
    exact staged.read.wp_dispatch tally.read known released found stands
      (Staged.unstarted stands queued) session none

/-! ## The second loop -/

theorem Ledger.SameBut.unlimited {after : Ledger} {entry : Job × Receipt}
    (others : ledger.SameBut entry.1.key after) (found : ledger.Stored entry)
    (queued : entry.2.state = .queued) (unlimited : after.Unlimited) : ledger.Unlimited := by
  intro row member
  have rowFound := Table.lookup_of_mem member
  by_cases same : row.key = entry.1.key
  · rw [same, found, Option.some.injEq] at rowFound
    rintro ⟨rejected, -⟩
    rw [← rowFound, queued] at rejected
    contradiction
  · exact unlimited row (Table.mem_of_lookup ((others _ same).trans rowFound))

theorem Stage.launch_launch (stage : Stage) (first second : List Name) (now : Nat) :
    (stage.launch first now).launch second now = stage.launch (first ++ second) now := by
  simp only [launch, List.mem_append, mk.injEq, true_and]
  refine ⟨?_, ?_, ?_⟩
  · funext id
    by_cases early : id ∈ first
    · simp [early]
    · simp [early]
  · funext id
    exact propext or_assoc
  · funext id
    exact propext or_assoc

/-- What the rest of a list adds to the choice from its head. -/
theorem take_filter_cons {α : Type} (keeps : α → Bool) (head : α) (rest : List α) (free : Nat) :
    ((head :: rest).filter keeps).take free =
      ([head].filter keeps).take free ++
        (rest.filter keeps).take (free - (([head].filter keeps).take free).length) := by
  rw [← List.singleton_append, List.filter_append, List.take_append, List.length_take]
  congr 2
  omega

/-- The loop launches the first feasible jobs of its list, as many as there are
free slots. -/
theorem Staged.wp_dispatchAll (staged : Staged mirror now stage ledger memory)
    (tally : Tally mirror memory) {ready : List (RankKey × Job × Receipt)}
    (found : ∀ item ∈ ready, ledger.Stored item.2)
    (queued : ∀ item ∈ ready, item.2.2.state = .queued)
    (distinct : (ready.map fun item => item.2.1.key).Nodup) :
    Returns (forEach ready Runtime.dispatchReady)
      (fun _ after next => (after.Unlimited → ledger.Unlimited) ∧
        ∃ items, Treated mirror now stage memory.running.length
          (ready.map fun item => item.2.1.id) items after next) ledger memory := by
  let candidates : List (RankKey × Job × Receipt) → List Name := fun rest =>
    (rest.map fun item => item.2.1.id).filter (trace.feasible now.val)
  refine wp_post (wp_forEach_stored Prod.snd
    (fun rest after next => (∀ item ∈ rest, item.2.2.state = .queued) ∧
      (after.Unlimited → ledger.Unlimited) ∧ ∃ taken, Staged mirror now (stage.launch taken now.val) after next ∧ Tally mirror next ∧
        next.running.length = memory.running.length + taken.length ∧
          (¬ after.Unlimited ∨
            taken ++ (candidates rest).take (trace.slots - next.running.length) =
              (candidates ready).take (trace.slots - memory.running.length)))
    ?_ found distinct ⟨queued, fun unlimited => unlimited, [], ?_, tally, rfl, Or.inr rfl⟩) ?_
    (fun _ _ _ failed => failed)
  · rintro item rest before self ⟨queued, bounded, taken, kept, counts, length, chosen⟩ stored
    have itemQueued := queued item List.mem_cons_self
    apply wp_post (kept.wp_dispatchReady counts stored itemQueued) _ (fun _ _ _ failed => failed)
    rintro _ after next ⟨others, items, treated⟩
    have free : after.Unlimited → before.Unlimited := others.unlimited stored itemQueued
    refine ⟨⟨fun other member => queued other (List.mem_cons_of_mem _ member),
      fun unlimited => bounded (free unlimited), taken ++ items, ?_, treated.tally, ?_, ?_⟩, others⟩
    · rw [← Stage.launch_launch]
      exact treated.staged
    · rw [treated.length, length, List.length_append, Nat.add_assoc]
    · rcases treated.chosen with limited | items_eq
      · exact Or.inl limited
      · rcases chosen with limited | chosen
        · exact Or.inl fun unlimited => limited (free unlimited)
        · right
          have split := take_filter_cons (trace.feasible now.val) item.2.1.id
            (rest.map fun item => item.2.1.id) (trace.slots - self.running.length)
          rw [← items_eq] at split
          rw [← chosen, treated.length, List.append_assoc, ← Nat.sub_sub]
          exact congrArg (taken ++ ·) split.symm
  · rw [Stage.launch_nil]
    exact staged
  · rintro _ after next ⟨-, bounded, taken, kept, counts, length, chosen⟩
    refine ⟨bounded, taken, kept, counts, length, chosen.imp_right ?_⟩
    intro same
    rw [← same]
    simp [candidates]

/-! ## The whole tick -/

/-- A stage before the tick of an instant: what is released has been submitted,
and what runs holds a slot. -/
structure Stage.Due (stage : Stage) (trace : Trace) (mode : Scheduler) (now : Nat) : Prop where
  released : ∀ request ∈ trace.requests,
    stage.released request.id ↔ request.releaseNs.val ≤ now
  occupied : ∀ request ∈ trace.requests,
    stage.occupied request.id ↔ (trace.work mode).running stage.start now request.id = true

/-- A slot is in use for every request that runs. -/
theorem Staged.busy_eq (staged : Staged mirror now stage ledger memory) {mode : Scheduler}
    (due : stage.Due trace mode now.val)
    (distinct : (memory.running.map fun task => task.job.id).Nodup) :
    (trace.work mode).busy stage.start now.val = memory.running.length := by
  rw [Demand.busy, List.countP_eq_length_filter, ← List.length_map fun task : Task => task.job.id]
  apply List.Perm.length_eq
  apply (List.perm_ext_iff_of_nodup ((trace.work mode).distinct.filter _) distinct).mpr
  intro id
  rw [List.mem_filter, List.mem_map]
  constructor
  · rintro ⟨member, runs⟩
    obtain ⟨request, known, rfl⟩ := List.mem_map.mp member
    obtain ⟨task, running, job⟩ := staged.busy request known ((due.occupied request known).mpr runs)
    exact ⟨task, running, by rw [job, (mirror.mirrored request known).id]⟩
  · rintro ⟨task, running, rfl⟩
    obtain ⟨request, known, occupied, job, -⟩ := staged.tasks task running
    rw [job, (mirror.mirrored request known).id]
    exact ⟨List.mem_map_of_mem known, (due.occupied request known).mp occupied⟩

/-- The queued jobs in the order of the tick, without those that would be late,
are the waiting requests in the order of the replay. -/
theorem Staged.chosen_eq (staged : Staged mirror now stage ledger memory)
    (unlimited : ledger.Unlimited) {mode : Scheduler} (due : stage.Due trace mode now.val)
    (distinct : (memory.running.map fun task => task.job.id).Nodup) {tenant : Name}
    {queued : List (Job × Receipt)} (reads : Reads ledger tenant [.queued] queued) :
    (((sortByRank (queued.map fun entry => (trace.rankAt mode now.val entry.1.id, entry))).map
        fun item => item.2.1.id).filter (trace.feasible now.val)).take
          (trace.slots - memory.running.length) =
      (trace.work mode).chosen stage.start now.val := by
  let ready := queued.map fun entry => (trace.rankAt mode now.val entry.1.id, entry)
  have same : (sortByRank ready).Perm ready := sortByRank_perm ready
  have ids : ((sortByRank ready).map fun item => item.2.1.id).Perm
      (queued.map fun entry => entry.1.id) := by
    have perm := same.map fun item => item.2.1.id
    rwa [List.map_map] at perm
  have ranked : ∀ item ∈ sortByRank ready,
      item.1 = (trace.work mode).rank now.val item.2.1.id := by
    intro item member
    obtain ⟨entry, _, rfl⟩ := List.mem_map.mp (same.mem_iff.mp member)
    rfl
  have queuedIds : (queued.map fun entry => entry.1.id).Nodup := by
    apply List.Nodup.of_map (Prod.mk mirror.config.tenant)
    rw [List.map_map]
    convert reads.distinct using 1
    apply List.map_congr_left
    intro entry member
    have tenants := staged.tenants _ (Table.mem_of_lookup (reads.stored entry member))
    exact congrArg (·, entry.1.id) tenants.symm
  rw [Demand.chosen, staged.busy_eq due distinct]
  congr 1
  apply Demand.eq_sorted_of_perm
  · apply (List.perm_ext_iff_of_nodup ((ids.nodup_iff.mpr queuedIds).filter _)
      ((trace.work mode).distinct.filter _)).mpr
    intro id
    rw [List.mem_filter, List.mem_filter, ids.mem_iff, List.mem_map]
    constructor
    · rintro ⟨⟨entry, member, rfl⟩, feasible⟩
      obtain ⟨request, known, released, _, job, stands⟩ :=
        staged.request_of_stored (reads.stored entry member)
      rw [job, (mirror.mirrored request known).id] at feasible ⊢
      refine ⟨List.mem_map_of_mem known, Demand.waiting_iff.mpr ⟨?_, ?_, ?_⟩⟩
      · exact (Trace.reading_of_mem (·.releaseNs.val) known).trans_le
          ((due.released request known).mp released)
      · exact Staged.unstarted stands (by simpa using reads.selected entry member)
      · exact of_decide_eq_true feasible
    · rintro ⟨member, waits⟩
      obtain ⟨request, known, rfl⟩ := List.mem_map.mp member
      obtain ⟨released, unstarted, feasible⟩ := Demand.waiting_iff.mp waits
      have release : request.releaseNs.val ≤ now.val :=
        (Trace.reading_of_mem (·.releaseNs.val) known).symm.trans_le released
      obtain ⟨_, receipt, stored, stands⟩ :=
        staged.stored request known ((due.released request known).mpr release)
      have inTime : trace.feasible now.val request.id = true := decide_eq_true feasible
      refine ⟨⟨(mirror.job request, receipt), ?_, (mirror.mirrored request known).id⟩, inTime⟩
      apply reads.complete _ _ stored
      rw [Trace.feasible_iff known] at inTime
      rcases stands.waits unstarted with isQueued | passed | limited
      · rw [isQueued]
        exact List.mem_singleton_self _
      · omega
      · exact absurd unlimited (Ledger.not_unlimited stored limited)
  · apply List.Pairwise.filter
    apply List.pairwise_map.mpr
    apply (sortByRank_sorted ready).imp_of_mem
    intro first second firstMember secondMember order
    rwa [ranked first firstMember, ranked second secondMember] at order

/-- A tick launches what the greedy schedule chooses, unless a limit has refused
a job. -/
theorem Staged.wp_tick (staged : Staged mirror now stage ledger memory)
    (tally : Tally mirror memory) (due : stage.Due trace mirror.config.scheduler now.val)
    (distinct : (memory.running.map fun task => task.job.id).Nodup) :
    Returns Runtime.tick
      (fun _ after next => ∃ items, Staged mirror now (stage.launch items now.val) after next ∧
        (¬ after.Unlimited ∨
          items = (trace.work mirror.config.scheduler).chosen stage.start now.val))
      ledger memory := by
  simp only [Runtime.tick, wp_bind, wp_readVolatile]
  rw [if_neg (by rw [staged.awake]; simp)]
  simp only [wp_bind]
  apply wp_post staged.wp_expire _ (fun _ _ _ failed => failed)
  rintro _ swept self ⟨fresh, reads, rfl⟩
  simp only [wp_bind, wp_nowNs]
  apply fresh.read.wp_jobs (by rw [staged.config]) (by simp)
  intro queued listed
  simp only [wp_bind, staged.nowNs]
  apply wp_post (fresh.read.wp_rankAll listed.stored) _ (fun _ _ _ failed => failed)
  rintro ready _ _ ⟨rfl, rfl, rfl⟩
  have sorted : ∀ item ∈ sortByRank (queued.map fun entry =>
      (trace.rankAt mirror.config.scheduler now.val entry.1.id, entry)), item.2 ∈ queued := by
    intro item member
    obtain ⟨entry, queued, rfl⟩ := List.mem_map.mp ((sortByRank_perm _).mem_iff.mp member)
    exact queued
  have counts : Tally mirror { memory with reads := reads + 1 } :=
    ⟨tally.poolUse, tally.endpointUse⟩
  apply wp_post (fresh.read.wp_dispatchAll counts
    (fun item member => listed.stored _ (sorted item member))
    (fun item member => by simpa using listed.selected _ (sorted item member)) ?_) _
    (fun _ _ _ failed => failed)
  · have perm := (sortByRank_perm (queued.map fun entry =>
      (trace.rankAt mirror.config.scheduler now.val entry.1.id, entry))).map
        fun item => item.2.1.key
    rw [List.map_map] at perm
    exact perm.nodup_iff.mpr listed.distinct
  · rintro _ after next ⟨free, items, treated⟩
    refine ⟨items, treated.staged, ?_⟩
    rcases treated.chosen with limited | chosen
    · exact Or.inl limited
    · by_cases unlimited : after.Unlimited
      · right
        rw [chosen]
        exact fresh.chosen_eq (free unlimited) due distinct listed
      · exact Or.inl unlimited

end AgminaRuntime
