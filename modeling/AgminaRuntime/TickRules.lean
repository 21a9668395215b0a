import AgminaRuntime.CoordinatorRules

/-!
# The scheduler

A tick rejects, postpones, expires, answers from the cache or dispatches each
queued job once.  A job is dispatched only while it has no attempt, so a
reservation never meets one, and every dispatch ends with a task.
-/

namespace AgminaRuntime

open Durable Durable.Program Keyed

variable {lifetime : Lifetime} {self : Coordinator} {ledger : Ledger}

/-! ## Ranking -/

theorem wp_dependencyStates {guarantee : Ledger → Ledger → Prop}
    {raised : PyExc → Ledger → Coordinator → Prop} {job : Job}
    {normal : List JobState → Ledger → Coordinator → Prop}
    (returns : ∀ states, normal states ledger self)
    (fails : ∀ exception, exception ≠ .integrityError → exception.endsProcess = false →
      raised exception ledger self) :
    wp (Runtime.dependencyStates job) guarantee normal raised ledger self := by
  refine wp_post (wp_collect (fun _ _ after memory => after = ledger ∧ memory = self) ?_
    ⟨rfl, rfl⟩) ?_ (fun _ _ _ failed => failed)
  · rintro dependency rest values after memory ⟨rfl, rfl⟩
    simp only [wp_bind]
    refine wp_job_intro (fails _ (by simp) rfl) (fails _ (by simp) rfl) ?_
    intro row receipt _ _
    exact (wp_pure _).mpr ⟨rfl, rfl⟩
  · rintro states after memory ⟨rfl, rfl⟩
    exact returns states

/-- A queued job that is still stored as it was read. -/
def Ledger.Queued (ledger : Ledger) (entry : Job × Receipt) : Prop :=
  ledger.Stored entry ∧ entry.2.state = .queued

theorem Ledger.Queued.alive {entry : Job × Receipt} (queued : ledger.Queued entry) :
    entry.2.state.isLive = true := by
  rw [queued.2]
  rfl

theorem Ledger.Queued.others {entry : Job × Receipt} {key : Name × Name} {after : Ledger}
    (queued : ledger.Queued entry) (others : ledger.SameBut key after)
    (differs : entry.1.key ≠ key) : after.Queued entry :=
  ⟨(others _ differs).trans queued.1, queued.2⟩

theorem Running.readable (running : Running lifetime ledger self) {entry : Job × Receipt}
    (queued : ledger.Queued entry) : entry.2.Readable :=
  (running.sound.rows _ _ queued.1).complete.readable queued.alive

/-- A queued job moves to a dead state. -/
theorem wp_drop (running : Running lifetime ledger self) {entry : Job × Receipt}
    (queued : ledger.Queued entry) {state : JobState} (text : String)
    (edge : state ∈ JobState.queued.successors) (dead : state.isDead = true)
    {raised : PyExc → Ledger → Coordinator → Prop} :
    wp (Runtime.moveTo entry.1 entry.2 state text) (Commit lifetime.coordinator)
      (fun _ after memory => Running lifetime after memory ∧ ledger.SameBut entry.1.key after)
      raised ledger self := by
  refine wp_post (wp_moveTo text running.toLive queued.1 (running.readable queued)
    (by rw [queued.2]; exact edge) dead (by simp [queued.2])) ?_ (fun _ _ _ failed => failed)
  rintro _ after memory ⟨updated, moved⟩
  exact ⟨moved.running running, moved.others⟩

theorem wp_rankReady (running : Running lifetime ledger self) (now : Ns)
    {entry : Job × Receipt} (queued : ledger.Queued entry) :
    wp (Runtime.rankReady now entry) (Commit lifetime.coordinator)
      (fun ranked after memory => Running lifetime after memory ∧
        ledger.SameBut entry.1.key after ∧
          ∀ item ∈ ranked, item.2 = entry ∧ after.Queued entry)
      (Refused lifetime) ledger self := by
  obtain ⟨job, receipt⟩ := entry
  obtain ⟨session, sessionFound⟩ :=
    Option.isSome_iff_exists.mp (running.sound.rows _ _ queued.1).session
  simp only [Runtime.rankReady, wp_bind, wp_readVolatile]
  apply wp_dependencyStates
  swap
  · exact fun exception ordinary survives => ⟨running, ordinary, survives⟩
  intro states
  rw [wp_ite]
  split
  · simp only [wp_bind]
    refine wp_post (wp_drop running queued "dependency_failed" (by simp [JobState.successors]) rfl)
      ?_ (fun _ _ _ failed => failed)
    rintro _ after memory ⟨kept, others⟩
    exact (wp_pure _).mpr ⟨kept, others, by simp⟩
  · rw [wp_ite]
    split
    · exact (wp_pure _).mpr ⟨running, fun _ _ => rfl, by simp⟩
    · simp only [wp_bind, wp_session sessionFound]
      split
      · exact (wp_raise _).mpr ⟨running, by simp, rfl⟩
      · exact (wp_pure _).mpr ⟨running, fun _ _ => rfl, by simp [queued]⟩

/-! ## Dispatching -/

/-- What a dispatched or answered job leaves for the rest of the tick. -/
def Handled (lifetime : Lifetime) (before : Ledger) (job : Job) (after : Ledger)
    (memory : Coordinator) : Prop :=
  Running lifetime after memory ∧ before.SameBut job.key after

/-- A queued receipt with a new state and fields that its text does not depend on. -/
theorem Receipt.Complete.launched {receipt : Receipt} (complete : receipt.Complete)
    (queued : receipt.state = .queued) (endpoint : Name) (now : Ns) :
    Receipt.Complete
      { receipt with state := .running, endpoint := some endpoint, startedNs := some now } := by
  have alive : receipt.state.isLive = true := by rw [queued]; rfl
  refine
    { readable := fun _ => (complete.readable alive).congr rfl rfl rfl
      predicted := by simp
      claimed := ?_
      returnable := by simp
      unanswered := fun _ => complete.unanswered alive
      started := fun _ => rfl }
  have unclaimed := complete.claimed
  rw [queued] at unclaimed
  simpa using unclaimed

theorem wp_launch (running : Running lifetime ledger self) {job : Job} {receipt : Receipt}
    (queued : ledger.Queued (job, receipt)) {endpoint : Endpoint} {middle : Ledger} {now : Ns}
    (reserved : ledger.reserve job endpoint now = .ok middle)
    (commit : Commit lifetime.coordinator ledger middle)
    (known : endpoint ∈ self.config.endpoints) {cacheKey : Option CacheKey}
    (keyed : ∃ contract ∈ self.config.modelContract job.model,
      cacheKey = HistoricalCache.key job contract.fingerprint)
    (poolFree : self.poolUse endpoint.pool < self.config.poolSlots endpoint.pool)
    (endpointFree : self.endpointUse endpoint.id < endpoint.maxInflight) (launchNs : Ns) (latestNs : Int)
    {raised : PyExc → Ledger → Coordinator → Prop} :
    wp (Runtime.launch job receipt endpoint cacheKey launchNs latestNs) (Commit lifetime.coordinator)
      (fun _ => Handled lifetime ledger job) raised middle self := by
  let row : JobRow := ⟨job, receipt⟩
  let launched : Receipt :=
    { receipt with
      state := .running
      endpoint := some endpoint.id
      startedNs := some launchNs }
  have rowFound : ledger.jobs.lookup row.key = some row := queued.1
  have rowSound := running.sound.rows _ _ rowFound
  have stateQueued : receipt.state = .queued := queued.2
  have sameJob : launched.jobId = row.job.id := rowSound.sameJob
  have complete : launched.Complete := rowSound.complete.launched stateQueued _ _
  have middleFound : middle.jobs.lookup row.key = some row := by
    obtain ⟨-, -, attempts, -, rfl⟩ := ledger.reserve_ok reserved
    exact rowFound
  have moves : Author.Moves lifetime.coordinator row.receipt.state launched.state := by
    refine .inl ?_
    rw [show row.receipt.state = .queued from stateQueued]
    simp [launched, JobState.successors]
  have sparedBefore : launched.spared = true → receipt.spared = true :=
    Receipt.spared_of_moved rfl (by simp [launched])
  have written : Commit lifetime.coordinator middle (middle.writeReceipt row.job.tenant launched) :=
    .write middleFound sameJob complete moves (by simp [launched])
      (fun spared => .inl (sparedBefore spared)) (fun _ => complete.readable rfl)
      fun _ => .inl ⟨rfl, rfl, rfl, rfl⟩
  have dispatches : Dispatches ledger (middle.writeReceipt row.job.tenant launched) row.job
      endpoint launched := dispatches_of_reserve rowFound sameJob reserved
  have launches := running.toLive.launch cacheKey dispatches
    (written.sound (commit.sound running.sound)) (running.row_tenant rowFound) rfl
    (complete.readable rfl) rfl known keyed poolFree endpointFree
  simp only [Runtime.launch, wp_bind, wp_receipt, wp_modifyVolatile, wp_event]
  refine ⟨written, .note _ _, ⟨launches.note _ _, ?_⟩, ?_⟩
  · exact running.current.subsides
      ((dispatches.subsides rowFound queued.alive).note _ _)
  · exact fun key differs => dispatches.otherRows key differs

theorem wp_tryReserve (running : Running lifetime ledger self) {job : Job} {receipt : Receipt}
    (queued : ledger.Queued (job, receipt)) {endpoint : Endpoint} {now : Ns}
    (open_ : endpoint.pool ∉ ledger.quarantined)
    {normal : Bool → Ledger → Coordinator → Prop}
    {raised : PyExc → Ledger → Coordinator → Prop}
    (reserves : ∀ middle, ledger.reserve job endpoint now = .ok middle →
      Commit lifetime.coordinator ledger middle → normal true middle self)
    (refuses : normal false ledger self) :
    wp (Runtime.tryReserve job endpoint now) (Commit lifetime.coordinator) normal raised ledger self := by
  simp only [Runtime.tryReserve, wp_tryExcept, wp_bind, Store.reserve, wp_transaction]
  let row : JobRow := ⟨job, receipt⟩
  have rowFound : ledger.jobs.lookup row.key = some row := queued.1
  cases reserved : ledger.reserve job endpoint now with
  | ok middle =>
      have commit : Commit lifetime.coordinator ledger middle :=
        .reserve rowFound queued.2 open_ running.unattempted running.settledEnded reserved
      exact ⟨commit, (wp_pure _).mpr (reserves middle reserved commit)⟩
  | error exception =>
      have unattempted := running.unattempted _ _ queued.1 queued.2
      rw [ledger.reserve_error unattempted reserved]
      exact (wp_pure _).mpr refuses

theorem wp_dispatch (running : Running lifetime ledger self) {job : Job} {receipt : Receipt}
    (queued : ledger.Queued (job, receipt)) (session : Session) (now : Ns)
    {cacheKey : Option CacheKey} (keyed : ∃ contract ∈ self.config.modelContract job.model,
      cacheKey = HistoricalCache.key job contract.fingerprint) :
    wp (Runtime.dispatch job receipt session now cacheKey) (Commit lifetime.coordinator)
      (fun _ => Handled lifetime ledger job) (Refused lifetime) ledger self := by
  simp only [Runtime.dispatch, wp_bind, wp_readVolatile, wp_quarantined]
  split
  · exact (wp_pure _).mpr ⟨running, fun _ _ => rfl⟩
  · rename_i endpoint chosen
    obtain ⟨served, -, open_, poolFree, endpointFree, -⟩ := chooseEndpoint_spec chosen
    have known : endpoint ∈ self.config.endpoints := (List.mem_filter.mp served).1
    simp only [wp_bind]
    apply wp_tryReserve running queued open_
    · intro middle reserved commit
      simp only [if_true]
      exact wp_launch running queued reserved commit known keyed poolFree endpointFree _ _
    · simp only [Bool.false_eq_true, if_false]
      exact wp_drop running queued _ (by simp [JobState.successors]) rfl

/-! ## Answers from the cache -/

/-- The answer that a lookup found: an entry under the key that is young enough. -/
def Lifetime.Holds (lifetime : Lifetime) (key : Option CacheKey) (now : Ns)
    (hit : String × Ns) : Prop :=
  ∃ entry ∈ lifetime.entries, key = some entry.key ∧ entry.payload = hit.1 ∧
    entry.computedNs = hit.2 ∧
      (now.val : Int) - entry.computedNs.val < lifetime.config.cacheTtlNs.val

theorem wp_cacheGet {guarantee : Ledger → Ledger → Prop}
    {raised : PyExc → Ledger → Coordinator → Prop} (running : Running lifetime ledger self)
    (key : Option CacheKey) (now : Ns) :
    wp (Runtime.cacheGet key now) guarantee
      (fun hit after memory => Running lifetime after memory ∧ after = ledger ∧
        ∀ answer ∈ hit, lifetime.Holds key now answer) raised ledger self := by
  simp only [Runtime.cacheGet, wp_bind, wp_readVolatile, wp_modifyVolatile]
  refine (wp_pure _).mpr ⟨⟨running.toLive.of_memory rfl rfl le_rfl rfl rfl rfl ?_ ?_,
    running.current⟩, rfl, ?_⟩
  · exact fun entry member => running.cached entry (HistoricalCache.get_data_subset member)
  · exact HistoricalCache.get_ttlNs
  · intro answer hit
    obtain ⟨entry, member, named, payload, computed, young⟩ := HistoricalCache.get_hit hit
    rw [running.cacheTtl] at young
    exact ⟨entry, running.cached entry member, named, payload, computed, young⟩

theorem wp_deliverCached (running : Running lifetime ledger self) {job : Job} {receipt : Receipt}
    (queued : ledger.Queued (job, receipt)) (now : Ns) (payload : String) (computedNs : Ns)
    {contract : ModelContract} (registered : lifetime.config.modelContract job.model = some contract)
    (holds : lifetime.Holds (HistoricalCache.key job contract.fingerprint) now
      (payload, computedNs))
    {raised : PyExc → Ledger → Coordinator → Prop} :
    wp (Runtime.deliverCached job receipt now payload computedNs) (Commit lifetime.coordinator)
      (fun _ => Handled lifetime ledger job) raised ledger self := by
  let row : JobRow := ⟨job, receipt⟩
  let answered : Receipt :=
    { receipt with
      state := .succeeded
      predictionJson := some payload
      completedNs := some now
      computedNs := some computedNs
      cacheHit := true
      usage := some (Usage.ofCost 0) }
  have rowFound : ledger.jobs.lookup row.key = some row := queued.1
  have rowSound := running.sound.rows _ _ rowFound
  have stateQueued : row.receipt.state = .queued := queued.2
  have sameJob : answered.jobId = row.job.id := rowSound.sameJob
  have complete : answered.Complete := by
    have unclaimed := rowSound.complete.claimed
    rw [stateQueued] at unclaimed
    exact
      { readable := fun live => by simp [answered, JobState.isLive] at live
        predicted := fun _ => rfl
        claimed := by simpa [answered] using unclaimed
        returnable := fun consumed => by simp [answered] at consumed
        unanswered := fun live => by simp [answered, JobState.isLive] at live
        started := fun running => by simp [answered] at running }
  have edge : answered.state ∈ row.receipt.state.successors := by
    simp [stateQueued, answered, JobState.successors]
  have served : answered.ServedFrom lifetime.config lifetime.entries job := by
    obtain ⟨entry, member, named, samePayload, sameComputed, young⟩ := holds
    refine ⟨entry, member, contract, registered, named, ?_, ?_, now, rfl, young⟩
    · rw [samePayload]
    · rw [sameComputed]
  have commit : Commit lifetime.coordinator ledger (ledger.writeReceipt row.job.tenant answered) :=
    .write rowFound sameJob complete (.inl edge) (fun _ _ => rfl)
      (fun _ => .inr (running.unattempted _ _ rowFound stateQueued))
      (fun _ => (running.readable queued).answered _ _ _) fun _ =>
      .inr ⟨stateQueued, _, _, rfl, served⟩
  have written : Live lifetime (ledger.writeReceipt row.job.tenant answered) self :=
    running.toLive.write rowFound sameJob commit rfl (by simp [stateQueued])
      (by simp [stateQueued])
  simp only [Runtime.deliverCached, wp_bind, wp_receipt, wp_event]
  refine ⟨commit, .note _ _, Running.note ⟨written, ?_⟩ _ _, ?_⟩
  · exact running.current.subsides (Ledger.subsides_write rowFound sameJob rfl)
  · exact fun key differs => Ledger.lookup_writeReceipt_of_ne sameJob differs

/-! ## A whole tick -/

theorem wp_dispatchReady (running : Running lifetime ledger self)
    {item : RankKey × Job × Receipt} (queued : ledger.Queued item.2) :
    wp (Runtime.dispatchReady item) (Commit lifetime.coordinator)
      (fun _ => Handled lifetime ledger item.2.1) (Refused lifetime) ledger self := by
  obtain ⟨rankKey, job, receipt⟩ := item
  obtain ⟨session, sessionFound⟩ :=
    Option.isSome_iff_exists.mp (running.sound.rows _ _ queued.1).session
  simp only [Runtime.dispatchReady, wp_bind, wp_readVolatile, wp_nowNs, wp_session sessionFound]
  split
  · rename_i reason _
    exact wp_drop running.read queued _ (reason.state_edge rfl) reason.state_isDead
  · split
    · exact (wp_raise _).mpr ⟨running.read, by simp, rfl⟩
    · rename_i contract registered
      rw [running.config] at registered
      simp only [wp_bind]
      refine wp_post (wp_cacheGet running.read _ _) ?_ (fun _ _ _ failed => failed)
      rintro hit after memory ⟨kept, rfl, holds⟩
      split
      · exact wp_deliverCached kept queued _ _ _ registered (holds _ rfl)
      · refine wp_dispatch kept queued session _ ⟨contract, ?_, rfl⟩
        rw [kept.config]
        exact registered

/-- The first loop of a tick, with the jobs still to be ranked and those that
have been. -/
structure Ranking (lifetime : Lifetime) (rest : List (Job × Receipt))
    (ranked : List (RankKey × Job × Receipt)) (ledger : Ledger) (memory : Coordinator) :
    Prop where
  running : Running lifetime ledger memory
  coming : ∀ entry ∈ rest, ledger.Queued entry
  queued : ∀ item ∈ ranked, ledger.Queued item.2
  distinct : ((rest ++ ranked.map Prod.snd).map fun entry => entry.1.key).Nodup

theorem Ranking.extend {entry : Job × Receipt} {rest : List (Job × Receipt)}
    {ranked : List (RankKey × Job × Receipt)} {value : Option (RankKey × Job × Receipt)}
    {after : Ledger} {memory : Coordinator}
    (ranking : Ranking lifetime (entry :: rest) ranked ledger self)
    (running : Running lifetime after memory) (others : ledger.SameBut entry.1.key after)
    (added : ∀ item ∈ value, item.2 = entry ∧ after.Queued entry) :
    Ranking lifetime rest (ranked ++ value.toList) after memory := by
  have distinct := ranking.distinct
  rw [List.cons_append, List.map_cons, List.nodup_cons] at distinct
  have apart : ∀ other ∈ rest ++ ranked.map Prod.snd, other.1.key ≠ entry.1.key := by
    intro other member same
    exact distinct.1 (List.mem_map.mpr ⟨other, member, same⟩)
  refine ⟨running, ?_, ?_, ?_⟩
  · intro other member
    exact (ranking.coming other (List.mem_cons_of_mem _ member)).others others
      (apart other (List.mem_append_left _ member))
  · intro item member
    rcases List.mem_append.mp member with old | new
    · exact (ranking.queued item old).others others
        (apart item.2 (List.mem_append_right _ (List.mem_map_of_mem old)))
    · obtain ⟨same, queued⟩ := added item (Option.mem_toList.mp new)
      rw [same]
      exact queued
  · cases value with
    | none => simpa using distinct.2
    | some item =>
        have same : (ranked ++ [item]).map Prod.snd = ranked.map Prod.snd ++ [entry] := by
          rw [List.map_append, List.map_singleton, (added item rfl).1]
        rw [Option.toList_some, same, ← List.append_assoc, List.map_append, List.map_singleton]
        exact distinct.2.append (List.nodup_singleton _) (by simpa using distinct.1)

/-- The queued jobs that a tick has read are handled one after the other. -/
theorem wp_tick (running : Running lifetime ledger self) :
    wp Runtime.tick (Commit lifetime.coordinator) (fun _ => Running lifetime) (Refused lifetime)
      ledger self := by
  simp only [Runtime.tick, wp_bind, wp_readVolatile]
  rw [wp_ite]
  split
  · exact (wp_pure _).mpr running
  · simp only [wp_bind]
    refine wp_post (wp_expire running.toLive) ?_ (fun _ _ _ failed => failed)
    rintro _ swept memory ⟨fresh, -⟩
    simp only [wp_bind, wp_nowNs]
    have bound : swept.tenant = some self.config.tenant := by
      rw [fresh.tenant, fresh.config, running.config]
    refine wp_jobs fresh.sound bound (by simp) (by simp [JobState.isLive]) ?_
    intro entries reads
    simp only [wp_bind]
    refine wp_post (wp_collect (Ranking lifetime) ?_ ⟨fresh.read, ?_, by simp, ?_⟩) ?_
      (fun _ _ _ failed => failed)
    · intro entry rest ranked ledger memory ranking
      refine wp_post (wp_rankReady ranking.running _ (ranking.coming entry List.mem_cons_self)) ?_
        (fun _ _ _ failed => failed)
      rintro value after memory ⟨kept, others, added⟩
      exact ranking.extend kept others added
    · intro entry member
      exact ⟨reads.stored entry member, by simpa using reads.selected entry member⟩
    · simpa using reads.distinct
    · intro ready ledger memory ranking
      have same : (sortByRank ready).Perm ready := List.perm_insertionSort _ _
      refine wp_post (wp_forEach_stored Prod.snd
        (fun rest ledger memory => Running lifetime ledger memory ∧
          ∀ item ∈ rest, item.2.2.state = .queued) ?_ ?_ ?_ ⟨ranking.running, ?_⟩)
        (fun _ _ _ kept => kept.1) (fun _ _ _ failed => failed)
      · rintro item rest ledger memory ⟨kept, queued⟩ stored
        refine wp_post (wp_dispatchReady kept ⟨stored, queued item List.mem_cons_self⟩) ?_
          (fun _ _ _ failed => failed)
        rintro _ after memory ⟨handled, others⟩
        exact ⟨⟨handled, fun other member => queued other (List.mem_cons_of_mem _ member)⟩, others⟩
      · intro item member
        exact (ranking.queued item (same.mem_iff.mp member)).1
      · have distinct := ranking.distinct
        rw [List.nil_append, List.map_map] at distinct
        exact (same.map _).nodup_iff.mpr distinct
      · intro item member
        exact (ranking.queued item (same.mem_iff.mp member)).2

end AgminaRuntime
