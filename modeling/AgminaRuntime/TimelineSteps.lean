import AgminaRuntime.ReceiptTimelines

/-!
# Steps keep the timelines

Whatever a coordinator does, it writes to a receipt an instant that it has read
from its clock after it has read the receipt, or one that it has checked to lie
between the start of the call and now.
-/

namespace AgminaRuntime

open Durable Durable.Program Keyed

section Programs

variable {since : Ns} {ledger : Ledger} {self : Coordinator}

/-- Rows that were read show kept receipts. -/
theorem readRows_reparsed {rows : List JobRow} {entries : List (Job × Receipt)}
    (read : Store.readRows rows = .ok entries) :
    ∀ entry ∈ entries, ∃ row ∈ rows, row.job = entry.1 ∧ row.receipt.reparse = some entry.2 := by
  induction rows generalizing entries with
  | nil =>
      rw [← Except.ok.inj read]
      simp
  | cons row rows ih =>
      simp only [Store.readRows, Store.readRow] at read
      split at read
      · contradiction
      · rename_i first firstEq
        split at read
        · contradiction
        · rename_i rest restEq
          rw [← Except.ok.inj read, List.forall_mem_cons]
          constructor
          · refine ⟨row, List.mem_cons_self, ?_⟩
            split at firstEq
            · contradiction
            · rename_i receipt parsed
              rw [← Except.ok.inj firstEq]
              exact ⟨rfl, parsed⟩
          · intro entry member
            obtain ⟨other, otherMember, same⟩ := ih restEq entry member
            exact ⟨other, List.mem_cons_of_mem _ otherMember, same⟩

/-- A receipt that was read from a live row. -/
structure Receipt.Live (receipt : Receipt) (since : Ns) : Prop where
  kept : receipt.Kept
  past : receipt.By since
  live : receipt.state.isLive = true

theorem Receipt.Live.unclaimed {receipt : Receipt} (live : receipt.Live since) :
    receipt.state ≠ .consumed := by
  intro consumed
  have alive := live.live
  rw [consumed] at alive
  contradiction

/-- The live rows are read. -/
theorem wp_jobs_timed (timed : Timed since ledger self) {states : List JobState}
    (live : ∀ state ∈ states, state.isLive = true) (some_ : states ≠ []) {tenant : Name}
    {guarantee : Ledger → Ledger → Prop} {raised : PyExc → Ledger → Coordinator → Prop}
    {normal : List (Job × Receipt) → Ledger → Coordinator → Prop}
    (fails : ∀ exception, raised exception ledger self)
    (returns : ∀ entries, (∀ entry ∈ entries, entry.2.Live self.now ∧ entry.2.state ∈ states ∧
      entry.2.jobId = entry.1.id) → normal entries ledger self) :
    wp (Store.jobs tenant states) guarantee normal raised ledger self := by
  rw [wp_jobs_iff]
  split
  · rename_i entries read
    apply returns
    intro entry member
    obtain ⟨row, rowMember, sameJob, parsed⟩ := readRows_reparsed read entry member
    simp only [Store.selectJobs, List.mem_filter, decide_eq_true_eq, some_, false_or] at rowMember
    have found := Table.lookup_of_mem rowMember.1
    have alive := live _ rowMember.2.2
    obtain ⟨same, sameId⟩ := Receipt.state_reparse parsed
    refine ⟨⟨(timed.timely.kept _ _ found).reparse parsed,
      (timed.live _ _ found alive).reparse parsed, ?_⟩, ?_, ?_⟩
    · rw [same]
      exact alive
    · rw [same]
      exact rowMember.2.2
    · rw [sameId, ← sameJob]
      exact timed.timely.own _ _ found
  · exact fails _

/-- A receipt moves, and the clock is read for its event. -/
theorem wp_moveTo_timed (timed : Timed since ledger self) {job : Job} {receipt : Receipt}
    (kept : receipt.Kept) (past : receipt.By since) (unclaimed : receipt.state ≠ .consumed)
    {state : JobState} (ends : state.isDead = true ∨ state = receipt.state)
    (waited : state ≠ .queued) (reason : PyStr) {raised : PyExc → Ledger → Coordinator → Prop} :
    wp (Runtime.moveTo job receipt state reason) (fun _ after => after.Timely)
      (fun _ => Timed since) raised ledger self := by
  simp only [Runtime.moveTo, Runtime.setState, wp_bind, wp_receipt, wp_nowNs, wp_event, wp_pure]
  have unconsumed : state ≠ .consumed := by
    rcases ends with dead | rfl
    · rintro rfl
      contradiction
    · exact unclaimed
  have written := timed.write_past job.tenant
    (kept.moved unclaimed ends (some reason)) past ⟨waited, unconsumed⟩
  have noted := (written.read.weaken written.since).note (self.clock.nowNs self.reads)
    (.jobState job.id state reason) (by simp [Event.Aged])
  exact ⟨written.timely, noted.timely, noted⟩

/-- The sweep of `_expire`. -/
theorem wp_expire_timed (timed : Timed since ledger self) :
    wp Runtime.expire (fun _ after => after.Timely) (fun _ => Timed since) (fun _ => Timed since)
      ledger self := by
  simp only [Runtime.expire, wp_bind, wp_readVolatile, wp_nowNs]
  have swept := timed.read.weaken timed.since
  apply wp_jobs_timed swept (by simp [JobState.isLive]) (by simp)
  · exact fun _ => swept
  intro entries reads
  have within := swept.rebase
  have earlier := swept.since
  revert within earlier reads
  generalize Coordinator.now { self with reads := self.reads + 1 } = bound
  intro reads within earlier
  refine wp_post (wp_forEach
    (fun rest after memory => Timed bound after memory ∧ ∀ entry ∈ rest, entry.2.Live bound)
    ?_ ⟨within, fun entry member => (reads entry member).1⟩)
    (fun _ _ _ kept => kept.1.weaken earlier) (fun _ _ _ kept => kept)
  rintro ⟨job, receipt⟩ rest middle memory ⟨within, live⟩
  rw [List.forall_mem_cons] at live
  simp only [Runtime.expireJob, wp_bind, wp_readVolatile, wp_session_iff]
  split
  · exact within.weaken earlier
  · split
    · exact (wp_pure _).mpr ⟨within, live.2⟩
    · rename_i reason invalid
      apply wp_post (wp_moveTo_timed within live.1.kept live.1.past live.1.unclaimed
        (.inl reason.state_isDead) reason.state_ne_queued _)
      · exact fun _ _ _ kept => ⟨kept, live.2⟩
      · exact fun _ _ _ kept => kept

/-- A loop that moves live receipts. -/
theorem wp_moveAll_timed (timed : Timed since ledger self) {entries : List (Job × Receipt)}
    (live : ∀ entry ∈ entries, entry.2.Live since) {state : JobState} (dead : state.isDead = true)
    (waited : state ≠ .queued) (reason : PyStr) {raised : PyExc → Ledger → Coordinator → Prop} :
    wp (forEach entries fun (job, receipt) => Runtime.moveTo job receipt state reason)
      (fun _ after => after.Timely) (fun _ => Timed since) raised ledger self := by
  refine wp_post (wp_forEach
    (fun rest after memory => Timed since after memory ∧ ∀ entry ∈ rest, entry.2.Live since)
    ?_ ⟨timed, live⟩) (fun _ _ _ kept => kept.1) (fun _ _ _ failed => failed)
  rintro ⟨job, receipt⟩ rest middle memory ⟨within, live⟩
  rw [List.forall_mem_cons] at live
  apply wp_post (wp_moveTo_timed within live.1.kept live.1.past live.1.unclaimed (.inl dead)
    waited reason)
  · exact fun _ _ _ kept => ⟨kept, live.2⟩
  · exact fun _ _ _ failed => failed

/-! ### Submission -/

theorem scanGroup_subset {job : Job} {live queued : List (Job × Receipt)} :
    (Runtime.scanGroup job live queued).2 ⊆ queued := by
  induction queued with
  | nil => simp [Runtime.scanGroup]
  | cons entry rest ih =>
      obtain ⟨previous, receipt⟩ := entry
      have later : (Runtime.scanGroup job live rest).2 ⊆ (previous, receipt) :: rest :=
        fun _ member => List.mem_cons_of_mem _ (ih member)
      simp only [Runtime.scanGroup]
      split
      · split
        · exact later
        · split
          · exact later
          · intro other member
            rcases List.mem_cons.mp member with rfl | member
            · exact List.mem_cons_self
            · exact later member
      · exact later

theorem wp_enqueue_timed (timed : Timed since ledger self) {job : Job} {now : Ns} (past : now ≤ since)
    (idle : ∀ task ∈ self.running, task.job.key ≠ job.key) (reason : Option PyStr)
    {superseded : List (Job × Receipt)} (live : ∀ entry ∈ superseded, entry.2.Live since) :
    wp (Runtime.enqueue job now reason superseded) (fun _ after => after.Timely)
      (fun _ => Timed since) (fun _ => Timed since) ledger self := by
  simp only [Runtime.enqueue, wp_bind, Store.addJob, wp_transaction]
  have initial : (if reason.isSome then JobState.rejected else .queued) = .queued ∨
      (if reason.isSome then JobState.rejected else .queued) = .rejected := by
    split
    · exact .inr rfl
    · exact .inl rfl
  split
  · rename_i after added
    have stored := timed.addJob (Receipt.kept_initial job reason now initial) rfl
      (by simp [Receipt.by_iff, Receipt.initial, past]) idle added
    refine ⟨stored.timely, ?_⟩
    have ends : ∀ later memory, Timed since later memory →
        wp (do
          Store.event now (.submitted job.id job.sessionId job.model job.workload
            (Receipt.initial job (if reason.isSome then .rejected else .queued) reason now).state
            job.observations.length job.fingerprint reason)
          pure (Receipt.initial job (if reason.isSome then .rejected else .queued) reason now))
          (fun _ after => after.Timely) (fun _ => Timed since) (fun _ => Timed since) later
          memory := by
      intro later memory kept
      simp only [wp_bind, wp_event, wp_pure]
      have noted := kept.note now (.submitted job.id job.sessionId job.model job.workload
        (Receipt.initial job (if reason.isSome then .rejected else .queued) reason now).state
        job.observations.length job.fingerprint reason) (by simp [Event.Aged])
      exact ⟨noted.timely, noted⟩
    simp only [wp_bind] at ends ⊢
    split
    · rw [wp_bind]
      exact wp_post (wp_moveAll_timed stored live (rfl : JobState.superseded.isDead = true) (by simp) _)
        (fun _ later memory kept => (wp_bind _ _).mpr (ends later memory kept))
        (fun _ _ _ failed => failed)
    · simp only [wp_bind]
      exact ends _ _ stored
  · exact timed

theorem wp_submit_timed {lifetime : Lifetime} (running : Running lifetime ledger self)
    (timed : Timed since ledger self) (fields : JobFields) :
    wp (Runtime.submit fields) (fun _ after => after.Timely) (fun _ => Timed since)
      (fun _ => Timed since) ledger self := by
  simp only [Runtime.submit, wp_bind, wp_readVolatile]
  split
  · exact (wp_raise _).mpr timed
  rename_i job validated
  rw [wp_ite]
  split
  · exact (wp_raise _).mpr timed
  simp only [wp_bind, wp_readDurable]
  split
  · rename_i absent
    have idle : ∀ task ∈ self.running, task.job.key ≠ job.key := by
      intro task member same
      obtain ⟨receipt, found, -⟩ := (running.tasks task member).row
      rw [same, absent] at found
      contradiction
    simp only [Runtime.submitNew, wp_bind, wp_readVolatile]
    rw [wp_ite]
    split
    · exact (wp_raise _).mpr timed
    rw [wp_bind, wp_jobs_iff]
    split
    · rename_i stored storedRead
      rw [wp_ite]
      split
      · exact (wp_raise _).mpr timed
      simp only [wp_bind, wp_session_iff]
      split
      · exact timed
      simp only [wp_bind, wp_nowNs]
      have within := timed.read
      have weaker := fun {after memory} (kept : Timed self.now after memory) =>
        kept.weaken timed.since
      apply wp_checkDependencies
      swap
      · exact fun _ _ _ _ => weaker within
      intro _
      rw [wp_bind]
      have ends : ∀ newer superseded, (∀ entry ∈ superseded, entry.2.Live
          (Coordinator.now { self with reads := self.reads + 1 })) →
          wp (do
            let queued ← Store.jobs job.tenant [.queued]
            Runtime.enqueue job self.now
              (Runtime.admissionReason self job newer queued.length superseded.length) superseded)
            (fun _ after => after.Timely) (fun _ => Timed since) (fun _ => Timed since) ledger
            { self with reads := self.reads + 1 } := by
        intro newer superseded live
        simp only [wp_bind]
        apply wp_jobs_timed within (by simp [JobState.isLive]) (by simp)
        · exact fun _ => weaker within
        intro queued _
        exact wp_post (wp_enqueue_timed within.rebase within.since idle _ live)
          (fun _ _ _ kept => kept.weaken (timed.since.trans within.since))
          (fun _ _ _ kept => kept.weaken (timed.since.trans within.since))
      simp only [Runtime.scanQueue, wp_ite]
      split
      · simp only [wp_bind]
        apply wp_jobs_timed within (by simp [JobState.isLive]) (by simp)
        · exact fun _ => weaker within
        intro queued queuedLive
        rw [wp_bind]
        apply wp_jobs_timed within (by simp [JobState.isLive]) (by simp)
        · exact fun _ => weaker within
        intro live _
        refine (wp_pure _).mpr (ends _ _ ?_)
        exact fun entry member => (queuedLive entry (scanGroup_subset member)).1
      · exact (wp_pure _).mpr (ends _ _ (by simp))
    · exact timed
  · rename_i row found
    simp only [wp_bind, wp_ofExcept]
    split
    · simp only [wp_ite, wp_raise, wp_pure]
      split <;> exact timed
    · exact timed

/-! ### Scheduling -/

/-- A queued entry that was read. -/
structure Awaits (entry : Job × Receipt) (since : Ns) : Prop where
  live : entry.2.Live since
  queued : entry.2.state = .queued
  own : entry.2.jobId = entry.1.id

theorem wp_rankReady_timed (timed : Timed since ledger self) (now : Ns) {entry : Job × Receipt}
    (awaits : Awaits entry since) :
    wp (Runtime.rankReady now entry) (fun _ after => after.Timely)
      (fun ranked after memory => Timed since after memory ∧ ∀ item ∈ ranked, item.2 = entry)
      (fun _ => Timed since) ledger self := by
  obtain ⟨job, receipt⟩ := entry
  simp only [Runtime.rankReady, wp_bind, wp_readVolatile]
  apply wp_dependencyStates
  swap
  · exact fun _ _ _ => timed
  intro states
  rw [wp_ite]
  split
  · rw [wp_bind]
    apply wp_post (wp_moveTo_timed timed awaits.live.kept awaits.live.past awaits.live.unclaimed
      (.inl rfl) (by simp) _)
    · exact fun _ _ _ kept => (wp_pure _).mpr ⟨kept, by simp⟩
    · exact fun _ _ _ kept => kept
  rw [wp_ite]
  split
  · exact (wp_pure _).mpr ⟨timed, by simp⟩
  simp only [wp_bind, wp_session_iff]
  split
  · exact timed
  split
  · exact (wp_raise _).mpr timed
  · exact (wp_pure _).mpr ⟨timed, by simp⟩

theorem wp_launch_timed (timed : Timed since ledger self) {job : Job} {receipt : Receipt}
    (awaits : Awaits (job, receipt) since) {now : Ns} (past : now ≤ since)
    (earlier : receipt.By now) (endpoint : Endpoint) (cacheKey : Option CacheKey)
    (latestNs : Int) {raised : PyExc → Ledger → Coordinator → Prop} :
    wp (Runtime.launch job receipt endpoint cacheKey now latestNs) (fun _ after => after.Timely)
      (fun _ => Timed since) raised ledger self := by
  obtain ⟨kept, by_⟩ := awaits.live.kept.launched awaits.queued earlier endpoint.id
  have written := timed.write_past job.tenant kept (by_.mono past) (by simp)
  simp only [Runtime.launch, wp_bind, wp_receipt, wp_modifyVolatile, wp_event]
  have used : Timed since _ { self with
      poolUse := Runtime.increment self.poolUse endpoint.pool
      endpointUse := Runtime.increment self.endpointUse endpoint.id } :=
    written.memory rfl rfl (fun task member => ⟨task, member, rfl⟩) timed.cached
  have counted := used.note now
      (.dispatched job.id endpoint.id endpoint.pool endpoint.estimateNs latestNs)
      (by simp [Event.Aged])
  refine ⟨written.timely, counted.timely, counted.spawn ?_⟩
  intro row found
  have own : job.key = (job.tenant, receipt.jobId) := by
    rw [Job.key, awaits.own]
  rw [show (Task.mk job endpoint cacheKey .created).job.key = (job.tenant, receipt.jobId) from own,
    Ledger.note, Ledger.writeReceipt, Table.lookup_update, if_pos rfl] at found
  obtain ⟨old, -, rfl⟩ := Option.map_eq_some_iff.mp found
  exact ⟨(by_.mono past).mono counted.since, by simp [JobRow.withReceipt],
    by simp [JobRow.withReceipt]⟩

theorem wp_dispatch_timed (timed : Timed since ledger self) {job : Job} {receipt : Receipt}
    (awaits : Awaits (job, receipt) since) (session : Session) {now : Ns} (past : now ≤ since)
    (earlier : receipt.By now) (cacheKey : Option CacheKey) :
    wp (Runtime.dispatch job receipt session now cacheKey) (fun _ after => after.Timely)
      (fun _ => Timed since) (fun _ => Timed since) ledger self := by
  simp only [Runtime.dispatch, wp_bind, wp_readVolatile, wp_quarantined]
  split
  · exact (wp_pure _).mpr timed
  · rename_i endpoint _
    simp only [wp_bind, Runtime.tryReserve, wp_tryExcept, Store.reserve, wp_transaction]
    split
    · rename_i middle reserved
      obtain ⟨-, -, attempts, -, rfl⟩ := ledger.reserve_ok reserved
      have inserted : Timed since { ledger with attempts := attempts } self :=
        timed.frame rfl rfl rfl
      have held := inserted.note now
        (.attemptReserved job.id endpoint.id endpoint.reserveMicrousd) (by simp [Event.Aged])
      refine ⟨held.timely, (wp_pure _).mpr ?_⟩
      simp only [if_true]
      exact wp_launch_timed held awaits past earlier endpoint cacheKey _
    · split
      · refine (wp_pure _).mpr ?_
        simp only [Bool.false_eq_true, if_false]
        exact wp_moveTo_timed timed awaits.live.kept awaits.live.past awaits.live.unclaimed
          (.inl rfl) (by simp) _
      · exact (wp_raise _).mpr timed

theorem wp_dispatchReady_timed (timed : Timed since ledger self) {item : RankKey × Job × Receipt}
    (awaits : Awaits item.2 since) :
    wp (Runtime.dispatchReady item) (fun _ after => after.Timely) (fun _ => Timed since)
      (fun _ => Timed since) ledger self := by
  obtain ⟨key, job, receipt⟩ := item
  have within := timed.read
  have later := fun {after memory} (kept : Timed self.now after memory) => kept.weaken timed.since
  have live : receipt.Live self.now :=
    ⟨awaits.live.kept, awaits.live.past.mono timed.since, awaits.live.live⟩
  simp only [Runtime.dispatchReady, wp_bind, wp_readVolatile, wp_nowNs, wp_session_iff]
  split
  · exact later within
  split
  · rename_i reason invalid
    exact wp_post (wp_moveTo_timed within live.kept live.past live.unclaimed
      (.inl reason.state_isDead) reason.state_ne_queued _) (fun _ _ _ kept => later kept)
      (fun _ _ _ failed => failed)
  split
  · exact (wp_raise _).mpr (later within)
  rename_i contract _
  simp only [wp_bind, Runtime.cacheGet, wp_readVolatile, wp_modifyVolatile, wp_pure]
  have looked : Timed self.now ledger { self with
      reads := self.reads + 1
      cache := (self.cache.get (HistoricalCache.key job contract.fingerprint) self.now).2 } :=
    within.memory rfl rfl (fun task member => ⟨task, member, rfl⟩) fun entry member =>
      within.cached entry (HistoricalCache.get_data_subset member)
  split
  · rename_i payload computedNs hit
    obtain ⟨entry, member, -, -, rfl, -⟩ := HistoricalCache.get_hit hit
    obtain ⟨kept, by_⟩ := live.kept.served awaits.queued live.past payload
      (timed.cached entry member)
    have written := looked.write_past job.tenant kept by_ (by simp)
    have noted := written.note self.now (.cacheHit job.id entry.computedNs)
      (by simp [Event.Aged])
    simp only [Runtime.deliverCached, wp_bind, wp_receipt, wp_event]
    exact ⟨written.timely, noted.timely, later noted⟩
  · exact wp_post (wp_dispatch_timed looked ⟨live, awaits.queued, awaits.own⟩ _ le_rfl live.past _)
      (fun _ _ _ kept => later kept) (fun _ _ _ kept => later kept)

theorem wp_tick_timed (timed : Timed since ledger self) :
    wp Runtime.tick (fun _ after => after.Timely) (fun _ => Timed since) (fun _ => Timed since)
      ledger self := by
  simp only [Runtime.tick, wp_bind, wp_readVolatile]
  rw [wp_ite]
  split
  · exact (wp_pure _).mpr timed
  rw [wp_bind]
  apply wp_post (wp_expire_timed timed) _ (fun _ _ _ kept => kept)
  intro _ swept memory kept
  simp only [wp_bind, wp_nowNs]
  have within := kept.read.weaken kept.since
  apply wp_jobs_timed within (by simp [JobState.isLive]) (by simp)
  · exact fun _ => within
  intro queued reads
  have based := within.rebase
  have earlier := within.since
  have awaiting : ∀ entry ∈ queued, Awaits entry
      (Coordinator.now { memory with reads := memory.reads + 1 }) := by
    intro entry member
    obtain ⟨live, state, own⟩ := reads entry member
    exact ⟨live, by simpa using state, own⟩
  revert based earlier awaiting
  generalize Coordinator.now { memory with reads := memory.reads + 1 } = bound
  intro based earlier awaiting
  rw [wp_bind]
  refine wp_post (wp_collect (fun rest (values : List (RankKey × Job × Receipt)) after memory =>
    Timed bound after memory ∧ (∀ entry ∈ rest, Awaits entry bound) ∧
      ∀ item ∈ values, Awaits item.2 bound) ?_
    ⟨based, awaiting, by simp⟩) ?_ (fun _ _ _ kept => kept)
  · rintro entry rest values after memory ⟨kept, awaiting, ranked⟩
    rw [List.forall_mem_cons] at awaiting
    apply wp_post (wp_rankReady_timed kept _ awaiting.1)
    · rintro value later memory ⟨kept, same⟩
      refine ⟨kept, awaiting.2, fun item member => ?_⟩
      rcases List.mem_append.mp member with before | own
      · exact ranked item before
      · rw [same item (Option.mem_toList.mp own)]
        exact awaiting.1
    · exact fun _ _ _ kept => kept.weaken earlier
  · rintro ready after memory ⟨kept, -, ranked⟩
    refine wp_post (wp_forEach (fun rest after memory => Timed bound after memory ∧
      ∀ item ∈ rest, Awaits item.2 bound) ?_ ⟨kept, fun item member =>
        ranked item ((sortByRank_perm ready).mem_iff.mp member)⟩)
      (fun _ _ _ kept => kept.1.weaken earlier) (fun _ _ _ kept => kept)
    rintro item rest middle memory ⟨kept, ranked⟩
    rw [List.forall_mem_cons] at ranked
    apply wp_post (wp_dispatchReady_timed kept ranked.1)
    · exact fun _ _ _ kept => ⟨kept, ranked.2⟩
    · exact fun _ _ _ kept => kept.weaken earlier

/-! ### Tasks -/

/-- A receipt that was read from the row of a task. -/
structure Receipt.Tasked (receipt : Receipt) (since : Ns) : Prop where
  kept : receipt.Kept
  past : receipt.By since
  waited : receipt.state ≠ .queued
  unclaimed : receipt.state ≠ .consumed

variable {task : Task}

theorem wp_job_tasked (timed : Timed since ledger self) (member : task ∈ self.running)
    {memory : Coordinator} {guarantee : Ledger → Ledger → Prop}
    {raised : PyExc → Ledger → Coordinator → Prop}
    {normal : Job × Receipt → Ledger → Coordinator → Prop}
    (fails : ∀ exception, raised exception ledger memory)
    (returns : ∀ job receipt, receipt.Tasked self.now → normal (job, receipt) ledger memory) :
    wp (Store.job task.job.tenant task.job.id) guarantee normal raised ledger memory := by
  apply wp_job_intro (fails _) (fails _)
  intro row receipt found parsed
  obtain ⟨past, waited, unclaimed⟩ := timed.tasks task member row found
  have same := (Receipt.state_reparse parsed).1
  exact returns _ _ ⟨(timed.timely.kept _ _ found).reparse parsed, past.reparse parsed,
    by rw [same]; exact waited, by rw [same]; exact unclaimed⟩

theorem wp_settle_timed (timed : Timed since ledger self) {job : Job} {usage : Option Usage}
    {normal : Unit → Ledger → Coordinator → Prop} {raised : PyExc → Ledger → Coordinator → Prop}
    (returns : ∀ after, Timed since after self → normal () after self)
    (fails : raised .overflowError ledger self) :
    wp (Store.settle job usage) (fun _ after => after.Timely) normal raised ledger self := by
  have settled : ∀ actual, Timed since (ledger.settleAttempt job.key actual) self :=
    fun actual => timed.frame rfl rfl rfl
  rw [wp_settle]
  split
  · exact ⟨(settled none).timely, returns _ (settled none)⟩
  · split
    · exact ⟨(settled _).timely, returns _ (settled _)⟩
    · exact fails

theorem wp_handleFailure_timed (timed : Timed since ledger self) (member : task ∈ self.running)
    (exception : PyExc) :
    wp (Runtime.handleFailure task exception) (fun _ after => after.Timely) (fun _ => Timed since)
      (fun _ => Timed since) ledger self := by
  rw [Runtime.handleFailure, wp_ite]
  split
  · exact (wp_raise _).mpr timed
  have ends : ∀ later memory, Timed since later memory → task ∈ memory.running →
      wp (do
        let (_, old) ← Store.job task.job.tenant task.job.id
        let completed ← Runtime.nowNs
        Runtime.moveTo task.job { old with completedNs := some completed }
          (Runtime.failedState old exception) exception.code
        if exception.terminationKnown then pure ()
        else do
          Store.quarantine task.endpoint.pool "unconfirmed_backend_termination"
          let noted ← Runtime.nowNs
          Store.event noted (.poolQuarantined task.endpoint.pool task.job.id))
        (fun _ after => after.Timely) (fun _ => Timed since) (fun _ => Timed since) later memory := by
    intro later memory kept tasked
    rw [wp_bind]
    apply wp_job_tasked kept tasked
    · exact fun _ => kept
    intro job old oldTasked
    simp only [wp_bind, wp_nowNs]
    have within := kept.read
    obtain ⟨failed, past⟩ := oldTasked.kept.failed oldTasked.unclaimed oldTasked.waited
      oldTasked.past
    have state : (Runtime.failedState old exception).isDead = true ∨
        Runtime.failedState old exception = old.state := by
      unfold Runtime.failedState
      split
      · exact .inr rfl
      · split
        · exact .inl rfl
        · exact .inl rfl
    have waited : Runtime.failedState old exception ≠ .queued := by
      rcases state with dead | same
      · intro queued
        rw [queued] at dead
        contradiction
      · rw [same]
        exact oldTasked.waited
    apply wp_post (wp_moveTo_timed within failed past oldTasked.unclaimed state waited _)
    · intro _ after last moved
      rw [wp_ite]
      split
      · exact (wp_pure _).mpr (moved.weaken kept.since)
      · simp only [wp_bind, wp_quarantine, wp_nowNs, wp_event]
        have closed : Timed _ (after.quarantinePool task.endpoint.pool
            "unconfirmed_backend_termination") _ := moved.frame rfl rfl rfl
        have noted := closed.read.note last.now
          (.poolQuarantined task.endpoint.pool task.job.id) (by simp [Event.Aged])
        exact ⟨closed.timely, noted.timely, noted.weaken (kept.since.trans closed.since)⟩
    · exact fun _ _ _ failed => failed
  simp only [wp_bind, Runtime.settleFailed]
  apply wp_settle_timed timed
  · intro settled kept
    rw [wp_ite]
    split
    · simp only [wp_bind, wp_nowNs, wp_event]
      have noted := kept.read.note self.now
        (.backendNotSent task.job.id exception.code) (by simp [Event.Aged])
      have last := ends _ _ (noted.weaken kept.since) member
      rw [wp_bind] at last
      exact ⟨noted.timely, last⟩
    · exact (wp_pure _).mpr (ends _ _ kept member)
  · exact timed

theorem wp_preSend_timed (timed : Timed since ledger self) (member : task ∈ self.running) :
    wp (Runtime.preSend task) (fun _ after => after.Timely)
      (fun _ => Timed since)
      (fun _ after memory => Timed since after memory ∧ task ∈ memory.running) ledger self := by
  simp only [Runtime.preSend, wp_bind, wp_readVolatile, wp_session_iff]
  split
  · exact ⟨timed, member⟩
  simp only [wp_nowNs]
  have within := timed.read
  split
  · exact (wp_pure _).mpr (within.weaken timed.since)
  rename_i reason _
  rw [wp_bind]
  apply wp_settle_timed within
  swap
  · exact ⟨within.weaken timed.since, member⟩
  intro settled kept
  rw [wp_bind]
  apply wp_job_tasked kept (show task ∈ _ from member)
  · exact fun _ => ⟨kept.weaken timed.since, member⟩
  intro job old tasked
  simp only [wp_bind]
  apply wp_post (wp_moveTo_timed kept.rebase tasked.kept tasked.past tasked.unclaimed
    (.inl reason.state_isDead) reason.state_ne_queued _)
  · intro _ after memory moved
    simp only [wp_nowNs, wp_bind, wp_event, wp_pure]
    have noted := moved.read.note memory.now
      (.notSentAfterDispatchCheck task.job.id) (by simp [Event.Aged])
    exact ⟨noted.timely, noted.weaken (timed.since.trans (kept.since.trans moved.since))⟩
  · exact fun _ _ _ failed => failed

/-- The end of a task takes it from the memory. -/
theorem Timed.release (timed : Timed since ledger self) :
    Timed since ledger (Runtime.releaseSlot task self) :=
  timed.memory rfl rfl (fun other member => ⟨other, (List.mem_filter.mp member).1, rfl⟩)
    timed.cached

theorem wp_runStart_timed (timed : Timed since ledger self) (member : task ∈ self.running) :
    wp (Runtime.runStart task) (fun _ after => after.Timely) (fun _ => Timed since)
      (fun _ => Timed since) ledger self := by
  simp only [Runtime.runStart, wp_bind, wp_tryFinally, wp_tryExcept]
  apply wp_post (wp_preSend_timed timed member)
  · intro sent after memory kept
    cases sent with
    | true =>
        simp only [not_true_eq_false, decide_false, Bool.false_eq_true, if_false, if_true, wp_bind,
          wp_modifyVolatile, wp_pure]
        refine kept.memory rfl rfl ?_ kept.cached
        intro other otherMember
        obtain ⟨old, oldMember, rfl⟩ := List.mem_map.mp otherMember
        refine ⟨old, oldMember, ?_⟩
        split <;> rfl
    | false =>
        simp only [Bool.false_eq_true, not_false_eq_true, decide_true, if_true, if_false, wp_pure]
        exact kept.release
  · rintro exception after memory ⟨kept, tasked⟩
    rw [wp_bind]
    apply wp_post (wp_handleFailure_timed kept tasked exception)
    · intro _ last memory kept
      simp only [wp_pure, Bool.false_eq_true, not_false_eq_true, decide_true, if_true, if_false]
      exact kept.release
    · exact fun _ _ _ kept => kept.release

/-- A first-content instant that passes its check lies between the start and now. -/
theorem wp_checkFirstContent_timed {old : Receipt} {result : Prediction} {now : Ns}
    {guarantee : Ledger → Ledger → Prop} {normal : Unit → Ledger → Coordinator → Prop}
    {raised : PyExc → Ledger → Coordinator → Prop}
    (returns : (∀ first ∈ result.firstContentNs, ∃ started ∈ old.startedNs,
      started ≤ first ∧ first ≤ now) → normal () ledger self)
    (fails : ∀ exception, raised exception ledger self) :
    wp (Runtime.checkFirstContent old result now) guarantee normal raised ledger self := by
  unfold Runtime.checkFirstContent
  split
  · rename_i absent
    refine (wp_pure _).mpr (returns ?_)
    simp [absent]
  · rename_i first present
    split
    · exact (wp_raise _).mpr (fails _)
    · rename_i started startedEq
      rw [wp_ite]
      split
      · rename_i inside
        refine (wp_pure _).mpr (returns ?_)
        intro instant instantEq
        rw [present, Option.mem_def, Option.some.injEq] at instantEq
        rw [← instantEq]
        exact ⟨started, startedEq, inside⟩
      · exact (wp_raise _).mpr (fails _)

theorem wp_deliver_timed (timed : Timed since ledger self) (member : task ∈ self.running)
    (result : Prediction) :
    wp (Runtime.deliver task result) (fun _ after => after.Timely) (fun _ => Timed since)
      (fun _ after memory => Timed since after memory ∧ task ∈ memory.running) ledger self := by
  simp only [Runtime.deliver, wp_bind, wp_nowNs]
  have within := timed.read
  have fails : Timed since ledger { self with reads := self.reads + 1 } ∧ task ∈ self.running :=
    ⟨within.weaken timed.since, member⟩
  apply wp_job_tasked timed member
  · exact fun _ => fails
  intro job old tasked
  simp only [wp_bind]
  apply wp_checkFirstContent_timed
  swap
  · exact fun _ => fails
  intro inside
  rw [wp_bind]
  apply wp_settle_timed within
  swap
  · exact fails
  intro settled kept
  simp only [wp_bind, wp_session_iff]
  split
  · exact ⟨kept.weaken timed.since, member⟩
  rename_i session _
  simp only [wp_readVolatile, wp_bind, wp_receipt]
  have accepted : ∀ invalid, (Runtime.completedState old invalid).1 ≠ .queued ∧
      (Runtime.completedState old invalid).1 ≠ .consumed := by
    intro invalid
    unfold Runtime.completedState
    split
    · exact ⟨tasked.waited, tasked.unclaimed⟩
    · split
      · rename_i reason
        refine ⟨reason.state_ne_queued, ?_⟩
        intro consumed
        have dead := reason.state_isDead
        rw [show reason.state = .consumed from consumed] at dead
        contradiction
      · simp
  specialize accepted (task.job.invalidReason session (self.clock.nowNs self.reads) self.clock.id)
  revert accepted
  generalize Runtime.completedState old (task.job.invalidReason session
    (self.clock.nowNs self.reads) self.clock.id) = ending
  intro accepted
  obtain ⟨completed, past⟩ := tasked.kept.completed tasked.unclaimed accepted tasked.past
    ending.2 inside
  have written := kept.write_past task.job.tenant completed past accepted
  refine ⟨written.timely, ?_⟩
  apply wp_cachePut
  intro cache entries _
  have cached : Timed _ _ { self with reads := self.reads + 1, cache := cache } :=
    written.memory rfl rfl (fun other otherMember => ⟨other, otherMember, rfl⟩) (by
      intro entry entryMember
      rcases entries entry entryMember with old | ⟨-, -, -, same⟩
      · exact within.cached entry old
      · rw [same]
        exact within.since)
  split
  · exact (wp_raise _).mpr ⟨cached.weaken timed.since, member⟩
  · rename_i started _
    have noted := cached.note (self.clock.nowNs self.reads) (.completed task.job.id
      ending.1 ((started.val : Int) - old.submittedNs.val)
      (((self.clock.nowNs self.reads).val : Int) - started.val) result.firstContentNs
      (decide (ending.1 = .succeeded)) result.usage.costMicrousd) (by simp [Event.Aged])
    exact (wp_event _ _).mpr ⟨noted.timely, noted.weaken timed.since⟩

theorem wp_runFinish_timed (timed : Timed since ledger self) (member : task ∈ self.running)
    (reply : BackendReply) :
    wp (Runtime.runFinish task reply) (fun _ after => after.Timely) (fun _ => Timed since)
      (fun _ => Timed since) ledger self := by
  have received : wp (Runtime.receive task reply) (fun _ after => after.Timely)
      (fun _ => Timed since) (fun _ after memory => Timed since after memory ∧
        task ∈ memory.running) ledger self := by
    cases reply with
    | prediction result => exact wp_deliver_timed timed member result
    | notPrediction => exact (wp_raise _).mpr ⟨timed, member⟩
    | raised exception => exact (wp_raise _).mpr ⟨timed, member⟩
  simp only [Runtime.runFinish, wp_tryFinally, wp_tryExcept]
  apply wp_post received
  · intro _ after memory kept
    simp only [if_true]
    exact kept.release
  · rintro exception after memory ⟨kept, tasked⟩
    apply wp_post (wp_handleFailure_timed kept tasked exception)
    · intro _ last memory kept
      simp only [if_true]
      exact kept.release
    · exact fun _ _ _ kept => kept.release

/-! ### Cancelling and consuming -/

/-- What is written to a row that has a task is past. -/
theorem Timed.task_row (timed : Timed since ledger self) {tenant jobId : Name} {row : JobRow}
    {receipt : Receipt} (found : ledger.jobs.lookup (tenant, jobId) = some row)
    (parsed : row.receipt.reparse = some receipt) (member : task ∈ self.running)
    (same : task.job.key = (row.job.tenant, receipt.jobId)) :
    receipt.By self.now ∧ receipt.state ≠ .queued ∧ receipt.state ≠ .consumed := by
  obtain ⟨sameState, sameId⟩ := Receipt.state_reparse parsed
  have keys : task.job.key = (tenant, jobId) := by
    rw [same, sameId, timed.timely.own _ _ found]
    exact (Table.key_of_lookup found : row.key = _)
  obtain ⟨past, accepted⟩ := timed.tasks task member row (by rw [keys]; exact found)
  rw [sameState]
  exact ⟨past.reparse parsed, accepted⟩

theorem wp_cancel_timed (timed : Timed since ledger self) (jobId : Name) :
    wp (Runtime.cancel jobId) (fun _ after => after.Timely) (fun _ => Timed since)
      (fun _ => Timed since) ledger self := by
  simp only [Runtime.cancel, wp_bind, wp_readVolatile]
  apply wp_job_intro timed timed
  intro row receipt found parsed
  rw [wp_ite]
  split
  · rename_i cancellable
    have unclaimed : receipt.state ≠ .consumed := by
      intro consumed
      rw [consumed] at cancellable
      simp at cancellable
    have kept := ((timed.timely.kept _ _ found).reparse parsed).moved unclaimed
      (.inl (rfl : JobState.cancelled.isDead = true)) (some "consumer_cancelled")
    have written := timed.write row.job.tenant kept (by simp [JobState.isLive]) (by
      intro task member same
      exact ⟨(timed.task_row found parsed member same).1, by simp, by simp⟩)
    simp only [Runtime.setState, wp_bind, wp_receipt, wp_nowNs, wp_event, wp_pure]
    have noted := written.read.note self.now
      (.jobState row.job.id .cancelled "consumer_cancelled") (by simp [Event.Aged])
    exact ⟨written.timely, noted.timely, noted.weaken timed.since⟩
  · exact (wp_pure _).mpr timed

/-- Nothing that a job declares was captured after its snapshot. -/
theorem Job.captured_le (job : Job) {o : Observation} (declared : o ∈ job.observations) :
    o.captureNs ≤ job.snapshotNs := by
  have available : ¬ ∃ o ∈ job.observations, job.snapshotNs < o.availableNs := by
    intro late
    have valid := job.valid
    unfold JobFields.violation at valid
    rw [if_pos late] at valid
    repeat (split at valid; · contradiction)
    contradiction
  rw [not_exists] at available
  have early := available o
  rw [not_and, not_lt] at early
  exact o.ordered.trans (early declared)

theorem wp_currentAges_timed (timed : Timed since ledger self) (job : Job)
    (taken : job.snapshotNs ≤ since) {guarantee : Ledger → Ledger → Prop}
    {raised : PyExc → Ledger → Coordinator → Prop} :
    wp (Runtime.currentAges job) guarantee
      (fun ages after memory => after = ledger ∧ Timed since after memory ∧ ∀ age ∈ ages, 0 ≤ age)
      raised ledger self := by
  refine wp_post (wp_collect (fun rest (ages : List Int) after memory => after = ledger ∧
    Timed since after memory ∧ (∀ o ∈ rest, o ∈ job.observations) ∧ ∀ age ∈ ages, 0 ≤ age) ?_
    ⟨rfl, timed, fun o member => (List.mem_filter.mp member).1, by simp⟩)
    (fun _ _ _ kept => ⟨kept.1, kept.2.1, kept.2.2.2⟩) (fun _ _ _ failed => failed)
  rintro o rest ages after memory ⟨same, kept, declared, older⟩
  rw [List.forall_mem_cons] at declared
  simp only [wp_bind, wp_nowNs, wp_pure]
  refine ⟨same, kept.read.weaken kept.since, declared.2, fun age member => ?_⟩
  rcases List.mem_append.mp member with before | own
  · exact older age before
  · obtain rfl := Option.some.inj (Option.mem_toList.mp own)
    have captured := Fin.le_def.mp
      (((job.captured_le declared.1).trans taken).trans kept.since)
    rw [Coordinator.now] at captured
    omega

theorem wp_consume_timed {lifetime : Lifetime} (running : Running lifetime ledger self)
    (timed : Timed since ledger self) (jobId : Name) (consumerId : String) :
    wp (Runtime.consume jobId consumerId) (fun _ after => after.Timely) (fun _ => Timed since)
      (fun _ => Timed since) ledger self := by
  simp only [Runtime.consume, wp_bind, wp_readVolatile]
  apply wp_job_intro timed timed
  intro row receipt found parsed
  simp only [wp_bind, wp_session_iff]
  split
  · exact timed
  rename_i session sessionFound
  simp only [wp_nowNs]
  have within := timed.read
  split
  · exact (wp_raise _).mpr (within.weaken timed.since)
  rename_i valid
  rw [wp_ite]
  split
  · exact (wp_raise _).mpr (within.weaken timed.since)
  rename_i answered
  split
  · rw [wp_ite]
    split
    · exact (wp_raise _).mpr (within.weaken timed.since)
    · exact (wp_pure _).mpr (within.weaken timed.since)
  rename_i unclaimed
  simp only [wp_bind, wp_nowNs]
  have twice := within.read
  split
  · exact (wp_raise _).mpr (twice.weaken (timed.since.trans within.since))
  rename_i consumer _
  have kept := (timed.timely.kept _ _ found).reparse parsed
  obtain ⟨sameState, sameId⟩ := Receipt.state_reparse parsed
  have succeeded : receipt.state = .succeeded := by
    simp only [List.mem_cons, List.not_mem_nil, or_false, not_not] at answered
    rcases answered with succeeded | consumed
    · exact succeeded
    · have claimed := kept.claimed.mpr consumed
      rw [unclaimed] at claimed
      contradiction
  have past : receipt.By self.now := by
    rcases timed.answered _ _ found (by rw [← sameState]; exact succeeded) with past | departed
    · exact past.reparse parsed
    · apply absurd _ (departed.invalid : ledger.invalidReason self.clock self.reads _ ≠ none)
      rw [Ledger.invalidReason, show ledger.sessions.lookup row.job.sessionKey = some session from
        sessionFound]
      exact valid
  have idle : ∀ task ∈ self.running, task.job.key ≠ (row.job.tenant, receipt.jobId) := by
    intro task member same
    obtain ⟨stored, taskFound, inTask, -⟩ := (running.tasks task member).row
    have keys : task.job.key = (self.config.tenant, jobId) := by
      rw [same, sameId, timed.timely.own _ _ found]
      exact (Table.key_of_lookup found : row.key = _)
    rw [keys, found, Option.some.injEq] at taskFound
    rw [sameState, taskFound] at succeeded
    rw [show stored.state = .succeeded from succeeded] at inTask
    contradiction
  have consumed := kept.claimedBy succeeded (past.mono within.since) consumer
  have written := twice.write row.job.tenant consumed (by simp [JobState.isLive])
    fun task member same => absurd same (idle task member)
  simp only [wp_receipt, wp_bind, wp_nowNs]
  refine ⟨written.timely, ?_⟩
  have noted := written.read
  have taken := (Job.invalidReason_eq_none_iff.mp valid).2.2.1
  apply wp_post (wp_currentAges_timed noted row.job
    (taken.trans (within.since.trans twice.since)))
  · rintro ages after memory ⟨rfl, kept, older⟩
    have aged : Event.Aged (.consumed row.job.id consumer ages.max?) := by
      rintro job other age eventEq
      obtain ⟨-, -, most⟩ := Event.consumed.inj eventEq
      exact older age (List.max?_mem most)
    have last := kept.note (self.clock.nowNs (self.reads + 1 + 1)) _ aged
    simp only [wp_bind, wp_event, wp_pure]
    exact ⟨last.timely, last.weaken (timed.since.trans (within.since.trans twice.since))⟩
  · exact fun _ _ _ failed => failed

end Programs

end AgminaRuntime
