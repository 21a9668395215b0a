import AgminaRuntime.QueueService

/-!
# The turns of a tick

A tick first reads the queue in journal order, rejects the jobs behind a failed
dependency and ranks the ready ones; then each ranked job has one turn, with a
clock reading of its own.  Its turn ends a job or leaves everything as it was.
-/

namespace AgminaRuntime

open Durable Durable.Program Keyed

/-! ## The two parts of a tick -/

/-- A turn of a ranked job, with the journal and the memory it begins in. -/
abbrev Turn := Round Ledger Coordinator (RankKey × Job × Receipt)

def Turn.job (turn : Turn) : Job := turn.item.2.1

/-- The clock reading of a turn. -/
def Turn.nowNs (turn : Turn) : Ns := turn.volatile.clock.nowNs turn.volatile.reads

/-- The states in which a turn begins. -/
def Turn.start (turn : Turn) : Ledger × Coordinator := (turn.durable, turn.volatile)

namespace Runtime

/-- `tick` up to the ranked jobs. -/
def gather (tenant : Name) : RuntimeProgram (List (RankKey × Job × Receipt)) := do
  expire
  let now ← nowNs
  let queued ← Store.jobs tenant [.queued]
  collect queued (rankReady now)

/-- The turns of a tick, in their order. -/
def turns (ledger : Ledger) (self : Coordinator) : List Turn :=
  if self.closed then []
  else
    let gathered := gather self.config.tenant ledger self
    match gathered.value with
    | .error _ => []
    | .ok ready => rounds dispatchReady (sortByRank ready) (gathered.durable ledger) gathered.volatile

/-- A tick gathers the ready jobs and then gives each its turn. -/
theorem tick_eq :
    tick = readVolatile >>= fun self =>
      if self.closed then pure ()
      else gather self.config.tenant >>= fun ready =>
        forEach (sortByRank ready) dispatchReady := by
  simp only [tick, gather, bind_assoc]

end Runtime

/-! ## One turn -/

section Turns

variable {lifetime : Lifetime} {ledger after : Ledger} {self next : Coordinator} {job : Job}
  {receipt : Receipt}

/-- The endpoint that a turn chooses for its job. -/
def Turn.choice (turn : Turn) (session : Session) : Option Endpoint :=
  chooseEndpoint (turn.volatile.config.endpointsOf turn.job.model) turn.nowNs
    (turn.job.latestNs session) turn.job.allowedSites turn.volatile.config.poolSlots
    turn.volatile.poolUse turn.volatile.endpointUse turn.durable.quarantined
    turn.volatile.config.placement

/-- The job of the turn is not in the queue. -/
def Turn.Left (turn : Turn) (after : Ledger) : Prop :=
  ∀ row, after.jobs.lookup turn.job.key = some row → row.receipt.state ≠ .queued

/-- No endpoint was found in the turn. -/
def Turn.Passed (turn : Turn) : Prop :=
  ∃ session, turn.durable.sessions.lookup turn.job.sessionKey = some session ∧
    turn.choice session = none

/-- The turn has put its job on an endpoint. -/
def Turn.Launched (turn : Turn) (endpoint : Endpoint) : Prop :=
  ∃ session, turn.durable.sessions.lookup turn.job.sessionKey = some session ∧
    turn.choice session = some endpoint

/-- How a turn ends: its job leaves the queue, on an endpoint or otherwise, or
the journal and the work in flight stay as they are. -/
inductive Turn.Ends (turn : Turn) : Ledger → Coordinator → Prop
  | left {after : Ledger} {next : Coordinator} (left : turn.Left after)
      (running : next.running = turn.volatile.running) : Ends turn after next
  | launched {after : Ledger} {next : Coordinator} {endpoint : Endpoint}
      {cacheKey : Option CacheKey} (left : turn.Left after) (launched : turn.Launched endpoint)
      (running : next.running =
        turn.volatile.running ++ [⟨turn.job, endpoint, cacheKey, .created⟩]) :
      Ends turn after next
  | passed {next : Coordinator} (passed : turn.Passed)
      (running : next.running = turn.volatile.running) : Ends turn turn.durable next

/-- The row of a job after a receipt has been written for it. -/
theorem Ledger.left_of_write {before : Ledger} {job : Job} {written : Receipt}
    (sameJob : written.jobId = job.id) (moved : written.state ≠ .queued) {row : JobRow}
    (found : (before.writeReceipt job.tenant written).jobs.lookup job.key = some row) :
    row.receipt.state ≠ .queued := by
  have key : job.key = (job.tenant, written.jobId) := by rw [sameJob]; rfl
  rw [Ledger.lookup_writeReceipt, if_pos key] at found
  obtain ⟨old, -, rfl⟩ := Option.map_eq_some_iff.mp found
  exact moved

theorem dispatchReady_ends {item : RankKey × Job × Receipt} {session : Session}
    {contract : ModelContract} (sameJob : item.2.2.jobId = item.2.1.id)
    (found : ledger.sessions.lookup item.2.1.sessionKey = some session)
    (registered : self.config.modelContract item.2.1.model = some contract)
    (unattempted : ledger.attempts.lookup item.2.1.key = none) :
    Returns (Runtime.dispatchReady item)
      (fun _ after next => Turn.Ends ⟨item, ledger, self⟩ after next ∧ self.reads < next.reads)
      ledger self := by
  obtain ⟨key, job, receipt⟩ := item
  have sessionFound : ledger.sessions.lookup (job.tenant, job.sessionId) = some session := found
  have left : ∀ {middle : Ledger} {written : Receipt} {kind : Event} {atNs : Ns},
      written.jobId = job.id → written.state ≠ .queued →
        Turn.Left ⟨(key, job, receipt), ledger, self⟩
          ((middle.writeReceipt job.tenant written).note atNs kind) :=
    fun sameJob moved row found => Ledger.left_of_write sameJob moved found
  have moves : ∀ {state : JobState} (text : PyStr) {memory : Coordinator}, state ≠ .queued →
      memory.running = self.running → self.reads < memory.reads →
        Returns (Runtime.moveTo job receipt state text)
          (fun _ after next => Turn.Ends ⟨(key, job, receipt), ledger, self⟩ after next ∧
            self.reads < next.reads)
          ledger memory := by
    intro state text memory moved running later
    simp only [Runtime.moveTo, Runtime.setState, wp_bind, wp_receipt, wp_nowNs, wp_event, wp_pure,
      true_and]
    exact ⟨.left (left sameJob moved) running, by omega⟩
  simp only [Runtime.dispatchReady, wp_bind, wp_readVolatile, wp_nowNs, wp_session sessionFound,
    registered]
  split
  · exact moves _ (InvalidReason.state_ne_queued _) rfl (Nat.lt_succ_self _)
  · simp only [Runtime.cacheGet, wp_bind, wp_readVolatile, wp_modifyVolatile, wp_pure]
    split
    · simp only [Runtime.deliverCached, wp_bind, wp_receipt, wp_event, true_and]
      exact ⟨.left (left sameJob (by simp)) rfl, Nat.lt_succ_self _⟩
    · simp only [Runtime.dispatch, wp_bind, wp_readVolatile, wp_quarantined]
      split
      · rename_i passed
        exact (wp_pure _).mpr ⟨.passed ⟨session, found, passed⟩ rfl, Nat.lt_succ_self _⟩
      · rename_i endpoint chosen
        simp only [Runtime.tryReserve, wp_bind, wp_tryExcept, Store.reserve, wp_transaction]
        cases reserved : ledger.reserve job endpoint (self.clock.nowNs self.reads) with
        | error exception =>
            rw [ledger.reserve_error unattempted reserved]
            simp only [wp_pure, Bool.false_eq_true, if_false]
            exact moves _ (by simp) rfl (Nat.lt_succ_self _)
        | ok middle =>
            simp only [wp_pure, if_true, Runtime.launch, wp_bind, wp_receipt, wp_modifyVolatile,
              wp_event, true_and]
            exact ⟨.launched (left sameJob (by simp)) ⟨session, found, chosen⟩ rfl,
              Nat.lt_succ_self _⟩

/-! ## All turns -/

/-- What the turns of a list of ranked jobs have done. -/
structure Taken (items : List (RankKey × Job × Receipt)) (start : Ledger × Coordinator)
    (turns : List Turn) (finish : Ledger × Coordinator) : Prop where
  proceeds : Proceeds start finish
  inOrder : turns.map Round.item = items
  each : ∀ turn ∈ turns, Proceeds start turn.start ∧ Proceeds turn.start finish ∧
    turn.volatile.reads < finish.2.reads ∧ (turn.Left finish.1 ∨ turn.Passed)
  tasks : ∀ task ∈ finish.2.running, task ∈ start.2.running ∨
    ∃ turn ∈ turns, task.job = turn.job ∧ turn.Launched task.endpoint
  ordered : turns.Pairwise fun first second => Proceeds first.start second.start
  others : ∀ key, (∀ item ∈ items, item.2.1.key ≠ key) →
    finish.1.jobs.lookup key = start.1.jobs.lookup key

theorem Taken.nil (state : Ledger × Coordinator) : Taken [] state [] state where
  proceeds := Proceeds.cumulative.refl state
  inOrder := rfl
  each := by simp
  tasks := fun _ member => .inl member
  ordered := .nil
  others := fun _ _ => rfl

/-- The first turn is followed by those of the other jobs. -/
theorem Taken.cons {item : RankKey × Job × Receipt} {rest : List (RankKey × Job × Receipt)}
    {middle finish : Ledger × Coordinator} {turns : List Turn}
    (ends : Turn.Ends ⟨item, ledger, self⟩ middle.1 middle.2) (later : self.reads < middle.2.reads)
    (proceeds : Proceeds (ledger, self) middle) (others : ledger.SameBut item.2.1.key middle.1)
    (fresh : ∀ other ∈ rest, other.2.1.key ≠ item.2.1.key)
    (taken : Taken rest middle turns finish) :
    Taken (item :: rest) (ledger, self) (⟨item, ledger, self⟩ :: turns) finish := by
  have whole := Proceeds.cumulative.trans proceeds taken.proceeds
  have own : finish.1.jobs.lookup item.2.1.key = middle.1.jobs.lookup item.2.1.key :=
    taken.others _ fresh
  constructor
  · exact whole
  · rw [List.map_cons, taken.inOrder]
  · intro turn member
    rcases List.mem_cons.mp member with rfl | later
    · refine ⟨Proceeds.cumulative.refl _, whole, later.trans_le taken.proceeds.reads, ?_⟩
      have left : ∀ {after : Ledger}, middle.1 = after →
          Turn.Left ⟨item, ledger, self⟩ after → Turn.Left ⟨item, ledger, self⟩ finish.1 := by
        intro after same left row found
        apply left row
        rw [← same]
        exact own.symm.trans found
      generalize middleEq : middle.1 = after at ends
      cases ends with
      | left moved _ => exact .inl (left middleEq moved)
      | launched moved _ _ => exact .inl (left middleEq moved)
      | passed passed _ => exact .inr passed
    · obtain ⟨earlier, rest⟩ := taken.each turn later
      exact ⟨Proceeds.cumulative.trans proceeds earlier, rest⟩
  · intro task member
    rcases taken.tasks task member with early | ⟨turn, turnMember, launched⟩
    · have started : task ∈ self.running ∨ task.job = item.2.1 ∧
          Turn.Launched ⟨item, ledger, self⟩ task.endpoint := by
        cases ends with
        | left _ running =>
            rw [running] at early
            exact .inl early
        | launched _ launched running =>
            rw [running] at early
            rcases List.mem_append.mp early with old | new
            · exact .inl old
            · rw [List.mem_singleton.mp new]
              exact .inr ⟨rfl, launched⟩
        | passed _ running =>
            rw [running] at early
            exact .inl early
      rcases started with old | ⟨job, launched⟩
      · exact .inl old
      · exact .inr ⟨_, List.mem_cons_self, job, launched⟩
    · exact .inr ⟨turn, List.mem_cons_of_mem _ turnMember, launched⟩
  · rw [List.pairwise_cons]
    refine ⟨fun turn later => ?_, taken.ordered⟩
    exact Proceeds.cumulative.trans proceeds (taken.each turn later).1
  · intro key outside
    rw [taken.others key fun other later => outside other (List.mem_cons_of_mem _ later)]
    exact others key (Ne.symm (outside item List.mem_cons_self))

/-- What holds before the turns of ranked jobs. -/
structure Ranked (lifetime : Lifetime) (items : List (RankKey × Job × Receipt)) (ledger : Ledger)
    (memory : Coordinator) : Prop where
  running : Running lifetime ledger memory
  queued : ∀ item ∈ items, ledger.Queued item.2
  serves : ∀ item ∈ items, memory.Serves item.2.1
  distinct : (items.map fun item => item.2.1.key).Nodup

/-- Every ranked job has its turn. -/
theorem Ranked.wp_turns {items : List (RankKey × Job × Receipt)}
    (ranked : Ranked lifetime items ledger self) :
    wp (forEach items Runtime.dispatchReady) (Commit lifetime.coordinator)
      (fun _ after next => Running lifetime after next ∧
        (∀ key row, after.jobs.lookup key = some row → row.receipt.state = .queued →
          ledger.jobs.lookup key = some row) ∧
        Taken items (ledger, self) (rounds Runtime.dispatchReady items ledger self) (after, next))
      (fun _ _ _ => False) ledger self := by
  apply wp_post (wp_preserves (fun after => ∀ key row, after.jobs.lookup key = some row →
    row.receipt.state = .queued → ledger.jobs.lookup key = some row) _ _
      (wp_rounds (Ranked lifetime) Taken Taken.nil _ ranked))
    (fun _ _ _ kept => ⟨kept.1.1.running, kept.2, kept.1.2⟩) (fun _ _ _ failed => failed.1)
  · intro before after commit earlier key row found queued
    exact earlier key row (commit.queued_kept (by simp) found queued) queued
  · exact fun _ _ found _ => found
  intro item rest ledger self ranked
  have running := ranked.running
  have queued := ranked.queued item List.mem_cons_self
  have serves := ranked.serves item List.mem_cons_self
  have rowSound := running.sound.rows _ _ queued.1
  obtain ⟨session, sessionFound⟩ := Option.isSome_iff_exists.mp rowSound.session
  obtain ⟨contract, registered⟩ := Option.ne_none_iff_exists'.mp serves.registered
  have ends := dispatchReady_ends rowSound.sameJob sessionFound registered
    (running.unattempted _ _ queued.1 queued.2)
  have meets := (Runtime.dispatchReady_proceeds item).wp
    (wp_and (wp_dispatchReady running queued) ends)
  have distinct := ranked.distinct
  rw [List.map_cons, List.nodup_cons] at distinct
  have fresh : ∀ other ∈ rest, other.2.1.key ≠ item.2.1.key := by
    intro other member same
    exact distinct.1 (List.mem_map.mpr ⟨other, member, same⟩)
  apply wp_mono meets (fun _ _ both => both.1) _ (fun _ _ _ failed => failed.1.2)
  rintro _ middle next ⟨⟨⟨kept, others⟩, ended, later⟩, proceeds⟩
  refine ⟨⟨kept, ?_, ?_, distinct.2⟩, fun turns finish taken =>
    Taken.cons ended later proceeds others fresh taken⟩
  · intro other member
    exact (ranked.queued other (List.mem_cons_of_mem _ member)).others others (fresh other member)
  · intro other member
    exact (ranked.serves other (List.mem_cons_of_mem _ member)).fixed proceeds.fixed

end Turns

end AgminaRuntime
