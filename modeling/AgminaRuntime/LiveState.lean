import AgminaRuntime.LedgerSound

/-!
# The ledger and the memory of a live coordinator

`Live` ties the three representations of the work in flight together: the
attempt rows, the unfinished tasks and the slot counters.  Between two
synchronous steps it always holds.  Each theorem below says that one kind of
change keeps it.
-/

namespace AgminaRuntime

open Keyed

/-- The journal's side of an unfinished task. -/
structure TaskSound (ledger : Ledger) (config : RuntimeConfig) (task : Task) : Prop where
  row : ∃ receipt, ledger.jobs.lookup task.job.key = some ⟨task.job, receipt⟩ ∧
    receipt.state.inTask = true ∧ receipt.Readable ∧ receipt.startedNs.isSome = true
  attempt : ledger.attempts.lookup task.job.key = some (.reservation task.job task.endpoint)
  endpoint : task.endpoint ∈ config.endpoints
  cacheKey : ∃ contract ∈ config.modelContract task.job.model,
    task.cacheKey = HistoricalCache.key task.job contract.fingerprint

/-- What the lifetime of a coordinator fixes: its configuration, its clock, a
reading of it that is past, the jobs whose backend call has been made, and the
entries that its cache may hold. -/
structure Lifetime where
  config : RuntimeConfig
  clock : Clock
  reads : Nat
  called : List (Name × Name)
  entries : List CacheEntry

/-- The lifetime after a backend call. -/
def Lifetime.call (lifetime : Lifetime) (job : Job) : Lifetime :=
  { lifetime with called := lifetime.called ++ [job.key] }

/-- The lifetime after results have entered the cache. -/
def Lifetime.store (lifetime : Lifetime) (computed : List CacheEntry) : Lifetime :=
  { lifetime with entries := lifetime.entries ++ computed }

/-- The coordinator of the lifetime, as an author. -/
abbrev Lifetime.coordinator (lifetime : Lifetime) : Author :=
  .coordinator lifetime.config lifetime.entries

/-- The invariant of a live coordinator: the configuration and the clock are
fixed, the clock is only read further, and a task that has not run yet is the
only one its job will have. -/
structure Live (lifetime : Lifetime) (ledger : Ledger) (memory : Coordinator) : Prop where
  sound : ledger.Sound
  config : memory.config = lifetime.config
  clock : memory.clock = lifetime.clock
  reads : lifetime.reads ≤ memory.reads
  tenant : ledger.tenant = some memory.config.tenant
  unattempted : ∀ key row, ledger.jobs.lookup key = some row → row.receipt.state = .queued →
    ledger.attempts.lookup key = none
  dispatched : ∀ key row, ledger.jobs.lookup key = some row → row.receipt.state = .running →
    ∃ task ∈ memory.running, task.job = row.job
  tasks : ∀ task ∈ memory.running, TaskSound ledger memory.config task
  distinct : (memory.running.map fun task => task.job.id).Nodup
  reserved : ∀ key attempt, ledger.attempts.lookup key = some attempt →
    attempt.disposition = .reserved → ∃ task ∈ memory.running, task.job.key = key
  poolUse : ∀ pool, memory.poolUse pool =
    memory.running.countP fun task => decide (task.endpoint.pool = pool)
  endpointUse : ∀ endpoint, memory.endpointUse endpoint =
    memory.running.countP fun task => decide (task.endpoint.id = endpoint)
  poolBound : ∀ pool, memory.poolUse pool ≤ memory.config.poolSlots pool
  endpointBound : ∀ endpoint ∈ memory.config.endpoints,
    memory.endpointUse endpoint.id ≤ endpoint.maxInflight
  sessionClock : ∀ key session, ledger.sessions.lookup key = some session →
    session.state = .active → session.clockId = memory.clock.id
  called : ∀ key ∈ lifetime.called, (ledger.attempts.lookup key).isSome = true
  cached : ∀ entry ∈ memory.cache.data, entry ∈ lifetime.entries
  cacheTtl : memory.cache.ttlNs = lifetime.config.cacheTtlNs
  uncalled : ∀ task ∈ memory.running, task.phase = .created → task.job.key ∉ lifetime.called
  awaited : ∀ task ∈ memory.running, task.phase = .awaiting → task.job.key ∈ lifetime.called

/-- The session of a job is active in the job's own generation. -/
def Session.Current (session : Session) (job : Job) (clockId : Name) : Prop :=
  session.state = .active ∧ session.clockId = clockId ∧ session.tenant = job.tenant ∧
    session.epoch = job.epoch ∧ session.taskRevision = job.taskRevision

/-- Live work belongs to the current generation of its session. -/
def Ledger.Current (ledger : Ledger) (clockId : Name) : Prop :=
  ∀ key row, ledger.jobs.lookup key = some row → row.receipt.state.isLive = true →
    ∃ session, ledger.sessions.lookup row.job.sessionKey = some session ∧
      session.Current row.job clockId

/-- What holds of a live coordinator between two synchronous steps. -/
structure Running (lifetime : Lifetime) (ledger : Ledger) (memory : Coordinator) : Prop
    extends Live lifetime ledger memory where
  current : ledger.Current memory.clock.id

/-- No job has become live, and no session has moved. -/
structure Ledger.Subsides (before after : Ledger) : Prop where
  sessions : after.sessions = before.sessions
  rows : ∀ key row, after.jobs.lookup key = some row → row.receipt.state.isLive = true →
    ∃ old, before.jobs.lookup key = some old ∧ old.receipt.state.isLive = true ∧
      old.job = row.job

theorem Ledger.Subsides.refl (ledger : Ledger) : ledger.Subsides ledger :=
  ⟨rfl, fun _ row found live => ⟨row, found, live, rfl⟩⟩

theorem Ledger.Subsides.trans {first second third : Ledger} (early : first.Subsides second)
    (late : second.Subsides third) : first.Subsides third := by
  refine ⟨late.sessions.trans early.sessions, ?_⟩
  intro key row found live
  obtain ⟨middle, middleFound, middleLive, sameJob⟩ := late.rows key row found live
  obtain ⟨old, oldFound, oldLive, oldJob⟩ := early.rows key middle middleFound middleLive
  exact ⟨old, oldFound, oldLive, oldJob.trans sameJob⟩

theorem Ledger.Subsides.note {before after : Ledger} (subsides : before.Subsides after)
    (atNs : Ns) (kind : Event) : before.Subsides (after.note atNs kind) :=
  ⟨subsides.sessions, subsides.rows⟩

theorem Ledger.Current.subsides {before after : Ledger} {clockId : Name}
    (current : before.Current clockId) (subsides : before.Subsides after) :
    after.Current clockId := by
  intro key row found live
  obtain ⟨old, oldFound, oldLive, sameJob⟩ := subsides.rows key row found live
  obtain ⟨session, sessionFound, generation⟩ := current key old oldFound oldLive
  rw [sameJob] at sessionFound generation
  exact ⟨session, by rw [subsides.sessions]; exact sessionFound, generation⟩

/-- The two commits of a dispatch: a reservation and a RUNNING receipt. -/
structure Dispatches (before after : Ledger) (job : Job) (endpoint : Endpoint)
    (receipt : Receipt) : Prop where
  tenant : after.tenant = before.tenant
  sessions : after.sessions = before.sessions
  row : after.jobs.lookup job.key = some ⟨job, receipt⟩
  otherRows : ∀ key, key ≠ job.key → after.jobs.lookup key = before.jobs.lookup key
  unattempted : before.attempts.lookup job.key = none
  attempt : after.attempts.lookup job.key = some (.reservation job endpoint)
  otherAttempts : ∀ key, key ≠ job.key → after.attempts.lookup key = before.attempts.lookup key

theorem dispatches_of_reserve {before middle : Ledger} {row : JobRow} {endpoint : Endpoint} {nowNs : Ns}
    {receipt : Receipt}
    (found : before.jobs.lookup row.key = some row) (sameJob : receipt.jobId = row.job.id)
    (reserved : before.reserve row.job endpoint nowNs = .ok middle) :
    Dispatches before (middle.writeReceipt row.job.tenant receipt) row.job endpoint receipt := by
  obtain ⟨-, -, attempts, inserted, rfl⟩ := before.reserve_ok reserved
  have lookup : ∀ key, attempts.lookup key =
      if row.key = key then some (.reservation row.job endpoint)
      else before.attempts.lookup key := fun key => Table.lookup_insert? inserted
  refine
    { tenant := rfl
      sessions := rfl
      row := Ledger.lookup_writeReceipt_self found sameJob
      otherRows := fun key differs => Ledger.lookup_writeReceipt_of_ne sameJob differs
      unattempted := (Table.insert?_eq_some_iff.mp inserted).1
      attempt := (lookup _).trans (if_pos rfl)
      otherAttempts := fun key differs => (lookup key).trans (if_neg (Ne.symm differs)) }

theorem Dispatches.subsides {before after : Ledger} {job : Job} {endpoint : Endpoint} {receipt old : Receipt}
    (dispatches : Dispatches before after job endpoint receipt)
    (found : before.jobs.lookup job.key = some ⟨job, old⟩) (live : old.state.isLive = true) :
    before.Subsides after := by
  refine ⟨dispatches.sessions, ?_⟩
  intro key row rowFound rowLive
  by_cases same : key = job.key
  · subst same
    rw [dispatches.row, Option.some.injEq] at rowFound
    exact ⟨⟨job, old⟩, found, live, by rw [← rowFound]⟩
  · rw [dispatches.otherRows key same] at rowFound
    exact ⟨row, rowFound, rowLive, rfl⟩

/-- The commits of a task leave every other job alone and settle its own. -/
structure Ends (before after : Ledger) (job : Job) : Prop where
  sessions : after.sessions = before.sessions
  row : ∀ row, after.jobs.lookup job.key = some row → row.receipt.state.isLive = false
  otherRows : ∀ key, key ≠ job.key → after.jobs.lookup key = before.jobs.lookup key
  attempt : ∃ attempt, after.attempts.lookup job.key = some attempt ∧
    attempt.disposition ≠ .reserved
  otherAttempts : ∀ key, key ≠ job.key → after.attempts.lookup key = before.attempts.lookup key

namespace Live

variable {lifetime : Lifetime} {self : Coordinator} {before after : Ledger} {who : Author}

/-! ## Tasks and their rows -/

/-- All work of a ledger is of one tenant. -/
theorem task_key (live : Live lifetime before self) {task : Task} (member : task ∈ self.running) :
    task.job.key = (self.config.tenant, task.job.id) := by
  obtain ⟨receipt, found, -⟩ := (live.tasks task member).row
  have bound := (live.sound.rows _ _ found).tenant
  rw [live.tenant, Option.some.injEq] at bound
  rw [bound]
  rfl

/-- The jobs table is of the coordinator's tenant. -/
theorem row_tenant (live : Live lifetime before self) {key : Name × Name} {row : JobRow}
    (found : before.jobs.lookup key = some row) : row.job.tenant = self.config.tenant := by
  have bound := (live.sound.rows _ _ found).tenant
  rw [live.tenant, Option.some.injEq] at bound
  exact bound.symm

/-- A running job has an unsettled attempt. -/
theorem settledEnded (live : Live lifetime before self) : before.SettledEnded := by
  intro attempt member settled row found running
  have stored : before.jobs.lookup attempt.key = some row := found
  obtain ⟨task, taskMember, sameJob⟩ := live.dispatched _ row stored running
  have reservation := (live.tasks task taskMember).attempt
  have rowKey : task.job.key = attempt.key := by
    rw [sameJob]
    exact (Table.key_of_lookup stored : row.key = attempt.key)
  rw [rowKey, Table.lookup_of_mem member, Option.some.injEq] at reservation
  rw [reservation] at settled
  simp [Attempt.reservation] at settled

/-! ## Changes of memory alone -/

theorem of_memory (live : Live lifetime before self) {next : Coordinator}
    (config : next.config = self.config) (clock : next.clock = self.clock)
    (reads : self.reads ≤ next.reads) (poolUse : next.poolUse = self.poolUse)
    (endpointUse : next.endpointUse = self.endpointUse) (running : next.running = self.running)
    (cached : ∀ entry ∈ next.cache.data, entry ∈ lifetime.entries)
    (cacheTtl : next.cache.ttlNs = self.cache.ttlNs) :
    Live lifetime before next where
  sound := live.sound
  config := config.trans live.config
  clock := clock.trans live.clock
  reads := live.reads.trans reads
  tenant := by rw [config]; exact live.tenant
  unattempted := live.unattempted
  dispatched := by rw [running]; exact live.dispatched
  tasks := by rw [running, config]; exact live.tasks
  distinct := by rw [running]; exact live.distinct
  reserved := by rw [running]; exact live.reserved
  poolUse := by rw [running, poolUse]; exact live.poolUse
  endpointUse := by rw [running, endpointUse]; exact live.endpointUse
  poolBound := by rw [poolUse, config]; exact live.poolBound
  endpointBound := by rw [endpointUse, config]; exact live.endpointBound
  sessionClock := by rw [clock]; exact live.sessionClock
  called := live.called
  cached := cached
  cacheTtl := cacheTtl.trans live.cacheTtl
  uncalled := by rw [running]; exact live.uncalled
  awaited := by rw [running]; exact live.awaited

theorem read (live : Live lifetime before self) :
    Live lifetime before { self with reads := self.reads + 1 } :=
  live.of_memory rfl rfl (Nat.le_succ _) rfl rfl rfl live.cached rfl

/-! ## Commits that leave jobs, attempts and sessions alone -/

theorem of_tables (live : Live lifetime before self) (commit : Commit who before after)
    (jobs : after.jobs = before.jobs) (attempts : after.attempts = before.attempts)
    (sessions : after.sessions = before.sessions) : Live lifetime after self where
  sound := commit.sound live.sound
  config := live.config
  clock := live.clock
  reads := live.reads
  tenant := commit.tenant_kept live.tenant
  unattempted := by rw [jobs, attempts]; exact live.unattempted
  dispatched := by rw [jobs]; exact live.dispatched
  tasks := by
    intro task member
    have old := live.tasks task member
    exact ⟨by rw [jobs]; exact old.row, by rw [attempts]; exact old.attempt, old.endpoint,
      old.cacheKey⟩
  distinct := live.distinct
  reserved := by rw [attempts]; exact live.reserved
  poolUse := live.poolUse
  endpointUse := live.endpointUse
  poolBound := live.poolBound
  endpointBound := live.endpointBound
  sessionClock := by rw [sessions]; exact live.sessionClock
  called := by rw [attempts]; exact live.called
  cached := live.cached
  cacheTtl := live.cacheTtl
  uncalled := live.uncalled
  awaited := live.awaited

theorem note (live : Live lifetime before self) (atNs : Ns) (kind : Event) :
    Live lifetime (before.note atNs kind) self :=
  live.of_tables (.note atNs kind : Commit (.operator none) _ _) rfl rfl rfl

/-! ## Commits of the coordinator -/

theorem putSession (live : Live lifetime before self) {session : Session}
    (commit : Commit who before (before.putSession session))
    (clock : session.state = .active → session.clockId = self.clock.id) :
    Live lifetime (before.putSession session) self := by
  refine { live with
    sound := commit.sound live.sound
    tasks := fun task member => ?_
    sessionClock := ?_ }
  · have old := live.tasks task member
    exact ⟨old.row, old.attempt, old.endpoint, old.cacheKey⟩
  · intro key stored found active
    rw [before.lookup_putSession] at found
    split at found
    · rw [Option.some.injEq] at found
      subst found
      exact clock active
    · exact live.sessionClock key stored found active

/-- A task is not touched by a commit that leaves its row and its attempt. -/
theorem taskSound_of_lookups (live : Live lifetime before self) {task : Task}
    (member : task ∈ self.running)
    (row : after.jobs.lookup task.job.key = before.jobs.lookup task.job.key)
    (attempt : after.attempts.lookup task.job.key = before.attempts.lookup task.job.key) :
    TaskSound after self.config task := by
  have old := live.tasks task member
  exact ⟨by rw [row]; exact old.row, by rw [attempt]; exact old.attempt, old.endpoint,
    old.cacheKey⟩

theorem addJob (live : Live lifetime before self) {job : Job} {receipt : Receipt}
    (commit : Commit who before after)
    (initial : receipt.state = .queued ∨ receipt.state = .rejected)
    (added : before.addJob job receipt = .ok after) : Live lifetime after self := by
  have sound := commit.sound live.sound
  obtain ⟨observations, jobs, inserted, rfl⟩ := before.addJob_ok added
  have absent := (Table.insert?_eq_some_iff.mp inserted).1
  have unattempted : before.attempts.lookup job.key = none := by
    cases attemptEq : before.attempts.lookup job.key with
    | none => rfl
    | some attempt =>
        have present := live.sound.attempts _ _ attemptEq
        rw [show before.jobs.lookup job.key = none from absent] at present
        contradiction
  refine { live with
    sound := sound
    unattempted := ?_
    dispatched := ?_
    tasks := ?_ }
  · intro key row found queued
    rw [Table.lookup_insert? inserted] at found
    split at found
    · rename_i keyEq
      rw [← keyEq]
      exact unattempted
    · exact live.unattempted key row found queued
  · intro key row found running
    rw [Table.lookup_insert? inserted] at found
    split at found
    · rw [Option.some.injEq] at found
      subst found
      rcases initial with queued | rejected
      · rw [queued] at running
        contradiction
      · rw [rejected] at running
        contradiction
    · exact live.dispatched key row found running
  · intro task member
    refine live.taskSound_of_lookups member ?_ rfl
    obtain ⟨stored, found, -⟩ := (live.tasks task member).row
    rw [Table.lookup_insert? inserted, if_neg]
    intro keyEq
    rw [← keyEq, show before.jobs.lookup _ = none from absent] at found
    contradiction

/-- A receipt that ends, or leaves its task behind in a dead state. -/
theorem write (live : Live lifetime before self) {row : JobRow} {receipt : Receipt}
    (found : before.jobs.lookup row.key = some row)
    (sameJob : receipt.jobId = row.job.id)
    (commit : Commit who before (before.writeReceipt row.job.tenant receipt))
    (ended : receipt.state.isLive = false)
    (outside : row.receipt.state ∉ [JobState.expired, .stale, .cancelled])
    (carried : row.receipt.state = .running →
      receipt.state.inTask = true ∧ receipt.Readable ∧ receipt.startedNs.isSome = true) :
    Live lifetime (before.writeReceipt row.job.tenant receipt) self := by
  have others : ∀ {key : Name × Name} {stored : JobRow}, stored.receipt.state.isLive = true →
      (before.writeReceipt row.job.tenant receipt).jobs.lookup key = some stored →
        before.jobs.lookup key = some stored := by
    intro key stored storedLive storedFound
    by_cases same : key = row.key
    · subst same
      rw [Ledger.lookup_writeReceipt_self found sameJob, Option.some.injEq] at storedFound
      subst storedFound
      rw [show (row.withReceipt receipt).receipt = receipt from rfl, ended] at storedLive
      contradiction
    · rwa [Ledger.lookup_writeReceipt_of_ne sameJob same] at storedFound
  refine { live with
    sound := commit.sound live.sound
    unattempted := ?_
    dispatched := ?_
    tasks := ?_ }
  · intro key stored storedFound queued
    exact live.unattempted key stored (others (by rw [queued]; rfl) storedFound) queued
  · intro key stored storedFound running
    exact live.dispatched key stored (others (by rw [running]; rfl) storedFound) running
  · intro task member
    by_cases same : task.job.key = row.key
    · have old := live.tasks task member
      obtain ⟨stored, storedFound, inTask, readable, started⟩ := old.row
      rw [same, found, Option.some.injEq] at storedFound
      subst storedFound
      have running : stored.state = .running := by
        cases stateEq : stored.state <;> simp_all [JobState.inTask]
      obtain ⟨nextInTask, nextReadable, nextStarted⟩ := carried running
      refine ⟨⟨receipt, ?_, nextInTask, nextReadable, nextStarted⟩, old.attempt, old.endpoint,
        old.cacheKey⟩
      exact Ledger.lookup_writeReceipt_self found sameJob
    · exact live.taskSound_of_lookups member (Ledger.lookup_writeReceipt_of_ne sameJob same) rfl

/-! ## Dispatch -/

/-- A counter that counts the tasks with some property counts a new one. -/
private theorem increment_counts {use : Name → Int} {running : List Task}
    (label : Task → Name) (task : Task)
    (counts : ∀ name, use name = running.countP fun other => decide (label other = name))
    (name : Name) :
    Runtime.increment use (label task) name =
      ((running ++ [task]).countP fun other => decide (label other = name) : Nat) := by
  simp only [Runtime.increment, List.countP_append, List.countP_singleton, decide_eq_true_eq]
  by_cases same : name = label task
  · subst same
    simp [counts]
  · simp [Function.update_of_ne same, counts, Ne.symm same]

/-- The new task enters the running ones. -/
theorem launch (live : Live lifetime before self) {job : Job} {endpoint : Endpoint}
    {receipt : Receipt} (cacheKey : Option CacheKey)
    (dispatches : Dispatches before after job endpoint receipt)
    (sound : after.Sound)
    (tenant : job.tenant = self.config.tenant)
    (running : receipt.state = .running)
    (readable : receipt.Readable)
    (started : receipt.startedNs.isSome = true)
    (known : endpoint ∈ self.config.endpoints)
    (keyed : ∃ contract ∈ self.config.modelContract job.model,
      cacheKey = HistoricalCache.key job contract.fingerprint)
    (poolFree : self.poolUse endpoint.pool < self.config.poolSlots endpoint.pool)
    (endpointFree : self.endpointUse endpoint.id < endpoint.maxInflight) :
    Live lifetime after
      { self with
        poolUse := Runtime.increment self.poolUse endpoint.pool
        endpointUse := Runtime.increment self.endpointUse endpoint.id
        running := self.running ++ [⟨job, endpoint, cacheKey, .created⟩] } := by
  have fresh : ∀ task ∈ self.running, task.job.key ≠ job.key := by
    intro task member same
    have attempt := (live.tasks task member).attempt
    rw [same, dispatches.unattempted] at attempt
    contradiction
  refine
    { sound := sound
      config := live.config
      clock := live.clock
      reads := live.reads
      tenant := dispatches.tenant.trans live.tenant
      unattempted := ?_
      dispatched := ?_
      tasks := ?_
      distinct := ?_
      reserved := ?_
      poolUse := increment_counts (fun task => task.endpoint.pool)
        ⟨job, endpoint, cacheKey, .created⟩ live.poolUse
      endpointUse := increment_counts (fun task => task.endpoint.id)
        ⟨job, endpoint, cacheKey, .created⟩ live.endpointUse
      poolBound := ?_
      endpointBound := ?_
      sessionClock := by rw [dispatches.sessions]; exact live.sessionClock
      called := ?_
      cached := live.cached
      cacheTtl := live.cacheTtl
      uncalled := ?_
      awaited := ?_ }
  · intro key stored found queued
    by_cases same : key = job.key
    · subst same
      rw [dispatches.row, Option.some.injEq] at found
      subst found
      rw [running] at queued
      contradiction
    · rw [dispatches.otherRows key same] at found
      rw [dispatches.otherAttempts key same]
      exact live.unattempted key stored found queued
  · intro key stored found storedRunning
    by_cases same : key = job.key
    · subst same
      rw [dispatches.row, Option.some.injEq] at found
      subst found
      exact ⟨⟨job, endpoint, cacheKey, .created⟩, by simp, rfl⟩
    · rw [dispatches.otherRows key same] at found
      obtain ⟨task, member, sameRow⟩ := live.dispatched key stored found storedRunning
      exact ⟨task, by simp [member], sameRow⟩
  · intro task member
    rcases List.mem_append.mp member with old | new
    · exact live.taskSound_of_lookups old (dispatches.otherRows _ (fresh task old))
        (dispatches.otherAttempts _ (fresh task old))
    · rw [List.mem_singleton] at new
      subst new
      exact ⟨⟨receipt, dispatches.row, by rw [running]; rfl, readable, started⟩,
        dispatches.attempt, known, keyed⟩
  · rw [List.map_append, List.map_singleton]
    refine live.distinct.append (List.nodup_singleton _) ?_
    rw [List.disjoint_singleton]
    intro taken
    obtain ⟨task, member, sameId⟩ := List.mem_map.mp taken
    refine fresh task member ?_
    rw [live.task_key member, ← tenant]
    exact congrArg (Prod.mk job.tenant) sameId
  · intro key attempt found disposition
    by_cases same : key = job.key
    · exact ⟨⟨job, endpoint, cacheKey, .created⟩, by simp, same.symm⟩
    · rw [dispatches.otherAttempts key same] at found
      obtain ⟨task, member, sameKey⟩ := live.reserved key attempt found disposition
      exact ⟨task, by simp [member], sameKey⟩
  · intro pool
    simp only [Runtime.increment]
    by_cases same : pool = endpoint.pool
    · subst same
      rw [Function.update_self]
      omega
    · rw [Function.update_of_ne same]
      exact live.poolBound pool
  · intro other member
    simp only [Runtime.increment]
    by_cases same : other.id = endpoint.id
    · obtain rfl : other = endpoint :=
        List.inj_on_of_nodup_map self.config.endpointsDistinct member known same
      rw [Function.update_self]
      omega
    · rw [Function.update_of_ne same]
      exact live.endpointBound other member
  · intro key called
    by_cases same : key = job.key
    · rw [same, dispatches.attempt]
      rfl
    · rw [dispatches.otherAttempts key same]
      exact live.called key called
  · intro task member created called
    rcases List.mem_append.mp member with old | new
    · exact live.uncalled task old created called
    · rw [List.mem_singleton] at new
      subst new
      have attempted := live.called _ called
      rw [show before.attempts.lookup _ = none from dispatches.unattempted] at attempted
      contradiction
  · intro task member awaiting
    rcases List.mem_append.mp member with old | new
    · exact live.awaited task old awaiting
    · rw [List.mem_singleton.mp new] at awaiting
      contradiction

/-! ## The end of a task -/

/-- Removing the one item with a label takes it off a count. -/
private theorem countP_remove {α β : Type} [DecidableEq β] {items : List α} {item : α}
    {label : α → β} (distinct : (items.map label).Nodup) (member : item ∈ items)
    (counted : α → Bool) :
    (items.filter fun other => decide (label other ≠ label item)).countP counted +
      (if counted item then 1 else 0) = items.countP counted := by
  induction items with
  | nil => simp at member
  | cons first rest ih =>
      rw [List.map_cons, List.nodup_cons] at distinct
      rcases List.mem_cons.mp member with rfl | later
      · have untouched : (rest.filter fun other => decide (label other ≠ label item)) = rest := by
          rw [List.filter_eq_self]
          intro other otherMember
          simp only [decide_eq_true_eq]
          intro same
          exact distinct.1 (List.mem_map.mpr ⟨other, otherMember, same⟩)
        rw [List.filter_cons_of_neg (by simp), untouched, List.countP_cons]
      · have differs : label first ≠ label item := by
          intro same
          exact distinct.1 (List.mem_map.mpr ⟨item, later, same.symm⟩)
        rw [List.filter_cons_of_pos (by simpa using differs), List.countP_cons, List.countP_cons,
          ← ih distinct.2 later]
        omega

private theorem decrement_counts {use : Name → Int} {running : List Task} {task : Task}
    (label : Task → Name) (distinct : (running.map fun task => task.job.id).Nodup)
    (member : task ∈ running)
    (counts : ∀ name, use name = running.countP fun other => decide (label other = name))
    (name : Name) :
    Runtime.decrement use (label task) name =
      ((running.filter fun other => decide (other.job.id ≠ task.job.id)).countP
        fun other => decide (label other = name) : Nat) := by
  have removed := countP_remove distinct member fun other => decide (label other = name)
  simp only [Runtime.decrement]
  by_cases same : name = label task
  · subst same
    rw [Function.update_self, counts]
    simp only [decide_true, if_true] at removed
    omega
  · rw [Function.update_of_ne same, counts]
    simp only [decide_eq_true_eq, if_neg (Ne.symm same)] at removed
    omega

private theorem decrement_le (use : Name → Int) (name other : Name) :
    Runtime.decrement use name other ≤ use other := by
  simp only [Runtime.decrement]
  by_cases same : other = name
  · subst same
    rw [Function.update_self]
    omega
  · rw [Function.update_of_ne same]

theorem endTask (live : Live lifetime before self) {task : Task} (member : task ∈ self.running)
    (ends : Ends before after task.job) (sound : after.Sound)
    (tenant : after.tenant = some self.config.tenant) :
    Live lifetime after (Runtime.releaseSlot task self) := by
  have remains : ∀ other ∈ self.running, other.job.key ≠ task.job.key →
      other ∈ (Runtime.releaseSlot task self).running := by
    intro other otherMember differs
    refine List.mem_filter.mpr ⟨otherMember, ?_⟩
    simp only [decide_eq_true_eq]
    intro sameId
    exact differs (by rw [live.task_key otherMember, live.task_key member, sameId])
  refine
    { sound := sound
      config := live.config
      clock := live.clock
      reads := live.reads
      tenant := tenant
      unattempted := ?_
      dispatched := ?_
      tasks := ?_
      distinct := live.distinct.sublist (List.filter_sublist.map _)
      reserved := ?_
      poolUse := decrement_counts (fun task => task.endpoint.pool) live.distinct member
        live.poolUse
      endpointUse := decrement_counts (fun task => task.endpoint.id) live.distinct member
        live.endpointUse
      poolBound := fun pool => (decrement_le _ _ _).trans (live.poolBound pool)
      endpointBound := fun endpoint known =>
        (decrement_le _ _ _).trans (live.endpointBound endpoint known)
      sessionClock := by rw [ends.sessions]; exact live.sessionClock
      called := ?_
      cached := live.cached
      cacheTtl := live.cacheTtl
      uncalled := fun other otherMember => live.uncalled other (List.mem_filter.mp otherMember).1
      awaited := fun other otherMember => live.awaited other (List.mem_filter.mp otherMember).1 }
  · intro key row found queued
    by_cases same : key = task.job.key
    · subst same
      have ended := ends.row row found
      rw [queued] at ended
      contradiction
    · rw [ends.otherRows key same] at found
      rw [ends.otherAttempts key same]
      exact live.unattempted key row found queued
  · intro key row found running
    by_cases same : key = task.job.key
    · subst same
      have ended := ends.row row found
      rw [running] at ended
      contradiction
    · rw [ends.otherRows key same] at found
      obtain ⟨other, otherMember, sameRow⟩ := live.dispatched key row found running
      refine ⟨other, remains other otherMember ?_, sameRow⟩
      rw [sameRow]
      exact fun sameKey => same ((Table.key_of_lookup found).symm.trans sameKey)
  · intro other otherMember
    obtain ⟨stays, differs⟩ := List.mem_filter.mp otherMember
    simp only [decide_eq_true_eq] at differs
    have differentKey : other.job.key ≠ task.job.key := fun sameKey =>
      differs (congrArg Prod.snd sameKey)
    exact live.taskSound_of_lookups stays (ends.otherRows _ differentKey)
      (ends.otherAttempts _ differentKey)
  · intro key attempt found disposition
    by_cases same : key = task.job.key
    · subst same
      obtain ⟨settled, settledFound, free⟩ := ends.attempt
      rw [settledFound, Option.some.injEq] at found
      rw [found] at free
      contradiction
    · rw [ends.otherAttempts key same] at found
      obtain ⟨other, otherMember, sameKey⟩ := live.reserved key attempt found disposition
      refine ⟨other, remains other otherMember ?_, sameKey⟩
      rw [sameKey]
      exact same
  · intro key called
    by_cases same : key = task.job.key
    · obtain ⟨settled, settledFound, -⟩ := ends.attempt
      rw [same, settledFound]
      rfl
    · rw [ends.otherAttempts key same]
      exact live.called key called

/-- The backend call of a task. -/
theorem await (live : Live lifetime before self) {task : Task} (member : task ∈ self.running) :
    Live (lifetime.call task.job) before
      { self with
        running := self.running.map fun other =>
          if other.job.id = task.job.id then { other with phase := .awaiting } else other } := by
  have jobOf : ∀ other : Task, (if other.job.id = task.job.id then
      { other with phase := Phase.awaiting } else other).job = other.job := by
    intro other
    split <;> rfl
  have endpointOf : ∀ other : Task, (if other.job.id = task.job.id then
      { other with phase := Phase.awaiting } else other).endpoint = other.endpoint := by
    intro other
    split <;> rfl
  have cacheKeyOf : ∀ other : Task, (if other.job.id = task.job.id then
      { other with phase := Phase.awaiting } else other).cacheKey = other.cacheKey := by
    intro other
    split <;> rfl
  refine
    { live with
      dispatched := ?_
      tasks := ?_
      distinct := ?_
      reserved := ?_
      poolUse := ?_
      endpointUse := ?_
      called := ?_
      uncalled := ?_
      awaited := ?_ }
  · intro key row found running
    obtain ⟨other, otherMember, sameRow⟩ := live.dispatched key row found running
    exact ⟨_, List.mem_map_of_mem otherMember, (jobOf other).trans sameRow⟩
  · intro other otherMember
    obtain ⟨old, oldMember, rfl⟩ := List.mem_map.mp otherMember
    obtain ⟨row, attempt, endpoint, cacheKey⟩ := live.tasks old oldMember
    exact ⟨by rwa [jobOf], by rwa [jobOf, endpointOf], by rwa [endpointOf],
      by rwa [jobOf, cacheKeyOf]⟩
  · rw [List.map_map]
    refine (congrArg List.Nodup (List.map_congr_left ?_)).mpr live.distinct
    intro other _
    exact congrArg (fun job => job.id) (jobOf other)
  · intro key attempt found disposition
    obtain ⟨other, otherMember, sameKey⟩ := live.reserved key attempt found disposition
    exact ⟨_, List.mem_map_of_mem otherMember, by rw [jobOf]; exact sameKey⟩
  · intro pool
    rw [List.countP_map]
    refine (live.poolUse pool).trans (congrArg Nat.cast (List.countP_congr ?_))
    intro other _
    simp [endpointOf]
  · intro endpoint
    rw [List.countP_map]
    refine (live.endpointUse endpoint).trans (congrArg Nat.cast (List.countP_congr ?_))
    intro other _
    simp [endpointOf]
  · intro key called
    rcases List.mem_append.mp called with earlier | now
    · exact live.called key earlier
    · rw [List.mem_singleton.mp now, (live.tasks task member).attempt]
      rfl
  · intro other otherMember created called
    obtain ⟨old, oldMember, rfl⟩ := List.mem_map.mp otherMember
    rw [jobOf] at called
    by_cases same : old.job.id = task.job.id
    · rw [if_pos same] at created
      contradiction
    · rw [if_neg same] at created
      rcases List.mem_append.mp called with earlier | now
      · exact live.uncalled old oldMember created earlier
      · exact same (congrArg Prod.snd (List.mem_singleton.mp now))
  · intro other otherMember awaiting
    obtain ⟨old, oldMember, rfl⟩ := List.mem_map.mp otherMember
    rw [jobOf]
    by_cases same : old.job.id = task.job.id
    · have sameKey : old.job.key = task.job.key := by
        rw [live.task_key oldMember, live.task_key member, same]
      exact List.mem_append_right _ (List.mem_singleton.mpr sameKey)
    · rw [if_neg same] at awaiting
      exact List.mem_append_left _ (live.awaited old oldMember awaiting)

/-- A longer list of entries bounds the cache too. -/
theorem store (live : Live lifetime before self) (computed : List CacheEntry) :
    Live (lifetime.store computed) before self :=
  { live with cached := fun entry member => List.mem_append_left _ (live.cached entry member) }

/-- Charges that the operator reconciles touch no attempt in flight. -/
theorem reconcile (live : Live lifetime before self) {tenant : Name} {nowNs : Ns}
    {charges : List Charge} (applied : Store.applyCharges tenant nowNs charges before = .ok after)
    (outside : ∀ task ∈ self.running, ∀ charge ∈ charges,
      charge.job ≠ PyStr.ofString task.job.id.text) :
    Live lifetime after self := by
  refine Store.applyCharges_preserves (fun ledger => Live lifetime ledger self) ?_ applied live
  intro ledger attempt actual kind found unsettled ⟨charge, charged, sameJob⟩ live
  refine { live with
    sound := ?_
    unattempted := ?_
    tasks := ?_
    reserved := ?_
    called := ?_ }
  · have settled : Commit (.task true true) ledger _ := .settle (some actual) found unsettled
    exact (settled.sound live.sound).note nowNs kind
  · intro key row rowFound queued
    exact Ledger.lookup_settleAttempt_none _ (live.unattempted key row rowFound queued)
  · intro task member
    refine live.taskSound_of_lookups member rfl (Ledger.lookup_settleAttempt_of_ne _ ?_)
    intro sameKey
    refine outside task member charge charged (sameJob.trans ?_)
    rw [show attempt.job = task.job.id from (congrArg Prod.snd sameKey).symm]
  · intro key other otherFound disposition
    by_cases same : key = attempt.key
    · subst same
      have settled := (Ledger.lookup_settleAttempt_self (some actual) found).symm.trans otherFound
      rw [Option.some.injEq] at settled
      rw [← settled] at disposition
      simp [Attempt.settle] at disposition
    · refine live.reserved key other ?_ disposition
      exact (Ledger.lookup_settleAttempt_of_ne (some actual) same).symm.trans otherFound
  · intro key called
    by_cases same : key = attempt.key
    · rw [same]
      exact Option.isSome_iff_exists.mpr ⟨_, Ledger.lookup_settleAttempt_self (some actual) found⟩
    · exact (congrArg Option.isSome (Ledger.lookup_settleAttempt_of_ne (some actual) same)).trans
        (live.called key called)

end Live

end AgminaRuntime
