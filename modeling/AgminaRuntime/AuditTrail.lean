import AgminaRuntime.ConsumptionFence
import AgminaRuntime.LedgerStatements

/-!
# The audit trail

What `export_events` shows of a journal only ever grows at its end.  The
reservations in it are the attempts of the ledger, one for one and in order: an
attempt and its event are one transaction.  An admission and a consumption are
noted after they are stored, so a crash can lose the note, but a note is never
made twice and never of something that is not in the ledger.
-/

namespace AgminaRuntime

open Durable Durable.Program Keyed

/-- `Store.export_events`: the events with their sequence numbers. -/
def Store.exportEvents (ledger : Ledger) : List (EventRow × Nat) := ledger.events.zipIdx 1

/-- The reservation that an event tells of. -/
def Event.booking : Event → Option (Name × Name × Ns)
  | .attemptReserved jobId endpoint quoteMicrousd => some (jobId, endpoint, quoteMicrousd)
  | _ => none

def Attempt.booking (attempt : Attempt) : Name × Name × Ns :=
  (attempt.job, attempt.endpoint, attempt.quote)

/-- The reservations in a list of events. -/
def bookings (events : List EventRow) : List (Name × Name × Ns) :=
  events.filterMap fun row => row.event.booking

/-- The job whose admission the event tells of. -/
def Event.admits : Event → Option Name
  | .submitted jobId .. => some jobId
  | _ => none

/-- The job whose consumption the event tells of. -/
def Event.claims : Event → Option Name
  | .consumed jobId .. => some jobId
  | _ => none

/-- The event tells of no admission and of no consumption. -/
def Event.Silent (kind : Event) : Prop := kind.admits = none ∧ kind.claims = none

/-- The ledger bears out what the event tells of. -/
def Event.Backed (ledger : Ledger) : Event → Prop
  | .submitted jobId sessionId model workload _ evidenceCount request _ =>
      ∃ tenant row, ledger.tenant = some tenant ∧
        ledger.jobs.lookup (tenant, jobId) = some row ∧ row.job.sessionId = sessionId ∧
          row.job.model = model ∧ row.job.workload = workload ∧
            row.job.observations.length = evidenceCount ∧ row.job.fingerprint = request
  | .consumed jobId consumer _ =>
      ∃ tenant row, ledger.tenant = some tenant ∧
        ledger.jobs.lookup (tenant, jobId) = some row ∧ row.receipt.state = .consumed ∧
          row.receipt.consumedBy = some consumer
  | _ => True

theorem Event.backed_of_silent {ledger : Ledger} {kind : Event} (silent : kind.Silent) :
    kind.Backed ledger := by
  cases kind with
  | submitted => exact absurd silent.1 (by simp [admits])
  | consumed => exact absurd silent.2 (by simp [claims])
  | _ => trivial

/-! ## What a statement logs -/

/-- The journal grows by some events, the attempts by the reservations among
them, and no job disappears. -/
structure Ledger.Logs (before after : Ledger) (added : List EventRow) : Prop where
  events : after.events = before.events ++ added
  attempts : after.attempts.rows.map Attempt.booking =
    before.attempts.rows.map Attempt.booking ++ bookings added
  tenant : ∀ tenant, before.tenant = some tenant → after.tenant = some tenant
  jobs : ∀ key row, before.jobs.lookup key = some row →
    ∃ next, after.jobs.lookup key = some next ∧ next.job = row.job

/-- The journal grows by silent events. -/
def Ledger.Quietly (before after : Ledger) : Prop :=
  ∃ added, before.Logs after added ∧ ∀ row ∈ added, row.event.Silent

section Statements

variable {ledger before after : Ledger}

theorem Ledger.Quietly.same (events : after.events = before.events)
    (attempts : after.attempts.rows.map Attempt.booking =
      before.attempts.rows.map Attempt.booking)
    (tenant : ∀ tenant, before.tenant = some tenant → after.tenant = some tenant)
    (jobs : ∀ key row, before.jobs.lookup key = some row →
      ∃ next, after.jobs.lookup key = some next ∧ next.job = row.job) : before.Quietly after :=
  ⟨[], ⟨by simp [events], by simp [attempts, bookings], tenant, jobs⟩, by simp⟩

theorem Ledger.quietly_refl (ledger : Ledger) : ledger.Quietly ledger :=
  .same rfl rfl (fun _ bound => bound) fun _ row found => ⟨row, found, rfl⟩

theorem Ledger.Quietly.trans {middle : Ledger} (early : before.Quietly middle)
    (late : middle.Quietly after) : before.Quietly after := by
  obtain ⟨first, logged, silent⟩ := early
  obtain ⟨second, followed, still⟩ := late
  refine ⟨first ++ second, ⟨?_, ?_, ?_, ?_⟩, ?_⟩
  · rw [followed.events, logged.events, List.append_assoc]
  · rw [followed.attempts, logged.attempts, List.append_assoc]
    simp [bookings]
  · exact fun tenant bound => followed.tenant tenant (logged.tenant tenant bound)
  · intro key row found
    obtain ⟨next, nextFound, same⟩ := logged.jobs key row found
    obtain ⟨last, lastFound, again⟩ := followed.jobs key next nextFound
    exact ⟨last, lastFound, again.trans same⟩
  · intro row member
    rcases List.mem_append.mp member with member | member
    · exact silent row member
    · exact still row member

/-- A note that is not of a reservation. -/
theorem Ledger.logs_note (ledger : Ledger) (atNs : Ns) {kind : Event}
    (unbooked : kind.booking = none) : ledger.Logs (ledger.note atNs kind) [⟨atNs, kind⟩] where
  events := rfl
  attempts := by simp [bookings, unbooked, note]
  tenant := fun _ bound => bound
  jobs := fun _ row found => ⟨row, found, rfl⟩

theorem Ledger.quietly_note (ledger : Ledger) (atNs : Ns) {kind : Event}
    (unbooked : kind.booking = none) (silent : kind.Silent) :
    ledger.Quietly (ledger.note atNs kind) :=
  ⟨_, ledger.logs_note atNs unbooked, by simp [silent]⟩

theorem Ledger.quietly_writeReceipt (ledger : Ledger) (tenant : Name) (receipt : Receipt) :
    ledger.Quietly (ledger.writeReceipt tenant receipt) := by
  refine Quietly.same rfl rfl (fun _ bound => bound) ?_
  · intro key row found
    rw [lookup_writeReceipt]
    split
    · rename_i same
      rw [← same, found]
      exact ⟨_, rfl, rfl⟩
    · exact ⟨row, found, rfl⟩

theorem Ledger.quietly_settleAttempt (ledger : Ledger) (key : Name × Name) (actual : Option Ns) :
    ledger.Quietly (ledger.settleAttempt key actual) :=
  .same rfl (Table.map_update (Attempt.key_settle actual) Attempt.booking fun _ => rfl)
    (fun _ bound => bound) fun _ row found => ⟨row, found, rfl⟩

theorem Ledger.quietly_addJob {job : Job} {receipt : Receipt}
    (added : ledger.addJob job receipt = .ok after) : ledger.Quietly after := by
  have stored : ∀ key, after.jobs.lookup key =
      if job.key = key then some ⟨job, receipt⟩ else ledger.jobs.lookup key :=
    fun _ => ledger.lookup_addJob added
  obtain ⟨observations, jobs, inserted, rfl⟩ := ledger.addJob_ok added
  refine Quietly.same rfl rfl (fun _ bound => bound) ?_
  · intro key row found
    refine ⟨row, ?_, rfl⟩
    rw [stored]
    split
    · rename_i same
      obtain ⟨absent, -⟩ := Table.insert?_eq_some_iff.mp inserted
      rw [← same, show ledger.jobs.lookup job.key = none from absent] at found
      contradiction
    · exact found

theorem Ledger.quietly_reserve {job : Job} {endpoint : Endpoint} {nowNs : Ns}
    (reserved : ledger.reserve job endpoint nowNs = .ok after) : ledger.Quietly after := by
  obtain ⟨-, -, attempts, inserted, rfl⟩ := ledger.reserve_ok reserved
  obtain ⟨-, rows⟩ := Table.insert?_eq_some_iff.mp inserted
  refine ⟨_, ⟨rfl, ?_, fun _ bound => bound, fun _ row found => ⟨row, found, rfl⟩⟩, ?_⟩
  · show attempts.rows.map Attempt.booking = _
    rw [rows, List.map_append]
    rfl
  · simp [Event.Silent, Event.admits, Event.claims]

theorem Ledger.quietly_applyCharges {tenant : Name} {nowNs : Ns} {charges : List Charge}
    (applied : Store.applyCharges tenant nowNs charges before = .ok after) :
    before.Quietly after := by
  induction charges generalizing before with
  | nil =>
      obtain rfl := Except.ok.inj applied
      exact before.quietly_refl
  | cons charge rest ih =>
      unfold Store.applyCharges at applied
      split at applied
      · split at applied
        · contradiction
        · contradiction
        · split at applied
          · contradiction
          · apply Quietly.trans _ (ih applied)
            apply Quietly.trans (before.quietly_settleAttempt _ _)
            exact quietly_note _ nowNs rfl ⟨rfl, rfl⟩
      · contradiction

/-- Every statement logs at most silent events. -/
theorem quietly_statements : Statements Ledger.Quietly where
  remark := by
    intro kind remark ledger atNs
    apply ledger.quietly_note atNs
    · cases kind <;> first | rfl | simp [Event.isRemark] at remark
    · cases kind <;> first | exact ⟨rfl, rfl⟩ | simp [Event.isRemark] at remark
  putSession := fun _ _ => .same rfl rfl (fun _ bound => bound) fun _ row found => ⟨row, found, rfl⟩
  writeReceipt := Ledger.quietly_writeReceipt
  addJob := Ledger.quietly_addJob
  reserve := Ledger.quietly_reserve
  settleAttempt := Ledger.quietly_settleAttempt
  abandonAttempt := fun _ _ => .same rfl
    (Table.map_update Attempt.key_abandon Attempt.booking fun _ => rfl) (fun _ bound => bound)
    fun _ row found => ⟨row, found, rfl⟩
  quarantinePool := fun _ _ _ => .same rfl rfl (fun _ bound => bound)
    fun _ row found => ⟨row, found, rfl⟩
  releaseQuarantine := fun _ _ => .same rfl rfl (fun _ bound => bound)
    fun _ row found => ⟨row, found, rfl⟩
  bindTenant := by
    intro ledger tenant
    refine .same rfl rfl ?_ fun _ row found => ⟨row, found, rfl⟩
    intro other bound
    rw [Ledger.bindTenant, bound]
    rfl
  applyCharges := Ledger.quietly_applyCharges
  extendCaps := fun _ _ _ => .same rfl rfl (fun _ bound => bound)
    fun _ row found => ⟨row, found, rfl⟩

end Statements

/-! ## A journal to trust -/

/-- The events are borne out, and no admission and no consumption is told of
twice. -/
structure Ledger.Truthful (ledger : Ledger) : Prop where
  backed : ∀ row ∈ ledger.events, row.event.Backed ledger
  admittedOnce : (ledger.events.filterMap fun row => row.event.admits).Nodup
  claimedOnce : (ledger.events.filterMap fun row => row.event.claims).Nodup

/-- The event is borne out and tells of something new. -/
structure Event.News (ledger : Ledger) (kind : Event) : Prop where
  backed : kind.Backed ledger
  unbooked : kind.booking = none
  admits : ∀ job, kind.admits = some job → ∀ row ∈ ledger.events, row.event.admits ≠ some job
  claims : ∀ job, kind.claims = some job → ∀ row ∈ ledger.events, row.event.claims ≠ some job

/-- The journal grows by silent events or by news. -/
def Ledger.Tells (before after : Ledger) : Prop :=
  before.Quietly after ∨ ∃ atNs kind, kind.News before ∧ after = before.note atNs kind

section Trust

variable {who : Author} {before after : Ledger}

/-- What a ledger bears out, it bears out for good. -/
theorem Commit.backed (commit : Commit who before after) {kind : Event}
    (backed : kind.Backed before) : kind.Backed after := by
  cases kind with
  | submitted jobId sessionId model workload state evidenceCount request reason =>
      obtain ⟨tenant, row, bound, found, same⟩ := backed
      obtain ⟨next, nextFound, move, -⟩ := commit.row_kept found
      refine ⟨tenant, next, commit.tenant_kept bound, nextFound, ?_⟩
      rw [move.job_eq]
      exact same
  | consumed jobId consumer age =>
      obtain ⟨tenant, row, bound, found, consumed, claimed⟩ := backed
      have records : before.Records (jobId, consumer, row.receipt) :=
        ⟨tenant, row, bound, found, rfl, consumed, claimed⟩
      obtain ⟨tenant, row, bound, found, -, consumed, claimed⟩ := commit.records_kept records
      exact ⟨tenant, row, bound, found, consumed, claimed⟩
  | _ => trivial

theorem filterMap_silent {events : List EventRow} (silent : ∀ row ∈ events, row.event.Silent) :
    events.filterMap (fun row => row.event.admits) = [] ∧
      events.filterMap (fun row => row.event.claims) = [] := by
  simp only [List.filterMap_eq_nil_iff]
  exact ⟨fun row member => (silent row member).1, fun row member => (silent row member).2⟩

theorem nodup_news {events : List EventRow} {atNs : Ns} {kind : Event}
    (tells : Event → Option Name)
    (once : (events.filterMap fun row => tells row.event).Nodup)
    (new : ∀ job, tells kind = some job → ∀ row ∈ events, tells row.event ≠ some job) :
    (List.filterMap (fun row : EventRow => tells row.event) (events ++ [⟨atNs, kind⟩])).Nodup := by
  rw [List.filterMap_append]
  cases told : tells kind with
  | none => simpa [told] using once
  | some job =>
      simp only [List.filterMap_cons, List.filterMap_nil, told]
      apply List.Nodup.append once (List.nodup_singleton job)
      rw [List.disjoint_singleton, List.mem_filterMap]
      rintro ⟨row, member, same⟩
      exact new job told row member same

/-- A commit that records only news leaves a journal to trust. -/
theorem Ledger.Truthful.commit (truthful : before.Truthful) (commit : Commit who before after)
    (tells : before.Tells after) : after.Truthful := by
  have kept : ∀ row ∈ before.events, row.event.Backed after :=
    fun row member => commit.backed (truthful.backed row member)
  rcases tells with ⟨added, logs, silent⟩ | ⟨atNs, kind, news, rfl⟩
  · obtain ⟨unadmitted, unclaimed⟩ := filterMap_silent silent
    refine ⟨?_, ?_, ?_⟩
    · intro row member
      rw [logs.events] at member
      rcases List.mem_append.mp member with member | member
      · exact kept row member
      · exact Event.backed_of_silent (silent row member)
    · rw [logs.events, List.filterMap_append, unadmitted, List.append_nil]
      exact truthful.admittedOnce
    · rw [logs.events, List.filterMap_append, unclaimed, List.append_nil]
      exact truthful.claimedOnce
  · refine ⟨?_, nodup_news _ truthful.admittedOnce news.admits,
      nodup_news _ truthful.claimedOnce news.claims⟩
    intro row member
    rcases List.mem_append.mp member with member | member
    · exact kept row member
    · obtain rfl := List.mem_singleton.mp member
      exact commit.backed news.backed

end Trust

/-! ## The two programs with news -/

section Programs

variable {lifetime : Lifetime} {ledger : Ledger} {self : Coordinator}

/-- The job is stored and its admission has not been told of. -/
structure Ledger.Untold (ledger : Ledger) (job : Job) : Prop where
  bound : ledger.tenant = some job.tenant
  stored : ∃ row, ledger.jobs.lookup job.key = some row ∧ row.job = job
  untold : ∀ row ∈ ledger.events, row.event.admits ≠ some job.id

theorem Ledger.Untold.quietly {before after : Ledger} {job : Job} (untold : before.Untold job)
    (quietly : before.Quietly after) : after.Untold job := by
  obtain ⟨added, logs, silent⟩ := quietly
  refine ⟨logs.tenant _ untold.bound, ?_, ?_⟩
  · obtain ⟨row, found, same⟩ := untold.stored
    obtain ⟨next, nextFound, again⟩ := logs.jobs _ row found
    exact ⟨next, nextFound, again.trans same⟩
  · intro row member
    rw [logs.events] at member
    rcases List.mem_append.mp member with member | member
    · exact untold.untold row member
    · rw [(silent row member).1]
      simp

theorem wp_enqueue_tells (truthful : ledger.Truthful) {job : Job}
    (bound : ledger.tenant = some job.tenant) (absent : ledger.jobs.lookup job.key = none)
    (now : Ns) (reason : Option PyStr) (superseded : List (Job × Receipt)) :
    wp (Runtime.enqueue job now reason superseded) Ledger.Tells (fun _ _ _ => True)
      (fun _ _ _ => True) ledger self := by
  simp only [Runtime.enqueue, wp_bind, Store.addJob, wp_transaction]
  split
  · rename_i after added
    have quietly := Ledger.quietly_addJob added
    refine ⟨.inl quietly, ?_⟩
    have untold : after.Untold job := by
      refine ⟨?_, ⟨_, by rw [ledger.lookup_addJob added, if_pos rfl], rfl⟩, ?_⟩
      · obtain ⟨_, logs, -⟩ := quietly
        exact logs.tenant _ bound
      · have events : after.events = ledger.events := by
          obtain ⟨_, _, _, rfl⟩ := ledger.addJob_ok added
          rfl
        rw [events]
        intro row member told
        have backed := truthful.backed row member
        cases kind : row.event with
        | submitted jobId sessionId model workload state evidenceCount request reason =>
            rw [kind] at told backed
            obtain ⟨tenant, old, oldBound, found, -⟩ := backed
            obtain rfl : jobId = job.id := Option.some.inj told
            obtain rfl : job.tenant = tenant := Option.some.inj (bound.symm.trans oldBound)
            rw [show ledger.jobs.lookup (job.tenant, job.id) = none from absent] at found
            contradiction
        | _ => simp [kind, Event.admits] at told
    have ends : ∀ (later : Ledger) (memory : Coordinator) state, later.Untold job →
        wp (Store.event now (.submitted job.id job.sessionId job.model job.workload state
          job.observations.length job.fingerprint reason)) Ledger.Tells (fun _ _ _ => True)
          (fun _ _ _ => True) later memory := by
      intro later memory state untold
      obtain ⟨row, found, same⟩ := untold.stored
      apply (wp_event _ _).mpr
      refine ⟨.inr ⟨now, _, ⟨?_, rfl, ?_, by simp [Event.claims]⟩, rfl⟩, trivial⟩
      · exact ⟨job.tenant, row, untold.bound, found, by rw [same]; simp⟩
      · rintro _ ⟨rfl⟩
        exact untold.untold
    split
    · rw [wp_bind]
      have moves : Emits Ledger.Quietly (forEach superseded fun entry =>
          Runtime.moveTo entry.1 entry.2 .superseded "explicit_latest_only_replacement") :=
        Runtime.moveAll_emits quietly_statements _ _ _
      have kept := wp_preserves (fun ledger => ledger.Untold job)
        (fun _ _ quietly untold => untold.quietly quietly) untold (moves after self)
      refine wp_mono kept (fun _ _ quietly => .inl quietly) ?_ (fun _ _ _ _ => trivial)
      rintro _ later memory ⟨-, untold⟩
      rw [wp_bind]
      exact wp_post (ends later memory _ untold) (fun _ _ _ _ => (wp_pure _).mpr trivial)
        (fun _ _ _ _ => trivial)
    · rw [wp_bind]
      exact wp_post (ends after self _ untold) (fun _ _ _ _ => (wp_pure _).mpr trivial)
        (fun _ _ _ _ => trivial)
  · trivial

theorem wp_submit_tells (running : Running lifetime ledger self) (truthful : ledger.Truthful)
    (fields : JobFields) :
    wp (Runtime.submit fields) Ledger.Tells (fun _ _ _ => True) (fun _ _ _ => True)
      ledger self := by
  simp only [Runtime.submit, wp_bind, wp_readVolatile]
  split
  · exact (wp_raise _).mpr trivial
  rename_i job validated
  rw [wp_ite]
  split
  · exact (wp_raise _).mpr trivial
  rename_i accepted
  have bound : ledger.tenant = some job.tenant := by
    rw [not_or, not_not] at accepted
    rw [running.tenant, accepted.2]
  simp only [wp_bind, wp_readDurable]
  split
  · rename_i absent
    have enqueues : ∀ now reason superseded memory,
        wp (Runtime.enqueue job now reason superseded) Ledger.Tells (fun _ _ _ => True)
          (fun _ _ _ => True) ledger memory :=
      fun now reason superseded _ => wp_enqueue_tells truthful bound absent now reason superseded
    simp only [Runtime.submitNew, wp_bind, wp_readVolatile]
    rw [wp_ite]
    split
    · exact (wp_raise _).mpr trivial
    rw [wp_bind, wp_jobs_iff]
    split
    · rw [wp_ite]
      split
      · exact (wp_raise _).mpr trivial
      simp only [wp_bind, wp_session_iff]
      split
      · trivial
      simp only [wp_bind, wp_nowNs]
      apply wp_checkDependencies
      swap
      · exact fun _ _ _ _ => trivial
      intro _
      simp only [Runtime.scanQueue, wp_bind, wp_ite]
      split
      · simp only [wp_bind, wp_jobs_iff, wp_pure]
        split
        · split
          · exact enqueues _ _ _ _
          · trivial
        · trivial
      · simp only [wp_pure, wp_bind, wp_jobs_iff]
        split
        · exact enqueues _ _ _ _
        · trivial
    · trivial
  · simp only [wp_bind, wp_ofExcept]
    split
    · rw [wp_ite]
      split
      · exact (wp_raise _).mpr trivial
      · exact (wp_pure _).mpr trivial
    · trivial

theorem wp_consume_tells (running : Running lifetime ledger self) (truthful : ledger.Truthful)
    (jobId : Name) (consumerId : String) :
    wp (Runtime.consume jobId consumerId) Ledger.Tells (fun _ _ _ => True)
      (fun _ _ _ => True) ledger self := by
  simp only [Runtime.consume, wp_bind, wp_readVolatile]
  apply wp_job_intro trivial trivial
  intro row receipt found parsed
  have rowKey : row.key = (self.config.tenant, jobId) := Table.key_of_lookup found
  have rowSound := running.sound.rows _ _ found
  obtain ⟨_, _, -, -, -, same⟩ := Receipt.reparse_eq_some_iff.mp parsed
  simp only [wp_bind, wp_session_iff]
  split
  · trivial
  simp only [wp_nowNs]
  split
  · exact (wp_raise _).mpr trivial
  rw [wp_ite]
  split
  · exact (wp_raise _).mpr trivial
  rename_i answered
  split
  · rw [wp_ite]
    split
    · exact (wp_raise _).mpr trivial
    · exact (wp_pure _).mpr trivial
  rename_i unclaimed
  simp only [wp_bind, wp_nowNs]
  split
  · exact (wp_raise _).mpr trivial
  rename_i consumer _
  let done : Receipt :=
    { receipt with
      state := .consumed
      consumedBy := some consumer
      consumedNs := some (self.clock.nowNs (self.reads + 1)) }
  let written := ledger.writeReceipt row.job.tenant done
  have stored : written.jobs.lookup row.key = some (row.withReceipt done) := by
    apply Ledger.lookup_writeReceipt_self
    · rw [rowKey]
      exact found
    · show receipt.jobId = row.job.id
      rw [same]
      exact rowSound.sameJob
  -- the row is not yet consumed, so no event can tell of its consumption
  have untold : ∀ entry ∈ ledger.events, entry.event.claims ≠ some row.job.id := by
    intro entry member told
    have backed := truthful.backed entry member
    cases kind : entry.event with
    | consumed other claimant age =>
        rw [kind] at told backed
        obtain ⟨tenant, old, bound, oldFound, consumed, claimed⟩ := backed
        obtain rfl : other = row.job.id := Option.some.inj told
        obtain rfl : row.job.tenant = tenant := Option.some.inj (rowSound.tenant.symm.trans bound)
        rw [show ledger.jobs.lookup (row.job.tenant, row.job.id) = some row by
          rw [show (row.job.tenant, row.job.id) = row.key from rfl, rowKey]
          exact found] at oldFound
        obtain rfl := Option.some.inj oldFound
        rw [same] at unclaimed
        rw [show row.receipt.consumedBy = none from unclaimed] at claimed
        contradiction
    | _ => simp [kind, Event.claims] at told
  simp only [wp_receipt, wp_bind, wp_nowNs]
  refine ⟨.inl (ledger.quietly_writeReceipt _ _), ?_⟩
  apply wp_post (wp_collect (fun _ _ after _ => after = written) _ rfl)
  · rintro ages after memory rfl
    simp only [wp_bind, wp_event, wp_pure]
    refine ⟨.inr ⟨_, _, ⟨?_, rfl, by simp [Event.admits], ?_⟩, rfl⟩, trivial⟩
    · exact ⟨row.job.tenant, _, rowSound.tenant, stored, rfl, rfl⟩
    · rintro _ ⟨rfl⟩
      exact untold
  · exact fun _ _ _ failed => failed
  · rintro observation rest values after memory rfl
    simp only [wp_bind, wp_nowNs, wp_pure]

end Programs

/-! ## Whole runs -/

namespace Campaign

variable {campaign : Campaign}

/-- Whatever a step logs is silent or news. -/
theorem Sound.tells (sound : campaign.Sound) (truthful : campaign.ledger.Truthful)
    (label : CampaignStep) :
    List.IsChain Ledger.Tells (campaign.ledger :: (campaign.step label).2) := by
  have plain : (∀ action ∈ label.action?, ∀ kind, ¬ action.Records kind) →
      List.IsChain Ledger.Tells (campaign.ledger :: (campaign.step label).2) := by
    intro never
    have chain := campaign.step_emits quietly_statements label
      fun action member kind records => absurd records (never action member kind)
    exact chain.imp fun _ _ quietly => .inl quietly
  have newly : ∀ (action : Action) self, campaign.live = some self → (∃ kind, action.Records kind) →
      wp action.program Ledger.Tells (fun _ _ _ => True) (fun _ _ _ => True)
        campaign.ledger self := by
    rintro action self live ⟨kind, records⟩
    have running := sound.live self live
    cases action with
    | submit fields =>
        simp only [Action.program, Action.quietly, wp_bind]
        exact wp_post (wp_submit_tells running truthful fields)
          (fun _ _ _ _ => (wp_pure _).mpr trivial) (fun _ _ _ _ => trivial)
    | consume jobId consumerId =>
        simp only [Action.program, wp_bind]
        apply wp_post (wp_consume_tells running truthful jobId consumerId)
        · intro receipt after memory _
          split <;> exact (wp_pure _).mpr trivial
        · exact fun _ _ _ _ => trivial
    | _ => contradiction
  cases label with
  | act action =>
      by_cases records : ∃ kind, action.Records kind
      · simp only [Campaign.step]
        split
        · exact .singleton _
        · rename_i self live
          exact (newly action self live records).1
      · apply plain
        rintro _ ⟨rfl⟩ kind told
        exact records ⟨kind, told⟩
  | crash action count =>
      by_cases records : ∃ kind, action.Records kind
      · simp only [Campaign.step]
        split
        · exact .singleton _
        · rename_i self live
          exact isChain_take (newly action self live records).1 count
      · apply plain
        rintro _ ⟨rfl⟩ kind told
        exact records ⟨kind, told⟩
  | _ => exact plain (by simp [CampaignStep.action?])

/-- Every commit of a run logs what it should, on a journal to trust. -/
theorem history_tells (caps : BudgetCaps) (steps : List CampaignStep) :
    List.IsChain (fun before after => (∃ who, Commit who before after) ∧ before.Tells after)
      (history caps steps) := by
  refine runSteps_chain (fun campaign => Sound campaign ∧ campaign.ledger.Truthful)
    Campaign.ledger ?_ step_ledger ?_ (stepsMeet_true (fresh caps) steps) ?_
  rotate_left 2
  · exact ⟨sound_fresh caps, by simp [fresh, Ledger.create], by simp [fresh, Ledger.create],
      by simp [fresh, Ledger.create]⟩
  · rintro campaign label - ⟨sound, truthful⟩
    refine ⟨sound.step label, ?_⟩
    have chain := isChain_and (sound.chain label) (sound.tells truthful label)
    rw [step_ledger]
    exact isChain_preserves Ledger.Truthful (fun _ _ both kept => kept.commit both.1 both.2) chain
      truthful _ (last_mem _ _)
  · rintro campaign label - ⟨sound, truthful⟩
    have chain := isChain_and (sound.chain label) (sound.tells truthful label)
    exact chain.imp fun _ _ both => ⟨⟨_, both.1⟩, both.2⟩

end Campaign

/-- Whatever is recorded, the journal grows at its end, and by the reservations
of the attempts. -/
theorem Ledger.Tells.logs {before after : Ledger} (tells : before.Tells after) :
    ∃ added, before.Logs after added := by
  rcases tells with ⟨added, logs, -⟩ | ⟨atNs, kind, news, rfl⟩
  · exact ⟨added, logs⟩
  · exact ⟨_, before.logs_note atNs news.unbooked⟩

theorem Store.exportEvents_prefix {before after : Ledger} {added : List EventRow}
    (events : after.events = before.events ++ added) :
    exportEvents before <+: exportEvents after := by
  rw [exportEvents, exportEvents, events, List.zipIdx_append]
  exact List.prefix_append _ _

/-- The journal of every run, crashes included, is an audit trail: exports only
grow at the end, the reservations told of are the attempts, and every admission
and consumption told of is true and told of once. -/
theorem audit_trail (caps : BudgetCaps) (steps : List CampaignStep) :
    (∀ ledger ∈ Campaign.history caps steps,
      bookings ledger.events = ledger.attempts.rows.map Attempt.booking ∧ ledger.Truthful) ∧
    (Campaign.history caps steps).Pairwise fun earlier later =>
      Store.exportEvents earlier <+: Store.exportEvents later := by
  have chain := Campaign.history_tells caps steps
  constructor
  · refine isChain_preserves (fun ledger => bookings ledger.events =
      ledger.attempts.rows.map Attempt.booking ∧ ledger.Truthful) ?_ chain ?_
    rotate_left
    · exact ⟨rfl, by simp [Ledger.create], by simp [Ledger.create], by simp [Ledger.create]⟩
    · rintro before after ⟨⟨who, commit⟩, tells⟩ ⟨booked, truthful⟩
      obtain ⟨added, logs⟩ := tells.logs
      refine ⟨?_, truthful.commit commit tells⟩
      rw [logs.attempts, logs.events, ← booked]
      simp [bookings]
  · have : Trans (fun earlier later => Store.exportEvents earlier <+: Store.exportEvents later)
        (fun earlier later => Store.exportEvents earlier <+: Store.exportEvents later)
        (fun earlier later : Ledger =>
          Store.exportEvents earlier <+: Store.exportEvents later) :=
      ⟨fun early late => early.trans late⟩
    apply List.IsChain.pairwise
    apply chain.imp
    rintro before after ⟨-, tells⟩
    obtain ⟨added, logs⟩ := tells.logs
    exact Store.exportEvents_prefix logs.events

end AgminaRuntime
