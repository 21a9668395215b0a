import AgminaRuntime.CampaignInvariant

/-!
# The fence at send time

A dispatch is committed by a tick, and the call is made at a later turn of the
event loop.  The pre-send check reads the session and the clock again, and
neither the receipt nor the quarantine: work that is cancelled after its
dispatch is in flight and is still sent.
-/

namespace AgminaRuntime

open Durable Durable.Program Keyed

namespace Campaign

/-- The task for which the next step would invoke `backend.infer`. -/
def sends (campaign : Campaign) (action : Action) : Option Task :=
  campaign.live.bind fun self =>
    match (action.program campaign.ledger self).value with
    | .ok (.inferred task) => some task
    | _ => none

variable {campaign : Campaign}

theorem sends_some {action : Action} {task : Task} (sent : campaign.sends action = some task) :
    ∃ self, campaign.live = some self ∧
      (action.program campaign.ledger self).value = .ok (.inferred task) := by
  obtain ⟨self, live, sent⟩ := Option.bind_eq_some_iff.mp sent
  refine ⟨self, live, ?_⟩
  split at sent
  · rename_i shown valueEq
    rw [valueEq, Option.some.inj sent]
  · contradiction

/-- The job is valid against its stored session at the current clock. -/
def ValidNow (campaign : Campaign) (job : Job) : Prop :=
  ∃ self ∈ campaign.live, ∃ session ∈ campaign.ledger.sessions.lookup job.sessionKey,
    job.invalidReason session (self.clock.nowNs self.reads) self.clock.id = none

instance (campaign : Campaign) (job : Job) : Decidable (campaign.ValidNow job) :=
  inferInstanceAs (Decidable (∃ self ∈ campaign.live,
    ∃ session ∈ campaign.ledger.sessions.lookup job.sessionKey,
      job.invalidReason session (self.clock.nowNs self.reads) self.clock.id = none))

/-- The receipt of the job is in one of these states. -/
def StateIn (campaign : Campaign) (job : Job) (states : List JobState) : Prop :=
  ∃ row ∈ campaign.ledger.jobs.lookup job.key, row.job = job ∧ row.receipt.state ∈ states

instance (campaign : Campaign) (job : Job) (states : List JobState) :
    Decidable (campaign.StateIn job states) :=
  inferInstanceAs (Decidable (∃ row ∈ campaign.ledger.jobs.lookup job.key,
    row.job = job ∧ row.receipt.state ∈ states))

/-- The fence as one would wish it. -/
structure FullyFenced (campaign : Campaign) (task : Task) : Prop where
  valid : campaign.ValidNow task.job
  running : campaign.StateIn task.job [.running]
  pool : task.endpoint.pool ∉ campaign.ledger.quarantined

end Campaign

/-- The attempt of the task was reserved between these two ledgers, for a queued
job and on a pool outside the quarantine. -/
structure ReservedBetween (before after : Ledger) (task : Task) : Prop where
  queued : ∃ row, before.jobs.lookup task.job.key = some row ∧ row.job = task.job ∧
    row.receipt.state = .queued
  unattempted : before.attempts.lookup task.job.key = none
  reserved : after.attempts.lookup task.job.key = some (.reservation task.job task.endpoint)
  pool : task.endpoint.pool ∉ before.quarantined

/-- The fence that the coordinator keeps: the job is valid, nothing but a
cancellation, an expiry or a stale generation can have moved its receipt since
the dispatch, and the dispatch found the pool outside the quarantine. -/
structure SendFenced (caps : BudgetCaps) (steps : List CampaignStep) (task : Task) : Prop where
  valid : ((Campaign.fresh caps).run steps).ValidNow task.job
  state : ((Campaign.fresh caps).run steps).StateIn task.job
    [.running, .cancelled, .expired, .stale]
  pool : ∃ before after, [before, after] <:+: Campaign.history caps steps ∧
    ReservedBetween before after task

/-! ## The origin of an attempt -/

/-- The attempt as it was when it was reserved. -/
def Attempt.original (attempt : Attempt) : Attempt :=
  { attempt with actual := none, disposition := .reserved }

theorem AttemptMove.original_eq {who : Author} {attempt next : Attempt}
    (move : AttemptMove who attempt next) : next.original = attempt.original := by
  cases move <;> rfl

/-- The ledger has this attempt, whatever has become of it. -/
def Ledger.Attempted (ledger : Ledger) (attempt : Attempt) : Prop :=
  ∃ stored, ledger.attempts.lookup attempt.key = some stored ∧
    stored.original = attempt.original

theorem Campaign.job_immutable {caps : BudgetCaps} {steps : List CampaignStep} {ledger : Ledger}
    (member : ledger ∈ Campaign.history caps steps) {key : Name × Name} {row last : JobRow}
    (found : ledger.jobs.lookup key = some row)
    (lastFound : ((Campaign.fresh caps).run steps).ledger.jobs.lookup key = some last) :
    row.job = last.job := by
  obtain ⟨next, nextFound, same⟩ := Campaign.history_last
    (fun state => ∃ next, state.jobs.lookup key = some next ∧ next.job = row.job)
    (fun who before after commit ⟨old, oldFound, same⟩ => by
      obtain ⟨next, nextFound, move, -⟩ := commit.row_kept oldFound
      exact ⟨next, nextFound, move.job_eq.trans same⟩)
    member ⟨row, found, rfl⟩
  rw [← same, Option.some.inj (nextFound.symm.trans lastFound)]

/-- Every attempt of a task was reserved by a tick that found its job queued and
its pool open. -/
theorem reserved_between {caps : BudgetCaps} {steps : List CampaignStep} {task : Task}
    {receipt : Receipt}
    (found : ((Campaign.fresh caps).run steps).ledger.Stored (task.job, receipt))
    (attempt : ((Campaign.fresh caps).run steps).ledger.attempts.lookup task.job.key =
      some (.reservation task.job task.endpoint)) :
    ∃ before after, [before, after] <:+: Campaign.history caps steps ∧
      ReservedBetween before after task := by
  have created : ¬ (Ledger.create caps).Attempted (.reservation task.job task.endpoint) := by
    rintro ⟨stored, storedFound, -⟩
    simp [Ledger.create] at storedFound
  obtain ⟨before, after, inside, ⟨who, commit⟩, unattempted, stored, storedFound, same⟩ :=
    exists_onset (fun ledger => ledger.Attempted (.reservation task.job task.endpoint))
      (Campaign.history_commits caps steps) created (Campaign.run_ledger caps steps)
      ⟨_, attempt, rfl⟩
  refine ⟨before, after, inside, ?_⟩
  have absent : before.attempts.lookup task.job.key = none := by
    cases earlier : before.attempts.lookup task.job.key with
    | none => rfl
    | some old =>
        obtain ⟨next, nextFound, move⟩ := commit.attempt_kept earlier
        obtain rfl : next = stored := Option.some.inj (nextFound.symm.trans storedFound)
        exact absurd ⟨old, earlier, move.original_eq.symm.trans same⟩ unattempted
  obtain ⟨row, endpoint, keyEq, rfl, reserves⟩ := commit.attempt_new absent storedFound
  have origin : Attempt.reservation row.job endpoint = .reservation task.job task.endpoint := same
  have pool : endpoint.pool = task.endpoint.pool := congrArg Attempt.pool origin
  have rowFound : before.jobs.lookup task.job.key = some row := by
    rw [← keyEq]
    exact reserves.found
  have sameJob : row.job = task.job :=
    Campaign.job_immutable (inside.subset List.mem_cons_self) rowFound found
  exact
    { queued := ⟨row, rowFound, sameJob, reserves.queued⟩
      unattempted := absent
      reserved := by rw [← origin]; exact storedFound
      pool := by rw [← pool]; exact reserves.pool }

/-! ## The fence -/

theorem validNow_of_preSend {campaign : Campaign} {self : Coordinator} {job : Job}
    (live : campaign.live = some self)
    (session : (campaign.ledger.sessions.lookup job.sessionKey).isSome = true)
    (valid : Runtime.preSendReason campaign.ledger self job = none) : campaign.ValidNow job := by
  obtain ⟨stored, found⟩ := Option.isSome_iff_exists.mp session
  rw [Runtime.preSendReason, found] at valid
  exact ⟨self, live, stored, found, valid⟩

/-- Whenever `backend.infer` is invoked in a run, the job is valid at that
moment, was RUNNING unless it has been cancelled, expired or made stale since
its dispatch, and was dispatched to a pool outside the quarantine. -/
theorem send_fence (caps : BudgetCaps) (steps : List CampaignStep) (action : Action) :
    ∀ task ∈ ((Campaign.fresh caps).run steps).sends action, SendFenced caps steps task := by
  intro task sent
  have sound := Campaign.sound_run caps steps
  obtain ⟨self, live, valueEq⟩ := Campaign.sends_some sent
  have meets := (sound.meets live action).2
  simp only [valueEq] at meets
  obtain ⟨member, -, valid⟩ := meets.shows
  have taskSound := (sound.live self live).tasks task member
  obtain ⟨receipt, found, inTask, -, -⟩ := taskSound.row
  have session := (sound.ledger.rows _ _ found).session
  refine
    { valid := validNow_of_preSend live session valid
      state := ⟨_, found, rfl, ?_⟩
      pool := reserved_between found taskSound.attempt }
  revert inTask
  cases receipt.state <;> simp [JobState.inTask]

namespace Sample

/-- The job is dispatched and its task has not run yet. -/
def dispatching : List CampaignStep :=
  opening (fun _ => 10) ++ [.act (.submit fields), .act .tick]

/-- The job is cancelled between its dispatch and its send. -/
def cancelledInFlight : Campaign :=
  (Campaign.fresh config.caps).run
    (opening (fun _ => 10) ++ [.act (.submit fields), .act .tick, .act (.cancel job)])

/-- The pool has room for two calls. -/
def wideConfig : RuntimeConfig :=
  { config with
    pools := [⟨gpu, 2, by decide⟩]
    endpoints := [{ endpoint with maxInflight := 2, maxInflightBounded := by decide }]
    poolsDistinct := by decide
    endpointsDistinct := by decide
    endpointsKnown := by decide
    modelsServed := by decide }

def secondJob : Name := ⟨"second", isName_second⟩

/-- Two jobs are dispatched together, and the first call times out before the
second is made. -/
def timedOutTogether : Campaign :=
  (Campaign.fresh config.caps).run
    [.start ⟨wideConfig, ⟨firstClock, fun _ => 10⟩, false, []⟩, .act (.openSession "drone" "inspect"),
      .act (.submit fields), .act (.submit { fields with id := secondJob }), .act .tick,
      .act (.startTask job), .act (.finishTask job (.raised .timeoutError))]

end Sample

/-- A dispatched job is sent. -/
theorem send_fence_dispatched :
    ∃ task, task ∈ ((Campaign.fresh Sample.config.caps).run Sample.dispatching).sends
        (.startTask Sample.job) ∧
      SendFenced Sample.config.caps Sample.dispatching task := by
  have isSent : ∃ task ∈ ((Campaign.fresh Sample.config.caps).run Sample.dispatching).sends
      (.startTask Sample.job), task.job.id = Sample.job := by
    decide +kernel
  obtain ⟨task, member, -⟩ := isSent
  exact ⟨task, member, send_fence Sample.config.caps Sample.dispatching _ task member⟩

/-- A cancelled job is still sent, and so is a job whose pool has been
quarantined since its dispatch. -/
theorem send_unfenced :
    (∃ task ∈ Sample.cancelledInFlight.sends (.startTask Sample.job),
      ¬ Sample.cancelledInFlight.StateIn task.job [.running] ∧
        ¬ Sample.cancelledInFlight.FullyFenced task) ∧
      ∃ task ∈ Sample.timedOutTogether.sends (.startTask Sample.secondJob),
        task.endpoint.pool ∈ Sample.timedOutTogether.ledger.quarantined ∧
          ¬ Sample.timedOutTogether.FullyFenced task := by
  have cancelled : ∃ task ∈ Sample.cancelledInFlight.sends (.startTask Sample.job),
      ¬ Sample.cancelledInFlight.StateIn task.job [.running] := by
    decide +kernel
  have quarantined : ∃ task ∈ Sample.timedOutTogether.sends (.startTask Sample.secondJob),
      task.endpoint.pool ∈ Sample.timedOutTogether.ledger.quarantined := by
    decide +kernel
  obtain ⟨first, firstSent, notRunning⟩ := cancelled
  obtain ⟨second, secondSent, held⟩ := quarantined
  exact ⟨⟨first, firstSent, notRunning, fun fenced => notRunning fenced.running⟩,
    second, secondSent, held, fun fenced => fenced.pool held⟩

end AgminaRuntime
