import AgminaRuntime.CampaignInvariant

/-!
# The consumption fence

A result is handed out only while its job is current, to one consumer, and
never once the job has died.  No commit leads out of a dead state or out of
CONSUMED, so what the ledger says of a job at its end is said for good.
-/

namespace AgminaRuntime

open Durable Durable.Program Keyed

section Absorbing

variable {who : Author} {before after : Ledger}

/-- No write leads out of a dead state. -/
theorem Author.Moves.dead {old new : JobState} (moves : who.Moves old new)
    (dead : old.isDead = true) : new.isDead = true := by
  rcases moves with edge | ⟨_, _, _, _, same | ⟨_, overwritten⟩⟩
  · cases old <;> simp_all [JobState.isDead, JobState.successors]
  · rwa [same]
  · simp only [List.mem_cons, List.not_mem_nil, or_false] at overwritten
    rcases overwritten with rfl | rfl <;> rfl

/-- No write leads out of CONSUMED. -/
theorem Author.not_moves_consumed {new : JobState} : ¬ who.Moves .consumed new := by
  rintro (edge | ⟨_, _, _, ended, -⟩)
  · simp [JobState.successors] at edge
  · simp at ended

/-- The job under a key has died. -/
def Ledger.Dead (ledger : Ledger) (key : Name × Name) : Prop :=
  ∃ row, ledger.jobs.lookup key = some row ∧ row.receipt.state.isDead = true

theorem Commit.dead_kept (commit : Commit who before after) {key : Name × Name}
    (dead : before.Dead key) : after.Dead key := by
  obtain ⟨row, found, rowDead⟩ := dead
  obtain ⟨next, nextFound, move, -⟩ := commit.row_kept found
  refine ⟨next, nextFound, ?_⟩
  cases move with
  | kept => exact rowDead
  | written _ _ moves _ _ _ => exact moves.dead rowDead

/-- The ledger holds a consumption: the job's receipt is the one that was
returned, claimed by the consumer. -/
def Ledger.Records (ledger : Ledger) (consumption : Name × Name × Receipt) : Prop :=
  ∃ tenant row, ledger.tenant = some tenant ∧
    ledger.jobs.lookup (tenant, consumption.1) = some row ∧
      row.receipt = consumption.2.2 ∧ row.receipt.state = .consumed ∧
        row.receipt.consumedBy = some consumption.2.1

theorem Commit.records_kept (commit : Commit who before after)
    {consumption : Name × Name × Receipt} (records : before.Records consumption) :
    after.Records consumption := by
  obtain ⟨tenant, row, bound, found, same, consumed, claimed⟩ := records
  obtain ⟨next, nextFound, move, -⟩ := commit.row_kept found
  cases move with
  | kept => exact ⟨tenant, row, commit.tenant_kept bound, nextFound, same, consumed, claimed⟩
  | written _ _ moves _ _ _ =>
      rw [consumed] at moves
      exact absurd moves Author.not_moves_consumed

end Absorbing

/-- A ledger holds at most one consumption of a job. -/
theorem Ledger.Records.eq {ledger : Ledger} {first second : Name × Name × Receipt}
    (early : ledger.Records first) (late : ledger.Records second) (sameJob : first.1 = second.1) :
    first = second := by
  obtain ⟨tenant, row, bound, found, receiptEq, -, claimed⟩ := early
  obtain ⟨tenant', row', bound', found', receiptEq', -, claimed'⟩ := late
  obtain rfl : tenant = tenant' := Option.some.inj (bound.symm.trans bound')
  rw [← sameJob] at found'
  obtain rfl : row = row' := Option.some.inj (found.symm.trans found')
  have sameConsumer : first.2.1 = second.2.1 := Option.some.inj (claimed.symm.trans claimed')
  exact Prod.ext sameJob (Prod.ext sameConsumer (receiptEq.symm.trans receiptEq'))

/-- No consumption is of a job that has died. -/
theorem Ledger.Records.not_dead {ledger : Ledger} {consumption : Name × Name × Receipt}
    {key : Name × Name} (sound : ledger.Sound) (records : ledger.Records consumption)
    (dead : ledger.Dead key) : consumption.1 ≠ key.2 := by
  rintro sameId
  obtain ⟨tenant, row, bound, found, -, consumed, -⟩ := records
  obtain ⟨other, otherFound, isDead⟩ := dead
  have otherBound := (sound.rows _ _ otherFound).tenant
  have keyEq : other.key = key := Table.key_of_lookup otherFound
  have sameTenant : tenant = key.1 := by
    rw [← keyEq]
    exact Option.some.inj (bound.symm.trans otherBound)
  rw [sameTenant, sameId] at found
  obtain rfl : row = other := Option.some.inj (found.symm.trans otherFound)
  rw [consumed] at isDead
  contradiction

/-! ## Consumptions of a campaign -/

namespace Campaign

variable {campaign : Campaign}

/-- The ledger holds every consumption of the campaign. -/
def Recorded (campaign : Campaign) : Prop :=
  ∀ consumption ∈ campaign.consumptions, campaign.ledger.Records consumption

theorem claimed_eq {value : Except PyExc Visible} {consumption : Name × Name × Receipt}
    (member : consumption ∈ claimed value) :
    value = .ok (.consumed consumption.1 consumption.2.1 consumption.2.2) := by
  unfold claimed at member
  split at member
  · rw [List.mem_singleton.mp member]
  · simp at member

/-- A consumption that a step grants is in the ledger it leaves. -/
theorem Sound.claimed_records (sound : campaign.Sound) {self : Coordinator}
    (live : campaign.live = some self) {action : Action}
    {consumption : Name × Name × Receipt}
    (granted : consumption ∈ claimed (action.program campaign.ledger self).value) :
    ((action.program campaign.ledger self).durable campaign.ledger).Records consumption := by
  have valueEq := claimed_eq granted
  have steps := (sound.meets live action).2
  simp only [valueEq] at steps
  have claims := steps.shows
  obtain ⟨job, stored, session, -, -, -, found⟩ := claims.valid
  obtain ⟨_, -, running⟩ := steps.running
  have config := running.config
  have bound := running.tenant
  rw [config] at bound
  refine ⟨_, _, bound, found, rfl, claims.state, ?_⟩
  have named := claims.consumer
  obtain ⟨consumer, consumedBy, sameText⟩ := Option.map_eq_some_iff.mp named
  rw [consumedBy, Name.eq_of_text sameText]

/-- The ledger holds every consumption of the campaign. -/
theorem Sound.recorded_step (sound : campaign.Sound) (label : CampaignStep)
    (recorded : campaign.Recorded) : (campaign.step label).1.Recorded := by
  have kept : ∀ consumption ∈ campaign.consumptions,
      (campaign.step label).1.ledger.Records consumption := fun consumption member =>
    sound.preserves (fun ledger => ledger.Records consumption)
      (fun _ _ _ commit records => commit.records_kept records) label
      (recorded consumption member)
  cases live : campaign.live with
  | none => cases label <;> simpa only [Recorded, Campaign.step, live] using kept
  | some self =>
      cases label with
      | act action =>
          simp only [Recorded, Campaign.step, live] at kept ⊢
          intro consumption member
          rcases List.mem_append.mp member with early | granted
          · exact kept consumption early
          · exact sound.claimed_records live granted
      | _ => simpa only [Recorded, Campaign.step, live] using kept

theorem recorded_run (caps : BudgetCaps) (steps : List CampaignStep) :
    ((fresh caps).run steps).Recorded :=
  (runSteps_invariant (fun campaign => Campaign.Sound campaign ∧ campaign.Recorded)
    (fun _ label _ holds => ⟨holds.1.step label, holds.1.recorded_step label holds.2⟩)
    (stepsMeet_true _ _) ⟨sound_fresh caps, by simp [Recorded, fresh]⟩).2

/-- A successful consumption is recorded as one of the campaign. -/
theorem step_consume {self : Coordinator} (live : campaign.live = some self) {jobId : Name}
    {consumerId : String} {receipt : Receipt} {consumer : Name}
    (consumed : (Runtime.consume jobId consumerId campaign.ledger self).value = .ok receipt)
    (claimed : receipt.consumedBy = some consumer) :
    (campaign.step (.act (.consume jobId consumerId))).1.consumptions =
      campaign.consumptions ++ [(jobId, consumer, receipt)] := by
  have valueEq : ((Action.consume jobId consumerId).program campaign.ledger self).value =
      .ok (.consumed jobId consumer receipt) := by
    simp only [Action.program, bind, Program.bind, consumed, claimed]
    rfl
  simp only [step, live, valueEq, Campaign.claimed]

end Campaign

/-- At its clock reading `consume` finds the job in the generation of its active
session, and not yet due. -/
def Fenced (ledger : Ledger) (self : Coordinator) (jobId : Name) : Prop :=
  ∃ row session, ledger.jobs.lookup (self.config.tenant, jobId) = some row ∧
    ledger.sessions.lookup row.job.sessionKey = some session ∧
      session.state = .active ∧ row.job.clockId = self.clock.id ∧ session.clockId = self.clock.id ∧
        row.job.tenant = session.tenant ∧ row.job.sessionId = session.id ∧
          row.job.epoch = session.epoch ∧ row.job.taskRevision = session.taskRevision ∧
            ((self.clock.nowNs self.reads).val : Int) < row.job.latestNs session

theorem Claims.fenced {before after : Ledger} {self : Coordinator} {jobId : Name}
    {consumerId : String} {receipt : Receipt}
    (claims : Claims before self jobId consumerId receipt after) : Fenced before self jobId := by
  obtain ⟨job, stored, session, found, sessionFound, valid, -⟩ := claims.valid
  obtain ⟨⟨jobClock, sessionClock⟩, ⟨generation, active⟩, -, early⟩ :=
    Job.invalidReason_eq_none_iff.mp valid
  simp only [Prod.mk.injEq] at generation
  obtain ⟨tenant, sessionId, epoch, revision⟩ := generation
  exact ⟨⟨job, stored⟩, session, found, sessionFound, active, jobClock, sessionClock, tenant,
    sessionId, epoch, revision, early⟩

/-- What every run shows of the results it hands out. -/
theorem consumption_fence (caps : BudgetCaps) (steps : List CampaignStep) :
    let campaign := (Campaign.fresh caps).run steps
    (∀ self ∈ campaign.live, ∀ (jobId : Name) (consumerId : String) (receipt : Receipt),
      (Runtime.consume jobId consumerId campaign.ledger self).value = .ok receipt →
        receipt.predictionJson.isSome = true ∧ Fenced campaign.ledger self jobId ∧
          ∃ consumer : Name, consumer.text = consumerId ∧
            (campaign.step (.act (.consume jobId consumerId))).1.consumptions =
              campaign.consumptions ++ [(jobId, consumer, receipt)]) ∧
    (∀ first ∈ campaign.consumptions, ∀ second ∈ campaign.consumptions,
      first.1 = second.1 → first.2.1 = second.2.1 ∧ first.2.2 = second.2.2) ∧
    ∀ ledger ∈ Campaign.history caps steps, ∀ key row, ledger.jobs.lookup key = some row →
      row.receipt.state.isDead = true →
        ∀ consumption ∈ campaign.consumptions, consumption.1 ≠ key.2 := by
  have sound := Campaign.sound_run caps steps
  have recorded := Campaign.recorded_run caps steps
  refine ⟨?_, ?_, ?_⟩
  · intro self live jobId consumerId receipt consumed
    have claims := (wp_consume (sound.live self live) jobId consumerId).2
    simp only [consumed] at claims
    obtain ⟨-, claims⟩ := claims
    obtain ⟨consumer, claimed, sameText⟩ := Option.map_eq_some_iff.mp claims.consumer
    exact ⟨claims.predicted, claims.fenced, consumer, sameText,
      Campaign.step_consume live consumed claimed⟩
  · intro first firstMember second secondMember sameJob
    have same := (recorded first firstMember).eq (recorded second secondMember) sameJob
    exact ⟨by rw [same], by rw [same]⟩
  · intro ledger member key row found dead consumption granted
    have finallyDead := Campaign.history_last (fun ledger => ledger.Dead key)
      (fun _ _ _ commit dead => commit.dead_kept dead) member ⟨row, found, dead⟩
    exact (recorded consumption granted).not_dead sound.ledger finallyDead

end AgminaRuntime
