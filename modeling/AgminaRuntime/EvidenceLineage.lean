import AgminaRuntime.CampaignInvariant

/-!
# Evidence lineage

An observation keeps its source, its times and its content under its
identifier for as long as the journal exists, and a job declares the evidence
of every job it depends on, however long the chain of dependencies is.
-/

namespace AgminaRuntime

open Keyed

/-- The jobs of the journal in the order in which they were stored. -/
def Ledger.storedJobs (ledger : Ledger) : List Job :=
  ledger.jobs.rows.map JobRow.job

/-- The place of a job in the journal. -/
def Ledger.position (ledger : Ledger) (job : Job) : Nat :=
  ledger.storedJobs.idxOf job

/-- A dependency link between two stored jobs. -/
def Ledger.DependsOn (ledger : Ledger) (child parent : Job) : Prop :=
  child ∈ ledger.storedJobs ∧ parent ∈ ledger.storedJobs ∧
    parent.tenant = child.tenant ∧ parent.id ∈ child.dependencies

/-- The generation of a job within its tenant. -/
def Job.generation (job : Job) : Name × Ns × Name :=
  (job.sessionId, job.epoch, job.taskRevision)

/-- All evidence of the first job is declared by the second. -/
def Job.EvidenceWithin (first second : Job) : Prop :=
  ∀ o ∈ first.observations,
    o.sourceFingerprint ∈ second.observations.map Observation.sourceFingerprint

/-- Where an ancestor of a job stands. -/
structure Ledger.Precedes (ledger : Ledger) (ancestor job : Job) : Prop where
  earlier : ledger.position ancestor < ledger.position job
  generation : ancestor.generation = job.generation
  evidence : ancestor.EvidenceWithin job

/-- What the journal knows about evidence: the identity of every observation is
recorded, and every dependency of a job is stored before it. -/
structure Ledger.Traced (ledger : Ledger) : Prop where
  recorded : ∀ job ∈ ledger.storedJobs, ∀ o ∈ job.observations,
    ∃ row, ledger.observations.lookup (job.tenant, job.sessionId, o.id) = some row ∧
      row.body = o.toEvidence
  dependencies : ∀ child ∈ ledger.storedJobs, ∀ dependency ∈ child.dependencies,
    ∃ parent ∈ ledger.storedJobs, parent.key = (child.tenant, dependency) ∧
      ledger.Precedes parent child

theorem Job.EvidenceWithin.trans {first second third : Job} (early : first.EvidenceWithin second)
    (late : second.EvidenceWithin third) : first.EvidenceWithin third := by
  intro o member
  obtain ⟨other, otherMember, sameSource⟩ := List.mem_map.mp (early o member)
  rw [← sameSource]
  exact late other otherMember

theorem Ledger.Precedes.trans {ledger : Ledger} {first second third : Job}
    (early : ledger.Precedes first second) (late : ledger.Precedes second third) :
    ledger.Precedes first third :=
  ⟨early.earlier.trans late.earlier, early.generation.trans late.generation,
    early.evidence.trans late.evidence⟩

/-- A stored job is determined by its key. -/
theorem Ledger.storedJob_eq {ledger : Ledger} {first second : Job}
    (firstStored : first ∈ ledger.storedJobs) (secondStored : second ∈ ledger.storedJobs)
    (sameKey : first.key = second.key) : first = second := by
  obtain ⟨firstRow, firstMember, rfl⟩ := List.mem_map.mp firstStored
  obtain ⟨secondRow, secondMember, rfl⟩ := List.mem_map.mp secondStored
  rw [List.inj_on_of_nodup_map ledger.jobs.distinct firstMember secondMember sameKey]

theorem Ledger.storedJob_of_lookup {ledger : Ledger} {key : Name × Name} {row : JobRow}
    (found : ledger.jobs.lookup key = some row) : row.job ∈ ledger.storedJobs :=
  List.mem_map_of_mem (Table.mem_of_lookup found)

/-! ## The identity table -/

/-- Recorded observations stay, and those of the new job are recorded. -/
theorem Ledger.admitObservations_ok {tenant session : Name} {observations : List Observation}
    {before after : Table (Name × Name × Name) ObservationRow ObservationRow.key}
    (admitted : admitObservations tenant session observations before = .ok after) :
    (∀ key row, before.lookup key = some row → after.lookup key = some row) ∧
      ∀ o ∈ observations, ∃ row, after.lookup (tenant, session, o.id) = some row ∧
        row.body = o.toEvidence := by
  induction observations generalizing before with
  | nil =>
      simp only [admitObservations, Except.ok.injEq] at admitted
      subst admitted
      exact ⟨fun _ _ found => found, by simp⟩
  | cons observation rest ih =>
      let row : ObservationRow := ⟨tenant, session, observation.toEvidence⟩
      have step : (∀ previous, before.lookup row.key = some previous → previous.body = row.body) ∧
          admitObservations tenant session rest (before.insertOrIgnore row) = .ok after := by
        simp only [admitObservations] at admitted
        split at admitted
        · rename_i previous found
          split at admitted
          · contradiction
          rename_i same
          refine ⟨?_, admitted⟩
          intro other otherFound
          obtain rfl : previous = other := Option.some.inj (found.symm.trans otherFound)
          exact not_not.mp same
        · rename_i absent
          refine ⟨?_, admitted⟩
          intro other otherFound
          rw [show before.lookup row.key = none from absent] at otherFound
          contradiction
      obtain ⟨kept, recorded⟩ := ih step.2
      have own : ∃ stored, after.lookup row.key = some stored ∧ stored.body = row.body := by
        refine ⟨(before.lookup row.key).getD row, ?_, ?_⟩
        · apply kept
          rw [Table.lookup_insertOrIgnore, if_pos rfl]
        · cases found : before.lookup row.key with
          | none => rfl
          | some previous => exact step.1 previous found
      constructor
      · intro key other found
        apply kept
        rw [Table.lookup_insertOrIgnore, found]
        split <;> rfl
      · intro o member
        rcases List.mem_cons.mp member with rfl | later
        · exact own
        · exact recorded o later

theorem Ledger.addJob_observations {ledger after : Ledger} {job : Job} {receipt : Receipt}
    (added : ledger.addJob job receipt = .ok after) :
    admitObservations job.tenant job.sessionId job.observations ledger.observations =
      .ok after.observations := by
  unfold addJob at added
  cases admitted : admitObservations job.tenant job.sessionId job.observations
      ledger.observations with
  | error exception =>
      rw [admitted] at added
      contradiction
  | ok observations =>
      rw [admitted] at added
      cases inserted : ledger.jobs.insert? ⟨job, receipt⟩ with
      | none =>
          rw [inserted] at added
          contradiction
      | some jobs =>
          rw [inserted] at added
          simp only [Except.ok.injEq] at added
          rw [← added]

/-! ## Evidence across a commit -/

section Preservation

variable {who : Author} {before after : Ledger}

/-- A commit stores one new job at the end of the journal, or it changes neither
the jobs nor the recorded observations. -/
theorem Commit.storedJobs_cases (commit : Commit who before after) :
    (after.storedJobs = before.storedJobs ∧ after.observations = before.observations) ∨
      ∃ row, before.jobs.lookup row.key = none ∧ Adds who before row after ∧
        after.storedJobs = before.storedJobs ++ [row.job] := by
  cases commit with
  | @addJob _ _ _ job receipt _ _ _ _ _ _ _ _ _ _ added =>
      obtain ⟨observations, jobs, inserted, afterEq⟩ := before.addJob_ok added
      obtain ⟨absent, rows⟩ := Table.insert?_eq_some_iff.mp inserted
      have stored : after.jobs.lookup job.key = some ⟨job, receipt⟩ := by
        rw [before.lookup_addJob added, if_pos rfl]
      have commit : Commit _ before after :=
        .addJob ‹_› ‹_› ‹_› ‹_› ‹_› ‹_› ‹_› ‹_› ‹_› ‹_› added
      refine .inr ⟨⟨job, receipt⟩, absent, (commit.row_new absent stored).1, ?_⟩
      rw [afterEq]
      simp [Ledger.storedJobs, rows]
  | write _ _ _ _ _ _ => exact .inl ⟨Table.map_update (JobRow.key_withReceipt _) JobRow.job fun _ => rfl, rfl⟩
  | reserve _ _ _ _ _ reserved =>
      obtain ⟨_, _, _, _, rfl⟩ := before.reserve_ok reserved
      exact .inl ⟨rfl, rfl⟩
  | reconcile applied =>
      obtain ⟨_, _, rfl⟩ := Store.applyCharges_frame applied
      exact .inl ⟨rfl, rfl⟩
  | _ => exact .inl ⟨rfl, rfl⟩

/-- The place of a stored job does not change when another one is stored. -/
theorem Ledger.Precedes.append {ancestor job : Job} {added : Job}
    (precedes : before.Precedes ancestor job) (ancestorStored : ancestor ∈ before.storedJobs)
    (jobStored : job ∈ before.storedJobs)
    (appended : after.storedJobs = before.storedJobs ++ [added]) : after.Precedes ancestor job := by
  refine ⟨?_, precedes.generation, precedes.evidence⟩
  simp only [Ledger.position, appended, List.idxOf_append_of_mem ancestorStored,
    List.idxOf_append_of_mem jobStored]
  exact precedes.earlier

theorem Commit.traced (commit : Commit who before after) (traced : before.Traced) :
    after.Traced := by
  rcases commit.storedJobs_cases with ⟨sameJobs, sameObservations⟩ | ⟨row, absent, adds, appended⟩
  · have samePlaces : ∀ ancestor job, before.Precedes ancestor job → after.Precedes ancestor job := by
      intro ancestor job precedes
      refine ⟨?_, precedes.generation, precedes.evidence⟩
      simp only [Ledger.position, sameJobs]
      exact precedes.earlier
    constructor
    · rw [sameJobs, sameObservations]
      exact traced.recorded
    · intro child stored dependency member
      rw [sameJobs] at stored ⊢
      obtain ⟨parent, parentStored, parentKey, precedes⟩ :=
        traced.dependencies child stored dependency member
      exact ⟨parent, parentStored, parentKey, samePlaces parent child precedes⟩
  have fresh : row.job ∉ before.storedJobs := by
    intro stored
    obtain ⟨other, member, sameJob⟩ := List.mem_map.mp stored
    rw [← show other.key = row.key from congrArg Job.key sameJob,
      Table.lookup_of_mem member] at absent
    contradiction
  obtain ⟨kept, recorded⟩ := Ledger.admitObservations_ok (before.addJob_observations adds.added)
  have storedBoth : ∀ job, job ∈ after.storedJobs ↔ job ∈ before.storedJobs ∨ job = row.job := by
    intro job
    rw [appended, List.mem_append, List.mem_singleton]
  constructor
  · intro job stored o member
    rcases (storedBoth job).mp stored with old | rfl
    · obtain ⟨recordedRow, found, sameBody⟩ := traced.recorded job old o member
      exact ⟨recordedRow, kept _ _ found, sameBody⟩
    · exact recorded o member
  · intro child stored dependency member
    rcases (storedBoth child).mp stored with old | rfl
    · obtain ⟨parent, parentStored, parentKey, precedes⟩ :=
        traced.dependencies child old dependency member
      exact ⟨parent, (storedBoth parent).mpr (.inl parentStored), parentKey,
        precedes.append parentStored old appended⟩
    · obtain ⟨parent, found, -, generation, evidence⟩ := adds.dependencies dependency member
      have parentStored := before.storedJob_of_lookup found
      have parentKey : parent.key = (row.job.tenant, dependency) := Table.key_of_lookup found
      refine ⟨parent.job, (storedBoth _).mpr (.inl parentStored), parentKey, ?_, generation,
        evidence⟩
      simp only [Ledger.position, appended, List.idxOf_append_of_mem parentStored,
        List.idxOf_append_of_notMem fresh]
      have := List.idxOf_lt_length_of_mem parentStored
      omega

end Preservation

/-! ## The lineage of a run -/

theorem Campaign.traced_history (caps : BudgetCaps) (steps : List CampaignStep) :
    ∀ ledger ∈ history caps steps, ledger.Traced := by
  apply Durable.Program.isChain_preserves Ledger.Traced _ (history_commits caps steps)
  · exact ⟨by simp [Ledger.create, Ledger.storedJobs], by simp [Ledger.create, Ledger.storedJobs]⟩
  · rintro before after ⟨who, commit⟩ traced
    exact commit.traced traced

/-- One identifier names one piece of evidence within a session. -/
theorem Ledger.Traced.evidence_eq {ledger : Ledger} (traced : ledger.Traced) {first second : Job}
    (firstStored : first ∈ ledger.storedJobs) (secondStored : second ∈ ledger.storedJobs)
    (sameTenant : first.tenant = second.tenant) (sameSession : first.sessionId = second.sessionId)
    {o p : Observation} (firstMember : o ∈ first.observations)
    (secondMember : p ∈ second.observations) (sameId : o.id = p.id) :
    o.toEvidence = p.toEvidence := by
  obtain ⟨row, found, body⟩ := traced.recorded first firstStored o firstMember
  obtain ⟨other, otherFound, otherBody⟩ := traced.recorded second secondStored p secondMember
  rw [sameTenant, sameSession, sameId, otherFound, Option.some.injEq] at found
  rw [← body, ← found, otherBody]

/-- A link leads to a job that was stored before. -/
theorem Ledger.Traced.precedes {ledger : Ledger} (traced : ledger.Traced) {child parent : Job}
    (depends : ledger.DependsOn child parent) : ledger.Precedes parent child := by
  obtain ⟨childStored, parentStored, sameTenant, member⟩ := depends
  obtain ⟨other, otherStored, otherKey, precedes⟩ :=
    traced.dependencies child childStored parent.id member
  have sameKey : other.key = parent.key := by
    rw [otherKey, Job.key, sameTenant]
  rwa [ledger.storedJob_eq otherStored parentStored sameKey] at precedes

/-- In every ledger of a run, an observation identifier names one piece of
evidence, and along any chain of dependencies the ancestor was stored earlier,
in the same generation, with evidence that its descendant declares again. -/
theorem evidence_lineage (caps : BudgetCaps) (steps : List CampaignStep) :
    (∀ ledger ∈ Campaign.history caps steps,
      ∀ first ∈ ledger.storedJobs, ∀ second ∈ ledger.storedJobs,
        first.tenant = second.tenant → first.sessionId = second.sessionId →
          ∀ o ∈ first.observations, ∀ p ∈ second.observations, o.id = p.id →
            o.toEvidence = p.toEvidence) ∧
    ∀ ledger ∈ Campaign.history caps steps, ∀ job ancestor,
      Relation.TransGen ledger.DependsOn job ancestor →
        ledger.position ancestor < ledger.position job ∧
        (ancestor.sessionId, ancestor.epoch, ancestor.taskRevision) =
          (job.sessionId, job.epoch, job.taskRevision) ∧
        ∀ o ∈ ancestor.observations,
          o.sourceFingerprint ∈ job.observations.map Observation.sourceFingerprint := by
  constructor
  · intro ledger member first firstStored second secondStored sameTenant sameSession
      o firstMember p secondMember sameId
    exact (Campaign.traced_history caps steps ledger member).evidence_eq firstStored secondStored
      sameTenant sameSession firstMember secondMember sameId
  · intro ledger member job ancestor chain
    have traced := Campaign.traced_history caps steps ledger member
    have precedes : ledger.Precedes ancestor job := by
      induction chain with
      | single depends => exact traced.precedes depends
      | tail _ depends ih => exact (traced.precedes depends).trans ih
    exact ⟨precedes.earlier, precedes.generation, precedes.evidence⟩

end AgminaRuntime
