import AgminaRuntime.EvidenceLineage
import AgminaRuntime.LoadPlan
import AgminaRuntime.QueueBounds

/-!
# Runs of a load plan

`run_load` opens the sessions of a plan on a fresh ledger and submits the jobs
of its items, while ticks, tasks and consumers work in between.  Whether every
submission returns a receipt is decided by the plan and by the receipts that
the tasks have written, and by nothing else that happens in between.
-/

namespace AgminaRuntime

open Durable Durable.Program Keyed

/-! ## When a submission returns a receipt -/

/-- Every stored receipt passes the validation of a read. -/
def Ledger.Parses (ledger : Ledger) : Prop :=
  ∀ row ∈ ledger.jobs.rows, row.receipt.reparse ≠ none

/-- The evidence of a job is new, or is what is stored under its identifiers. -/
def Ledger.AdmitsEvidence (ledger : Ledger) (job : Job) : Prop :=
  ∃ observations, Ledger.admitObservations job.tenant job.sessionId job.observations
    ledger.observations = .ok observations

theorem readRows_ok_iff {rows : List JobRow} :
    (∃ entries, Store.readRows rows = .ok entries) ↔ ∀ row ∈ rows, row.receipt.reparse ≠ none := by
  induction rows with
  | nil => simp [Store.readRows]
  | cons row rows ih =>
      rw [List.forall_mem_cons, ← ih]
      simp only [Store.readRows, Store.readRow]
      cases row.receipt.reparse with
      | none => simp
      | some receipt => cases Store.readRows rows <;> simp

section Submit

variable {lifetime : Lifetime} {self : Coordinator} {ledger : Ledger} {job : Job}

/-- The submission of a new job with a registered model and a known session,
while there is room. -/
theorem wp_submit_known (running : Running lifetime ledger self) (awake : self.closed = false)
    (tenant : job.tenant = self.config.tenant) (absent : ledger.jobs.lookup job.key = none)
    (registered : self.config.modelContract job.model ≠ none)
    (room : ledger.jobs.rows.length < self.config.maxJobs)
    (known : (ledger.sessions.lookup job.sessionKey).isSome = true)
    (alone : job.dependencies = []) :
    wp (Runtime.submit job.toJobFields) (Commit (.submission (self.clock.nowNs self.reads)))
      (fun _ after _ => (ledger.Parses ∧ ledger.AdmitsEvidence job) ∧
        ∃ receipt, after.Stored (job, receipt))
      (fun _ _ _ => ¬ (ledger.Parses ∧ ledger.AdmitsEvidence job)) ledger self := by
  have bound : ledger.tenant = some job.tenant := by
    rw [tenant]
    exact running.tenant
  have all : Store.selectJobs ledger job.tenant [] = ledger.jobs.rows := by
    apply List.filter_eq_self.mpr
    intro row member
    simp [tenant, running.row_tenant (Table.lookup_of_mem member)]
  have open_ : ¬ (self.closed = true ∨ job.tenant ≠ self.config.tenant) := by
    simp [awake, tenant]
  simp only [Runtime.submit, wp_bind, wp_readVolatile, job.validate_toJobFields, if_neg open_,
    wp_readDurable, absent, Runtime.submitNew, if_neg registered]
  rw [wp_jobs_iff, all]
  cases storedRead : Store.readRows ledger.jobs.rows with
  | error exception =>
      rintro ⟨parses, -⟩
      obtain ⟨entries, read⟩ := readRows_ok_iff.mpr parses
      rw [storedRead] at read
      contradiction
  | ok stored =>
      have parses : ledger.Parses := readRows_ok_iff.mp ⟨stored, storedRead⟩
      have length := readRows_length storedRead
      have free : ¬ self.config.maxJobs ≤ stored.length := by omega
      obtain ⟨session, sessionFound⟩ := Option.isSome_iff_exists.mp known
      simp only [if_neg free, wp_bind, wp_session_iff]
      rw [show ledger.sessions.lookup (job.tenant, job.sessionId) = some session from sessionFound]
      simp only [wp_bind, wp_nowNs]
      apply wp_checkDependencies
      swap
      · intro exception _ _ unmet
        exact absurd (by simp [alone]) unmet
      intro met
      rw [wp_bind]
      have ends : ∀ (now : Ns) (reason : Option PyStr) (superseded : List (Job × Receipt)),
          PyStr.Plain reason →
          (reason = none → (session.Current job self.clock.id ∧ session.Admits job ∧
            job.snapshotNs ≤ now) ∧ superseded = ((queuedRows ledger).filter fun row =>
              decide (Supersedable ledger job row)).map fun row => (row.job, row.receipt)) →
            wp (Runtime.enqueue job now reason superseded) (Commit (.submission now))
              (fun _ after _ => (ledger.Parses ∧ ledger.AdmitsEvidence job) ∧
                ∃ receipt, after.Stored (job, receipt))
              (fun _ _ _ => ¬ (ledger.Parses ∧ ledger.AdmitsEvidence job)) ledger
                { self with reads := self.reads + 1 } := by
        intro now reason superseded plain admitted
        apply wp_post (wp_enqueue_scanned running.read tenant absent sessionFound plain met
          admitted _)
        · rintro receipt after _ ⟨-, enqueued⟩
          exact ⟨⟨parses, enqueued.evidence⟩, receipt, enqueued.stored⟩
        · exact fun _ _ _ failed => failed
        · rintro text failed ⟨-, observations, admits⟩
          rw [failed] at admits
          contradiction
      apply wp_scanQueue running.toLive.read tenant
      · intro valid newer superseded scan
        simp only [wp_bind]
        apply wp_jobs running.sound bound (by simp) (by simp [JobState.isLive])
        intro queued _
        apply ends
        · rw [valid]
          exact admissionReason_plain scan.plain
        · exact fun _ => ⟨⟨Session.current_of_valid valid, Session.admits_of_valid valid,
            (Job.invalidReason_eq_none_iff.mp valid).2.2.1⟩, scan.superseded⟩
      · intro invalid
        obtain ⟨reason, reasonEq⟩ := Option.ne_none_iff_exists'.mp invalid
        simp only [wp_bind]
        apply wp_jobs running.sound bound (by simp) (by simp [JobState.isLive])
        intro queued _
        apply ends
        · rw [reasonEq]
          exact admissionReason_plain (PyStr.plain_ofString reason.text)
        · intro none_
          have first := (admissionReason_eq_none.mp none_).1
          rw [reasonEq] at first
          contradiction

end Submit

/-! ## Evidence that is admitted -/

section Evidence

variable {tenant session : Name} {observations : List Observation}
  {before after : Table (Name × Name × Name) ObservationRow ObservationRow.key}

/-- What is recorded afterwards was recorded before, or is one of the observations. -/
theorem Ledger.admitObservations_source
    (admitted : admitObservations tenant session observations before = .ok after) :
    ∀ key row, after.lookup key = some row → before.lookup key = some row ∨
      ∃ o ∈ observations, key = (tenant, session, o.id) ∧ row.body = o.toEvidence := by
  induction observations generalizing before with
  | nil =>
      intro key row found
      rw [← Except.ok.inj admitted] at found
      exact .inl found
  | cons observation rest ih =>
      let own : ObservationRow := ⟨tenant, session, observation.toEvidence⟩
      have step : admitObservations tenant session rest (before.insertOrIgnore own) =
          .ok after := by
        simp only [admitObservations] at admitted
        split at admitted
        · split at admitted
          · contradiction
          · exact admitted
        · exact admitted
      intro key row found
      rcases ih step key row found with earlier | ⟨o, member, keyEq, body⟩
      · rw [Table.lookup_insertOrIgnore] at earlier
        split at earlier
        · rename_i same
          cases stored : before.lookup key with
          | some previous =>
              rw [stored, Option.getD_some] at earlier
              exact .inl earlier
          | none =>
              rw [stored, Option.getD_none, Option.some.injEq] at earlier
              refine .inr ⟨observation, List.mem_cons_self, same.symm, ?_⟩
              rw [← earlier]
        · exact .inl earlier
      · exact .inr ⟨o, List.mem_cons_of_mem _ member, keyEq, body⟩

/-- Observations with different identifiers are admitted exactly when each is new
or what is recorded under its identifier. -/
theorem Ledger.admitObservations_exists_iff (distinct : (observations.map fun o => o.id).Nodup) :
    (∃ after, admitObservations tenant session observations before = .ok after) ↔
      ∀ o ∈ observations, ∀ row, before.lookup (tenant, session, o.id) = some row →
        row.body = o.toEvidence := by
  constructor
  · rintro ⟨after, admitted⟩ o member row found
    obtain ⟨kept, recorded⟩ := admitObservations_ok admitted
    obtain ⟨stored, storedFound, body⟩ := recorded o member
    obtain rfl : row = stored := Option.some.inj ((kept _ _ found).symm.trans storedFound)
    exact body
  · intro known
    induction observations generalizing before with
    | nil => exact ⟨before, rfl⟩
    | cons observation rest ih =>
        let own : ObservationRow := ⟨tenant, session, observation.toEvidence⟩
        rw [List.map_cons, List.nodup_cons] at distinct
        have later : ∃ after, Ledger.admitObservations tenant session rest
            (before.insertOrIgnore own) = .ok after := by
          apply ih distinct.2
          intro o member row found
          rw [Table.lookup_insertOrIgnore, if_neg] at found
          · exact known o (List.mem_cons_of_mem _ member) row found
          · intro same
            have sameId : observation.id = o.id := congrArg (fun key => key.2.2) same
            exact distinct.1 (List.mem_map.mpr ⟨o, member, sameId.symm⟩)
        obtain ⟨after, admitted⟩ := later
        refine ⟨after, ?_⟩
        simp only [admitObservations]
        split
        · rename_i previous found
          rw [if_neg (not_not.mpr (known observation List.mem_cons_self previous found))]
          exact admitted
        · exact admitted

end Evidence

/-- Each recorded observation was declared by a stored job. -/
def Ledger.Sourced (ledger : Ledger) : Prop :=
  ∀ key row, ledger.observations.lookup key = some row →
    ∃ job ∈ ledger.storedJobs, ∃ o ∈ job.observations,
      key = (job.tenant, job.sessionId, o.id) ∧ row.body = o.toEvidence

theorem Commit.sourced {who : Author} {before after : Ledger} (commit : Commit who before after)
    (sourced : before.Sourced) : after.Sourced := by
  intro key row found
  rcases commit.storedJobs_cases with ⟨jobs, observations⟩ | ⟨added, -, adds, jobs⟩
  · rw [observations] at found
    rw [jobs]
    exact sourced key row found
  · rw [jobs]
    rcases Ledger.admitObservations_source (before.addJob_observations adds.added) key row found
      with earlier | ⟨o, member, keyEq, body⟩
    · obtain ⟨job, stored, declared⟩ := sourced key row earlier
      exact ⟨job, List.mem_append_left _ stored, declared⟩
    · exact ⟨added.job, List.mem_append_right _ (List.mem_singleton.mpr rfl), o, member, keyEq,
        body⟩

/-- Evidence is admitted exactly when it agrees with that of the stored jobs of
the session. -/
theorem Ledger.Traced.admitsEvidence_iff {ledger : Ledger} (traced : ledger.Traced)
    (sourced : ledger.Sourced) {job : Job} (distinct : (job.observations.map fun o => o.id).Nodup) :
    ledger.AdmitsEvidence job ↔
      ∀ other ∈ ledger.storedJobs, other.tenant = job.tenant → other.sessionId = job.sessionId →
        ∀ o ∈ job.observations, ∀ p ∈ other.observations, o.id = p.id →
          o.toEvidence = p.toEvidence := by
  rw [AdmitsEvidence, admitObservations_exists_iff distinct]
  constructor
  · intro known other stored tenant session o member p otherMember sameId
    obtain ⟨row, found, body⟩ := traced.recorded other stored p otherMember
    rw [tenant, session, ← sameId] at found
    rw [← known o member row found, body]
  · intro agrees o member row found
    obtain ⟨other, stored, p, otherMember, keyEq, body⟩ := sourced _ row found
    rw [Prod.mk.injEq, Prod.mk.injEq] at keyEq
    obtain ⟨tenant, session, sameId⟩ := keyEq
    rw [body, agrees other stored tenant.symm session.symm o member p otherMember sameId]

/-! ## The jobs that a step stores -/

/-- Whoever does not submit stores no job. -/
theorem storedJobs_of_chain {who : Author} {ledger : Ledger} {commits : List Ledger}
    (chain : List.IsChain (Commit who) (ledger :: commits))
    (outside : ∀ nowNs, who ≠ .submission nowNs) :
    ∀ state ∈ ledger :: commits, state.storedJobs = ledger.storedJobs := by
  apply isChain_relates (fun first last => last.storedJobs = first.storedJobs) _ _ chain
  · exact fun _ => rfl
  · intro first middle last earlier commit
    rcases commit.storedJobs_cases with ⟨same, -⟩ | ⟨row, -, adds, -⟩
    · exact same.trans earlier
    · obtain ⟨nowNs, submits, -⟩ := adds.author
      exact absurd submits (outside nowNs)

/-- A session stays stored. -/
theorem sessions_of_chain {who : Author} {ledger : Ledger} {commits : List Ledger}
    (chain : List.IsChain (Commit who) (ledger :: commits)) {key : Name × Name}
    (stored : (ledger.sessions.lookup key).isSome = true) :
    ∀ state ∈ ledger :: commits, (state.sessions.lookup key).isSome = true := by
  apply isChain_preserves (fun state => (state.sessions.lookup key).isSome = true) _ chain stored
  intro before after commit stored
  obtain ⟨session, found⟩ := Option.isSome_iff_exists.mp stored
  obtain ⟨next, nextFound, -⟩ := commit.session_kept found
  rw [nextFound]
  rfl

/-- After a submission the job is stored besides those stored before. -/
theorem Admission.mem_storedJobs {before after : Ledger} {memory : Coordinator} {job : Job}
    {receipt : Receipt} {who : Author} {commits : List Ledger}
    (admission : Admission before memory job receipt after)
    (chain : List.IsChain (Commit who) (before :: commits)) (last : after ∈ before :: commits)
    (other : Job) : other ∈ after.storedJobs ↔ other ∈ before.storedJobs ∨ other = job := by
  have kept : ∀ key old, before.jobs.lookup key = some old →
      ∃ row, after.jobs.lookup key = some row ∧ row.job = old.job := by
    intro key old found
    have step : ∀ state ∈ before :: commits,
        ∃ row, state.jobs.lookup key = some row ∧ row.job = old.job := by
      apply isChain_preserves
        (fun state => ∃ row, state.jobs.lookup key = some row ∧ row.job = old.job) _ chain
      · exact ⟨old, found, rfl⟩
      · rintro first next commit ⟨row, rowFound, same⟩
        obtain ⟨moved, movedFound, move, -⟩ := commit.row_kept rowFound
        exact ⟨moved, movedFound, move.job_eq.trans same⟩
    exact step after last
  constructor
  · intro stored
    obtain ⟨row, member, rfl⟩ := List.mem_map.mp stored
    have found := Table.lookup_of_mem member
    by_cases own : row.key = job.key
    · rw [own, show after.jobs.lookup job.key = some ⟨job, receipt⟩ from admission.stored,
        Option.some.injEq] at found
      rw [← found]
      exact .inr rfl
    · left
      cases earlier : before.jobs.lookup row.key with
      | none =>
          have same := admission.others row.key own fun old oldFound => by
            rw [earlier] at oldFound
            contradiction
          rw [found, earlier] at same
          contradiction
      | some old =>
          obtain ⟨moved, movedFound, same⟩ := kept row.key old earlier
          obtain rfl : row = moved := Option.some.inj (found.symm.trans movedFound)
          rw [same]
          exact before.storedJob_of_lookup earlier
  · rintro (stored | rfl)
    · obtain ⟨row, member, rfl⟩ := List.mem_map.mp stored
      obtain ⟨moved, movedFound, same⟩ := kept row.key row (Table.lookup_of_mem member)
      rw [← same]
      exact after.storedJob_of_lookup movedFound
    · exact after.storedJob_of_lookup admission.stored

/-! ## The steps of a load run -/

/-- A step of the tick loop, of a task or of a collector. -/
def Action.isBackground : Action → Bool
  | .tick | .startTask _ | .finishTask _ _ | .cancel _ | .consume _ _ => true
  | _ => false

/-- What a program of the live coordinator returns. -/
def Campaign.returned {α : Type} (campaign : Campaign) (program : RuntimeProgram α) : Option α :=
  campaign.live.bind fun self => (program campaign.ledger self).value.toOption

/-- `{sid:runtime.open_session(sid,"load-v1") for sid in …}` -/
def Campaign.openSessions : List Name → Campaign → Option (List (Name × Session) × Campaign)
  | [], campaign => some ([], campaign)
  | sid :: sids, campaign => do
      let session ← campaign.returned (Runtime.openSession sid.text "load-v1")
      let (sessions, campaign) ←
        openSessions sids (campaign.step (.act (.openSession sid.text "load-v1"))).1
      pure ((sid, session) :: sessions, campaign)

/-- The configuration registers the models of the plan and has room for its jobs. -/
structure RuntimeConfig.Takes {φ : Type} [Json.Floats φ] (config : RuntimeConfig)
    (plan : LoadPlan φ) : Prop where
  models : ∀ item ∈ plan.jobs, config.modelContract item.model ≠ none
  room : plan.jobs.length ≤ config.maxJobs

/-- A call of `run_load`: the coordinator and the plan, the sessions in the order
in which they are opened, the time from which the releases are counted, and
what the tick loop, the tasks and the collectors do before each submission. -/
structure LoadRun (φ τ : Type) [Json.Floats φ] where
  args : StartArgs
  plan : LoadPlan φ
  codec : FieldCodec τ
  sids : List Name
  base : Ns
  pauses : Nat → List Action
  takes : args.config.Takes plan
  sidsListed : ∀ sid, sid ∈ sids ↔ ∃ item ∈ plan.jobs, item.session = sid
  sidsDistinct : sids.Nodup
  background : ∀ place, ∀ action ∈ pauses place, action.isBackground = true

namespace LoadRun

variable {φ τ : Type} [Json.Floats φ] (run : LoadRun φ τ)

/-- `sorted(plan.jobs,key=lambda i:(i.release_ms,i.id))` -/
def order : List (LoadItem φ) :=
  run.plan.jobs.mergeSort fun item other =>
    decide (item.releaseMs < other.releaseMs ∨
      item.releaseMs = other.releaseMs ∧ item.id.text ≤ other.id.text)

/-- The coordinator starts on a fresh ledger. -/
def started : Campaign :=
  ((Campaign.fresh run.args.config.caps).step (.start run.args)).1

/-- The job of an item, as `submit` reads it. -/
def jobOf (sessions : List (Name × Session)) (item : LoadItem φ) : Option Job := do
  let session ← sessions.lookup item.session
  let job ← (item.job run.args.config.tenant session run.base).toOption
  (Job.modelValidateJson φ run.codec (job.modelDumpJson run.codec)).toOption

/-- The campaign when the item at a place is submitted. -/
def paused (place : Nat) (campaign : Campaign) : Campaign :=
  campaign.run ((run.pauses place).map .act)

/-- The loop over the items from a place on; it ends early where something raises. -/
def submitFrom (sessions : List (Name × Session)) :
    Nat → List (LoadItem φ) → Campaign → Option Campaign
  | _, [], campaign => some campaign
  | place, item :: items, campaign => do
      let job ← run.jobOf sessions item
      let _ ← (run.paused place campaign).returned (Runtime.submit job.toJobFields)
      submitFrom sessions (place + 1) items
        ((run.paused place campaign).step (.act (.submit job.toJobFields))).1

/-- Every session is opened, every job is built, and every submission returns a
receipt. -/
def Completes : Prop :=
  ∃ sessions campaign last, run.started.openSessions run.sids = some (sessions, campaign) ∧
    run.submitFrom sessions 0 run.order campaign = some last

/-- Whenever an item is submitted, a coordinator lives and every stored receipt
can be read. -/
def UndisturbedFrom (sessions : List (Name × Session)) :
    Nat → List (LoadItem φ) → Campaign → Prop
  | _, [], _ => True
  | place, item :: items, campaign =>
      (run.paused place campaign).live ≠ none ∧ (run.paused place campaign).ledger.Parses ∧
        ∀ job ∈ run.jobOf sessions item, UndisturbedFrom sessions (place + 1) items
          ((run.paused place campaign).step (.act (.submit job.toJobFields))).1

def Undisturbed : Prop :=
  ∀ sessions campaign, run.started.openSessions run.sids = some (sessions, campaign) →
    run.UndisturbedFrom sessions 0 run.order campaign

variable {run}

/-! ## What holds between two steps -/

/-- Between two steps exactly the jobs that were submitted are stored, and the
sessions are. -/
structure Ready (run : LoadRun φ τ) (done : List Job) (sids : List Name) (campaign : Campaign) :
    Prop where
  sound : campaign.Sound
  traced : campaign.ledger.Traced
  sourced : campaign.ledger.Sourced
  stored : ∀ job, job ∈ campaign.ledger.storedJobs ↔ job ∈ done
  awake : ∀ self ∈ campaign.live, self.config = run.args.config ∧ self.closed = false
  opened : ∀ sid ∈ sids,
    (campaign.ledger.sessions.lookup (run.args.config.tenant, sid)).isSome = true

theorem Ready.lineage {done : List Job} {sids : List Name} {campaign : Campaign}
    (ready : run.Ready done sids campaign) (label : CampaignStep) :
    (campaign.step label).1.ledger.Traced ∧ (campaign.step label).1.ledger.Sourced := by
  rw [Campaign.step_ledger]
  apply isChain_preserves (fun ledger => ledger.Traced ∧ ledger.Sourced) _
    (ready.sound.chain label) ⟨ready.traced, ready.sourced⟩
  · exact last_mem _ _
  · exact fun _ _ commit both => ⟨commit.traced both.1, commit.sourced both.2⟩

/-- A step that does not close the coordinator leaves it as it was constructed. -/
theorem Ready.awake_act {done : List Job} {sids : List Name} {campaign : Campaign}
    (ready : run.Ready done sids campaign) {action : Action} (stays : action ≠ .beginClose) :
    ∀ self ∈ (campaign.step (.act action)).1.live,
      self.config = run.args.config ∧ self.closed = false := by
  intro next nextLive
  cases live : campaign.live with
  | none => simp [Campaign.step, live] at nextLive
  | some self =>
      have fixed := (Action.program_steady stays).ends campaign.ledger self
      simp only [Campaign.step, live, Option.mem_def] at nextLive
      split at nextLive
      · contradiction
      · obtain rfl := Option.some.inj nextLive
        obtain ⟨config, closed⟩ := ready.awake self live
        simp only [Steady, Coordinator.fixed, Prod.mk.injEq] at fixed
        exact ⟨fixed.1.trans config, fixed.2.2.1.trans closed⟩

theorem Ready.sessions_act {done : List Job} {sids : List Name} {campaign : Campaign}
    (ready : run.Ready done sids campaign) (action : Action) :
    ∀ sid ∈ sids, ((campaign.step (.act action)).1.ledger.sessions.lookup
      (run.args.config.tenant, sid)).isSome = true := by
  intro sid listed
  rw [Campaign.step_ledger]
  exact sessions_of_chain (ready.sound.chain _) (ready.opened sid listed) _ (last_mem _ _)

/-- A step that is no submission stores no job. -/
theorem Ready.act {done : List Job} {sids : List Name} {campaign : Campaign}
    (ready : run.Ready done sids campaign) {action : Action} (stays : action ≠ .beginClose)
    (other : ∀ fields, action ≠ .submit fields) :
    run.Ready done sids (campaign.step (.act action)).1 := by
  have lineage := ready.lineage (.act action)
  refine ⟨ready.sound.step _, lineage.1, lineage.2, ?_, ready.awake_act stays,
    ready.sessions_act action⟩
  intro job
  rw [← ready.stored job]
  cases live : campaign.live with
  | none => simp only [Campaign.step, live]
  | some self =>
      rw [Campaign.step_ledger, storedJobs_of_chain (ready.sound.act_chain live action)
        (Action.author_ne_submission other) _ (last_mem _ _)]

theorem Ready.paused {done : List Job} {sids : List Name} {campaign : Campaign}
    (ready : run.Ready done sids campaign) (place : Nat) :
    run.Ready done sids (run.paused place campaign) := by
  have background : StepsMeet Campaign.step (fun _ label => ∃ action, label = .act action ∧
      action.isBackground = true) campaign ((run.pauses place).map .act) := by
    apply stepsMeet_of_forall
    intro label member _
    obtain ⟨action, listed, rfl⟩ := List.mem_map.mp member
    exact ⟨action, rfl, run.background place action listed⟩
  apply runSteps_invariant (fun later => run.Ready done sids later) _ background ready
  rintro later _ ⟨action, rfl, isBackground⟩ laterReady
  apply laterReady.act
  · rintro rfl
    contradiction
  · rintro fields rfl
    contradiction

/-! ## One submission -/

/-- A new job for a session that was opened. -/
structure Fits (run : LoadRun φ τ) (done : List Job) (sids : List Name) (job : Job) : Prop where
  tenant : job.tenant = run.args.config.tenant
  fresh : ∀ other ∈ done, other.key ≠ job.key
  registered : run.args.config.modelContract job.model ≠ none
  room : done.length < run.args.config.maxJobs
  session : job.sessionId ∈ sids
  alone : job.dependencies = []
  distinct : (job.observations.map fun o => o.id).Nodup

/-- The evidence of a job agrees with that of the jobs before it. -/
def AgreesWith (done : List Job) (job : Job) : Prop :=
  ∀ other ∈ done, other.tenant = job.tenant → other.sessionId = job.sessionId →
    ∀ o ∈ job.observations, ∀ p ∈ other.observations, o.id = p.id →
      o.toEvidence = p.toEvidence

section Submission

variable {done : List Job} {sids : List Name} {campaign : Campaign} {job : Job}

theorem Ready.absent (ready : run.Ready done sids campaign) (fits : run.Fits done sids job) :
    campaign.ledger.jobs.lookup job.key = none := by
  apply Table.lookup_eq_none_iff.mpr
  intro row member same
  exact fits.fresh row.job ((ready.stored _).mp (List.mem_map_of_mem member)) same

theorem Ready.length_le (ready : run.Ready done sids campaign) :
    campaign.ledger.jobs.rows.length ≤ done.length := by
  have distinct : campaign.ledger.storedJobs.Nodup := by
    apply List.Nodup.of_map Job.key
    rw [Ledger.storedJobs, List.map_map]
    exact campaign.ledger.jobs.distinct
  have within := (distinct.subperm fun job stored => (ready.stored job).mp stored).length_le
  simpa [Ledger.storedJobs] using within

/-- What a submission does: it returns a receipt if the receipts can be read and
the evidence agrees, and then the job is stored. -/
theorem Ready.submission (ready : run.Ready done sids campaign) (fits : run.Fits done sids job)
    {self : Coordinator} (live : campaign.live = some self) :
    wp (Runtime.submit job.toJobFields) (Commit (.submission (self.clock.nowNs self.reads)))
      (fun _ after _ => (campaign.ledger.Parses ∧ AgreesWith done job) ∧
        ∃ receipt, after.Stored (job, receipt))
      (fun _ _ _ => ¬ (campaign.ledger.Parses ∧ AgreesWith done job)) campaign.ledger self := by
  obtain ⟨config, awake⟩ := ready.awake self live
  have evidence : campaign.ledger.AdmitsEvidence job ↔ AgreesWith done job := by
    rw [ready.traced.admitsEvidence_iff ready.sourced fits.distinct]
    simp only [ready.stored, AgreesWith]
  have known := ready.opened job.sessionId fits.session
  rw [← fits.tenant] at known
  have length := ready.length_le
  have room := fits.room
  have meets := wp_submit_known (ready.sound.live self live) awake
    (by rw [config]; exact fits.tenant) (ready.absent fits)
    (by rw [config]; exact fits.registered) (by rw [config]; omega) known fits.alone
  rwa [evidence] at meets

theorem Ready.returned_iff (ready : run.Ready done sids campaign)
    (fits : run.Fits done sids job) :
    (∃ receipt, campaign.returned (Runtime.submit job.toJobFields) = some receipt) ↔
      campaign.live ≠ none ∧ campaign.ledger.Parses ∧ AgreesWith done job := by
  cases live : campaign.live with
  | none => simp [Campaign.returned, live]
  | some self =>
      have ended := (ready.submission fits live).2
      simp only [Campaign.returned, live, Option.bind_some]
      split at ended
      · rename_i receipt valueEq
        simp [valueEq, Except.toOption, ended.1]
      · rename_i exception valueEq
        simp [valueEq, Except.toOption]
        simpa using ended

theorem Ready.submit (ready : run.Ready done sids campaign) (fits : run.Fits done sids job)
    {receipt : Receipt}
    (returned : campaign.returned (Runtime.submit job.toJobFields) = some receipt) :
    run.Ready (done ++ [job]) sids (campaign.step (.act (.submit job.toJobFields))).1 := by
  have lineage := ready.lineage (.act (.submit job.toJobFields))
  refine ⟨ready.sound.step _, lineage.1, lineage.2, ?_, ready.awake_act (by simp),
    ready.sessions_act _⟩
  cases live : campaign.live with
  | none => simp [Campaign.returned, live] at returned
  | some self =>
      have stored : ∃ receipt, (campaign.step (.act (.submit job.toJobFields))).1.ledger.Stored
          (job, receipt) := by
        have ended := (ready.submission fits live).2
        simp only [Campaign.returned, live, Option.bind_some] at returned
        split at ended
        · rename_i value valueEq
          simp only [Campaign.step, live, Action.program]
          rw [Action.quietly_durable]
          exact ended.2
        · rename_i exception valueEq
          simp [valueEq, Except.toOption] at returned
      intro other
      rw [List.mem_append, List.mem_singleton, ← ready.stored other]
      rcases ready.sound.submitted live job with ⟨-, -, admitted, admission⟩ | ⟨same, -⟩
      · have last : (campaign.step (.act (.submit job.toJobFields))).1.ledger ∈
            campaign.ledger :: (campaign.step (.act (.submit job.toJobFields))).2 := by
          rw [Campaign.step_ledger]
          exact last_mem _ _
        exact admission.mem_storedJobs (ready.sound.act_chain live _) last other
      · rw [same] at stored
        obtain ⟨_, found⟩ := stored
        rw [Ledger.Stored, show campaign.ledger.jobs.lookup job.key = none from
          ready.absent fits] at found
        contradiction

end Submission

end LoadRun

end AgminaRuntime
