import AgminaRuntime.CampaignInvariant

/-!
# Cached answers come from calls

The cache of a coordinator holds nothing but results of its own calls.  A job
that is answered from it asks the same question of the same model contract as
a job that the same coordinator has finished, and takes over that job's result
with the time at which it was computed.
-/

namespace AgminaRuntime

open Durable Durable.Program Keyed

/-! ## Answers across a commit -/

section Answers

variable {who : Author} {before after : Ledger} {key : Name × Name}

theorem Receipt.SameAnswer.refl (receipt : Receipt) : receipt.SameAnswer receipt :=
  ⟨rfl, rfl, rfl, rfl⟩

theorem Receipt.SameAnswer.trans {first second third : Receipt} (early : first.SameAnswer second)
    (late : second.SameAnswer third) : first.SameAnswer third :=
  ⟨late.1.trans early.1, late.2.1.trans early.2.1, late.2.2.1.trans early.2.2.1,
    late.2.2.2.trans early.2.2.2⟩

theorem Receipt.ServedFrom.same {config : RuntimeConfig} {entries : List CacheEntry} {job : Job}
    {first second : Receipt} (served : first.ServedFrom config entries job)
    (same : first.SameAnswer second) : second.ServedFrom config entries job := by
  obtain ⟨entry, member, contract, registered, named, payload, computed, completed, at_, young⟩ :=
    served
  obtain ⟨-, samePayload, sameComputed, sameCompleted⟩ := same
  exact ⟨entry, member, contract, registered, named, samePayload.trans payload,
    sameComputed.trans computed, completed, sameCompleted.trans at_, young⟩

/-- A cache hit was one before, or the job has just left the queue for it. -/
theorem Commit.hit_origin (commit : Commit who before after) {row : JobRow}
    (found : after.jobs.lookup key = some row) (hit : row.receipt.cacheHit = true) :
    ∃ old, before.jobs.lookup key = some old ∧ old.job = row.job ∧
      (old.receipt.SameAnswer row.receipt ∨
        old.receipt.state = .queued ∧ who.Serves row.job row.receipt) := by
  cases earlier : before.jobs.lookup key with
  | none =>
      have adds := (commit.row_new earlier found).1
      rw [adds.unanswered] at hit
      contradiction
  | some old =>
      obtain ⟨next, nextFound, move, -⟩ := commit.row_kept earlier
      obtain rfl : next = row := Option.some.inj (nextFound.symm.trans found)
      refine ⟨old, rfl, move.job_eq.symm, ?_⟩
      cases move with
      | kept => exact .inl (.refl _)
      | written _ _ _ _ _ answered => exact answered hit

/-- What the rows of a ledger were at the start of its author's commits: queued
ones were queued, and cache hits were hits or left the queue for the answer. -/
structure Ledger.Since (start : Ledger) (who : Author) (ledger : Ledger) : Prop where
  queued : ∀ key row, ledger.jobs.lookup key = some row → row.receipt.state = .queued →
    start.jobs.lookup key = some row ∨ ∃ nowNs, who = .submission nowNs
  hit : ∀ key row, ledger.jobs.lookup key = some row → row.receipt.cacheHit = true →
    ∃ old, start.jobs.lookup key = some old ∧ old.job = row.job ∧
      (old.receipt.SameAnswer row.receipt ∨
        old.receipt.state = .queued ∧ who.Serves row.job row.receipt)

theorem Ledger.Since.refl (start : Ledger) (who : Author) : start.Since who start :=
  ⟨fun _ _ found _ => .inl found, fun _ row found _ => ⟨row, found, rfl, .inl (.refl _)⟩⟩

theorem Commit.since {start : Ledger} (commit : Commit who before after)
    (since : start.Since who before) : start.Since who after := by
  refine ⟨?_, ?_⟩
  · intro key row found queued
    cases earlier : before.jobs.lookup key with
    | none =>
        obtain ⟨nowNs, author, -⟩ := (commit.row_new earlier found).1.author
        exact .inr ⟨nowNs, author⟩
    | some old =>
        obtain ⟨next, nextFound, move, -⟩ := commit.row_kept earlier
        obtain rfl : next = row := Option.some.inj (nextFound.symm.trans found)
        obtain rfl := move.eq_of_queued queued
        exact since.queued key _ earlier queued
  · intro key row found hit
    obtain ⟨old, oldFound, sameJob, same | ⟨queued, serves⟩⟩ := commit.hit_origin found hit
    · obtain ⟨first, firstFound, firstJob, origin⟩ :=
        since.hit key old oldFound (same.1.symm.trans hit)
      refine ⟨first, firstFound, firstJob.trans sameJob, ?_⟩
      rcases origin with stayed | ⟨queued, config, entries, author, served⟩
      · exact .inl (stayed.trans same)
      · rw [sameJob] at served
        exact .inr ⟨queued, config, entries, author, served.same same⟩
    · rcases since.queued key old oldFound queued with stayed | ⟨nowNs, submits⟩
      · exact ⟨old, stayed, sameJob, .inr ⟨queued, serves⟩⟩
      · obtain ⟨config, entries, coordinator, -⟩ := serves
        rw [coordinator] at submits
        contradiction

end Answers

/-! ## Results in the cache -/

namespace Campaign

/-- The call of the task returns the result in the next step, and the receipt of
its job becomes SUCCEEDED. -/
structure Returns (campaign : Campaign) (task : Task) (result : Prediction) (computedNs : Ns) :
    Prop where
  called : task.job.key ∈ campaign.calls
  awaiting : ∃ self ∈ campaign.live, self.task? task.job.id .awaiting = some task
  running : ∃ receipt, campaign.ledger.Stored (task.job, receipt) ∧ receipt.state = .running
  succeeded : ∃ receipt,
    (campaign.step (.act (.finishTask task.job.id (.prediction result)))).1.ledger.Stored
        (task.job, receipt) ∧ receipt.state = .succeeded ∧ receipt.cacheHit = false ∧
      receipt.predictionJson = some result.payloadJson ∧ receipt.completedNs = some computedNs

/-- A coordinator lives before, between and after the steps. -/
def LivesThrough (campaign : Campaign) (steps : List CampaignStep) : Prop :=
  ∀ first, first <+: steps → (campaign.run first).live.isSome = true

/-- A coordinator that is still the live one has finished the task with the
result. -/
def Finished (caps : BudgetCaps) (steps : List CampaignStep) (task : Task) (result : Prediction)
    (computedNs : Ns) : Prop :=
  ∃ before between,
    steps = before ++ .act (.finishTask task.job.id (.prediction result)) :: between ∧
      ((fresh caps).run before).Returns task result computedNs ∧
        ((fresh caps).run before).LivesThrough
          (.act (.finishTask task.job.id (.prediction result)) :: between)

/-- The entry is the result of a finished task, under the key of its job. -/
def Sourced (caps : BudgetCaps) (steps : List CampaignStep) (config : RuntimeConfig)
    (entry : CacheEntry) : Prop :=
  ∃ task result, Finished caps steps task result entry.computedNs ∧
    entry.payload = result.payloadJson ∧ ∃ contract ∈ config.modelContract task.job.model,
      HistoricalCache.key task.job contract.fingerprint = some entry.key

variable {campaign : Campaign}

/-- What a step adds to the cache is the result of the call that it finishes. -/
theorem Sound.cache_step (sound : campaign.Sound) (label : CampaignStep) {next : Coordinator}
    (nextLive : next ∈ (campaign.step label).1.live) {entry : CacheEntry}
    (member : entry ∈ next.cache.data) :
    ∃ self ∈ campaign.live, next.config = self.config ∧
      (entry ∈ self.cache.data ∨ ∃ task result,
        label = .act (.finishTask task.job.id (.prediction result)) ∧
          self.task? task.job.id .awaiting = some task ∧
            Computes campaign.ledger (campaign.step label).1.ledger task result entry) := by
  cases live : campaign.live with
  | none =>
      cases label with
      | start args =>
          simp only [Campaign.step, live] at nextLive
          obtain ⟨valueEq, rfl⟩ := started_some nextLive
          obtain ⟨-, -, -, reads, memoryEq⟩ := started sound.ledger valueEq
          rw [memoryEq] at member
          simp [StartArgs.memory, Runtime.initial, HistoricalCache.new] at member
      | _ => simp [Campaign.step, live] at nextLive
  | some self =>
      refine ⟨self, rfl, ?_⟩
      cases label with
      | act action =>
          have ended := (sound.meets live action).2
          simp only [Campaign.step, live, Option.mem_def] at nextLive ⊢
          split at nextLive
          · contradiction
          rename_i survives
          obtain rfl := Option.some.inj nextLive
          cases valueEq : (action.program campaign.ledger self).value with
          | ok visible =>
              simp only [valueEq] at ended
              obtain ⟨computed, sources, kept⟩ := ended.running
              have config := kept.config
              rw [show (Lifetime.store _ computed).config = _ from Lifetime.config_see _ _] at config
              refine ⟨config, ?_⟩
              rcases List.mem_append.mp (kept.cached entry member) with held | new
              · rw [Lifetime.entries_see] at held
                exact .inl held
              · obtain ⟨jobId, result, task, found, rfl, computes⟩ := sources entry new
                obtain ⟨-, rfl, -⟩ := Coordinator.task?_some found
                exact .inr ⟨task, result, rfl, found, computes⟩
          | error exception =>
              simp only [valueEq] at ended
              have ordinary : exception.endsProcess = false := by
                simpa [Campaign.endsProcess, valueEq] using survives
              have kept := (ended.2 ordinary).1
              exact ⟨kept.config, .inl (kept.cached entry member)⟩
      | crash action count => simp [Campaign.step, live] at nextLive
      | _ =>
          simp only [Campaign.step, live, Option.mem_def, Option.some.injEq] at nextLive
          subst nextLive
          exact ⟨rfl, .inl member⟩

/-- One more step under a live coordinator. -/
theorem LivesThrough.append {steps : List CampaignStep} (lives : campaign.LivesThrough steps)
    {label : CampaignStep} (live : (campaign.run (steps ++ [label])).live.isSome = true) :
    campaign.LivesThrough (steps ++ [label]) := by
  intro first isPrefix
  rcases List.prefix_concat_iff.mp isPrefix with rfl | early
  · exact live
  · exact lives first early

theorem Finished.append {caps : BudgetCaps} {steps : List CampaignStep} {task : Task}
    {result : Prediction} {computedNs : Ns} (finished : Finished caps steps task result computedNs)
    {label : CampaignStep} (live : ((fresh caps).run (steps ++ [label])).live.isSome = true) :
    Finished caps (steps ++ [label]) task result computedNs := by
  obtain ⟨before, between, rfl, returns, lives⟩ := finished
  refine ⟨before, between ++ [label], by simp, returns, ?_⟩
  rw [← List.cons_append]
  apply lives.append
  rwa [← run_append, List.cons_append, ← List.cons_append, ← List.append_assoc]

/-- Every entry of a live cache is a result of the coordinator's own calls. -/
theorem cache_sourced (caps : BudgetCaps) (steps : List CampaignStep) {self : Coordinator}
    (live : self ∈ ((fresh caps).run steps).live) {entry : CacheEntry}
    (member : entry ∈ self.cache.data) : Sourced caps steps self.config entry := by
  induction steps using List.reverseRecOn generalizing self with
  | nil => simp [run, runSteps, fresh] at live
  | append_singleton steps label ih =>
      have sound := sound_run caps steps
      have stepped : (fresh caps).run (steps ++ [label]) =
          (((fresh caps).run steps).step label).1 := run_append _ _ _
      have lives : ((fresh caps).run (steps ++ [label])).live.isSome = true := by
        rw [Option.mem_def.mp live]
        rfl
      rw [stepped] at live
      obtain ⟨old, oldLive, config, held | ⟨task, result, rfl, awaiting, computes⟩⟩ :=
        sound.cache_step label live member
      · obtain ⟨task, result, finished, payload, contract, registered, named⟩ := ih oldLive held
        refine ⟨task, result, finished.append lives, payload, contract, ?_, named⟩
        rwa [config]
      · have running := sound.live old oldLive
        obtain ⟨taskMember, -, phase⟩ := Coordinator.task?_some awaiting
        obtain ⟨contract, registered, keyed⟩ := (running.tasks task taskMember).cacheKey
        refine ⟨task, result, ⟨steps, [], by simp, ?_, ?_⟩, computes.payload, contract, ?_, ?_⟩
        · obtain ⟨receipt, stored, succeeded, unanswered, predicted, completed⟩ :=
            computes.succeeded
          rw [computes.payload] at predicted
          exact ⟨running.awaited task taskMember phase, ⟨old, oldLive, awaiting⟩, computes.sent,
            receipt, stored, succeeded, unanswered, predicted, completed⟩
        · have alive : ((fresh caps).run steps).LivesThrough [] := by
            intro first isPrefix
            rw [List.prefix_nil.mp isPrefix]
            exact Option.isSome_of_mem oldLive
          apply alive.append
          rwa [← run_append]
        · rwa [config]
        · rw [← keyed]
          exact computes.key

end Campaign

/-! ## Cache hits -/

/-- The two jobs differ at most in their identity, deadline, priority, sites,
dependencies and replacement. -/
def Job.SameQuery (job source : Job) : Prop :=
  job.toJobFields =
    { source.toJobFields with
      id := job.id
      deadlineNs := job.deadlineNs
      priority := job.priority
      allowedSites := job.allowedSites
      dependencies := job.dependencies
      replaceKey := job.replaceKey
      discardable := job.discardable }

theorem Job.sameQuery_of_cacheView {job source : Job} (same : job.cacheView = source.cacheView) :
    job.SameQuery source := by
  simp only [Job.cacheView, CacheView.mk.injEq] at same
  obtain ⟨tenant, sessionId, epoch, taskRevision, clockId, model, operation, workload, resultKind,
    observations, snapshotNs, maxAgeNs, maxUncertaintyNs, payloadJson, cacheable⟩ := same
  simp only [SameQuery]
  rw [← tenant, ← sessionId, ← epoch, ← taskRevision, ← clockId, ← model, ← operation,
    ← workload, ← resultKind, ← observations, ← snapshotNs, ← maxAgeNs, ← maxUncertaintyNs,
    ← payloadJson, ← cacheable]

/-- A job has a cache key only when it is cacheable and historical. -/
theorem HistoricalCache.key_some {job : Job} {fingerprint : Fingerprint ModelContract}
    {key : CacheKey} (named : HistoricalCache.key job fingerprint = some key) :
    job.cacheable = true ∧ job.resultKind = .historical ∧ key = ⟨(fingerprint, job.cacheView)⟩ := by
  unfold HistoricalCache.key at named
  split at named
  · contradiction
  · rename_i eligible
    simp only [not_or, not_not] at eligible
    exact ⟨by simpa using eligible.1, eligible.2, (Option.some.inj named).symm⟩

/-- The job left the queue in a step of the coordinator that had finished the
task, with the task's result, for the same question to the same contract. -/
structure AnsweredBy (caps : BudgetCaps) (before : List CampaignStep) (answer : CampaignStep)
    (job : Job) (receipt : Receipt) (task : Task) (result : Prediction) (computedNs : Ns)
    (memory : Coordinator) : Prop where
  finished : Campaign.Finished caps before task result computedNs
  live : memory ∈ ((Campaign.fresh caps).run before).live
  waiting : ∃ old, ((Campaign.fresh caps).run before).ledger.Stored (job, old) ∧
    old.state = .queued
  written : ∃ ledger ∈ (((Campaign.fresh caps).run before).step answer).2, ∃ served,
    ledger.Stored (job, served) ∧ served.SameAnswer receipt
  payload : receipt.predictionJson = some result.payloadJson
  computed : receipt.computedNs = some computedNs
  young : ∃ completedNs, receipt.completedNs = some completedNs ∧
    (completedNs.val : Int) - computedNs.val < memory.config.cacheTtlNs.val
  historical : job.cacheable = true ∧ job.resultKind = .historical ∧
    task.job.cacheable = true ∧ task.job.resultKind = .historical
  contract : ∃ contract, memory.config.modelContract job.model = some contract ∧
    memory.config.modelContract task.job.model = some contract
  query : job.SameQuery task.job

theorem AnsweredBy.same {caps : BudgetCaps} {before : List CampaignStep} {answer : CampaignStep}
    {job : Job} {receipt other : Receipt} {task : Task} {result : Prediction} {computedNs : Ns}
    {self : Coordinator}
    (answered : AnsweredBy caps before answer job receipt task result computedNs self)
    (same : receipt.SameAnswer other) :
    AnsweredBy caps before answer job other task result computedNs self := by
  obtain ⟨ledger, member, served, stored, servedSame⟩ := answered.written
  obtain ⟨completedNs, completed, young⟩ := answered.young
  exact
    { finished := answered.finished
      live := answered.live
      waiting := answered.waiting
      written := ⟨ledger, member, served, stored, servedSame.trans same⟩
      payload := same.2.1.trans answered.payload
      computed := same.2.2.1.trans answered.computed
      young := ⟨completedNs, same.2.2.2.trans completed, young⟩
      historical := answered.historical
      contract := answered.contract
      query := answered.query }

/-- The answer of a live coordinator to a queued job. -/
theorem answeredBy_of_serves {caps : BudgetCaps} {before : List CampaignStep}
    {answer : CampaignStep} {job : Job} {receipt : Receipt}
    (serves : ((answer.author .free ((Campaign.fresh caps).run before))).Serves job receipt)
    (waiting : ∃ old, ((Campaign.fresh caps).run before).ledger.Stored (job, old) ∧
      old.state = .queued)
    (written : ∃ ledger ∈ (((Campaign.fresh caps).run before).step answer).2,
      ledger.Stored (job, receipt)) :
    ∃ task result computedNs self,
      AnsweredBy caps before answer job receipt task result computedNs self := by
  obtain ⟨config, entries, author, served⟩ := serves
  obtain ⟨self, live, rfl, rfl, -⟩ := CampaignStep.live_of_coordinator author
  obtain ⟨entry, member, contract, registered, named, payload, computed, completed, at_, young⟩ :=
    served
  obtain ⟨task, result, finished, sourcePayload, source, sourceRegistered, sourceNamed⟩ :=
    Campaign.cache_sourced caps before live member
  obtain ⟨cacheable, historical, keyEq⟩ := HistoricalCache.key_some named
  obtain ⟨sourceCacheable, sourceHistorical, sourceKeyEq⟩ := HistoricalCache.key_some sourceNamed
  have sameView : job.cacheView = task.job.cacheView := by
    have sameKey := keyEq.symm.trans sourceKeyEq
    simp only [Fingerprint.mk.injEq, Prod.mk.injEq] at sameKey
    exact sameKey.2
  have sameModel : job.model = task.job.model := congrArg CacheView.model sameView
  obtain ⟨ledger, ledgerMember, stored⟩ := written
  exact ⟨task, result, entry.computedNs, self,
    { finished := finished
      live := live
      waiting := waiting
      written := ⟨ledger, ledgerMember, receipt, stored, .refl _⟩
      payload := by rw [payload, sourcePayload]
      computed := computed
      young := ⟨completed, at_, young⟩
      historical := ⟨cacheable, historical, sourceCacheable, sourceHistorical⟩
      contract := ⟨contract, registered, by rw [← sameModel]; exact registered⟩
      query := Job.sameQuery_of_cacheView sameView }⟩

/-- Every cache hit of every run repeats the result of a call that the same
coordinator made before, for the same question. -/
theorem cache_hits_sound (caps : BudgetCaps) (steps : List CampaignStep) :
    ∀ ledger ∈ Campaign.history caps steps, ∀ key row, ledger.jobs.lookup key = some row →
      row.receipt.cacheHit = true →
        ∃ before answer after, steps = before ++ answer :: after ∧
          ∃ task result computedNs self,
            AnsweredBy caps before answer row.job row.receipt task result computedNs self := by
  induction steps using List.reverseRecOn with
  | nil =>
      intro ledger member key row found
      obtain rfl : ledger = .create caps := List.mem_singleton.mp member
      simp [Ledger.create] at found
  | append_singleton steps label ih =>
      intro ledger member key row found hit
      have earlier : ∀ ledger ∈ Campaign.history caps steps, ∀ old,
          ledger.jobs.lookup key = some old → old.job = row.job →
            old.receipt.SameAnswer row.receipt →
              ∃ before answer after, steps ++ [label] = before ++ answer :: after ∧
                ∃ task result computedNs self,
                  AnsweredBy caps before answer row.job row.receipt task result computedNs self := by
        intro ledger member old oldFound sameJob same
        obtain ⟨before, answer, after, rfl, task, result, computedNs, self, answered⟩ :=
          ih ledger member key old oldFound (same.1.symm.trans hit)
        rw [sameJob] at answered
        exact ⟨before, answer, after ++ [label], by simp, task, result, computedNs, self,
          answered.same same⟩
      have commits : Campaign.history caps (steps ++ [label]) = Campaign.history caps steps ++
          (((Campaign.fresh caps).run steps).step label).2 := by
        rw [Campaign.history_append]
        simp [Campaign.journal, runSteps]
      rw [commits] at member
      rcases List.mem_append.mp member with old | new
      · exact earlier ledger old row found rfl (.refl _)
      · have sound := Campaign.sound_run caps steps
        have since := isChain_preserves (fun state =>
            ((Campaign.fresh caps).run steps).ledger.Since
              (label.author .free ((Campaign.fresh caps).run steps)) state)
          (fun _ _ commit since => commit.since since) (sound.chain label) (.refl _ _) ledger
          (List.mem_cons_of_mem _ new)
        obtain ⟨old, oldFound, sameJob, same | ⟨queued, serves⟩⟩ := since.hit key row found hit
        · exact earlier _ (Campaign.run_ledger caps steps) old oldFound sameJob same
        · refine ⟨steps, label, [], rfl, answeredBy_of_serves serves ?_ ?_⟩
          · have stored : ((Campaign.fresh caps).run steps).ledger.Stored (old.job, old.receipt) := by
              have sameKey : old.key = key := Table.key_of_lookup oldFound
              rw [Ledger.Stored, show old.job.key = key from sameKey]
              exact oldFound
            rw [sameJob] at stored
            exact ⟨old.receipt, stored, queued⟩
          · refine ⟨ledger, new, ?_⟩
            have sameKey : row.key = key := Table.key_of_lookup found
            rw [Ledger.Stored, show row.job.key = key from sameKey]
            exact found

/-- The same historical query twice. -/
def Sample.repeated : List CampaignStep :=
  let query : JobFields := { Sample.fields with resultKind := .historical, cacheable := true }
  Sample.opening (fun _ => 10) ++
    [.act (.submit query), .act .tick, .act (.startTask Sample.job),
      .act (.finishTask Sample.job (Sample.reply 5)),
      .act (.submit { query with id := ⟨"again", by decide⟩ }), .act .tick]

/-- The second query is answered from the cache. -/
theorem cache_hits_sound_repeated :
    ∃ row ∈ ((Campaign.fresh Sample.config.caps).run Sample.repeated).ledger.jobs.rows,
      row.receipt.cacheHit = true ∧
        ∃ before answer after, Sample.repeated = before ++ answer :: after ∧
          ∃ task result computedNs self,
            AnsweredBy Sample.config.caps before answer row.job row.receipt task result
              computedNs self := by
  have answered :
      ∃ row ∈ ((Campaign.fresh Sample.config.caps).run Sample.repeated).ledger.jobs.rows,
        row.receipt.cacheHit = true := by
    decide +kernel
  obtain ⟨row, member, hit⟩ := answered
  exact ⟨row, member, hit,
    cache_hits_sound Sample.config.caps Sample.repeated _ (Campaign.run_ledger _ _) row.key row
      (Table.lookup_of_mem member) hit⟩

end AgminaRuntime
