import AgminaRuntime.HttpEndpoint
import AgminaRuntime.JournalReadable
import AgminaRuntime.LoadRun

/-!
# When a load plan is carried out

The sessions of a plan can always be opened.  From then on a load run goes to
its end exactly when the plan fits and nothing disturbs it: the identifiers,
times and payloads of its jobs are within their bounds, no two items of a
session name one observation for different evidence, and whenever an item is
submitted a coordinator lives and every stored receipt can be read.
-/

namespace AgminaRuntime

open Durable Durable.Program Keyed
open Json (Floats LawfulFloats Clean compactSize)

/-! ## The start and the sessions -/

section Opening

variable {ledger : Ledger} {self : Coordinator}

/-- A start on a fresh ledger finds nothing to recover. -/
theorem wp_start_fresh (self : Coordinator) :
    wp Runtime.start (fun _ _ => True)
      (fun _ after memory => after.jobs = .empty ∧ after.sessions = .empty ∧
        ∃ reads, memory = { self with reads := reads })
      (fun _ _ _ => False) (Ledger.create self.config.caps) self := by
  have noJobs : Store.readRows (Store.selectJobs
      ((Ledger.create self.config.caps).bindTenant self.config.tenant) self.config.tenant
        [.queued, .running]) = .ok [] := rfl
  have noAttempts : ((Ledger.create self.config.caps).bindTenant self.config.tenant).attempts.rows =
      [] := rfl
  have noSessions : ((Ledger.create self.config.caps).bindTenant self.config.tenant).sessions.rows =
      [] := rfl
  simp only [Runtime.start, Store.openLedger, Store.bindTenant, Store.recover, wp_bind,
    wp_readVolatile, wp_readDurable, wp_commit, wp_ite, wp_nowNs, wp_jobs_iff, wp_raise, wp_pure]
  rw [if_neg (by simp [Ledger.create]), if_neg (by simp [Ledger.create])]
  refine ⟨trivial, ?_⟩
  simp only [noJobs, noAttempts, noSessions, List.filter_nil, wp_bind, wp_forEach_nil,
    wp_readDurable, wp_nowNs, wp_event]
  exact ⟨trivial, rfl, rfl, _, rfl⟩

/-- A session that is not stored is opened. -/
theorem wp_openSession_new {sid revision : Name}
    (absent : ledger.sessions.lookup (self.config.tenant, sid) = none) :
    wp (Runtime.openSession sid.text revision.text) (fun _ _ => True)
      (fun session after _ => session.key = (self.config.tenant, sid) ∧
        after.sessions = (ledger.putSession session).sessions)
      (fun _ _ _ => False) ledger self := by
  have readSid : Name.parse sid.text = some sid := Name.parse_eq_some_iff.mpr rfl
  have readRevision : Name.parse revision.text = some revision := Name.parse_eq_some_iff.mpr rfl
  simp only [Runtime.openSession, wp_bind, wp_readVolatile, wp_nowNs, wp_readDurable, readSid,
    readRevision, Option.bind_some, absent, Runtime.nextEpoch]
  rw [if_neg (by simp)]
  simp only [wp_bind, wp_putSession, wp_event, wp_pure]
  exact ⟨trivial, trivial, rfl, rfl⟩

end Opening

theorem Ledger.Readable.parses {ledger : Ledger} (readable : ledger.Readable) :
    ledger.Parses := by
  intro row member
  have read : row.receipt.reparse = some row.receipt :=
    readable row.key row (Table.lookup_of_mem member)
  simp [read]

/-- An operation that does not end the process leaves its coordinator alive. -/
theorem Campaign.live_of_quietly {campaign : Campaign} {self : Coordinator} {action : Action}
    {α : Type} {program : RuntimeProgram α} (live : campaign.live = some self)
    (quiet : action.program = Action.quietly program)
    (survives : ∀ exception, (program campaign.ledger self).value = .error exception →
      exception.endsProcess = false) : (campaign.step (.act action)).1.live ≠ none := by
  have ordinary : Campaign.endsProcess (action.program campaign.ledger self).value = false := by
    simp only [quiet, Action.quietly, bind, Program.bind]
    split
    · rename_i exception failed
      exact survives exception failed
    · rfl
  simp [Campaign.step, live, ordinary]

namespace LoadRun

variable {φ τ : Type} [Floats φ] {run : LoadRun φ τ}

theorem ready_started : run.Ready [] [] run.started ∧ run.started.live ≠ none ∧
    run.started.ledger.sessions = .empty := by
  have meets := (wp_start_fresh run.args.memory).2
  have fresh : Ledger.create run.args.memory.config.caps =
      (Campaign.fresh run.args.config.caps).ledger := rfl
  rw [fresh] at meets
  split at meets
  · rename_i valueEq
    obtain ⟨jobs, sessions, reads, memory⟩ := meets
    have live : run.started.live =
        some (Runtime.start (Campaign.fresh run.args.config.caps).ledger run.args.memory).volatile := by
      simp only [started, Campaign.step, Campaign.fresh] at valueEq ⊢
      rw [valueEq]
    have sound : run.started.Sound := (Campaign.sound_fresh _).step _
    have lineage : run.started.ledger.Traced ∧ run.started.ledger.Sourced := by
      rw [started, Campaign.step_ledger]
      apply isChain_preserves (fun ledger => ledger.Traced ∧ ledger.Sourced) _
        ((Campaign.sound_fresh _).chain _) _ _ (last_mem _ _)
      · exact fun _ _ commit both => ⟨commit.traced both.1, commit.sourced both.2⟩
      · refine ⟨⟨?_, ?_⟩, ?_⟩
        · simp [Campaign.fresh, Ledger.create, Ledger.storedJobs]
        · simp [Campaign.fresh, Ledger.create, Ledger.storedJobs]
        · intro key row found
          contradiction
    refine ⟨⟨sound, lineage.1, lineage.2, ?_, ?_, by simp⟩, by simp [live], sessions⟩
    · intro job
      rw [Ledger.storedJobs, show run.started.ledger.jobs = .empty from jobs]
      simp
    · intro self selfLive
      rw [live, Option.mem_def, Option.some.injEq, memory] at selfLive
      rw [← selfLive]
      exact ⟨rfl, rfl⟩
  · exact absurd meets id

/-- The sessions of the plan are opened one after the other. -/
theorem Ready.openSessions {sids opened : List Name} {campaign : Campaign}
    (ready : run.Ready [] opened campaign) (live : campaign.live ≠ none) (distinct : sids.Nodup)
    (absent : ∀ sid ∈ sids,
      campaign.ledger.sessions.lookup (run.args.config.tenant, sid) = none) :
    ∃ sessions after, campaign.openSessions sids = some (sessions, after) ∧
      run.Ready [] (opened ++ sids) after ∧ after.live ≠ none ∧
        ∀ sid ∈ sids, ∃ session, sessions.lookup sid = some session ∧ session.id = sid := by
  induction sids generalizing campaign opened with
  | nil => exact ⟨[], campaign, rfl, by simpa using ready, live, by simp⟩
  | cons sid sids ih =>
      obtain ⟨self, selfLive⟩ := Option.ne_none_iff_exists'.mp live
      obtain ⟨config, -⟩ := ready.awake self selfLive
      have fresh := absent sid List.mem_cons_self
      rw [← config] at fresh
      let revision : Name := ⟨"load-v1", by decide⟩
      have ended := (wp_openSession_new fresh :
        wp (Runtime.openSession sid.text revision.text) _ _ _ _ _).2
      split at ended
      · rename_i session valueEq
        obtain ⟨key, sessions⟩ := ended
        have next : run.Ready [] opened
            (campaign.step (.act (.openSession sid.text "load-v1"))).1 :=
          ready.act (by simp) (by simp)
        have afterEq : (campaign.step (.act (.openSession sid.text "load-v1"))).1.ledger.sessions =
            (campaign.ledger.putSession session).sessions := by
          simp only [Campaign.step, selfLive, Action.program]
          rw [Action.quietly_durable]
          exact sessions
        have nextLive := Campaign.live_of_quietly selfLive
          (rfl : (Action.openSession sid.text "load-v1").program = _) fun exception failed => by
            rw [show (Runtime.openSession sid.text "load-v1" campaign.ledger self).value =
              .ok session from valueEq] at failed
            contradiction
        rw [config] at key
        have opens : run.Ready [] (opened ++ [sid])
            (campaign.step (.act (.openSession sid.text "load-v1"))).1 := by
          refine { next with opened := ?_ }
          intro other member
          rcases List.mem_append.mp member with earlier | own
          · exact next.opened other earlier
          · rw [List.mem_singleton.mp own, afterEq, campaign.ledger.lookup_putSession_of_eq key]
            rfl
        obtain ⟨rest, after, opensEq, last, lastLive, named⟩ := ih opens nextLive
          (List.nodup_cons.mp distinct).2 (by
            intro other member
            rw [afterEq, campaign.ledger.lookup_putSession_of_ne]
            · exact absent other (List.mem_cons_of_mem _ member)
            · intro same
              rw [key, Prod.mk.injEq] at same
              exact (List.nodup_cons.mp distinct).1 (same.2 ▸ member))
        refine ⟨(sid, session) :: rest, after, ?_, by simpa using last, lastLive, ?_⟩
        · simp only [Campaign.openSessions, Campaign.returned, selfLive, Option.bind_some]
          rw [show (Runtime.openSession sid.text "load-v1" campaign.ledger self).value = .ok session
            from valueEq]
          simp [Except.toOption, opensEq]
        · intro other member
          by_cases same : other = sid
          · refine ⟨session, by simp [same], ?_⟩
            rw [same]
            exact congrArg Prod.snd key
          · obtain ⟨found, foundEq, named⟩ := named other (by simpa [same] using member)
            refine ⟨found, ?_, named⟩
            rw [List.lookup_cons, beq_false_of_ne same]
            exact foundEq
      · exact absurd ended id

/-! ## The job of an item -/

/-- The job was built from the item for the session that the item names. -/
def Carries (run : LoadRun φ τ) (item : LoadItem φ) (job : Job) : Prop :=
  ∃ session : Session, session.id = item.session ∧
    item.Builds run.args.config.tenant session run.base job

/-- The item does not leave the bounds that only its job states. -/
structure Buildable (run : LoadRun φ τ) (item : LoadItem φ) : Prop where
  times : item.TimesFit run.base
  names : item.NamesFit
  payload : item.PayloadFits

theorem payloadFits_iff {item : LoadItem φ} {members : Dict φ}
    (accepted : strictJson item.payloadJson maxJsonBytes = .ok members) :
    item.PayloadFits ↔ compactSize (.obj members) ≤ maxJsonBytes := by
  constructor
  · exact fun fits => fits members accepted
  · intro within other otherAccepted
    obtain rfl := Except.ok.inj (accepted.symm.trans otherAccepted)
    exact within

/-- A job is read back from its own text, or not at all. -/
theorem reread_iff [LawfulFloats φ] {codec : FieldCodec τ} (lossless : codec.Lossless) {job : Job}
    {members : Dict φ} (clean : Clean maxNesting (.obj members))
    (same : job.payloadJson =
      String.ofList (Json.write Json.asciiInk (Json.sortKeys (.obj members)))) {again : Job} :
    Job.modelValidateJson φ codec (job.modelDumpJson codec) = .ok again ↔
      again = job ∧ compactSize (.obj members) ≤ maxJsonBytes := by
  have reads : Job.modelValidateJson φ codec (job.modelDumpJson codec) =
      job.toJobFields.construct φ job.payloadJson := by
    rw [Job.modelValidateJson, Job.modelDumpJson, lossless]
    rfl
  rw [reads, JobFields.construct, payloadObject_canonical clean same]
  by_cases large : maxJsonBytes < compactSize (.obj members)
  · rw [if_pos large]
    apply iff_of_false (by simp)
    exact fun both => absurd both.2 (not_le.mpr large)
  · have validated : job.toJobFields.validate = .ok job := job.validate_toJobFields
    simp only [if_neg large, validated, Except.ok.injEq]
    exact ⟨fun own => ⟨own.symm, not_lt.mp large⟩, fun both => both.1.symm⟩

theorem jobOf_eq_some_iff [LawfulFloats φ] (lossless : run.codec.Lossless)
    {sessions : List (Name × Session)} {item : LoadItem φ} {session : Session}
    (found : sessions.lookup item.session = some session) {job : Job} :
    run.jobOf sessions item = some job ↔
      item.job run.args.config.tenant session run.base = .ok job ∧ item.PayloadFits := by
  have unfolded : run.jobOf sessions item =
      (item.job run.args.config.tenant session run.base).toOption.bind fun job =>
        (Job.modelValidateJson φ run.codec (job.modelDumpJson run.codec)).toOption := by
    rw [jobOf, found]
    rfl
  rw [unfolded]
  cases builtEq : item.job run.args.config.tenant session run.base with
  | error exception => simp [Except.toOption]
  | ok built =>
      obtain ⟨members, accepted, same⟩ := (LoadItem.job_ok builtEq).payload
      obtain ⟨chars, -, -, object⟩ := strictJson_ok.mp accepted
      have reads := @reread_iff φ τ _ _ _ lossless built members (clean_of_strictObject object)
        same job
      rw [payloadFits_iff accepted, Except.ok.injEq]
      show (Job.modelValidateJson φ run.codec (built.modelDumpJson run.codec)).toOption =
        some job ↔ _
      rw [eq_comm (a := built), ← reads]
      cases Job.modelValidateJson φ run.codec (built.modelDumpJson run.codec) <;>
        simp [Except.toOption]

theorem jobOf_exists_iff [LawfulFloats φ] (lossless : run.codec.Lossless)
    {sessions : List (Name × Session)} {item : LoadItem φ} {session : Session}
    (found : sessions.lookup item.session = some session) :
    (∃ job, run.jobOf sessions item = some job) ↔ run.Buildable item := by
  simp only [jobOf_eq_some_iff lossless found, exists_and_right, LoadItem.job_exists_iff]
  constructor
  · rintro ⟨⟨times, names⟩, payload⟩
    exact ⟨times, names, payload⟩
  · exact fun buildable => ⟨⟨buildable.times, buildable.names⟩, buildable.payload⟩

theorem carries_of_jobOf [LawfulFloats φ] (lossless : run.codec.Lossless)
    {sessions : List (Name × Session)} {item : LoadItem φ} {session : Session}
    (found : sessions.lookup item.session = some session) (named : session.id = item.session)
    {job : Job} (built : run.jobOf sessions item = some job) : run.Carries item job :=
  ⟨session, named, LoadItem.job_ok ((jobOf_eq_some_iff lossless found).mp built).1⟩

section Carries

variable {item other : LoadItem φ} {job : Job}

theorem Carries.key (carries : run.Carries item job) :
    job.key = (run.args.config.tenant, item.id) := by
  obtain ⟨session, -, builds⟩ := carries
  rw [Job.key, builds.fills.tenant, builds.fills.id]

theorem Carries.session (carries : run.Carries item job) : job.sessionId = item.session := by
  obtain ⟨session, named, builds⟩ := carries
  exact builds.fills.sessionId.trans named

/-- The jobs of two items agree in their evidence exactly when the items do. -/
theorem Carries.agrees_iff (carries : run.Carries item job) {otherJob : Job}
    (otherCarries : run.Carries other otherJob) :
    (otherJob.tenant = job.tenant → otherJob.sessionId = job.sessionId →
      ∀ o ∈ job.observations, ∀ p ∈ otherJob.observations, o.id = p.id →
        o.toEvidence = p.toEvidence) ↔ item.Agrees run.base other := by
  have tenant : otherJob.tenant = job.tenant :=
    (congrArg Prod.fst otherCarries.key).trans (congrArg Prod.fst carries.key).symm
  rw [carries.session, otherCarries.session]
  obtain ⟨session, -, builds⟩ := carries
  obtain ⟨otherSession, -, otherBuilds⟩ := otherCarries
  rw [LoadItem.agrees_iff builds.states otherBuilds.states]
  constructor
  · exact fun agrees same => agrees tenant same.symm
  · exact fun agrees _ same => agrees same.symm

/-- The job of the next item can be submitted. -/
theorem Carries.fits (carries : run.Carries item job) {processed : List (LoadItem φ)}
    {done : List Job} (built : List.Forall₂ run.Carries processed done)
    (listed : item ∈ run.plan.jobs) (few : processed.length < run.plan.jobs.length)
    (fresh : ∀ other ∈ processed, other.id ≠ item.id) : run.Fits done run.sids job where
  tenant := congrArg Prod.fst carries.key
  fresh := by
    intro earlier member same
    obtain ⟨place, small, rfl⟩ := List.mem_iff_getElem.mp member
    have length := built.length_eq
    have earlierCarries := built.get (i := place) (by omega) small
    rw [List.get_eq_getElem, List.get_eq_getElem] at earlierCarries
    rw [earlierCarries.key, carries.key, Prod.mk.injEq] at same
    exact fresh _ (List.getElem_mem _) same.2
  registered := by
    obtain ⟨session, -, builds⟩ := carries
    rw [builds.fills.model]
    exact run.takes.models item listed
  room := by
    rw [← built.length_eq]
    exact few.trans_le run.takes.room
  session := by
    rw [carries.session]
    exact (run.sidsListed _).mpr ⟨item, listed, rfl⟩
  alone := by
    obtain ⟨session, -, builds⟩ := carries
    exact builds.fills.dependencies
  distinct := by
    obtain ⟨session, -, builds⟩ := carries
    exact builds.states.distinct

end Carries

/-! ## The whole run -/

theorem Carries.agreesWith_iff {item : LoadItem φ} {job : Job} (carries : run.Carries item job)
    {processed : List (LoadItem φ)} {done : List Job}
    (built : List.Forall₂ run.Carries processed done) :
    AgreesWith done job ↔ ∀ other ∈ processed, item.Agrees run.base other := by
  induction built with
  | nil => simp [AgreesWith]
  | cons first rest ih =>
      rw [List.forall_mem_cons, ← ih, ← carries.agrees_iff first]
      simp only [AgreesWith, List.forall_mem_cons]

/-- The items left can be submitted: each can be built, each agrees with the items
before it, and nothing disturbs the run. -/
structure Remaining (run : LoadRun φ τ) (sessions : List (Name × Session))
    (processed : List (LoadItem φ)) (place : Nat) (items : List (LoadItem φ))
    (campaign : Campaign) : Prop where
  buildable : ∀ item ∈ items, run.Buildable item
  apart : ∀ item ∈ items, ∀ other ∈ processed, item.Agrees run.base other
  ordered : items.Pairwise fun earlier later => later.Agrees run.base earlier
  undisturbed : run.UndisturbedFrom sessions place items campaign

/-- The loop over the items ends normally exactly when the items left can be
submitted. -/
theorem submitFrom_iff [LawfulFloats φ] (lossless : run.codec.Lossless)
    {sessions : List (Name × Session)}
    (named : ∀ sid ∈ run.sids, ∃ session, sessions.lookup sid = some session ∧ session.id = sid)
    {items processed : List (LoadItem φ)} {done : List Job} {place : Nat} {campaign : Campaign}
    (ready : run.Ready done run.sids campaign)
    (built : List.Forall₂ run.Carries processed done)
    (whole : (processed ++ items).Perm run.plan.jobs) :
    (∃ last, run.submitFrom sessions place items campaign = some last) ↔
      run.Remaining sessions processed place items campaign := by
  induction items generalizing processed done place campaign with
  | nil => exact iff_of_true ⟨campaign, rfl⟩ ⟨by simp, by simp, .nil, trivial⟩
  | cons item items ih =>
      have listed : item ∈ run.plan.jobs := whole.subset (by simp)
      have few : processed.length < run.plan.jobs.length := by
        rw [← whole.length_eq, List.length_append, List.length_cons]
        omega
      have fresh : ∀ other ∈ processed, other.id ≠ item.id := by
        intro other member same
        have distinct := (whole.map LoadItem.id).nodup_iff.mpr run.plan.unique
        rw [List.map_append, List.map_cons, List.nodup_append] at distinct
        exact distinct.2.2 _ (List.mem_map_of_mem member) _ List.mem_cons_self same
      obtain ⟨session, found, sessionId⟩ :=
        named item.session ((run.sidsListed _).mpr ⟨item, listed, rfl⟩)
      have wholeNext : (processed ++ [item] ++ items).Perm run.plan.jobs := by
        rwa [List.append_assoc, List.singleton_append]
      have paused := ready.paused place
      have later : ∀ {job receipt}, run.jobOf sessions item = some job →
          (run.paused place campaign).returned (Runtime.submit job.toJobFields) = some receipt →
            ((∃ last, run.submitFrom sessions (place + 1) items
                ((run.paused place campaign).step (.act (.submit job.toJobFields))).1 = some last) ↔
              run.Remaining sessions (processed ++ [item]) (place + 1) items
                ((run.paused place campaign).step (.act (.submit job.toJobFields))).1) := by
        intro job receipt jobEq returned
        have carries := carries_of_jobOf lossless found sessionId jobEq
        exact ih (paused.submit (carries.fits built listed few fresh) returned)
          (List.rel_append built (.cons carries .nil)) wholeNext
      constructor
      · rintro ⟨last, ended⟩
        simp only [submitFrom, Option.bind_eq_bind, Option.bind_eq_some_iff] at ended
        obtain ⟨job, jobEq, receipt, returned, ended⟩ := ended
        have carries := carries_of_jobOf lossless found sessionId jobEq
        obtain ⟨live, parses, agrees⟩ :=
          (paused.returned_iff (carries.fits built listed few fresh)).mp ⟨receipt, returned⟩
        obtain ⟨buildable, apart, ordered, undisturbed⟩ :=
          (later jobEq returned).mp ⟨last, ended⟩
        rw [carries.agreesWith_iff built] at agrees
        refine ⟨?_, ?_, ?_, live, parses, ?_⟩
        · rw [List.forall_mem_cons]
          exact ⟨(jobOf_exists_iff lossless found).mp ⟨job, jobEq⟩, buildable⟩
        · rw [List.forall_mem_cons]
          exact ⟨agrees, fun other member earlier processed_ =>
            apart other member earlier (List.mem_append_left _ processed_)⟩
        · rw [List.pairwise_cons]
          exact ⟨fun other member => apart other member item (by simp), ordered⟩
        · intro other otherEq
          obtain rfl : job = other := Option.some.inj (jobEq.symm.trans otherEq)
          exact undisturbed
      · rintro ⟨buildable, apart, ordered, live, parses, undisturbed⟩
        rw [List.forall_mem_cons] at buildable apart
        rw [List.pairwise_cons] at ordered
        obtain ⟨job, jobEq⟩ := (jobOf_exists_iff lossless found).mpr buildable.1
        have carries := carries_of_jobOf lossless found sessionId jobEq
        obtain ⟨receipt, returned⟩ :=
          (paused.returned_iff (carries.fits built listed few fresh)).mpr
            ⟨live, parses, (carries.agreesWith_iff built).mpr apart.1⟩
        obtain ⟨last, ended⟩ := (later jobEq returned).mpr ⟨buildable.2, by
          intro other member earlier earlierMember
          rcases List.mem_append.mp earlierMember with before | own
          · exact apart.2 other member earlier before
          · rw [List.mem_singleton.mp own]
            exact ordered.1 other member, ordered.2, undisturbed job jobEq⟩
        refine ⟨last, ?_⟩
        simp only [submitFrom, Option.bind_eq_bind, Option.bind_eq_some_iff]
        exact ⟨job, jobEq, receipt, returned, ended⟩

theorem order_perm : run.order.Perm run.plan.jobs :=
  List.mergeSort_perm _ _

/-- All pairs of items agree if each agrees with those before it. -/
theorem evidence_iff : run.order.Pairwise (fun earlier later => later.Agrees run.base earlier) ↔
    ∀ item ∈ run.plan.jobs, ∀ other ∈ run.plan.jobs, item.Agrees run.base other := by
  constructor
  · intro ordered item listed other otherListed
    have symmetric : Std.Symm fun earlier later : LoadItem φ => later.Agrees run.base earlier :=
      ⟨fun _ _ agrees => agrees.symm⟩
    apply List.Pairwise.forall_of_forall _ ordered
    · exact order_perm.mem_iff.mpr otherListed
    · exact order_perm.mem_iff.mpr listed
    · exact fun own _ => own.agrees_self
  · intro all
    apply List.pairwise_of_forall_mem_list
    intro earlier member later laterMember
    exact all later (order_perm.mem_iff.mp laterMember) earlier (order_perm.mem_iff.mp member)

/-- While nothing else runs, submissions keep the coordinator alive and the journal
readable. -/
theorem undisturbedFrom_of_unpaused (unpaused : ∀ place, run.pauses place = [])
    {sessions : List (Name × Session)} {place : Nat} {items : List (LoadItem φ)}
    {campaign : Campaign} (sound : campaign.Sound) (live : campaign.live ≠ none)
    (readable : campaign.ledger.Readable) : run.UndisturbedFrom sessions place items campaign := by
  induction items generalizing place campaign with
  | nil => trivial
  | cons item items ih =>
      have still : run.paused place campaign = campaign := by
        rw [paused, unpaused]
        rfl
      rw [UndisturbedFrom, still]
      refine ⟨live, readable.parses, fun job _ => ih (sound.step _) ?_
        (sound.readable_step (fun _ _ => trivial) readable)⟩
      obtain ⟨self, selfLive⟩ := Option.ne_none_iff_exists'.mp live
      apply Campaign.live_of_quietly selfLive rfl
      intro exception failed
      have ended := (wp_submit (sound.live self selfLive) job.toJobFields).2
      rw [failed] at ended
      exact ended.2.2

/-- A run without pauses is undisturbed. -/
theorem undisturbed_of_unpaused (unpaused : ∀ place, run.pauses place = []) :
    run.Undisturbed := by
  intro sessions campaign opens
  obtain ⟨ready, live, empty⟩ := run.ready_started
  obtain ⟨others, other, otherOpens, opened, otherLive, -⟩ :=
    ready.openSessions live run.sidsDistinct fun sid _ => by
      rw [empty]
      rfl
  rw [opens, Option.some.injEq, Prod.mk.injEq] at otherOpens
  obtain ⟨rfl, rfl⟩ := otherOpens
  apply undisturbedFrom_of_unpaused unpaused opened.sound otherLive
  intro key row found
  have stored := (opened.stored row.job).mp (campaign.ledger.storedJob_of_lookup found)
  contradiction

end LoadRun

/-- A load run goes to its end exactly when its plan fits and nothing disturbs it. -/
theorem load_plan_completes_iff {φ τ : Type} [Floats φ] [LawfulFloats φ] (run : LoadRun φ τ)
    (lossless : run.codec.Lossless) :
    run.Completes ↔ run.plan.Fits run.base ∧ run.Undisturbed := by
  obtain ⟨ready, live, sessions⟩ := run.ready_started
  obtain ⟨opened, campaign, opens, openReady, -, named⟩ :=
    ready.openSessions live run.sidsDistinct fun sid _ => by
      rw [sessions]
      rfl
  have loop : (∃ last, run.submitFrom opened 0 run.order campaign = some last) ↔
      run.Remaining opened [] 0 run.order campaign :=
    LoadRun.submitFrom_iff lossless named openReady .nil run.order_perm
  have undisturbed : run.Undisturbed ↔ run.UndisturbedFrom opened 0 run.order campaign := by
    constructor
    · exact fun undisturbed => undisturbed opened campaign opens
    · intro undisturbed others other otherOpens
      rw [opens, Option.some.injEq, Prod.mk.injEq] at otherOpens
      obtain ⟨rfl, rfl⟩ := otherOpens
      exact undisturbed
  have completes : run.Completes ↔
      ∃ last, run.submitFrom opened 0 run.order campaign = some last := by
    constructor
    · rintro ⟨others, other, last, otherOpens, ended⟩
      rw [opens, Option.some.injEq, Prod.mk.injEq] at otherOpens
      obtain ⟨rfl, rfl⟩ := otherOpens
      exact ⟨last, ended⟩
    · rintro ⟨last, ended⟩
      exact ⟨opened, campaign, last, opens, ended⟩
  rw [completes, loop, undisturbed]
  constructor
  · rintro ⟨buildable, -, ordered, undisturbed⟩
    have each := fun item listed => buildable item (run.order_perm.mem_iff.mpr listed)
    exact ⟨⟨fun item listed => (each item listed).times, fun item listed => (each item listed).names,
      fun item listed => (each item listed).payload, run.evidence_iff.mp ordered⟩, undisturbed⟩
  · rintro ⟨fits, undisturbed⟩
    refine ⟨fun item member => ?_, by simp, run.evidence_iff.mpr fits.evidence, undisturbed⟩
    have listed := run.order_perm.mem_iff.mp member
    exact ⟨fits.times item listed, fits.names item listed, fits.payloads item listed⟩

namespace Sample

/-- A short item, for a given identifier. -/
def loadItem (id : Name) : LoadItem Json.Verbatim where
  id := id
  session := session
  model := model
  workload := .semantic
  releaseMs := 0
  deadlineAfterMs := 1000
  profileCaptureLagMs := 0
  resultKind := .historical
  maxAgeMs := none
  evidenceHashes := [observation.sha256]
  observationIds := none
  operation := ⟨"paced_load", by decide⟩
  replaceKey := none
  discardable := false
  cacheable := false
  payloadJson := "{}"
  releaseBounded := by decide
  deadlineBounded := by decide
  lagBounded := by decide
  ageBounded := by simp
  hashesBounded := by decide
  payloadValid := ⟨[], strictJson_empty (by decide)⟩
  currentBound := by simp
  idsMatch := by simp
  replaceDiscards := by simp
  policyKept := by simp
  cacheHistorical := by simp

/-- The plan with that item alone. -/
def loadPlan (id : Name) : LoadPlan Json.Verbatim := ⟨[loadItem id], by simp, by simp⟩

/-- A run of the plan without pauses. -/
def loadRun (id : Name) : LoadRun Json.Verbatim JobFields where
  args := args firstClock fun _ => 10
  plan := loadPlan id
  codec := .plain
  sids := [session]
  base := 10
  pauses := fun _ => []
  takes := by
    constructor
    · intro item listed
      rw [List.mem_singleton.mp listed]
      show config.modelContract model ≠ none
      decide
    · show 1 ≤ 1000
      decide
  sidsListed := by
    intro sid
    simp [loadPlan, loadItem, eq_comm]
  sidsDistinct := by simp
  background := by simp

theorem loadRun_order (id : Name) : (loadRun id).order = [loadItem id] := by
  simp [LoadRun.order, loadRun, loadPlan]

/-- As long as an identifier can be. -/
def longName : Name := ⟨String.ofList (List.replicate 160 'a'), by decide +kernel⟩

def laterItem : Name := ⟨"later-item", by decide⟩

/-- An item that names its observation. -/
def sharedItem (id : Name) : LoadItem Json.Verbatim :=
  { loadItem id with
    observationIds := some [observation.id]
    idsMatch := by
      intro ids named
      cases named
      exact ⟨rfl, List.nodup_singleton _⟩ }

/-- The one place of either item shows the same hash at the same times. -/
theorem sharedItem_agrees (id other : Name) : (sharedItem id).Agrees 10 (sharedItem other) := by
  intro _ place sha otherPlace otherSha found otherFound _
  have found : [observation.sha256][place]? = some sha := found
  have otherFound : [observation.sha256][otherPlace]? = some otherSha := otherFound
  rw [List.getElem?_singleton, Option.ite_none_right_eq_some] at found otherFound
  obtain ⟨rfl, shown⟩ := found
  obtain ⟨rfl, otherShown⟩ := otherFound
  exact ⟨rfl, Option.some.inj (shown.symm.trans otherShown), rfl, rfl⟩

/-- Two items of one session show the same observation. -/
def sharedPlan : LoadPlan Json.Verbatim where
  jobs := [sharedItem job, sharedItem laterItem]
  bounded := by simp
  unique := by decide

/-- A run of that plan without pauses. -/
def sharedRun : LoadRun Json.Verbatim JobFields :=
  { loadRun job with
    plan := sharedPlan
    takes := by
      refine ⟨fun item listed => ?_, by decide⟩
      rcases List.mem_pair.mp listed with rfl | rfl <;>
        exact (by decide : config.modelContract model ≠ none)
    sidsListed := by
      intro sid
      simp [sharedPlan, sharedItem, loadRun, loadItem, eq_comm] }

end Sample

/-- The identifier that `run_load` derives from one of 160 characters is too long. -/
theorem load_plan_stops :
    (Sample.loadRun Sample.longName).Undisturbed ∧
      ¬ (Sample.loadRun Sample.longName).Completes := by
  refine ⟨LoadRun.undisturbed_of_unpaused fun _ => rfl, ?_⟩
  rintro ⟨sessions, campaign, last, -, ended⟩
  rw [Sample.loadRun_order] at ended
  simp only [LoadRun.submitFrom, Option.bind_eq_bind, Option.bind_eq_some_iff] at ended
  obtain ⟨job, jobEq, -⟩ := ended
  simp only [LoadRun.jobOf, Option.bind_eq_bind, Option.bind_eq_some_iff] at jobEq
  obtain ⟨session, -, built, builtEq, -⟩ := jobEq
  have names : (Sample.loadItem Sample.longName).NamesFit := by
    cases made : (Sample.loadItem Sample.longName).job
        (Sample.loadRun Sample.longName).args.config.tenant session
        (Sample.loadRun Sample.longName).base with
    | error exception =>
        rw [made] at builtEq
        contradiction
    | ok job => exact (LoadItem.job_exists_iff.mp ⟨job, made⟩).2
  have short := names rfl 0 (by decide)
  revert short
  decide +kernel

/-- Two items may show the same observation. -/
theorem load_plan_completes_short : Sample.sharedRun.Completes := by
  have complete := load_plan_completes_iff Sample.sharedRun fun _ => rfl
  refine complete.mpr ⟨⟨?_, ?_, ?_, ?_⟩, LoadRun.undisturbed_of_unpaused fun _ => rfl⟩
  · intro item listed
    rcases List.mem_pair.mp listed with rfl | rfl <;>
      exact (by decide : 10 + 0 * 1000000 + 1000 * 1000000 < 2 ^ 63)
  · intro item listed
    rcases List.mem_pair.mp listed with rfl | rfl <;>
      · intro unnamed
        contradiction
  · intro item listed
    have members : strictJson (φ := Json.Verbatim) item.payloadJson maxJsonBytes = .ok [] := by
      rcases List.mem_pair.mp listed with rfl | rfl <;> exact strictJson_empty (by decide)
    apply (LoadRun.payloadFits_iff members).mpr
    decide
  · intro item listed other otherListed
    rcases List.mem_pair.mp listed with rfl | rfl <;>
      rcases List.mem_pair.mp otherListed with rfl | rfl <;> exact Sample.sharedItem_agrees _ _

end AgminaRuntime
