import AgminaRuntime.CoordinatorRules

/-!
# Starting on an existing ledger

Recovery works from the journal alone: it ends every live job, gives up every
reservation, and closes every session, so a new coordinator begins with
nothing in flight.  On the way it quarantines each pool on which the journal
still shows an attempt that may be running.
-/

namespace AgminaRuntime

open Durable Durable.Program Keyed

/-- Nothing is waiting, in flight or open. -/
structure Ledger.Quiet (ledger : Ledger) : Prop where
  rows : ∀ key row, ledger.jobs.lookup key = some row → row.receipt.state.isLive = false
  attempts : ∀ key attempt, ledger.attempts.lookup key = some attempt →
    attempt.disposition ≠ .reserved
  sessions : ∀ key session, ledger.sessions.lookup key = some session → session.state = .closed

/-- The journal shows an attempt on the pool that may be running: it is still
reserved, or the receipt of its job still says RUNNING. -/
def Ledger.Traces (ledger : Ledger) (pool : Name) : Prop :=
  ∃ attempt ∈ ledger.attempts.rows, attempt.pool = pool ∧
    (attempt.disposition = .reserved ∨
      ∃ row ∈ ledger.jobs.lookup attempt.key, row.receipt.state = .running)

instance (ledger : Ledger) (pool : Name) : Decidable (ledger.Traces pool) :=
  inferInstanceAs (Decidable (∃ attempt ∈ ledger.attempts.rows, attempt.pool = pool ∧
    (attempt.disposition = .reserved ∨
      ∃ row ∈ ledger.jobs.lookup attempt.key, row.receipt.state = .running)))

/-- Recovery will leave the pool quarantined. -/
def Ledger.Guards (ledger : Ledger) (pool : Name) : Prop :=
  pool ∈ ledger.quarantined ∨ ledger.Traces pool

instance (ledger : Ledger) (pool : Name) : Decidable (ledger.Guards pool) :=
  inferInstanceAs (Decidable (pool ∈ ledger.quarantined ∨ ledger.Traces pool))

section Recovery

variable {μ : Type} {ledger : Ledger} {self : μ} {tenant : Name} {clean : Bool}
  {raised : PyExc → Ledger → μ → Prop}

/-- A change of one job and its attempt keeps the guarded pools, when it keeps
that of the attempt. -/
theorem Ledger.Guards.frame {before after : Ledger} {key : Name × Name} {pool : Name}
    (guards : before.Guards pool) (others : before.SameBut key after)
    (otherAttempts : ∀ other, other ≠ key →
      after.attempts.lookup other = before.attempts.lookup other)
    (quarantined : ∀ pool ∈ before.quarantined, pool ∈ after.quarantined)
    (own : ∀ attempt, before.attempts.lookup key = some attempt →
      (attempt.disposition = .reserved ∨
        ∃ row, before.jobs.lookup key = some row ∧ row.receipt.state = .running) →
      after.Guards attempt.pool) : after.Guards pool := by
  rcases guards with old | ⟨attempt, member, rfl, traced⟩
  · exact .inl (quarantined pool old)
  · have found := Table.lookup_of_mem member
    by_cases same : attempt.key = key
    · rw [same] at found traced
      exact own attempt found traced
    · have kept : after.attempts.lookup attempt.key = some attempt :=
        (otherAttempts _ same).trans found
      refine .inr ⟨attempt, Table.mem_of_lookup kept, rfl, ?_⟩
      rwa [others _ same]

/-! ## One recovered job -/

theorem wp_recoverRunning {guarantee : Ledger → Ledger → Prop}
    {normal : Unit → Ledger → μ → Prop} {job : Job} {old : Receipt}
    (skips : (old.state = .running → ledger.attempts.lookup job.key = none) →
      normal () ledger self)
    (reholds : ∀ attempt, old.state = .running → ledger.attempts.lookup job.key = some attempt →
      let quarantined := ledger.quarantinePool attempt.pool "restart_with_unconfirmed_remote_work"
      guarantee ledger quarantined ∧
        guarantee quarantined (quarantined.settleAttempt job.key none) ∧
          normal () (quarantined.settleAttempt job.key none) self) :
    wp (Store.recoverRunning job.tenant job old) guarantee normal raised ledger self := by
  unfold Store.recoverRunning
  rw [wp_ite]
  split
  · rename_i isRunning
    simp only [wp_bind, wp_readDurable]
    cases found : ledger.attempts.lookup (job.tenant, job.id) with
    | none => exact (wp_pure _).mpr (skips fun _ => found)
    | some attempt =>
        obtain ⟨quarantines, settles, returns⟩ := reholds attempt isRunning found
        simp only [wp_bind, wp_quarantine, wp_settle, Option.bind_none]
        exact ⟨quarantines, settles, returns⟩
  · rename_i notRunning
    exact (wp_pure _).mpr (skips fun isRunning => absurd isRunning notRunning)

/-- What the recovery of one job leaves. -/
structure Recovered (before : Ledger) (key : Name × Name) (after : Ledger) : Prop where
  sound : after.Sound
  tenant : after.tenant = before.tenant
  others : before.SameBut key after
  ended : ∀ row, after.jobs.lookup key = some row → row.receipt.state.isLive = false
  otherAttempts : ∀ other, other ≠ key →
    after.attempts.lookup other = before.attempts.lookup other
  guards : ∀ pool, before.Guards pool → after.Guards pool

theorem Recovered.note {before after : Ledger} {key : Name × Name}
    (recovered : Recovered before key after) (atNs : Ns) (kind : Event) :
    Recovered before key (after.note atNs kind) :=
  { recovered with sound := recovered.sound.note atNs kind }

theorem wp_recoverJob (now : Ns) {entry : Job × Receipt} (sound : ledger.Sound)
    (bound : ledger.tenant = some tenant) (stored : ledger.Stored entry)
    (alive : entry.2.state.isLive = true) (settledEnded : clean = true → ledger.SettledEnded) :
    wp (Store.recoverJob tenant now entry) (Commit (.recovery clean))
      (fun _ after memory => Recovered ledger entry.1.key after ∧ memory = self)
      raised ledger self := by
  obtain ⟨job, old⟩ := entry
  let row : JobRow := ⟨job, old⟩
  have rowFound : ledger.jobs.lookup row.key = some row := stored
  have rowSound := sound.rows _ _ rowFound
  obtain rfl : tenant = job.tenant := by
    have rowBound := rowSound.tenant
    rw [bound, Option.some.injEq] at rowBound
    exact rowBound
  let state : JobState := if old.state = .running then .unknown else .cancelled
  have dead : state.isDead = true := by
    show JobState.isDead (if old.state = .running then .unknown else .cancelled) = true
    split <;> rfl
  have accepted : state ≠ .rejected := by
    show (if old.state = .running then JobState.unknown else .cancelled) ≠ .rejected
    split <;> simp
  have edge : state ∈ row.receipt.state.successors := by
    show (if old.state = .running then JobState.unknown else .cancelled) ∈ old.state.successors
    have cases := alive
    cases stateEq : old.state <;> simp_all [JobState.isLive, JobState.successors]
  let invalidated : Receipt :=
    { old with state := state, reason := some (PyStr.ofString "coordinator_restart") }
  have sameJob : invalidated.jobId = row.job.id := rowSound.sameJob
  have sparedBefore : invalidated.spared = true → old.spared = true :=
    Receipt.spared_of_moved rfl accepted
  have commit : Commit (.recovery clean) ledger (ledger.writeReceipt row.job.tenant invalidated) :=
    .write rowFound sameJob
      (rowSound.complete.moved (rowSound.complete.readable alive) edge dead "coordinator_restart")
      (.inl edge) (fun _ succeeded => by
        rw [show state = .succeeded from succeeded] at dead
        contradiction) (fun spared => .inl (sparedBefore spared))
      (fun _ => (rowSound.complete.readable alive).moved state "coordinator_restart")
      (fun _ => .inl ⟨rfl, rfl, rfl, rfl⟩)
  have ended : ∀ other, (ledger.writeReceipt row.job.tenant invalidated).jobs.lookup row.key =
      some other → other.receipt.state.isLive = false := by
    intro other found
    rw [Ledger.lookup_writeReceipt_self rowFound sameJob, Option.some.injEq] at found
    rw [← found]
    exact JobState.isLive_of_isDead dead
  have others : ledger.SameBut row.key (ledger.writeReceipt row.job.tenant invalidated) :=
    fun other differs => Ledger.lookup_writeReceipt_of_ne sameJob differs
  simp only [Store.recoverJob, wp_bind, wp_receipt]
  refine ⟨commit, wp_recoverRunning ?_ ?_⟩
  · intro unattempted
    simp only [wp_event]
    refine ⟨.note _ _, Recovered.note ?_ _ _, trivial⟩
    refine ⟨commit.sound sound, rfl, others, ended, fun _ _ => rfl, ?_⟩
    intro pool guards
    refine guards.frame others (fun _ _ => rfl) (fun _ member => member) ?_
    intro attempt found traced
    refine .inr ⟨attempt, Table.mem_of_lookup found, rfl, .inl ?_⟩
    rcases traced with reserved | ⟨other, otherFound, isRunning⟩
    · exact reserved
    · obtain rfl : other = row := Option.some.inj (otherFound.symm.trans rowFound)
      rw [show ledger.attempts.lookup row.key = none from unattempted isRunning] at found
      contradiction
  · intro attempt isRunning found quarantined
    have keyEq : attempt.key = row.key := Table.key_of_lookup found
    have attemptFound : ledger.attempts.lookup attempt.key = some attempt := by
      rw [keyEq]
      exact found
    have quarantines : Commit (.recovery clean) _ quarantined := .quarantine _ _
    have reholds : Commit (.recovery clean) quarantined
        (quarantined.settleAttempt row.key none) := by
      rw [← keyEq]
      refine .rehold attemptFound ?_
      intro isClean
      cases actualEq : attempt.actual with
      | none => rfl
      | some charge =>
          exfalso
          refine settledEnded isClean attempt (Table.mem_of_lookup found)
            (by rw [actualEq]; rfl) row ?_ isRunning
          rw [keyEq]
          exact rowFound
    refine ⟨quarantines, reholds, ?_⟩
    simp only [wp_event]
    refine ⟨.note _ _, Recovered.note ?_ _ _, trivial⟩
    refine ⟨reholds.sound (quarantines.sound (commit.sound sound)), rfl, others, ended,
      fun _ differs => Ledger.lookup_settleAttempt_of_ne none differs, ?_⟩
    intro pool guards
    have kept : ∀ other ∈ ledger.quarantined,
        other ∈ (quarantined.settleAttempt row.key none).quarantined :=
      fun _ member => (Ledger.mem_quarantined_quarantinePool _).mpr (.inr member)
    refine guards.frame others (fun _ differs => Ledger.lookup_settleAttempt_of_ne none differs)
      kept ?_
    intro other otherFound _
    obtain rfl : other = attempt := Option.some.inj (otherFound.symm.trans found)
    exact .inl ((Ledger.mem_quarantined_quarantinePool _).mpr (.inl rfl))

/-! ## The three loops of recovery -/

theorem wp_recoverJobs (now : Ns) (sound : ledger.Sound) (bound : ledger.tenant = some tenant)
    (settledEnded : clean = true → ledger.SettledEnded) {entries : List (Job × Receipt)}
    (reads : Reads ledger tenant [.queued, .running] entries) :
    wp (forEach entries (Store.recoverJob tenant now)) (Commit (.recovery clean))
      (fun _ after memory => after.Sound ∧ after.tenant = some tenant ∧
        (∀ key row, after.jobs.lookup key = some row → row.receipt.state.isLive = false) ∧
          (∀ pool, ledger.Guards pool → after.Guards pool) ∧ memory = self)
      raised ledger self := by
  refine wp_post (wp_forEach_stored id
    (fun rest after memory => after.Sound ∧ after.tenant = some tenant ∧
      (∀ entry ∈ rest, entry.2.state.isLive = true) ∧
        (∀ key row, after.jobs.lookup key = some row → row.receipt.state.isLive = true →
          ∃ entry ∈ rest, entry.1.key = key) ∧
          (clean = true → after.SettledEnded) ∧
            (∀ pool, ledger.Guards pool → after.Guards pool) ∧ memory = self)
    ?_ reads.stored reads.distinct
    ⟨sound, bound, ?_, ?_, settledEnded, fun _ guards => guards, rfl⟩) ?_
    (fun _ _ _ failed => failed)
  · rintro entry rest middle memory ⟨sound, bound, alive, live, settledEnded, guards, rfl⟩ stored
    refine wp_post (wp_recoverJob now sound bound stored (alive entry List.mem_cons_self)
      settledEnded) ?_ (fun _ _ _ failed => failed)
    rintro _ after _ ⟨recovered, rfl⟩
    refine ⟨⟨recovered.sound, recovered.tenant.trans bound,
      fun other member => alive other (List.mem_cons_of_mem _ member), ?_, ?_,
      fun pool guarded => recovered.guards pool (guards pool guarded), rfl⟩, recovered.others⟩
    · intro key row found rowLive
      by_cases same : key = entry.1.key
      · rw [same] at found
        rw [recovered.ended row found] at rowLive
        contradiction
      · rw [recovered.others key same] at found
        obtain ⟨other, member, sameKey⟩ := live key row found rowLive
        rcases List.mem_cons.mp member with rfl | later
        · exact absurd sameKey.symm same
        · exact ⟨other, later, sameKey⟩
    · intro isClean attempt member settled row found
      have attemptFound := Table.lookup_of_mem member
      by_cases same : attempt.key = entry.1.key
      · have ended := recovered.ended row (by rw [← same]; exact found)
        intro isRunning
        rw [isRunning] at ended
        contradiction
      · rw [recovered.otherAttempts _ same] at attemptFound
        refine settledEnded isClean attempt (Table.mem_of_lookup attemptFound) settled row ?_
        rw [← recovered.others _ same]
        exact found
  · intro entry member
    have state := reads.selected entry member
    simp only [List.mem_cons, List.not_mem_nil, or_false] at state
    rcases state with queued | running
    · rw [queued]; rfl
    · rw [running]; rfl
  · intro key row found rowLive
    refine ⟨(row.job, row.receipt), reads.complete key row found ?_, ?_⟩
    · cases stateEq : row.receipt.state <;> simp_all [JobState.isLive]
    · exact (Table.key_of_lookup found : row.key = key)
  · rintro _ after memory ⟨sound, bound, -, live, -, guards, rfl⟩
    refine ⟨sound, bound, ?_, guards, rfl⟩
    intro key row found
    rw [← Bool.not_eq_true]
    intro rowLive
    obtain ⟨_, member, -⟩ := live key row found rowLive
    simp at member

/-- Giving up reservations, with those still to come. -/
structure GivesUp (before : Ledger) (reserved rest : List Attempt) (after : Ledger) : Prop where
  sound : after.Sound
  tenant : after.tenant = before.tenant
  jobs : after.jobs = before.jobs
  present : ∀ attempt ∈ rest, (after.attempts.lookup attempt.key).isSome = true
  coming : ∀ key attempt, after.attempts.lookup key = some attempt →
    attempt.disposition = .reserved → ∃ other ∈ rest, other.key = key
  quarantined : ∀ pool, (pool ∈ before.quarantined ∨ ∃ attempt ∈ reserved, attempt.pool = pool) →
    pool ∈ after.quarantined ∨ ∃ attempt ∈ rest, attempt.pool = pool

theorem wp_recoverAttempt (now : Ns) {before : Ledger} {reserved rest : List Attempt}
    {attempt : Attempt} (givesUp : GivesUp before reserved (attempt :: rest) ledger)
    (sameTenant : attempt.tenant = tenant) :
    wp (Store.recoverAttempt tenant now attempt) (Commit (.recovery clean))
      (fun _ after memory => GivesUp before reserved rest after ∧ memory = self)
      raised ledger self := by
  subst sameTenant
  obtain ⟨stored, found⟩ :=
    Option.isSome_iff_exists.mp (givesUp.present attempt List.mem_cons_self)
  have keyEq : stored.key = attempt.key := Table.key_of_lookup found
  simp only [Store.recoverAttempt, wp_bind, wp_quarantine, wp_commit, wp_event]
  let quarantined := ledger.quarantinePool attempt.pool "restart_with_unconfirmed_reserved_work"
  have quarantines : Commit (.recovery clean) ledger quarantined := .quarantine _ _
  have abandons : Commit (.recovery clean) quarantined (quarantined.abandonAttempt attempt.key) := by
    rw [← keyEq] at found ⊢
    exact .abandon found
  have lookup : ∀ key, (quarantined.abandonAttempt attempt.key).attempts.lookup key =
      if key = attempt.key then some stored.abandon else ledger.attempts.lookup key := by
    intro key
    rw [Ledger.lookup_abandonAttempt, show quarantined.attempts = ledger.attempts from rfl, found]
    rfl
  refine ⟨quarantines, abandons, .note _ _, ?_, trivial⟩
  refine
    { sound := (abandons.sound (quarantines.sound givesUp.sound)).note _ _
      tenant := givesUp.tenant
      jobs := givesUp.jobs
      present := ?_
      coming := ?_
      quarantined := ?_ }
  · intro other member
    refine (congrArg Option.isSome (lookup other.key)).trans ?_
    split
    · rfl
    · exact givesUp.present other (List.mem_cons_of_mem _ member)
  · intro key other otherFound disposition
    have looked := (lookup key).symm.trans otherFound
    split at looked
    · rw [Option.some.injEq] at looked
      rw [← looked] at disposition
      contradiction
    · rename_i differs
      obtain ⟨next, member, sameKey⟩ := givesUp.coming key other looked disposition
      rcases List.mem_cons.mp member with rfl | later
      · exact absurd sameKey.symm differs
      · exact ⟨next, later, sameKey⟩
  · intro pool was
    rcases givesUp.quarantined pool was with now | ⟨other, member, rfl⟩
    · exact .inl ((Ledger.mem_quarantined_quarantinePool _).mpr (.inr now))
    · rcases List.mem_cons.mp member with rfl | later
      · exact .inl ((Ledger.mem_quarantined_quarantinePool _).mpr (.inl rfl))
      · exact .inr ⟨other, later, rfl⟩

theorem wp_recoverAttempts (now : Ns) (sound : ledger.Sound) (bound : ledger.tenant = some tenant) :
    wp (forEach (ledger.attempts.rows.filter fun attempt =>
        attempt.tenant = tenant ∧ attempt.disposition = .reserved)
        (Store.recoverAttempt tenant now)) (Commit (.recovery clean))
      (fun _ after memory => after.Sound ∧ after.tenant = some tenant ∧
        after.jobs = ledger.jobs ∧
          (∀ key attempt, after.attempts.lookup key = some attempt →
            attempt.disposition ≠ .reserved) ∧
            (∀ attempt ∈ ledger.attempts.rows, attempt.disposition = .reserved →
              attempt.pool ∈ after.quarantined) ∧
              (∀ pool ∈ ledger.quarantined, pool ∈ after.quarantined) ∧ memory = self)
      raised ledger self := by
  have selected : ∀ attempt, attempt ∈ (ledger.attempts.rows.filter fun attempt =>
      decide (attempt.tenant = tenant ∧ attempt.disposition = .reserved)) ↔
        attempt ∈ ledger.attempts.rows ∧ attempt.disposition = .reserved := by
    intro attempt
    simp only [List.mem_filter, decide_eq_true_eq]
    constructor
    · rintro ⟨member, -, reserved⟩
      exact ⟨member, reserved⟩
    · rintro ⟨member, reserved⟩
      obtain ⟨row, rowFound⟩ :=
        Option.isSome_iff_exists.mp (sound.attempts _ _ (Table.lookup_of_mem member))
      have rowTenant := (sound.rows _ _ rowFound).tenant
      rw [bound, Option.some.injEq] at rowTenant
      have sameKey : row.key = attempt.key := Table.key_of_lookup rowFound
      exact ⟨member, (rowTenant.trans (congrArg Prod.fst sameKey)).symm, reserved⟩
  refine wp_post (wp_forEach
    (fun rest after memory => GivesUp ledger (ledger.attempts.rows.filter fun attempt =>
        attempt.tenant = tenant ∧ attempt.disposition = .reserved) rest after ∧
      (∀ attempt ∈ rest, attempt.tenant = tenant) ∧ memory = self) ?_ ⟨?_, ?_, rfl⟩) ?_
    (fun _ _ _ failed => failed)
  · rintro attempt rest middle memory ⟨givesUp, sameTenant, rfl⟩
    refine wp_post (wp_recoverAttempt now givesUp (sameTenant attempt List.mem_cons_self)) ?_
      (fun _ _ _ failed => failed)
    rintro _ after _ ⟨kept, rfl⟩
    exact ⟨kept, fun other member => sameTenant other (List.mem_cons_of_mem _ member), rfl⟩
  · refine ⟨sound, rfl, rfl, ?_, ?_, fun _ was => was⟩
    · intro attempt member
      rw [Table.lookup_of_mem ((selected attempt).mp member).1]
      rfl
    · intro key attempt found disposition
      exact ⟨attempt, (selected attempt).mpr ⟨Table.mem_of_lookup found, disposition⟩,
        Table.key_of_lookup found⟩
  · intro attempt member
    simp only [List.mem_filter, decide_eq_true_eq] at member
    exact member.2.1
  · rintro _ after memory ⟨givesUp, -, rfl⟩
    refine ⟨givesUp.sound, givesUp.tenant.trans bound, givesUp.jobs, ?_, ?_, ?_, rfl⟩
    · intro key attempt found disposition
      obtain ⟨_, member, -⟩ := givesUp.coming key attempt found disposition
      simp at member
    · intro attempt member disposition
      rcases givesUp.quarantined attempt.pool
        (.inr ⟨attempt, (selected attempt).mpr ⟨member, disposition⟩, rfl⟩) with now | ⟨_, none_, -⟩
      · exact now
      · simp at none_
    · intro pool member
      rcases givesUp.quarantined pool (.inl member) with now | ⟨_, none_, -⟩
      · exact now
      · simp at none_

theorem wp_recoverSessions (sound : ledger.Sound) (bound : ledger.tenant = some tenant) :
    wp (forEach (ledger.sessions.rows.filter fun session => session.tenant = tenant)
        Store.recoverSession) (Commit (.recovery clean))
      (fun _ after memory => after.Sound ∧
        (∃ sessions, after = { ledger with sessions := sessions }) ∧
          (∀ key session, after.sessions.lookup key = some session → session.state = .closed) ∧
            memory = self)
      raised ledger self := by
  refine wp_post (wp_forEach
    (fun rest after memory => after.Sound ∧
      (∃ sessions, after = { ledger with sessions := sessions }) ∧
        (∀ session ∈ rest, after.sessions.lookup session.key = some session) ∧
          (rest.map Session.key).Nodup ∧
            (∀ key session, after.sessions.lookup key = some session → session.state = .closed ∨
              session ∈ rest) ∧ memory = self)
    ?_ ⟨sound, ⟨ledger.sessions, rfl⟩, ?_, ?_, ?_, rfl⟩) ?_ (fun _ _ _ failed => failed)
  · rintro session rest middle memory ⟨sound, ⟨sessions, frame⟩, stored, distinct, coming, rfl⟩
    have found := stored session List.mem_cons_self
    have commit : Commit (.recovery clean) middle
        (middle.putSession { session with state := .closed }) := .closeSession found
    rw [List.map_cons, List.nodup_cons] at distinct
    simp only [Store.recoverSession, wp_putSession]
    refine ⟨commit, commit.sound sound, ?_, ?_, distinct.2, ?_, trivial⟩
    · rw [frame]
      exact ⟨_, rfl⟩
    · intro other member
      rw [middle.lookup_putSession_of_ne]
      · exact stored other (List.mem_cons_of_mem _ member)
      · intro same
        exact distinct.1 (List.mem_map.mpr ⟨other, member, same.symm⟩)
    · intro key other otherFound
      rw [middle.lookup_putSession] at otherFound
      split at otherFound
      · rw [Option.some.injEq] at otherFound
        rw [← otherFound]
        exact .inl rfl
      · rename_i differs
        rcases coming key other otherFound with closed | member
        · exact .inl closed
        · rcases List.mem_cons.mp member with rfl | later
          · exact absurd (Table.key_of_lookup otherFound) differs
          · exact .inr later
  · intro session member
    exact Table.lookup_of_mem (List.mem_filter.mp member).1
  · exact ledger.sessions.distinct.sublist (List.filter_sublist.map _)
  · intro key session found
    have sessionTenant := sound.sessions _ _ found
    rw [bound, Option.some.injEq] at sessionTenant
    refine .inr (List.mem_filter.mpr ⟨Table.mem_of_lookup found, ?_⟩)
    simp [sessionTenant]
  · rintro _ after memory ⟨sound, frame, -, -, coming, rfl⟩
    refine ⟨sound, frame, ?_, rfl⟩
    intro key session found
    rcases coming key session found with closed | member
    · exact closed
    · simp at member

theorem wp_recover (now : Ns) (sound : ledger.Sound) (bound : ledger.tenant = some tenant)
    (settledEnded : clean = true → ledger.SettledEnded) :
    wp (Store.recover tenant now) (Commit (.recovery clean))
      (fun _ after memory => after.Quiet ∧ after.tenant = some tenant ∧
        (∀ pool, ledger.Guards pool → pool ∈ after.quarantined) ∧ memory = self)
      raised ledger self := by
  simp only [Store.recover, wp_bind]
  refine wp_jobs sound bound (by simp) (by simp [JobState.isLive]) ?_
  intro entries reads
  simp only [wp_bind]
  refine wp_post (wp_recoverJobs now sound bound settledEnded reads) ?_
    (fun _ _ _ failed => failed)
  rintro _ ended memory ⟨sound, bound, ends, guards, rfl⟩
  simp only [wp_bind, wp_readDurable]
  refine wp_post (wp_recoverAttempts now sound bound) ?_ (fun _ _ _ failed => failed)
  rintro _ free _ ⟨sound, bound, jobs, frees, reserved, quarantined, rfl⟩
  simp only [wp_bind, wp_readDurable]
  refine wp_post (wp_recoverSessions sound bound) ?_ (fun _ _ _ failed => failed)
  rintro _ after _ ⟨-, ⟨sessions, rfl⟩, closed, rfl⟩
  refine ⟨⟨?_, frees, closed⟩, bound, ?_, rfl⟩
  · intro key row found
    refine ends key row ?_
    rw [← jobs]
    exact found
  · intro pool guarded
    rcases guards pool guarded with member | ⟨attempt, member, rfl, disposition | isRunning⟩
    · exact quarantined pool member
    · exact reserved attempt member disposition
    · obtain ⟨row, found, running⟩ := isRunning
      have dead := ends _ row found
      rw [running] at dead
      contradiction

end Recovery

/-! ## Construction -/

section Construction

variable {ledger : Ledger} {self : Coordinator} {clean : Bool}
  {raised : PyExc → Ledger → Coordinator → Prop}

/-- The ledger belongs to the campaign and the tenant of a configuration. -/
def Ledger.Accepts (ledger : Ledger) (config : RuntimeConfig) : Prop :=
  ledger.caps = config.caps ∧ (ledger.tenant = none ∨ ledger.tenant = some config.tenant)

instance (ledger : Ledger) (config : RuntimeConfig) : Decidable (ledger.Accepts config) :=
  inferInstanceAs (Decidable (ledger.caps = config.caps ∧
    (ledger.tenant = none ∨ ledger.tenant = some config.tenant)))

/-- A start that the ledger refuses commits nothing. -/
theorem wp_start_refused (refused : ¬ ledger.Accepts self.config) :
    wp Runtime.start (fun _ _ => False) (fun _ _ _ => False)
      (fun exception _ _ => exception ≠ .integrityError) ledger self := by
  simp only [Runtime.start, Store.openLedger, Store.bindTenant, wp_bind, wp_readVolatile,
    wp_readDurable]
  rw [wp_ite]
  split
  · exact (wp_raise _).mpr (by simp)
  rename_i sameCaps
  simp only [wp_pure, wp_bind, wp_readDurable]
  rw [wp_ite]
  split
  · exact (wp_raise _).mpr (by simp)
  rename_i free
  refine absurd ⟨not_not.mp sameCaps, ?_⟩ refused
  cases tenantEq : ledger.tenant with
  | none => exact .inl rfl
  | some bound =>
      rw [tenantEq] at free
      simpa using free

/-- A start that the ledger accepts binds the tenant and recovers. -/
theorem wp_start_accepted {guarantee : Ledger → Ledger → Prop}
    {normal : Unit → Ledger → Coordinator → Prop} (accepts : ledger.Accepts self.config)
    (binds : guarantee ledger (ledger.bindTenant self.config.tenant))
    (recovers : (ledger.bindTenant self.config.tenant).tenant = some self.config.tenant →
      wp (Store.recover self.config.tenant (self.clock.nowNs self.reads)) guarantee
        (fun _ middle memory =>
          let after := middle.note (memory.clock.nowNs memory.reads)
            (.coordinatorStarted self.clock.id ⟨self.config⟩)
          guarantee middle after ∧ normal () after { memory with reads := memory.reads + 1 })
        raised (ledger.bindTenant self.config.tenant) { self with reads := self.reads + 1 }) :
    wp Runtime.start guarantee normal raised ledger self := by
  obtain ⟨sameCaps, unbound⟩ := accepts
  have bound : (ledger.bindTenant self.config.tenant).tenant = some self.config.tenant := by
    rcases unbound with none_ | same
    · simp [Ledger.bindTenant, none_]
    · simp [Ledger.bindTenant, same]
  have free : ¬ (ledger.tenant.isSome = true ∧ ledger.tenant ≠ some self.config.tenant) := by
    rcases unbound with none_ | same
    · simp [none_]
    · simp [same]
  simp only [Runtime.start, Store.openLedger, Store.bindTenant, wp_bind, wp_readVolatile,
    wp_readDurable, sameCaps, ne_eq, not_true_eq_false, if_false, wp_pure, free]
  refine (wp_commit _).mpr ⟨binds, ?_⟩
  simp only [wp_bind, wp_nowNs]
  refine wp_post (recovers bound) ?_ (fun _ _ _ failed => failed)
  rintro _ middle memory ⟨notes, returns⟩
  simp only [wp_bind, wp_nowNs, wp_event]
  exact ⟨notes, returns⟩

theorem wp_start (sound : ledger.Sound) (accepts : ledger.Accepts self.config)
    (settledEnded : clean = true → ledger.SettledEnded) :
    wp Runtime.start (Commit (.recovery clean))
      (fun _ after memory => after.Quiet ∧ after.tenant = some self.config.tenant ∧
        (∀ pool, ledger.Guards pool → pool ∈ after.quarantined) ∧
          ∃ reads, memory = { self with reads := reads })
      (fun exception _ _ => exception ≠ .integrityError) ledger self := by
  have commit : Commit (.recovery clean) ledger (ledger.bindTenant self.config.tenant) :=
    .bindTenant _ accepts.2
  refine wp_start_accepted accepts commit fun bound => ?_
  refine wp_post (wp_recover _ (commit.sound sound) bound settledEnded) ?_
    (fun _ _ _ failed => failed)
  rintro _ after memory ⟨quiet, bound, quarantined, rfl⟩
  exact ⟨.note _ _, ⟨quiet.rows, quiet.attempts, quiet.sessions⟩, bound, quarantined, _, rfl⟩

end Construction

/-- A coordinator that starts on a quiet ledger has nothing in flight. -/
theorem Running.of_quiet {ledger : Ledger} {config : RuntimeConfig} {clock : Clock} {allowNetwork : Bool}
    {backends : List Name} (sound : ledger.Sound) (quiet : ledger.Quiet)
    (bound : ledger.tenant = some config.tenant) (reads : Nat) {called : List (Name × Name)}
    (attempted : ∀ key ∈ called, (ledger.attempts.lookup key).isSome = true) :
    Running ⟨config, clock, 0, called, []⟩ ledger
      { Runtime.initial config clock allowNetwork backends with reads := reads } := by
  refine ⟨?_, ?_⟩
  · refine
      { sound := sound
        config := rfl
        clock := rfl
        reads := Nat.zero_le _
        tenant := bound
        unattempted := ?_
        dispatched := ?_
        tasks := fun task member => absurd member (List.not_mem_nil)
        distinct := List.nodup_nil
        reserved := fun key attempt found disposition =>
          absurd disposition (quiet.attempts key attempt found)
        poolUse := fun _ => rfl
        endpointUse := fun _ => rfl
        poolBound := fun _ => Int.natCast_nonneg _
        endpointBound := fun _ _ => Int.natCast_nonneg _
        sessionClock := ?_
        called := attempted
        cached := fun entry member => absurd member (List.not_mem_nil)
        cacheTtl := rfl
        uncalled := fun task member => absurd member (List.not_mem_nil)
        awaited := fun task member => absurd member (List.not_mem_nil) }
    · intro key row found queued
      have dead := quiet.rows key row found
      rw [queued] at dead
      contradiction
    · intro key row found running
      have dead := quiet.rows key row found
      rw [running] at dead
      contradiction
    · intro key session found active
      rw [quiet.sessions key session found] at active
      contradiction
  · intro key row found live
    rw [quiet.rows key row found] at live
    contradiction

end AgminaRuntime
