import AgminaRuntime.JournalCommits

/-!
# Sound ledgers

The invariant of the journal that every single commit preserves.  It holds of
every ledger a crash can leave behind, so a restart may rely on it.
-/

namespace AgminaRuntime

open Keyed

/-- What the journal knows about one of its jobs. -/
structure Ledger.RowSound (ledger : Ledger) (row : JobRow) : Prop where
  sameJob : row.receipt.jobId = row.job.id
  tenant : ledger.tenant = some row.job.tenant
  session : (ledger.sessions.lookup row.job.sessionKey).isSome = true
  complete : row.receipt.Complete
  admitted : row.receipt.state.isLive = true → ledger.Admitted row.job
  spared : row.receipt.spared = true → ledger.attempts.lookup row.key = none

structure Ledger.Sound (ledger : Ledger) : Prop where
  rows : ∀ key row, ledger.jobs.lookup key = some row → ledger.RowSound row
  attempts : ∀ key attempt, ledger.attempts.lookup key = some attempt →
    (ledger.jobs.lookup key).isSome = true
  sessions : ∀ key session, ledger.sessions.lookup key = some session →
    ledger.tenant = some session.tenant

theorem Ledger.sound_create (caps : BudgetCaps) : (Ledger.create caps).Sound := by
  constructor <;> intro key found stored <;> simp [Ledger.create] at stored

section Preservation

variable {who : Author} {before after : Ledger} {key : Name × Name}

/-- Where a session admits a job, it admits it after every move. -/
theorem SessionMove.admits {session next : Session} {job : Job}
    (move : SessionMove who session next) (admits : session.Admits job) : next.Admits job := by
  cases move with
  | kept => exact admits
  | beaten _ _ => exact admits
  | closed => exact admits
  | turned later =>
      have earlier : job.epoch.val ≤ session.epoch.val := admits.1
      refine ⟨Fin.le_def.mpr (by omega), ?_⟩
      intro same
      have : next.epoch.val = job.epoch.val := by rw [same]
      omega

theorem Commit.admitted (commit : Commit who before after) {job : Job}
    (admitted : before.Admitted job) : after.Admitted job := by
  obtain ⟨session, found, admits⟩ := admitted
  obtain ⟨next, nextFound, move⟩ := commit.session_kept found
  exact ⟨next, nextFound, move.admits admits⟩

/-- Only a queued job is dispatched, and nothing returns to the queue. -/
theorem Author.Moves.live {old new : JobState} (moves : who.Moves old new)
    (live : new.isLive = true) : old = .queued ∧ new = .running := by
  rcases moves with edge | ⟨_, _, _, ended, same | ⟨_, overwritten⟩⟩
  · cases old <;> cases new <;> simp_all [JobState.successors, JobState.isLive]
  · subst same
    cases new <;> simp_all [JobState.isLive]
  · cases new <;> simp_all [JobState.isLive]

theorem RowMove.complete {row next : JobRow} (move : RowMove who row next)
    (complete : row.receipt.Complete) : next.receipt.Complete := by
  cases move with
  | kept => exact complete
  | written _ written => exact written

theorem RowMove.sameJob {row next : JobRow} (move : RowMove who row next)
    (sameJob : row.receipt.jobId = row.job.id) : next.receipt.jobId = next.job.id := by
  cases move with
  | kept => exact sameJob
  | written written => exact written

/-- A live receipt was live before. -/
theorem RowMove.live {row next : JobRow} (move : RowMove who row next)
    (live : next.receipt.state.isLive = true) : row.receipt.state.isLive = true := by
  cases move with
  | kept => exact live
  | written _ _ moves =>
      rw [(moves.live live).1]
      rfl

/-- Nothing returns to the queue. -/
theorem RowMove.eq_of_queued {row next : JobRow} (move : RowMove who row next)
    (queued : next.receipt.state = .queued) : next = row := by
  cases move with
  | kept => rfl
  | @written receipt _ _ moves _ =>
      have state : receipt.state = .queued := queued
      have running := (moves.live (by rw [state]; rfl)).2
      rw [state] at running
      contradiction

/-- A job that was answered from the cache or refused has no attempt after the
commit. -/
theorem Commit.spared (commit : Commit who before after) (sound : before.Sound)
    {row : JobRow} (found : after.jobs.lookup key = some row)
    (spared : row.receipt.spared = true) : after.attempts.lookup key = none := by
  cases attemptEq : after.attempts.lookup key with
  | none => rfl
  | some attempt =>
      exfalso
      cases earlier : before.attempts.lookup key with
      | none =>
          obtain ⟨old, endpoint, rfl, -, reserves⟩ := commit.attempt_new earlier attemptEq
          rw [reserves.jobs, reserves.found, Option.some.injEq] at found
          subst found
          have unanswered := (sound.rows _ _ reserves.found).complete.unanswered
            (by rw [reserves.queued]; rfl)
          simp [Receipt.spared, unanswered, reserves.queued] at spared
      | some previous =>
          obtain ⟨old, oldFound⟩ := Option.isSome_iff_exists.mp (sound.attempts _ _ earlier)
          obtain ⟨next, nextFound, -, sparing⟩ := commit.row_kept oldFound
          obtain rfl : next = row := Option.some.inj (nextFound.symm.trans found)
          rcases sparing spared with oldSpared | absent
          · have absent := (sound.rows _ _ oldFound).spared oldSpared
            rw [Table.key_of_lookup oldFound, earlier] at absent
            contradiction
          · rw [absent] at earlier
            contradiction

theorem Commit.rowSound (commit : Commit who before after) (sound : before.Sound)
    {row : JobRow} (found : after.jobs.lookup key = some row) : after.RowSound row := by
  have spared : row.receipt.spared = true → after.attempts.lookup row.key = none := by
    intro isSpared
    rw [Table.key_of_lookup found]
    exact commit.spared sound found isSpared
  cases earlier : before.jobs.lookup key with
  | none =>
      obtain ⟨adds, -⟩ := commit.row_new earlier found
      obtain ⟨stored, storedFound⟩ := Option.isSome_iff_exists.mp adds.session
      obtain ⟨next, nextFound, -⟩ := commit.session_kept storedFound
      refine ⟨adds.sameJob, commit.tenant_kept adds.tenant, by rw [nextFound]; rfl,
        adds.complete, ?_, spared⟩
      intro live
      rcases adds.initial with queued | rejected
      · exact commit.admitted (adds.admitted queued)
      · rw [rejected] at live
        contradiction
  | some old =>
      have oldSound := sound.rows _ _ earlier
      obtain ⟨next, nextFound, move, -⟩ := commit.row_kept earlier
      obtain rfl : next = row := Option.some.inj (nextFound.symm.trans found)
      obtain ⟨stored, storedFound⟩ := Option.isSome_iff_exists.mp oldSound.session
      obtain ⟨session, sessionFound, -⟩ := commit.session_kept storedFound
      refine ⟨move.sameJob oldSound.sameJob, ?_, ?_, move.complete oldSound.complete, ?_, spared⟩
      · rw [move.job_eq]
        exact commit.tenant_kept oldSound.tenant
      · rw [move.job_eq, sessionFound]
        rfl
      · intro live
        rw [move.job_eq]
        exact commit.admitted (oldSound.admitted (move.live live))

theorem Commit.sound (commit : Commit who before after) (sound : before.Sound) :
    after.Sound := by
  refine ⟨fun key row found => commit.rowSound sound found, ?_, ?_⟩
  · intro key attempt found
    cases earlier : before.attempts.lookup key with
    | none =>
        obtain ⟨row, endpoint, rfl, -, reserves⟩ := commit.attempt_new earlier found
        rw [reserves.jobs, reserves.found]
        rfl
    | some previous =>
        obtain ⟨row, rowFound⟩ := Option.isSome_iff_exists.mp (sound.attempts _ _ earlier)
        obtain ⟨next, nextFound, -⟩ := commit.row_kept rowFound
        rw [nextFound]
        rfl
  · intro key session found
    cases earlier : before.sessions.lookup key with
    | none => exact commit.tenant_kept (commit.session_new earlier found)
    | some old =>
        have bound := commit.tenant_kept (sound.sessions _ _ earlier)
        have sameTenant : old.tenant = session.tenant := by
          have oldKey := Table.key_of_lookup earlier
          have newKey := Table.key_of_lookup found
          exact congrArg Prod.fst (oldKey.trans newKey.symm)
        rwa [← sameTenant]

theorem Ledger.Sound.note {ledger : Ledger} (sound : ledger.Sound) (atNs : Ns) (kind : Event) :
    (ledger.note atNs kind).Sound :=
  Commit.sound (.note atNs kind : Commit (.operator none) ledger _) sound

end Preservation

end AgminaRuntime
