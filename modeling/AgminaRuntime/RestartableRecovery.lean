import AgminaRuntime.CampaignInvariant

/-!
# Restarting a recovery

Recovery commits every single write, so it may die between two of them and be
run again.  The prospect of a ledger is what its recovery will leave, and each
finished round of a recovery keeps it.  Within the round of a running job it
is lost between the receipt and the quarantine, unless the second loop finds
the attempt by its reservation, or the journal guards its pool without it.
-/

namespace AgminaRuntime

open Durable Durable.Program Keyed

/-! ## What recovery leaves -/

/-- What a ledger says of receipts, attempts, pools and sessions. -/
@[ext]
structure Outlook where
  states : Name × Name → Option JobState
  attempts : Name × Name → Option Attempt
  quarantined : Set Name
  sessions : Name × Name → Option Session

def Ledger.outlook (ledger : Ledger) : Outlook where
  states key := (ledger.jobs.lookup key).map fun row => row.receipt.state
  attempts key := ledger.attempts.lookup key
  quarantined := {pool | pool ∈ ledger.quarantined}
  sessions key := ledger.sessions.lookup key

/-- The receipt of the job says RUNNING. -/
def Ledger.Runs (ledger : Ledger) (key : Name × Name) : Prop :=
  ∃ row ∈ ledger.jobs.lookup key, row.receipt.state = .running

instance (ledger : Ledger) (key : Name × Name) : Decidable (ledger.Runs key) :=
  inferInstanceAs (Decidable (∃ row ∈ ledger.jobs.lookup key, row.receipt.state = .running))

def JobState.recovered : JobState → JobState
  | queued => cancelled
  | running => unknown
  | state => state

/-- The attempt of a running job holds its quote again, and any other
reservation is given up. -/
def Attempt.recovered (isRunning : Bool) (attempt : Attempt) : Attempt :=
  if isRunning then attempt.settle none
  else if attempt.disposition = .reserved then attempt.abandon else attempt

/-- What a recovery of the ledger leaves. -/
def Ledger.prospect (ledger : Ledger) : Outlook where
  states key := (ledger.jobs.lookup key).map fun row => row.receipt.state.recovered
  attempts key := (ledger.attempts.lookup key).map (Attempt.recovered (ledger.Runs key))
  quarantined := {pool | ledger.Guards pool}
  sessions key := (ledger.sessions.lookup key).map fun session => { session with state := .closed }

/-- The ledger without one attempt. -/
def Ledger.without (ledger : Ledger) (key : Name × Name) : Ledger :=
  { ledger with attempts := ledger.attempts.erase key }

/-- The attempt of a running job has no charge, and what its quarantine rests on
outlives the write of its receipt: it is still reserved, or its pool is guarded
without it. -/
def Attempt.Resumes (ledger : Ledger) (attempt : Attempt) : Prop :=
  attempt.actual = none ∧
    (attempt.disposition = .reserved ∨
      attempt.disposition = .unknown ∧ (ledger.without attempt.key).Guards attempt.pool)

/-- Every attempt of a running job can be recovered in two pieces. -/
def Ledger.Restartable (ledger : Ledger) : Prop :=
  ∀ attempt ∈ ledger.attempts.rows, ledger.Runs attempt.key → attempt.Resumes ledger

instance (ledger : Ledger) (attempt : Attempt) : Decidable (attempt.Resumes ledger) :=
  inferInstanceAs (Decidable (attempt.actual = none ∧
    (attempt.disposition = .reserved ∨
      attempt.disposition = .unknown ∧ (ledger.without attempt.key).Guards attempt.pool)))

instance (ledger : Ledger) : Decidable ledger.Restartable :=
  inferInstanceAs (Decidable (∀ attempt ∈ ledger.attempts.rows,
    ledger.Runs attempt.key → attempt.Resumes ledger))

variable {ledger before after : Ledger} {key : Name × Name}

theorem JobState.recovered_of_dead {state : JobState} (ended : state.isLive = false) :
    state.recovered = state := by
  cases state <;> first | rfl | contradiction

theorem Ledger.runs_iff {row : JobRow} (found : ledger.jobs.lookup key = some row) :
    ledger.Runs key ↔ row.receipt.state = .running := by
  simp [Ledger.Runs, found]

theorem Ledger.guards_iff {pool : Name} :
    ledger.Guards pool ↔ pool ∈ ledger.quarantined ∨
      ∃ key attempt, ledger.attempts.lookup key = some attempt ∧ attempt.pool = pool ∧
        (attempt.disposition = .reserved ∨ ledger.Runs key) := by
  constructor
  · rintro (held | ⟨attempt, member, same, traced⟩)
    · exact .inl held
    · exact .inr ⟨attempt.key, attempt, Table.lookup_of_mem member, same, traced⟩
  · rintro (held | ⟨key, attempt, found, same, traced⟩)
    · exact .inl held
    · obtain rfl := Table.key_of_lookup found
      exact .inr ⟨attempt, Table.mem_of_lookup found, same, traced⟩

theorem Ledger.guards_own {attempt : Attempt} (found : ledger.attempts.lookup key = some attempt)
    (traced : attempt.disposition = .reserved ∨ ledger.Runs key) : ledger.Guards attempt.pool :=
  Ledger.guards_iff.mpr (.inr ⟨key, attempt, found, rfl, traced⟩)

theorem Ledger.guards_without {pool : Name} :
    (ledger.without key).Guards pool ↔ pool ∈ ledger.quarantined ∨
      ∃ other attempt, other ≠ key ∧ ledger.attempts.lookup other = some attempt ∧
        attempt.pool = pool ∧ (attempt.disposition = .reserved ∨ ledger.Runs other) := by
  rw [Ledger.guards_iff]
  apply or_congr (Iff.refl _)
  constructor
  · rintro ⟨other, attempt, found, same, traced⟩
    rw [Ledger.without, Table.lookup_erase] at found
    split at found
    · contradiction
    · rename_i differs
      exact ⟨other, attempt, differs, found, same, traced⟩
  · rintro ⟨other, attempt, differs, found, same, traced⟩
    refine ⟨other, attempt, ?_, same, traced⟩
    rw [Ledger.without, Table.lookup_erase, if_neg differs]
    exact found

/-- A recovered ledger is as its prospect says. -/
theorem Ledger.Quiet.prospect (quiet : ledger.Quiet) : ledger.prospect = ledger.outlook := by
  have still : ∀ key, ¬ ledger.Runs key := by
    rintro key ⟨row, found, isRunning⟩
    have ended := quiet.rows key row found
    rw [isRunning] at ended
    contradiction
  ext key : 2
  · cases found : ledger.jobs.lookup key with
    | none => simp [Ledger.prospect, Ledger.outlook, found]
    | some row =>
        simp [Ledger.prospect, Ledger.outlook, found,
          JobState.recovered_of_dead (quiet.rows key row found)]
  · cases found : ledger.attempts.lookup key with
    | none => simp [Ledger.prospect, Ledger.outlook, found]
    | some attempt =>
        simp [Ledger.prospect, Ledger.outlook, found, Attempt.recovered, still key,
          quiet.attempts key attempt found]
  · constructor
    · intro guarded
      rcases Ledger.guards_iff.mp guarded with held | ⟨other, attempt, found, -, traced⟩
      · exact held
      · rcases traced with reserved | isRunning
        · exact absurd reserved (quiet.attempts other attempt found)
        · exact absurd isRunning (still other)
    · exact fun held => .inl held
  · cases found : ledger.sessions.lookup key with
    | none => simp [Ledger.prospect, Ledger.outlook, found]
    | some session =>
        have closed := quiet.sessions key session found
        simp [Ledger.prospect, Ledger.outlook, found, ← closed]

/-! ## One recovered receipt -/

/-- The receipt of one job is in the state that recovery gives it. -/
structure Invalidated (before : Ledger) (key : Name × Name) (after : Ledger) : Prop where
  others : before.SameBut key after
  state : (after.jobs.lookup key).map (fun row => row.receipt.state) =
    (before.jobs.lookup key).map fun row => row.receipt.state.recovered

theorem JobState.recovered_ne_running (state : JobState) : state.recovered ≠ .running := by
  cases state <;> simp [recovered]

theorem JobState.recovered_recovered (state : JobState) :
    state.recovered.recovered = state.recovered := by
  cases state <;> rfl

namespace Invalidated

theorem still (invalidated : Invalidated before key after) : ¬ after.Runs key := by
  rintro ⟨row, found, isRunning⟩
  have state := invalidated.state
  rw [Option.mem_def] at found
  rw [found, Option.map_some, isRunning] at state
  cases earlier : before.jobs.lookup key with
  | none => simp [earlier] at state
  | some old =>
      rw [earlier, Option.map_some, Option.some.injEq] at state
      exact old.receipt.state.recovered_ne_running state.symm

theorem runs_of_ne (invalidated : Invalidated before key after) {other : Name × Name}
    (differs : other ≠ key) : after.Runs other ↔ before.Runs other := by
  rw [Ledger.Runs, Ledger.Runs, invalidated.others other differs]

theorem states (invalidated : Invalidated before key after) (other : Name × Name) :
    after.prospect.states other = before.prospect.states other := by
  by_cases same : other = key
  · subst same
    have state := congrArg (Option.map JobState.recovered) invalidated.state
    simpa [Ledger.prospect, Option.map_map, Function.comp_def,
      JobState.recovered_recovered] using state
  · simp only [Ledger.prospect, invalidated.others other same]

end Invalidated

theorem Attempt.recovered_false_iff {attempt : Attempt} :
    attempt.recovered false = attempt.recovered true ↔
      attempt.actual = none ∧
        (attempt.disposition = .reserved ∨ attempt.disposition = .unknown) := by
  cases attempt with
  | mk tenant job pool endpoint quote actual disposition =>
      cases disposition <;> simp [recovered, settle, abandon]

theorem Attempt.recovered_abandon {attempt : Attempt} (reserved : attempt.disposition = .reserved)
    (isRunning : Bool) : attempt.abandon.recovered isRunning = attempt.recovered isRunning := by
  cases isRunning <;> simp [recovered, settle, abandon, reserved]

/-! ## A finished round -/

/-- What the first loop makes of one live job and its attempt. -/
structure Ended (before : Ledger) (key : Name × Name) (after : Ledger) : Prop
    extends Invalidated before key after where
  otherAttempts : ∀ other, other ≠ key →
    after.attempts.lookup other = before.attempts.lookup other
  attempt : after.attempts.lookup key =
    (before.attempts.lookup key).map fun attempt =>
      if before.Runs key then attempt.settle none else attempt
  quarantined : ∀ pool, pool ∈ after.quarantined ↔ pool ∈ before.quarantined ∨
    ∃ attempt, before.attempts.lookup key = some attempt ∧ before.Runs key ∧ attempt.pool = pool
  sessions : after.sessions = before.sessions

namespace Ended

theorem guards (ended : Ended before key after) {pool : Name} :
    after.Guards pool ↔ before.Guards pool := by
  constructor
  · intro guarded
    rcases Ledger.guards_iff.mp guarded with held | ⟨other, attempt, found, rfl, traced⟩
    · rcases (ended.quarantined pool).mp held with old | ⟨attempt, found, isRunning, rfl⟩
      · exact .inl old
      · exact Ledger.guards_own found (.inr isRunning)
    · by_cases same : other = key
      · subst same
        rw [ended.attempt] at found
        obtain ⟨old, oldFound, rfl⟩ := Option.map_eq_some_iff.mp found
        by_cases isRunning : before.Runs other
        · rw [if_pos isRunning]
          exact (Ledger.guards_own oldFound (.inr isRunning) : before.Guards old.pool)
        · rw [if_neg isRunning] at traced ⊢
          exact Ledger.guards_own oldFound (.inl (traced.resolve_right ended.still))
      · rw [ended.otherAttempts other same] at found
        rw [ended.runs_of_ne same] at traced
        exact Ledger.guards_own found traced
  · intro guarded
    rcases Ledger.guards_iff.mp guarded with held | ⟨other, attempt, found, rfl, traced⟩
    · exact .inl ((ended.quarantined pool).mpr (.inl held))
    · by_cases same : other = key
      · subst same
        by_cases isRunning : before.Runs other
        · exact .inl ((ended.quarantined _).mpr (.inr ⟨attempt, found, isRunning, rfl⟩))
        · have kept : after.attempts.lookup other = some attempt := by
            rw [ended.attempt, found, Option.map_some, if_neg isRunning]
          exact Ledger.guards_own kept (.inl (traced.resolve_right isRunning))
      · rw [← ended.runs_of_ne same] at traced
        exact Ledger.guards_own ((ended.otherAttempts other same).trans found) traced

theorem note (ended : Ended before key after) (atNs : Ns) (kind : Event) :
    Ended before key (after.note atNs kind) :=
  { ended with }

/-- A finished round keeps what recovery will leave. -/
theorem prospect (ended : Ended before key after) : after.prospect = before.prospect := by
  ext other : 2
  · exact ended.states other
  · by_cases same : other = key
    · subst same
      simp only [Ledger.prospect, ended.attempt, ended.still, Option.map_map, Function.comp_def]
      congr 1
      funext attempt
      by_cases isRunning : before.Runs other <;> simp [isRunning, Attempt.recovered, Attempt.settle]
    · simp only [Ledger.prospect, ended.otherAttempts other same, ended.runs_of_ne same]
  · exact ended.guards
  · simp only [Ledger.prospect, ended.sessions]

theorem without (ended : Ended before key after) {other : Name × Name} (differs : other ≠ key) :
    Ended (before.without other) key (after.without other) := by
  have lookup : ∀ (ledger : Ledger) target, target ≠ other →
      (ledger.without other).attempts.lookup target = ledger.attempts.lookup target := by
    intro ledger target apart
    rw [Ledger.without, Table.lookup_erase, if_neg apart]
  have erased : ∀ ledger : Ledger, (ledger.without other).attempts.lookup other = none := by
    intro ledger
    rw [Ledger.without, Table.lookup_erase, if_pos rfl]
  refine
    { others := ended.others
      state := ended.state
      otherAttempts := ?_
      attempt := ?_
      quarantined := ?_
      sessions := ended.sessions }
  · intro target apart
    by_cases same : target = other
    · rw [same, erased, erased]
    · rw [lookup _ _ same, lookup _ _ same, ended.otherAttempts target apart]
  · rw [lookup _ _ (Ne.symm differs), lookup _ _ (Ne.symm differs)]
    exact ended.attempt
  · intro pool
    rw [lookup _ _ (Ne.symm differs)]
    exact ended.quarantined pool

/-- A finished round says nothing new of the other attempts. -/
theorem resumes (ended : Ended before key after) {attempt : Attempt} (differs : attempt.key ≠ key) :
    attempt.Resumes after ↔ attempt.Resumes before := by
  rw [Attempt.Resumes, Attempt.Resumes, (ended.without differs).guards]

theorem restartable (ended : Ended before key after) (restartable : before.Restartable) :
    after.Restartable := by
  intro attempt member isRunning
  have differs : attempt.key ≠ key := by
    intro same
    rw [same] at isRunning
    exact ended.still isRunning
  have found := Table.lookup_of_mem member
  rw [ended.otherAttempts _ differs] at found
  rw [ended.runs_of_ne differs] at isRunning
  exact (ended.resumes differs).mpr (restartable attempt (Table.mem_of_lookup found) isRunning)

end Ended

/-! ## Within a round -/

/-- What the first commit of a round leaves. -/
structure Written (before : Ledger) (key : Name × Name) (after : Ledger) : Prop
    extends Invalidated before key after where
  attempts : after.attempts = before.attempts
  quarantines : after.quarantines = before.quarantines
  sessions : after.sessions = before.sessions

namespace Written

theorem quarantined (written : Written before key after) :
    after.quarantined = before.quarantined := by
  rw [Ledger.quarantined, Ledger.quarantined, written.quarantines]

theorem guards_old (written : Written before key after) {pool : Name}
    (guarded : after.Guards pool) : before.Guards pool := by
  rcases Ledger.guards_iff.mp guarded with held | ⟨other, attempt, found, rfl, traced⟩
  · rw [written.quarantined] at held
    exact .inl held
  · rw [written.attempts] at found
    refine Ledger.guards_own found (traced.imp_right fun isRunning => ?_)
    have differs : other ≠ key := by
      rintro rfl
      exact written.still isRunning
    exact (written.runs_of_ne differs).mp isRunning

/-- The pools that a written receipt still guards. -/
theorem guards_iff (written : Written before key after) {attempt : Attempt}
    (found : before.attempts.lookup key = some attempt) :
    after.Guards attempt.pool ↔
      attempt.disposition = .reserved ∨ (before.without key).Guards attempt.pool := by
  rw [Ledger.guards_iff, Ledger.guards_without, written.quarantined, written.attempts]
  constructor
  · rintro (held | ⟨other, next, nextFound, samePool, traced⟩)
    · exact .inr (.inl held)
    · by_cases same : other = key
      · subst same
        obtain rfl : attempt = next := Option.some.inj (found.symm.trans nextFound)
        exact .inl (traced.resolve_right written.still)
      · rw [written.runs_of_ne same] at traced
        exact .inr (.inr ⟨other, next, same, nextFound, samePool, traced⟩)
  · rintro (reserved | held | ⟨other, next, differs, nextFound, samePool, traced⟩)
    · exact .inr ⟨key, attempt, found, rfl, .inl reserved⟩
    · exact .inl held
    · rw [← written.runs_of_ne differs] at traced
      exact .inr ⟨other, next, nextFound, samePool, traced⟩

/-- A receipt may be written alone exactly when the attempt of the job, if it
was running, resumes. -/
theorem prospect_iff (written : Written before key after) :
    after.prospect = before.prospect ↔
      ∀ attempt, before.attempts.lookup key = some attempt → before.Runs key →
        attempt.Resumes before := by
  constructor
  · intro same attempt found isRunning
    have own : attempt.key = key := Table.key_of_lookup found
    have attempts := congrFun (congrArg Outlook.attempts same) key
    have guarded : after.Guards attempt.pool := by
      have pools := congrArg Outlook.quarantined same
      exact (Set.ext_iff.mp pools attempt.pool).mpr (Ledger.guards_own found (.inr isRunning))
    simp only [Ledger.prospect, written.attempts, found, isRunning, written.still, Option.map_some,
      Option.some.injEq, decide_true, decide_false, Attempt.recovered_false_iff] at attempts
    refine ⟨attempts.1, attempts.2.imp_right fun unknown => ⟨unknown, ?_⟩⟩
    rw [own]
    refine ((written.guards_iff found).mp guarded).resolve_left ?_
    rw [unknown]
    simp
  · intro resumes
    ext other : 2
    · exact written.states other
    · simp only [Ledger.prospect, written.attempts]
      by_cases same : other = key
      · subst same
        cases found : before.attempts.lookup other with
        | none => rfl
        | some attempt =>
            by_cases isRunning : before.Runs other
            · obtain ⟨uncharged, kept⟩ := resumes attempt found isRunning
              simp only [isRunning, written.still, Option.map_some, Option.some.injEq,
                decide_true, decide_false, Attempt.recovered_false_iff]
              exact ⟨uncharged, kept.imp_right And.left⟩
            · simp only [isRunning, written.still]
      · simp only [written.runs_of_ne same]
    · refine ⟨written.guards_old, fun guarded => ?_⟩
      rcases Ledger.guards_iff.mp guarded with held | ⟨target, attempt, found, rfl, traced⟩
      · rw [← written.quarantined] at held
        exact .inl held
      · by_cases same : target = key
        · subst same
          refine (written.guards_iff found).mpr ?_
          rcases traced with reserved | isRunning
          · exact .inl reserved
          · have kept := (resumes attempt found isRunning).2
            rw [Table.key_of_lookup found] at kept
            exact kept.imp_right And.right
        · rw [← written.runs_of_ne same] at traced
          exact Ledger.guards_own (written.attempts ▸ found) traced
    · simp only [Ledger.prospect, written.sessions]

/-- The round of a job without a running attempt ends with its receipt. -/
theorem ended (written : Written before key after)
    (unattempted : before.Runs key → before.attempts.lookup key = none) :
    Ended before key after := by
  have idle : ∀ attempt, before.attempts.lookup key = some attempt → ¬ before.Runs key := by
    intro attempt found isRunning
    rw [unattempted isRunning] at found
    contradiction
  refine ⟨written.toInvalidated, fun _ _ => by rw [written.attempts], ?_, ?_, written.sessions⟩
  · rw [written.attempts]
    cases found : before.attempts.lookup key with
    | none => rfl
    | some attempt => rw [Option.map_some, if_neg (idle attempt found)]
  · intro pool
    rw [written.quarantined]
    refine ⟨.inl, ?_⟩
    rintro (held | ⟨attempt, found, isRunning, -⟩)
    · exact held
    · exact absurd isRunning (idle attempt found)

/-- The round of a job with a running attempt ends with its quote held again. -/
theorem reheld (written : Written before key after) {attempt : Attempt}
    (found : before.attempts.lookup key = some attempt) (isRunning : before.Runs key)
    (reason : String) :
    Ended before key ((after.quarantinePool attempt.pool reason).settleAttempt key none) := by
  refine ⟨⟨written.others, written.state⟩, ?_, ?_, ?_, written.sessions⟩
  · intro other differs
    rw [Ledger.lookup_settleAttempt_of_ne none differs]
    exact congrArg (Table.lookup other) written.attempts
  · rw [Ledger.lookup_settleAttempt, if_pos rfl]
    simp only [isRunning, if_true, Ledger.quarantinePool, written.attempts]
  · intro pool
    refine (Ledger.mem_quarantined_quarantinePool _).trans ?_
    rw [written.quarantined]
    constructor
    · rintro (rfl | held)
      · exact .inr ⟨attempt, found, isRunning, rfl⟩
      · exact .inl held
    · rintro (held | ⟨other, otherFound, -, rfl⟩)
      · exact .inr held
      · obtain rfl : other = attempt := Option.some.inj (otherFound.symm.trans found)
        exact .inl rfl

end Written

/-- A guarded pool may be quarantined at any time. -/
theorem Ledger.prospect_quarantinePool {pool : Name} (reason : String)
    (guarded : ledger.Guards pool) :
    (ledger.quarantinePool pool reason).prospect = ledger.prospect := by
  ext other : 2
  · rfl
  · rfl
  · rw [Ledger.prospect, Ledger.prospect, Set.mem_ofPred_eq, Set.mem_ofPred_eq, Ledger.guards_iff,
      Ledger.mem_quarantined_quarantinePool]
    constructor
    · rintro ((rfl | held) | traced)
      · exact guarded
      · exact .inl held
      · exact Ledger.guards_iff.mpr (.inr traced)
    · intro other
      exact (Ledger.guards_iff.mp other).imp_left .inr
  · rfl

/-- Giving up a reservation on a quarantined pool. -/
theorem Ledger.prospect_abandonAttempt {attempt : Attempt}
    (found : ledger.attempts.lookup attempt.key = some attempt)
    (reserved : attempt.disposition = .reserved) (held : attempt.pool ∈ ledger.quarantined) :
    (ledger.abandonAttempt attempt.key).prospect = ledger.prospect := by
  have lookup : ∀ key, (ledger.abandonAttempt attempt.key).attempts.lookup key =
      if key = attempt.key then some attempt.abandon else ledger.attempts.lookup key := by
    intro key
    rw [Ledger.lookup_abandonAttempt, found, Option.map_some]
  ext other : 2
  · rfl
  · simp only [Ledger.prospect, lookup]
    split
    · rename_i same
      rw [same, found, Option.map_some, Option.map_some, Option.some.injEq]
      exact Attempt.recovered_abandon reserved _
    · rfl
  · constructor
    · intro guarded
      rcases Ledger.guards_iff.mp guarded with old | ⟨target, next, nextFound, rfl, traced⟩
      · exact .inl old
      · rw [lookup] at nextFound
        split at nextFound
        · obtain rfl := Option.some.inj nextFound
          exact .inl held
        · exact Ledger.guards_own nextFound traced
    · intro guarded
      rcases Ledger.guards_iff.mp guarded with old | ⟨target, next, nextFound, rfl, traced⟩
      · exact .inl old
      · by_cases same : target = attempt.key
        · rw [same, found, Option.some.injEq] at nextFound
          rw [← nextFound]
          exact .inl held
        · have kept : (ledger.abandonAttempt attempt.key).attempts.lookup target = some next := by
            rw [lookup, if_neg same]
            exact nextFound
          exact Ledger.guards_own kept traced
  · rfl

theorem Ledger.prospect_closeSession {session : Session}
    (found : ledger.sessions.lookup session.key = some session) :
    (ledger.putSession { session with state := .closed }).prospect = ledger.prospect := by
  ext other : 2
  · rfl
  · rfl
  · rfl
  · simp only [Ledger.prospect, Ledger.lookup_putSession]
    split
    · rename_i same
      rw [← same, show Session.key { session with state := .closed } = session.key from rfl, found]
      rfl
    · rfl

/-! ## The loops -/

section Loops

variable {μ : Type} {memory : μ} {tenant : Name} {steady : Prop}
  {raised : PyExc → Ledger → μ → Prop}

/-- A live job as the first loop has read it. -/
structure Ledger.Live (ledger : Ledger) (tenant : Name) (entry : Job × Receipt) : Prop where
  stored : ledger.Stored entry
  sameJob : entry.2.jobId = entry.1.id
  tenant : entry.1.tenant = tenant
  alive : entry.2.state.isLive = true

/-- The receipt that recovery writes. -/
def Receipt.invalidate (receipt : Receipt) : Receipt :=
  { receipt with
    state := if receipt.state = .running then .unknown else .cancelled
    reason := some (PyStr.ofString "coordinator_restart") }

theorem Ledger.Live.written {entry : Job × Receipt} (live : ledger.Live tenant entry) :
    Written ledger entry.1.key (ledger.writeReceipt tenant entry.2.invalidate) := by
  obtain ⟨job, old⟩ := entry
  have found : ledger.jobs.lookup (JobRow.key ⟨job, old⟩) = some ⟨job, old⟩ := live.stored
  have sameJob : old.invalidate.jobId = (JobRow.mk job old).job.id := live.sameJob
  obtain rfl : job.tenant = tenant := live.tenant
  refine ⟨⟨fun other differs => Ledger.lookup_writeReceipt_of_ne sameJob differs, ?_⟩,
    rfl, rfl, rfl⟩
  rw [show job.key = JobRow.key ⟨job, old⟩ from rfl,
    Ledger.lookup_writeReceipt_self found sameJob, found, Option.map_some, Option.map_some,
    Option.some.injEq]
  have alive := live.alive
  show (if old.state = .running then JobState.unknown else .cancelled) = old.state.recovered
  cases state : old.state <;> simp_all [JobState.isLive, JobState.recovered]

theorem wp_recoverJob_prospect (now : Ns) {entry : Job × Receipt}
    (live : ledger.Live tenant entry) (restartable : steady → ledger.Restartable) :
    wp (Store.recoverJob tenant now entry)
      (fun before after => steady → after.prospect = before.prospect)
      (fun _ after _ => Ended ledger entry.1.key after) raised ledger memory := by
  have written := live.written
  obtain ⟨job, old⟩ := entry
  obtain rfl : job.tenant = tenant := live.tenant
  have found : ledger.jobs.lookup job.key = some ⟨job, old⟩ := live.stored
  have runs : ledger.Runs job.key ↔ old.state = .running := Ledger.runs_iff found
  have keeps : steady → (ledger.writeReceipt job.tenant old.invalidate).prospect =
      ledger.prospect := by
    intro isSteady
    refine written.prospect_iff.mpr fun attempt attemptFound isRunning => ?_
    refine restartable isSteady attempt (Table.mem_of_lookup attemptFound) ?_
    rw [Table.key_of_lookup attemptFound]
    exact isRunning
  show wp (Store.receipt job.tenant old.invalidate >>= fun _ =>
    Store.recoverRunning job.tenant job old >>= fun _ => Store.event now _) _ _ _ _ _
  simp only [wp_bind, wp_receipt]
  refine ⟨keeps, wp_recoverRunning ?_ ?_⟩
  · intro unattempted
    have ended := written.ended fun isRunning => unattempted (runs.mp isRunning)
    simp only [wp_event]
    exact ⟨fun _ => rfl, ended.note _ _⟩
  · intro attempt isRunning attemptFound quarantined
    have runsBefore : ledger.Runs job.key := runs.mpr isRunning
    have ended : Ended ledger job.key (quarantined.settleAttempt job.key none) :=
      written.reheld attemptFound runsBefore _
    have quarantines : steady → quarantined.prospect = ledger.prospect := by
      intro isSteady
      refine (Ledger.prospect_quarantinePool _ ?_).trans (keeps isSteady)
      have guarded : attempt.pool ∈ ledger.prospect.quarantined :=
        Ledger.guards_own attemptFound (.inr runsBefore)
      rw [← keeps isSteady] at guarded
      exact guarded
    refine ⟨fun isSteady => (quarantines isSteady).trans (keeps isSteady).symm,
      fun isSteady => ended.prospect.trans (quarantines isSteady).symm, ?_⟩
    simp only [wp_event]
    exact ⟨fun _ => rfl, ended.note _ _⟩

/-- The first loop, with the jobs still to come. -/
structure Rounds (start : Ledger) (tenant : Name) (rest : List (Job × Receipt))
    (ledger : Ledger) : Prop where
  live : ∀ entry ∈ rest, ledger.Live tenant entry
  distinct : (rest.map fun entry => entry.1.key).Nodup
  prospect : ledger.prospect = start.prospect

theorem Rounds.next {start : Ledger} {entry : Job × Receipt} {rest : List (Job × Receipt)}
    (rounds : Rounds start tenant (entry :: rest) before) (ended : Ended before entry.1.key after) :
    Rounds start tenant rest after ∧ ∀ other ∈ rest, other.1.key ≠ entry.1.key := by
  have distinct := rounds.distinct
  rw [List.map_cons, List.nodup_cons] at distinct
  have apart : ∀ other ∈ rest, other.1.key ≠ entry.1.key := by
    intro other member same
    exact distinct.1 (List.mem_map.mpr ⟨other, member, same⟩)
  refine ⟨⟨?_, distinct.2, ended.prospect.trans rounds.prospect⟩, apart⟩
  intro other member
  have live := rounds.live other (List.mem_cons_of_mem _ member)
  exact { live with stored := (ended.others _ (apart other member)).trans live.stored }

theorem Rounds.of_reads {entries : List (Job × Receipt)} (sound : ledger.Sound)
    (bound : ledger.tenant = some tenant)
    (reads : Reads ledger tenant [.queued, .running] entries) :
    Rounds ledger tenant entries ledger := by
  refine ⟨?_, reads.distinct, rfl⟩
  intro entry member
  have stored := reads.stored entry member
  have rowSound := sound.rows _ _ stored
  refine ⟨stored, rowSound.sameJob, ?_, ?_⟩
  · have rowTenant := rowSound.tenant
    rw [bound, Option.some.injEq] at rowTenant
    exact rowTenant.symm
  · have selected := reads.selected entry member
    simp only [List.mem_cons, List.not_mem_nil, or_false] at selected
    rcases selected with queued | running
    · rw [queued]; rfl
    · rw [running]; rfl

theorem wp_recoverJobs_prospect (now : Ns) {start : Ledger} {entries : List (Job × Receipt)}
    (rounds : Rounds start tenant entries ledger) (restartable : steady → ledger.Restartable) :
    wp (forEach entries (Store.recoverJob tenant now))
      (fun before after => steady → after.prospect = before.prospect)
      (fun _ after _ => after.prospect = start.prospect) raised ledger memory := by
  refine wp_post (wp_forEach
    (fun rest after _ => Rounds start tenant rest after ∧ (steady → after.Restartable))
    ?_ ⟨rounds, restartable⟩) (fun _ _ _ kept => kept.1.prospect) (fun _ _ _ failed => failed)
  rintro entry rest middle memory ⟨rounds, restartable⟩
  refine wp_post (wp_recoverJob_prospect now (rounds.live entry List.mem_cons_self) restartable)
    ?_ (fun _ _ _ failed => failed)
  intro _ after memory ended
  exact ⟨(rounds.next ended).1, fun isSteady => ended.restartable (restartable isSteady)⟩

/-- The first loop loses the prospect at a running job whose attempt does not
resume. -/
theorem visits_recoverJobs (now : Ns) {start : Ledger} {entries : List (Job × Receipt)}
    (rounds : Rounds start tenant entries ledger) {target : Job × Receipt}
    (member : target ∈ entries) (isRunning : target.2.state = .running) {attempt : Attempt}
    (found : ledger.attempts.lookup target.1.key = some attempt)
    (breaks : ¬ attempt.Resumes ledger) :
    Visits (forEach entries (Store.recoverJob tenant now)) ledger memory
      fun state => state.prospect ≠ start.prospect := by
  refine visits_forEach
    (fun rest after _ => Rounds start tenant rest after ∧
      after.attempts.lookup target.1.key = some attempt ∧ ¬ attempt.Resumes after)
    ?_ ?_ member ⟨rounds, found, breaks⟩
  · rintro entry rest middle memory - later ⟨rounds, found, breaks⟩
    refine wp_mono (wp_recoverJob_prospect now (rounds.live entry List.mem_cons_self) False.elim)
      (fun _ _ _ => trivial) ?_ (fun _ _ _ failed => failed)
    intro _ after memory ended
    obtain ⟨next, apart⟩ := rounds.next ended
    have differs := apart target later
    refine ⟨next, (ended.otherAttempts _ differs).trans found, ?_⟩
    rw [ended.resumes]
    · exact breaks
    · rw [Table.key_of_lookup found]
      exact differs
  · rintro rest middle memory ⟨rounds, found, breaks⟩
    have live := rounds.live target List.mem_cons_self
    have written := live.written
    refine visits_bind_first (visits_commit _ ?_)
    intro same
    refine breaks (written.prospect_iff.mp (same.trans rounds.prospect.symm) attempt found ?_)
    exact (Ledger.runs_iff live.stored).mpr isRunning

/-- The second loop, with the reservations still to come. -/
structure Surrenders (start : Ledger) (tenant : Name) (rest : List Attempt)
    (ledger : Ledger) : Prop where
  stored : ∀ attempt ∈ rest, ledger.attempts.lookup attempt.key = some attempt
  reserved : ∀ attempt ∈ rest, attempt.disposition = .reserved
  tenant : ∀ attempt ∈ rest, attempt.tenant = tenant
  distinct : (rest.map Attempt.key).Nodup
  prospect : ledger.prospect = start.prospect

theorem wp_recoverAttempts_prospect (now : Ns) :
    wp (forEach (ledger.attempts.rows.filter fun attempt =>
        attempt.tenant = tenant ∧ attempt.disposition = .reserved)
        (Store.recoverAttempt tenant now))
      (fun before after => steady → after.prospect = before.prospect)
      (fun _ after _ => after.prospect = ledger.prospect) raised ledger memory := by
  refine wp_post (wp_forEach (fun rest after _ => Surrenders ledger tenant rest after) ?_ ?_)
    (fun _ _ _ kept => kept.prospect) (fun _ _ _ failed => failed)
  · intro attempt rest middle memory surrenders
    have found := surrenders.stored attempt List.mem_cons_self
    have reserved := surrenders.reserved attempt List.mem_cons_self
    obtain rfl := surrenders.tenant attempt List.mem_cons_self
    have distinct := surrenders.distinct
    rw [List.map_cons, List.nodup_cons] at distinct
    let held := middle.quarantinePool attempt.pool "restart_with_unconfirmed_reserved_work"
    have quarantines : held.prospect = middle.prospect :=
      Ledger.prospect_quarantinePool _ (Ledger.guards_own found (.inl reserved))
    have abandons : (held.abandonAttempt attempt.key).prospect = held.prospect :=
      Ledger.prospect_abandonAttempt found reserved
        ((Ledger.mem_quarantined_quarantinePool _).mpr (.inl rfl))
    simp only [Store.recoverAttempt, wp_bind, wp_quarantine, wp_commit, wp_event]
    refine ⟨fun _ => quarantines, fun _ => abandons, fun _ => rfl, ?_⟩
    refine ⟨?_, fun other member => surrenders.reserved other (List.mem_cons_of_mem _ member),
      fun other member => surrenders.tenant other (List.mem_cons_of_mem _ member), distinct.2,
      abandons.trans (quarantines.trans surrenders.prospect)⟩
    intro other member
    have differs : other.key ≠ attempt.key := by
      intro same
      exact distinct.1 (List.mem_map.mpr ⟨other, member, same⟩)
    refine (Ledger.lookup_abandonAttempt held).trans ?_
    rw [if_neg (show other.key ≠ (attempt.tenant, attempt.job) from differs)]
    exact surrenders.stored other (List.mem_cons_of_mem _ member)
  · refine ⟨?_, ?_, ?_, ledger.attempts.distinct.sublist (List.filter_sublist.map _), rfl⟩
    · intro attempt member
      exact Table.lookup_of_mem (List.mem_filter.mp member).1
    · intro attempt member
      exact (of_decide_eq_true (List.mem_filter.mp member).2).2
    · intro attempt member
      exact (of_decide_eq_true (List.mem_filter.mp member).2).1

theorem wp_recoverSessions_prospect :
    wp (forEach (ledger.sessions.rows.filter fun session => session.tenant = tenant)
        Store.recoverSession)
      (fun before after => steady → after.prospect = before.prospect)
      (fun _ after _ => after.prospect = ledger.prospect) raised ledger memory := by
  refine wp_post (wp_forEach
    (fun rest after _ => (∀ session ∈ rest, after.sessions.lookup session.key = some session) ∧
      (rest.map Session.key).Nodup ∧ after.prospect = ledger.prospect) ?_ ?_)
    (fun _ _ _ kept => kept.2.2) (fun _ _ _ failed => failed)
  · rintro session rest middle memory ⟨stored, distinct, prospect⟩
    rw [List.map_cons, List.nodup_cons] at distinct
    have closes := Ledger.prospect_closeSession (stored session List.mem_cons_self)
    simp only [Store.recoverSession, wp_putSession]
    refine ⟨fun _ => closes, ?_, distinct.2, closes.trans prospect⟩
    intro other member
    rw [middle.lookup_putSession_of_ne]
    · exact stored other (List.mem_cons_of_mem _ member)
    · intro same
      exact distinct.1 (List.mem_map.mpr ⟨other, member, same.symm⟩)
  · refine ⟨?_, ledger.sessions.distinct.sublist (List.filter_sublist.map _), rfl⟩
    intro session member
    exact Table.lookup_of_mem (List.mem_filter.mp member).1

/-- A whole recovery keeps the prospect, and each of its commits does when the
ledger is restartable. -/
theorem wp_recover_prospect (now : Ns) (sound : ledger.Sound) (bound : ledger.tenant = some tenant)
    (restartable : steady → ledger.Restartable) :
    wp (Store.recover tenant now) (fun before after => steady → after.prospect = before.prospect)
      (fun _ after _ => after.prospect = ledger.prospect) raised ledger memory := by
  simp only [Store.recover, wp_bind]
  refine wp_jobs sound bound (by simp) (by simp [JobState.isLive]) ?_
  intro entries reads
  simp only [wp_bind]
  refine wp_post (wp_recoverJobs_prospect now (.of_reads sound bound reads) restartable) ?_
    (fun _ _ _ failed => failed)
  intro _ ended memory endedSame
  simp only [wp_bind, wp_readDurable]
  refine wp_post (wp_recoverAttempts_prospect now) ?_ (fun _ _ _ failed => failed)
  intro _ free memory freeSame
  simp only [wp_bind, wp_readDurable]
  refine wp_post wp_recoverSessions_prospect ?_ (fun _ _ _ failed => failed)
  intro _ after memory afterSame
  exact afterSame.trans (freeSame.trans endedSame)

/-- A recovery of a ledger that is not restartable loses its prospect on the
way. -/
theorem visits_recover (now : Ns) (sound : ledger.Sound) (bound : ledger.tenant = some tenant)
    (breaks : ¬ ledger.Restartable) :
    Visits (Store.recover tenant now) ledger memory
      fun state => state.prospect ≠ ledger.prospect := by
  simp only [Ledger.Restartable, not_forall] at breaks
  obtain ⟨attempt, member, ⟨row, found, isRunning⟩, breaks⟩ := breaks
  apply visits_bind_next
  refine wp_jobs sound bound (by simp) (by simp [JobState.isLive]) ?_
  intro entries reads
  refine visits_bind_first (visits_recoverJobs now (.of_reads sound bound reads)
    (reads.complete _ row found (by simp [isRunning])) isRunning ?_ breaks)
  rw [show row.job.key = attempt.key from (Table.key_of_lookup found : row.key = attempt.key)]
  exact Table.lookup_of_mem member

end Loops

/-! ## Two recoveries -/

/-- A recovery that is stopped between two of its commits, or before or after
all of them, and then run again leaves what one that was not stopped does:
nothing waiting, in flight or open, and the same receipt states, attempts,
quarantined pools and sessions. -/
def Ledger.Restarts (ledger : Ledger) (tenant : Name) : Prop :=
  ∀ (nowNs laterNs : Ns) (count : Nat),
    let whole := Store.recover tenant nowNs ledger ()
    let stopped := whole.cut count ledger
    let resumed := Store.recover tenant laterNs stopped ()
    (whole.value = .ok () ∧ (whole.durable ledger).Quiet) ∧
      (resumed.value = .ok () ∧ (resumed.durable stopped).Quiet) ∧
        (resumed.durable stopped).outlook = (whole.durable ledger).outlook

/-- A recovery ends, and leaves what the ledger promised. -/
theorem recover_ends (nowNs : Ns) {tenant : Name} (sound : ledger.Sound)
    (bound : ledger.tenant = some tenant) :
    let whole := Store.recover tenant nowNs ledger ()
    whole.value = .ok () ∧ (whole.durable ledger).Quiet ∧
      (whole.durable ledger).outlook = ledger.prospect := by
  intro whole
  have recovers : wp (Store.recover tenant nowNs) (Commit (.recovery false))
      (fun _ after _ => after.Quiet ∧ after.tenant = some tenant ∧
        (∀ pool, ledger.Guards pool → pool ∈ after.quarantined) ∧ () = ())
      (fun _ _ _ => False) ledger () :=
    wp_recover nowNs sound bound (fun impossible => by contradiction)
  have keeps : wp (Store.recover tenant nowNs) (fun before after => False → _)
      (fun _ after _ => after.prospect = ledger.prospect) (fun _ _ _ => False) ledger () :=
    wp_recover_prospect nowNs sound bound False.elim
  have quiet := recovers.2
  have same := keeps.2
  cases valueEq : (Store.recover tenant nowNs ledger ()).value with
  | error exception => simp only [valueEq] at quiet
  | ok value =>
      simp only [valueEq] at quiet same
      exact ⟨rfl, quiet.1, quiet.1.prospect.symm.trans same⟩

theorem Ledger.restarts_iff {tenant : Name} (sound : ledger.Sound)
    (bound : ledger.tenant = some tenant) : ledger.Restarts tenant ↔ ledger.Restartable := by
  have chain : ∀ nowNs, List.IsChain (Commit (.recovery false))
      (ledger :: (Store.recover tenant nowNs ledger ()).commits) := by
    intro nowNs
    have recovers : wp (Store.recover tenant nowNs) (Commit (.recovery false))
        _ (fun _ _ _ => True) ledger () :=
      wp_recover nowNs sound bound (fun impossible => by contradiction)
    exact recovers.1
  have resumes : ∀ nowNs laterNs count,
      let stopped := (Store.recover tenant nowNs ledger ()).cut count ledger
      let resumed := Store.recover tenant laterNs stopped ()
      resumed.value = .ok () ∧ (resumed.durable stopped).Quiet ∧
        (resumed.durable stopped).outlook = stopped.prospect := by
    intro nowNs laterNs count stopped
    have member := cut_mem (Store.recover tenant nowNs ledger ()) count ledger
    refine recover_ends laterNs (sound_of_chain (chain nowNs) sound stopped member) ?_
    exact isChain_preserves (fun state => state.tenant = some tenant)
      (fun _ _ commit bound => commit.tenant_kept bound) (chain nowNs) bound stopped member
  constructor
  · intro restarts
    by_contra breaks
    obtain ⟨count, differs⟩ := (visits_recover 0 sound bound breaks).cut
    obtain ⟨-, -, same⟩ := restarts 0 0 count
    rw [(resumes 0 0 count).2.2, (recover_ends 0 sound bound).2.2] at same
    exact differs same
  · intro restartable nowNs laterNs count
    obtain ⟨value, quiet, whole⟩ := recover_ends nowNs sound bound
    obtain ⟨laterValue, laterQuiet, resumed⟩ := resumes nowNs laterNs count
    refine ⟨⟨value, quiet⟩, ⟨laterValue, laterQuiet⟩, ?_⟩
    rw [resumed, whole]
    have keeps : wp (Store.recover tenant nowNs) _ _ (fun _ _ _ => True) ledger () :=
      wp_recover_prospect nowNs sound bound (fun _ : True => restartable)
    exact isChain_preserves (fun state => state.prospect = ledger.prospect)
      (fun _ _ step same => (step trivial).trans same) keeps.1 rfl _
      (cut_mem (Store.recover tenant nowNs ledger ()) count ledger)

/-- On every ledger that a crash can leave, a recovery may be stopped and run
again exactly when each attempt of a running job has no charge, and is still
reserved or on a pool that the journal guards without it. -/
theorem recovery_restarts_iff (caps : BudgetCaps) (steps : List CampaignStep) {ledger : Ledger}
    (member : ledger ∈ Campaign.history caps steps) {tenant : Name}
    (unbound : ledger.tenant = none ∨ ledger.tenant = some tenant) :
    (ledger.bindTenant tenant).Restarts tenant ↔ ledger.Restartable := by
  have sound := Campaign.history_sound caps steps ledger member
  have commit : Commit (.recovery false) ledger (ledger.bindTenant tenant) :=
    .bindTenant tenant unbound
  refine Ledger.restarts_iff (commit.sound sound) ?_
  rcases unbound with none_ | same
  · simp [Ledger.bindTenant, none_]
  · simp [Ledger.bindTenant, same]

theorem recovery_restarts_iff_sending :
    (((Campaign.fresh Sample.config.caps).run Sample.sending).ledger.bindTenant
      Sample.tenant).Restarts Sample.tenant :=
  (recovery_restarts_iff Sample.config.caps Sample.sending (Campaign.run_ledger _ _)
    (by decide +kernel)).mpr (by decide +kernel)

/-- A call returns, and the process dies between its charge and its receipt. -/
def Sample.charging : List CampaignStep :=
  Sample.sending ++ [.crash (.finishTask Sample.job (Sample.reply 5)) 1]

/-- A recovery that dies after the receipt of such a job leaves the charge and
the pool to no one. -/
theorem recovery_not_restarted :
    ((Campaign.fresh Sample.config.caps).run Sample.charging).ledger ∈
        Campaign.history Sample.config.caps Sample.charging ∧
      ¬ (((Campaign.fresh Sample.config.caps).run Sample.charging).ledger.bindTenant
        Sample.tenant).Restarts Sample.tenant := by
  refine ⟨Campaign.run_ledger _ _, fun restarts => ?_⟩
  have same := (restarts 0 0 1).2.2
  have attempts := congrFun (congrArg Outlook.attempts same) (Sample.tenant, Sample.job)
  revert attempts
  decide +kernel

end AgminaRuntime
