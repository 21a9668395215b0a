import AgminaRuntime.CoordinatorRules

/-!
# Sessions, cancellation and consumption

The public operations that dispatch nothing keep what holds between two steps,
whether they return or raise.
-/

namespace AgminaRuntime

open Durable Durable.Program Keyed

variable {lifetime : Lifetime} {self : Coordinator} {ledger : Ledger}

/-! ## Opening, advancing and observing a session -/

/-- A session whose stored predecessor is not active has no live work. -/
theorem Running.putSession_inactive (running : Running lifetime ledger self) {session : Session}
    (commit : Commit lifetime.coordinator ledger (ledger.putSession session))
    (clock : session.clockId = self.clock.id)
    (inactive : ∀ old, ledger.sessions.lookup session.key = some old → old.state ≠ .active) :
    Running lifetime (ledger.putSession session) self := by
  refine ⟨running.putSession commit fun _ => clock, ?_⟩
  intro key row found live
  obtain ⟨stored, storedFound, current⟩ := running.current key row found live
  refine ⟨stored, ?_, current⟩
  rw [ledger.lookup_putSession_of_ne]
  · exact storedFound
  · intro same
    rw [← same] at storedFound
    exact inactive stored storedFound current.1

/-- A session that has entered the epoch after its stored one. -/
structure Turns (before : Ledger) (session : Session) (after : Ledger) : Prop where
  stored : after.sessions.lookup session.key = some session
  later : ∀ old, before.sessions.lookup session.key = some old → old.epoch < session.epoch

theorem Runtime.nextEpoch_lt {old? : Option Session} {old : Session} {epoch : Ns}
    (next : nextEpoch old? = some epoch) (found : old? = some old) : old.epoch < epoch := by
  rw [found] at next
  have later := Runtime.nextEpoch_some next
  exact Fin.lt_def.mpr (by omega)

theorem wp_openSession (running : Running lifetime ledger self) (sessionId taskRevision : String) :
    wp (Runtime.openSession sessionId taskRevision) (Commit lifetime.coordinator)
      (fun session after memory => Running lifetime after memory ∧ Turns ledger session after)
      (Refused lifetime) ledger self := by
  simp only [Runtime.openSession, wp_bind, wp_readVolatile, wp_nowNs, wp_readDurable]
  split
  · exact (wp_raise _).mpr ⟨running.read, by simp, rfl⟩
  · rename_i inactive
    split
    · rename_i id revision epoch idEq _ next
      rw [idEq] at inactive next
      simp only [Option.bind_some] at inactive next
      let session : Session :=
        ⟨self.config.tenant, id, epoch, revision, self.clock.id, .active,
          self.clock.nowNs self.reads, none⟩
      have commit : Commit lifetime.coordinator ledger (ledger.putSession session) :=
        .turnover running.tenant next
      have opened : Running lifetime (ledger.putSession session) self := by
        refine running.putSession_inactive commit rfl ?_
        intro old found active
        exact inactive ⟨old, found, active⟩
      simp only [wp_bind, wp_putSession, wp_event]
      refine ⟨commit, .note _ _, (wp_pure _).mpr ⟨opened.read.note _ _, ?_, ?_⟩⟩
      · exact ledger.lookup_putSession_of_eq rfl
      · exact fun old found => Runtime.nextEpoch_lt next found
    · exact (wp_raise _).mpr ⟨running.read, by simp, rfl⟩

theorem wp_advanceSession (running : Running lifetime ledger self) (sid : Name)
    (expectedEpoch : Int) (taskRevision : String) (close : Bool) :
    wp (Runtime.advanceSession sid expectedEpoch taskRevision close) (Commit lifetime.coordinator)
      (fun session after memory => Running lifetime after memory ∧ Turns ledger session after ∧
        session.key = (self.config.tenant, sid))
      (Refused lifetime) ledger self := by
  simp only [Runtime.advanceSession, wp_bind, wp_readVolatile, wp_session_iff]
  split
  · exact ⟨running, by simp, rfl⟩
  · rename_i old found
    split
    · exact (wp_raise _).mpr ⟨running, by simp, rfl⟩
    · simp only [wp_bind, wp_nowNs]
      split
      · rename_i revision epoch _ next
        have oldKey := Table.key_of_lookup found
        let session : Session :=
          ⟨old.tenant, old.id, epoch, revision, self.clock.id,
            if close then .closed else .active, self.clock.nowNs self.reads, none⟩
        have bound : ledger.tenant = some old.tenant := running.sound.sessions _ _ found
        have commit : Commit lifetime.coordinator ledger (ledger.putSession session) := by
          refine .turnover bound ?_
          rw [show session.key = (self.config.tenant, sid) from oldKey, found]
          exact next
        have turned : Live lifetime (ledger.putSession session) self :=
          running.putSession commit fun _ => rfl
        simp only [wp_bind, wp_putSession, wp_event, wp_nowNs]
        refine ⟨commit, .note _ _, ?_⟩
        refine wp_post (wp_expire (turned.read.read.note _ _)) ?_ (fun _ _ _ failed => failed)
        rintro _ after memory ⟨swept, subsides⟩
        refine (wp_pure _).mpr ⟨swept, ⟨?_, ?_⟩, oldKey⟩
        · rw [subsides.sessions]
          exact ledger.lookup_putSession_of_eq rfl
        · intro other otherFound
          rw [show session.key = (self.config.tenant, sid) from oldKey] at otherFound
          exact Runtime.nextEpoch_lt next (found.symm.trans otherFound)
      · exact (wp_raise _).mpr ⟨running.read, by simp, rfl⟩

theorem wp_heartbeat (running : Running lifetime ledger self) (sid : Name)
    (expectedEpoch : Int) (bufferUntilNs : Option Int) :
    wp (Runtime.heartbeat sid expectedEpoch bufferUntilNs) (Commit (.heartbeat sid))
      (fun _ => Running lifetime) (Refused lifetime) ledger self := by
  simp only [Runtime.heartbeat, wp_bind, wp_readVolatile, wp_session_iff]
  split
  · exact ⟨running, by simp, rfl⟩
  · rename_i old found
    have oldKey := Table.key_of_lookup found
    simp only [wp_nowNs, wp_ite, wp_raise]
    split
    · exact ⟨running.read, by simp, rfl⟩
    · rename_i permitted
      simp only [not_or, not_not] at permitted
      split
      · exact ⟨running.read, by simp, rfl⟩
      · split
        · exact ⟨running.read, by simp, rfl⟩
        · simp only [wp_bind, wp_putSession, wp_event]
          obtain rfl : old.id = sid := congrArg Prod.snd oldKey
          have stored : ledger.sessions.lookup old.key = some old := by
            rw [show old.key = (self.config.tenant, old.id) from oldKey]
            exact found
          have commit := Commit.heartbeat (self.clock.nowNs self.reads)
            (bufferUntilNs.map fun until_ => Fin.ofNat (2 ^ 63) until_.toNat) stored
          refine ⟨commit, .note _ _, (wp_pure _).mpr (Running.note ⟨?_, ?_⟩ _ _)⟩
          · exact running.read.putSession commit fun _ => permitted.2.1
          · intro key row rowFound live
            obtain ⟨session, sessionFound, current⟩ := running.current key row rowFound live
            by_cases same : old.key = row.job.sessionKey
            · rw [← same, stored, Option.some.injEq] at sessionFound
              subst sessionFound
              exact ⟨_, ledger.lookup_putSession_of_eq same, current⟩
            · refine ⟨session, ?_, current⟩
              rw [ledger.lookup_putSession_of_ne]
              exacts [sessionFound, same]

/-! ## Cancelling -/

theorem wp_cancel (running : Running lifetime ledger self) (jobId : Name) :
    wp (Runtime.cancel jobId) (Commit lifetime.coordinator)
      (fun _ => Running lifetime) (Refused lifetime) ledger self := by
  simp only [Runtime.cancel, wp_bind, wp_readVolatile]
  refine wp_job_intro ⟨running, by simp, rfl⟩ ⟨running, by simp, rfl⟩ ?_
  intro row receipt found read
  have rowKey := Table.key_of_lookup found
  have stored : ledger.Stored (row.job, row.receipt) := by
    rw [← rowKey] at found
    exact found
  obtain ⟨reason, providerRequestId, -, -, -, same⟩ := Receipt.reparse_eq_some_iff.mp read
  have sameState : receipt.state = row.receipt.state := by rw [same]
  split
  · rename_i cancellable
    rw [sameState] at cancellable
    refine wp_post (wp_setState _ running.toLive stored read ?_ rfl fun _ => rfl)
      (fun _ _ _ moved => moved.running running) (fun _ _ _ failed => failed)
    simp only [List.mem_cons, List.not_mem_nil, or_false] at cancellable
    rcases cancellable with stateEq | stateEq | stateEq <;>
      simp [stateEq, JobState.successors]
  · exact (wp_pure _).mpr running

/-! ## Consuming -/

/-- A successful consumption: the job was valid at the first clock reading, and
the journal keeps the receipt that was returned. -/
structure Claims (before : Ledger) (memory : Coordinator) (jobId : Name) (consumerId : String)
    (receipt : Receipt) (after : Ledger) : Prop where
  valid : ∃ job stored session, before.jobs.lookup (memory.config.tenant, jobId) = some ⟨job, stored⟩ ∧
    before.sessions.lookup job.sessionKey = some session ∧
      job.invalidReason session (memory.clock.nowNs memory.reads) memory.clock.id = none ∧
        after.jobs.lookup (memory.config.tenant, jobId) = some ⟨job, receipt⟩
  state : receipt.state = .consumed
  predicted : receipt.predictionJson.isSome = true
  consumer : receipt.consumedBy.map Name.text = some consumerId

theorem wp_currentAges {guarantee : Ledger → Ledger → Prop}
    {raised : PyExc → Ledger → Coordinator → Prop} (running : Running lifetime ledger self)
    (job : Job) :
    wp (Runtime.currentAges job) guarantee
      (fun _ after memory => Running lifetime after memory ∧ after = ledger) raised ledger self := by
  refine wp_collect (fun _ _ after memory => Running lifetime after memory ∧ after = ledger) ?_
    ⟨running, rfl⟩
  rintro observation rest values after memory ⟨running, same⟩
  simp only [wp_bind, wp_nowNs]
  exact (wp_pure _).mpr ⟨running.read, same⟩

/-- The receipt that the first consumption writes. -/
theorem Receipt.Complete.consumed {stored receipt : Receipt} (complete : stored.Complete)
    (read : stored.reparse = some receipt) (succeeded : stored.state = .succeeded)
    (consumer : Name) (consumedNs : Ns) :
    Receipt.Complete
      { receipt with state := .consumed, consumedBy := some consumer, consumedNs := some consumedNs } := by
  have readable := Receipt.readable_of_reparse read
  obtain ⟨reason, providerRequestId, -, -, -, rfl⟩ := Receipt.reparse_eq_some_iff.mp read
  refine
    { readable := fun live => by simp [JobState.isLive] at live
      predicted := fun _ => complete.predicted (.inl succeeded)
      claimed := by simp
      returnable := fun _ => ?_
      unanswered := fun live => by simp [JobState.isLive] at live
      started := fun running => by simp at running }
  obtain ⟨reason', providerRequestId', reasonRead, idRead, bounded, same⟩ :=
    Receipt.reparse_eq_some_iff.mp readable
  simp only [Receipt.mk.injEq] at same
  obtain ⟨-, -, -, -, rfl, -, -, -, -, -, -, -, rfl, -⟩ := same
  exact Receipt.reparse_eq_some_iff.mpr ⟨_, _, reasonRead, idRead, bounded, rfl⟩

theorem wp_consume (running : Running lifetime ledger self) (jobId : Name) (consumerId : String) :
    wp (Runtime.consume jobId consumerId) (Commit lifetime.coordinator)
      (fun receipt after memory => Running lifetime after memory ∧
        Claims ledger self jobId consumerId receipt after)
      (Refused lifetime) ledger self := by
  simp only [Runtime.consume, wp_bind, wp_readVolatile]
  refine wp_job_intro ⟨running, by simp, rfl⟩ ⟨running, by simp, rfl⟩ ?_
  intro row receipt found read
  have rowKey : row.key = (self.config.tenant, jobId) := Table.key_of_lookup found
  have stored : ledger.jobs.lookup row.key = some row := by rw [rowKey]; exact found
  have rowSound := running.sound.rows _ _ found
  obtain ⟨session, sessionFound⟩ := Option.isSome_iff_exists.mp rowSound.session
  obtain ⟨reason, providerRequestId, -, -, -, same⟩ := Receipt.reparse_eq_some_iff.mp read
  have sameState : receipt.state = row.receipt.state := by rw [same]
  have sameConsumer : receipt.consumedBy = row.receipt.consumedBy := by rw [same]
  simp only [wp_bind, wp_session sessionFound, wp_nowNs]
  split
  · exact (wp_raise _).mpr ⟨running.read, by simp, rfl⟩
  · rename_i valid
    rw [wp_ite]
    split
    · exact (wp_raise _).mpr ⟨running.read, by simp, rfl⟩
    · rename_i acceptable
      rw [not_not, sameState] at acceptable
      split
      · -- the receipt was claimed before
        rename_i consumer claimed
        rw [wp_ite]
        split
        · exact (wp_raise _).mpr ⟨running.read, by simp, rfl⟩
        · rename_i sameName
          rw [not_not] at sameName
          have consumed : row.receipt.state = .consumed :=
            rowSound.complete.claimed.mpr (by rw [← sameConsumer, claimed]; rfl)
          have unchanged : receipt = row.receipt :=
            Option.some.inj (read.symm.trans (rowSound.complete.returnable consumed))
          refine (wp_pure _).mpr ⟨running.read, ?_, ?_, ?_, ?_⟩
          · rw [unchanged]
            exact ⟨row.job, row.receipt, session, found, sessionFound, valid, found⟩
          · rw [sameState, consumed]
          · rw [unchanged]
            exact rowSound.complete.predicted (.inr consumed)
          · rw [claimed, Option.map_some, sameName]
      · rename_i unclaimed
        simp only [wp_bind, wp_nowNs]
        split
        · exact (wp_raise _).mpr ⟨running.read.read, by simp, rfl⟩
        · rename_i consumer parsed
          have succeeded : row.receipt.state = .succeeded := by
            simp only [List.mem_cons, List.not_mem_nil, or_false] at acceptable
            rcases acceptable with stateEq | stateEq
            · exact stateEq
            · have := rowSound.complete.claimed.mp stateEq
              rw [← sameConsumer, unclaimed] at this
              contradiction
          have edge : JobState.consumed ∈ row.receipt.state.successors := by
            simp [succeeded, JobState.successors]
          let done : Receipt :=
            { receipt with
              state := .consumed
              consumedBy := some consumer
              consumedNs := some (self.clock.nowNs (self.reads + 1)) }
          have sameJob : done.jobId = row.job.id := by
            rw [show done.jobId = receipt.jobId from rfl, same]
            exact rowSound.sameJob
          have sameAnswer : row.receipt.SameAnswer done := by
            subst same
            exact ⟨rfl, rfl, rfl, rfl⟩
          have commit : Commit lifetime.coordinator ledger (ledger.writeReceipt row.job.tenant done) :=
            .write stored sameJob (rowSound.complete.consumed read succeeded _ _)
              (.inl edge) (by simp [done]) (fun spared =>
                .inl (Receipt.spared_of_moved sameAnswer.1 (by simp [done]) spared))
              (fun _ => (Receipt.readable_of_reparse read).congr rfl rfl rfl)
              (fun _ => .inl sameAnswer)
          have written : Running lifetime (ledger.writeReceipt row.job.tenant done) self := by
            refine ⟨running.toLive.write stored sameJob commit rfl ?_ ?_, ?_⟩
            · rw [succeeded]
              simp
            · rw [succeeded]
              simp
            · exact running.current.subsides (Ledger.subsides_write stored sameJob rfl)
          simp only [wp_bind, wp_receipt, wp_nowNs]
          refine ⟨commit, ?_⟩
          refine wp_post (wp_currentAges written.read.read.read row.job) ?_
            (fun _ _ _ failed => failed)
          rintro ages after memory ⟨running, rfl⟩
          simp only [wp_bind, wp_event]
          refine ⟨.note _ _, (wp_pure _).mpr ⟨running.note _ _, ?_, rfl, ?_, ?_⟩⟩
          · refine ⟨row.job, row.receipt, session, found, sessionFound, valid, ?_⟩
            rw [← rowKey]
            exact Ledger.lookup_writeReceipt_self stored sameJob
          · show done.predictionJson.isSome = true
            rw [show done.predictionJson = row.receipt.predictionJson by
              rw [show done.predictionJson = receipt.predictionJson from rfl, same]]
            exact rowSound.complete.predicted (.inl succeeded)
          · show some consumer.text = some consumerId
            unfold Name.parse at parsed
            split at parsed
            · rw [Option.some.injEq] at parsed
              rw [← parsed]
            · contradiction

theorem wp_recordOutcome (running : Running lifetime ledger self) (jobId : Name)
    (consumerId outcome evidenceRef : String) :
    wp (Runtime.recordOutcome jobId consumerId outcome evidenceRef) (Commit lifetime.coordinator)
      (fun _ => Running lifetime) (Refused lifetime) ledger self := by
  simp only [Runtime.recordOutcome, Runtime.result, wp_bind, wp_readVolatile]
  refine wp_job_intro ⟨running, by simp, rfl⟩ ⟨running, by simp, rfl⟩ ?_
  intro row receipt _ _
  refine (wp_pure _).mpr ?_
  rw [wp_ite]
  split
  · exact (wp_raise _).mpr ⟨running, by simp, rfl⟩
  · rw [wp_ite]
    split
    · exact (wp_raise _).mpr ⟨running, by simp, rfl⟩
    · simp only [wp_bind, wp_nowNs, wp_event]
      exact ⟨.note _ _, running.read.note _ _⟩

/-! ## Shutting down -/

/-- Every entry has moved to `state`, and the other rows are as they were. -/
structure AllMoved (before : Ledger) (state : JobState) (entries : List (Job × Receipt))
    (after : Ledger) : Prop where
  moved : ∀ entry ∈ entries, ∃ updated, after.Stored (entry.1, updated) ∧ updated.state = state
  others : ∀ key, (∀ entry ∈ entries, entry.1.key ≠ key) →
    after.jobs.lookup key = before.jobs.lookup key

/-- A loop that moves each of several queued jobs to a dead state. -/
theorem wp_moveAll {who : Author} {raised : PyExc → Ledger → Coordinator → Prop}
    {state : JobState} (text : String) (edge : state ∈ JobState.queued.successors)
    (dead : state.isDead = true) (running : Running lifetime ledger self)
    {entries : List (Job × Receipt)} (stored : ∀ entry ∈ entries, ledger.Stored entry)
    (queued : ∀ entry ∈ entries, entry.2.state = .queued)
    (distinct : (entries.map fun entry => entry.1.key).Nodup) :
    wp (forEach entries fun (job, receipt) => Runtime.moveTo job receipt state text) (Commit who)
      (fun _ after self => Running lifetime after self ∧ AllMoved ledger state entries after)
      raised ledger self := by
  refine wp_post (wp_forEach_stored id
    (fun rest after self => Running lifetime after self ∧ rest ⊆ entries ∧
      (∀ entry ∈ entries, entry ∈ rest ∨
        ∃ updated, after.Stored (entry.1, updated) ∧ updated.state = state) ∧
      ∀ key, (∀ entry ∈ entries, entry.1.key ≠ key) →
        after.jobs.lookup key = ledger.jobs.lookup key)
    ?_ stored distinct ⟨running, fun _ member => member, fun _ member => .inl member,
      fun _ _ => rfl⟩) ?_ (fun _ _ _ failed => failed)
  · rintro ⟨job, receipt⟩ rest middle self ⟨running, within, moved, others⟩ found
    have member := within List.mem_cons_self
    have stateEq : receipt.state = .queued := queued (job, receipt) member
    have alive : receipt.state.isLive = true := by rw [stateEq]; rfl
    have readable : receipt.Readable :=
      (running.sound.rows _ _ found).complete.readable alive
    refine wp_post (wp_moveTo text running.toLive found readable (by rw [stateEq]; exact edge)
      dead (by simp [stateEq])) ?_ (fun _ _ _ failed => failed)
    rintro _ after self ⟨updated, step⟩
    refine ⟨⟨step.running running, fun entry later => within (List.mem_cons_of_mem _ later),
      ?_, ?_⟩, step.others⟩
    · intro entry entryMember
      by_cases same : entry.1.key = job.key
      · have sameEntry : entry = (job, receipt) :=
          List.inj_on_of_nodup_map distinct entryMember member same
        exact .inr ⟨updated, by rw [sameEntry]; exact step.stored, step.state⟩
      · rcases moved entry entryMember with later | ⟨earlier, earlierStored, earlierState⟩
        · rcases List.mem_cons.mp later with rfl | later
          · exact absurd rfl same
          · exact .inl later
        · exact .inr ⟨earlier, (step.others _ same).trans earlierStored, earlierState⟩
    · intro key outside
      rw [step.others key fun same => outside _ member same.symm]
      exact others key outside
  · rintro _ after self ⟨running, -, moved, others⟩
    refine ⟨running, ?_, others⟩
    intro entry member
    rcases moved entry member with impossible | done
    · simp at impossible
    · exact done

theorem wp_beginClose (running : Running lifetime ledger self) :
    wp Runtime.beginClose (Commit lifetime.coordinator)
      (fun _ => Running lifetime) (Refused lifetime) ledger self := by
  simp only [Runtime.beginClose, wp_bind, wp_readVolatile]
  split
  · exact (wp_pure _).mpr running
  · simp only [wp_bind, wp_modifyVolatile]
    have closing : Running lifetime ledger { self with closed := true } :=
      ⟨running.toLive.of_memory rfl rfl le_rfl rfl rfl rfl running.cached rfl,
        running.current⟩
    refine wp_jobs closing.sound closing.tenant (by simp) (by simp [JobState.isLive]) ?_
    intro entries reads
    exact wp_post (wp_moveAll _ (by simp [JobState.successors]) rfl closing reads.stored
      (fun entry member => by simpa using reads.selected entry member) reads.distinct)
      (fun _ _ _ moved => moved.1) (fun _ _ _ failed => failed)

theorem wp_finishClose (running : Running lifetime ledger self) :
    wp Runtime.finishClose (Commit lifetime.coordinator)
      (fun _ => Running lifetime) (Refused lifetime) ledger self := by
  simp only [Runtime.finishClose, wp_bind, wp_nowNs, wp_quarantined, wp_event]
  exact ⟨.note _ _, running.read.note _ _⟩

end AgminaRuntime
