import AgminaRuntime.CampaignInvariant

/-!
# What a failed call leaves

The attempt of a call that fails is settled at zero if the request was not
sent, and else keeps its quote as unknown; the pool is quarantined unless the
remote work is known to have ended.  Nothing else in the two tables changes.
-/

namespace AgminaRuntime

open Durable Durable.Program

/-- The charge that a failed call settles. -/
def PyExc.settled (exception : PyExc) : Option Ns := if exception.notSent then some 0 else none

/-- The attempts and the quarantines behind a failed call. -/
structure FailsCall (before after : Ledger) (task : Task) (exception : PyExc) : Prop where
  attempts : after.attempts = (before.settleAttempt task.job.key exception.settled).attempts
  quarantines : after.quarantines =
    if exception.terminationKnown then before.quarantines
    else (before.quarantinePool task.endpoint.pool "unconfirmed_backend_termination").quarantines

theorem wp_settle_failed {ledger : Ledger} {self : Coordinator} (job : Job) (exception : PyExc)
    {normal : Unit → Ledger → Coordinator → Prop} {raised : PyExc → Ledger → Coordinator → Prop}
    (returns : normal () (ledger.settleAttempt job.key exception.settled) self) :
    wp (Store.settle job (if exception.notSent then some (Usage.ofCost 0) else none))
      (fun _ _ => True) normal raised ledger self := by
  rw [wp_settle]
  unfold PyExc.settled at returns
  cases sent : exception.notSent with
  | true =>
      rw [sent] at returns
      exact ⟨trivial, returns⟩
  | false =>
      rw [sent] at returns
      exact ⟨trivial, returns⟩

theorem wp_handleFailure_leaves (task : Task) (exception : PyExc) (ledger : Ledger)
    (self : Coordinator) :
    wp (Runtime.handleFailure task exception) (fun _ _ => True)
      (fun _ after _ => FailsCall ledger after task exception)
      (fun raised _ _ => raised.endsProcess = exception.endsProcess) ledger self := by
  simp only [Runtime.handleFailure]
  rw [wp_ite]
  split
  · exact (wp_raise _).mpr rfl
  · rename_i survives
    rw [Bool.not_eq_true] at survives
    simp only [Runtime.settleFailed, wp_bind]
    refine wp_settle_failed task.job exception ?_
    have settled : wp (if exception.notSent then do
          let noted ← Runtime.nowNs
          Store.event noted (.backendNotSent task.job.id exception.code)
        else pure ()) (fun _ _ => True)
        (fun _ middle _ =>
          middle.attempts = (ledger.settleAttempt task.job.key exception.settled).attempts ∧
            middle.quarantines = ledger.quarantines)
        (fun raised _ _ => raised.endsProcess = exception.endsProcess)
        (ledger.settleAttempt task.job.key exception.settled) self := by
      rw [wp_ite]
      split
      · simp only [wp_bind, wp_nowNs, wp_event]
        exact ⟨trivial, rfl, rfl⟩
      · exact (wp_pure _).mpr ⟨rfl, rfl⟩
    refine wp_post settled ?_ (fun _ _ _ failed => failed)
    rintro _ middle memory ⟨attempts, quarantines⟩
    simp only [wp_bind]
    refine wp_job_intro survives.symm survives.symm fun row receipt _ _ => ?_
    simp only [Runtime.moveTo, Runtime.setState, wp_bind, wp_receipt, wp_nowNs, wp_event, wp_pure]
    refine ⟨trivial, trivial, ?_⟩
    rw [wp_ite]
    split
    · rename_i known
      refine (wp_pure _).mpr ⟨attempts, ?_⟩
      rw [if_pos known]
      exact quarantines
    · rename_i unknown
      simp only [wp_bind, wp_quarantine, wp_nowNs, wp_event]
      refine ⟨trivial, trivial, attempts, ?_⟩
      rw [if_neg unknown]
      show middle.quarantines.replace _ = ledger.quarantines.replace _
      rw [quarantines]

theorem wp_runFinish_leaves (task : Task) (exception : PyExc) (ledger : Ledger)
    (self : Coordinator) :
    wp (Runtime.runFinish task (.raised exception)) (fun _ _ => True)
      (fun _ after _ => FailsCall ledger after task exception)
      (fun raised _ _ => raised.endsProcess = exception.endsProcess) ledger self := by
  simp only [Runtime.runFinish, Runtime.receive, wp_tryFinally, wp_tryExcept]
  exact (wp_raise _).mpr (wp_handleFailure_leaves task exception ledger self)

/-- A live coordinator takes the failure of a call it awaits. -/
theorem Campaign.Sound.failedCall {campaign : Campaign} (sound : campaign.Sound)
    {self : Coordinator} (live : campaign.live = some self) {jobId : Name} {task : Task}
    (found : self.task? jobId .awaiting = some task) {exception : PyExc}
    (survives : exception.endsProcess = false) :
    FailsCall campaign.ledger
      (campaign.step (.act (.finishTask jobId (.raised exception)))).1.ledger task exception := by
  obtain ⟨member, -⟩ := Coordinator.task?_some found
  have ends : wp (Runtime.runFinish task (.raised exception)) (Commit (.task false false)) _ _
      campaign.ledger self :=
    wp_runFinish (sound.live self live) member _ fun impossible => by contradiction
  have both := wp_and ends (wp_runFinish_leaves task exception campaign.ledger self)
  simp only [Campaign.step, live]
  refine durable_of_wp (fun after => FailsCall campaign.ledger after task exception)
    (?_ : wp _ (fun _ _ => True) _ _ _ _)
  simp only [Action.program, wp_bind, wp_readVolatile, found, Action.quietly]
  refine wp_post (wp_mono both (fun _ _ _ => trivial) (fun _ _ _ => id) (fun _ _ _ => id)) ?_ ?_
  · rintro _ after memory ⟨-, leaves⟩
    exact (wp_pure _).mpr leaves
  · rintro raised after memory ⟨ending, same⟩
    rw [ending, survives] at same
    contradiction

end AgminaRuntime
