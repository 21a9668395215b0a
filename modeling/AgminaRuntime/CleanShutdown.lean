import AgminaRuntime.FailedCalls
import AgminaRuntime.QueueService
import AgminaRuntime.UnconfirmedPools

/-!
# Shutdown

A coordinator that stops leaves nothing to recover.  Its queue was emptied when
it was closed, each task has ended, and a call that ended unconfirmed meanwhile
is an unknown attempt on a quarantined pool, which only an operator changes.
The next coordinator finds nothing to repair but the open sessions.
-/

namespace AgminaRuntime

open Durable Durable.Program Keyed

/-! ## The commits of a task -/

/-- No attempt but that of one job has moved. -/
def OthersKept (key : Name × Name) (first second : Ledger × Coordinator) : Prop :=
  ∀ other, other ≠ key → second.1.attempts.lookup other = first.1.attempts.lookup other

namespace Runtime

variable {key : Name × Name}

theorem othersKept : Cumulative (OthersKept key) where
  refl := fun _ _ _ => rfl
  trans := fun early late other differs => (late other differs).trans (early other differs)

theorem nowNs_others : Within (OthersKept key) nowNs := by
  intro ledger self
  simp only [wp_nowNs]
  exact fun _ _ => rfl

theorem event_others (atNs : Ns) (kind : Event) :
    Within (OthersKept key) (Store.event atNs kind : RuntimeProgram Unit) :=
  within_commit fun _ _ _ _ => rfl

theorem receipt_others (tenant : Name) (receipt : Receipt) :
    Within (OthersKept key) (Store.receipt tenant receipt : RuntimeProgram Unit) :=
  within_commit fun _ _ _ _ => rfl

theorem quarantine_others (pool : Name) (reason : String) :
    Within (OthersKept key) (Store.quarantine pool reason : RuntimeProgram Unit) :=
  within_commit fun _ _ _ _ => rfl

theorem noted_others (kind : Event) :
    Within (OthersKept key) (do
      let noted ← nowNs
      Store.event noted kind) :=
  within_bind othersKept nowNs_others fun _ => event_others _ _

theorem session_others (tenant sessionId : Name) :
    Within (OthersKept key) (Store.session tenant sessionId : RuntimeProgram Session) := by
  apply within_bind othersKept (within_readDurable othersKept)
  intro ledger
  split
  · exact within_raise othersKept _
  · exact within_pure othersKept _

theorem job_others (tenant jobId : Name) :
    Within (OthersKept key) (Store.job tenant jobId : RuntimeProgram (Job × Receipt)) := by
  apply within_bind othersKept (within_readDurable othersKept)
  intro ledger
  split
  · exact within_raise othersKept _
  · exact within_ofExcept othersKept _

theorem moveTo_others (job : Job) (receipt : Receipt) (state : JobState) (reason : PyStr) :
    Within (OthersKept key) (moveTo job receipt state reason) := by
  apply within_bind othersKept _ fun _ => within_pure othersKept _
  apply within_bind othersKept (receipt_others _ _)
  intro _
  apply within_bind othersKept nowNs_others
  intro now
  exact within_bind othersKept (event_others _ _) fun _ => within_pure othersKept _

theorem settle_others (job : Job) (usage : Option Usage) :
    Within (OthersKept job.key) (Store.settle job usage : RuntimeProgram Unit) := by
  apply within_transaction othersKept
  intro ledger after _ settled other differs
  split at settled
  · obtain rfl := Except.ok.inj settled
    exact Ledger.lookup_settleAttempt_of_ne none differs
  · split at settled
    · obtain rfl := Except.ok.inj settled
      exact Ledger.lookup_settleAttempt_of_ne (some _) differs
    · contradiction

variable (task : Task)

theorem handleFailure_others (exception : PyExc) :
    Within (OthersKept task.job.key) (handleFailure task exception) := by
  unfold handleFailure
  split
  · exact within_raise othersKept _
  · apply within_bind othersKept
    · apply within_bind othersKept (settle_others task.job _)
      intro _
      split
      · exact noted_others _
      · exact within_pure othersKept _
    · intro _
      apply within_bind othersKept (job_others _ _)
      intro entry
      apply within_bind othersKept nowNs_others
      intro completed
      apply within_bind othersKept (moveTo_others _ _ _ _)
      intro _
      split
      · exact within_pure othersKept _
      · exact within_bind othersKept (quarantine_others _ _) fun _ => noted_others _

theorem preSend_others : Within (OthersKept task.job.key) (preSend task) := by
  apply within_bind othersKept (within_readVolatile othersKept)
  intro self
  apply within_bind othersKept (session_others _ _)
  intro current
  apply within_bind othersKept nowNs_others
  intro now
  split
  · exact within_pure othersKept _
  · apply within_bind othersKept (settle_others task.job _)
    intro _
    apply within_bind othersKept (job_others _ _)
    intro entry
    apply within_bind othersKept (moveTo_others _ _ _ _)
    intro _
    apply within_bind othersKept nowNs_others
    intro noted
    exact within_bind othersKept (event_others _ _) fun _ => within_pure othersKept _

/-- The segment before the call moves no other attempt. -/
theorem runStart_others : Within (OthersKept task.job.key) (runStart task) := by
  apply within_bind othersKept
  · apply within_tryFinally othersKept
    · apply within_tryExcept othersKept (preSend_others task)
      intro exception
      apply within_bind othersKept (handleFailure_others task exception)
      exact fun _ => within_pure othersKept _
    · exact fun _ _ _ _ => rfl
  · intro sent
    split
    · exact within_bind othersKept (within_modifyVolatile fun _ _ _ _ => rfl)
        fun _ => within_pure othersKept _
    · exact within_pure othersKept _

theorem deliver_others (result : Prediction) :
    Within (OthersKept task.job.key) (deliver task result) := by
  apply within_bind othersKept nowNs_others
  intro now
  apply within_bind othersKept (job_others _ _)
  intro entry
  apply within_bind othersKept
  · unfold checkFirstContent
    split
    · exact within_pure othersKept _
    · split
      · exact within_raise othersKept _
      · split
        · exact within_pure othersKept _
        · exact within_raise othersKept _
  intro _
  apply within_bind othersKept (settle_others task.job _)
  intro _
  apply within_bind othersKept (session_others _ _)
  intro session
  apply within_bind othersKept (within_readVolatile othersKept)
  intro self
  dsimp only
  apply within_bind othersKept (receipt_others _ _)
  intro _
  apply within_bind othersKept
  · unfold cachePut
    split
    · exact within_modifyVolatile fun _ _ _ _ => rfl
    · exact within_pure othersKept _
  intro _
  split
  · exact within_raise othersKept _
  · exact event_others _ _

/-- The segment after the call moves no other attempt. -/
theorem runFinish_others (reply : BackendReply) :
    Within (OthersKept task.job.key) (runFinish task reply) := by
  apply within_tryFinally othersKept
  · apply within_tryExcept othersKept _ (handleFailure_others task)
    cases reply with
    | prediction result => exact deliver_others task result
    | notPrediction => exact within_raise othersKept _
    | raised exception => exact within_raise othersKept _
  · exact fun _ _ _ _ => rfl

end Runtime

/-! ## A call that ends unconfirmed -/

/-- The call has ended unconfirmed: its quote is held and its pool is out of
service. -/
def Ledger.Holds (ledger : Ledger) (task : Task) : Prop :=
  ledger.attempts.lookup task.job.key =
    some ((Attempt.reservation task.job task.endpoint).settle none) ∧
    task.endpoint.pool ∈ ledger.quarantined

/-- The call is still reserved or has ended unconfirmed. -/
def Ledger.Owes (ledger : Ledger) (task : Task) : Prop :=
  ledger.attempts.lookup task.job.key = some (Attempt.reservation task.job task.endpoint) ∨
    ledger.Holds task

/-- The step confirms no end of the call, and no operator settles its attempt or
releases its pool. -/
def Action.Spares (task : Task) : Action → Prop
  | finishTask jobId reply => jobId = task.job.id → reply.confirmed = false
  | reconcile _ entries _ =>
      ∀ entry ∈ entries, entry.1 ≠ .str (PyStr.ofString task.job.id.text)
  | releasePool pool _ _ => pool ≠ task.endpoint.pool
  | _ => True

/-- No other coordinator starts, and a step of this one spares the call. -/
def CampaignStep.Spares (task : Task) : CampaignStep → Prop
  | act action => action.Spares task
  | start _ => False
  | _ => True

section Commits

variable {before after : Ledger} {key : Name × Name} {task : Task}

/-- Only a task, a recovery or an operator changes an attempt. -/
theorem Commit.attempt_stays {who : Author} (commit : Commit who before after)
    (tasks : ∀ orderly legible, who ≠ .task orderly legible)
    (recoveries : ∀ clean, who ≠ .recovery clean) (operators : ∀ released, who ≠ .operator released)
    {attempt : Attempt} (found : before.attempts.lookup key = some attempt) :
    after.attempts.lookup key = some attempt := by
  cases commit with
  | addJob _ _ _ _ _ _ _ _ _ _ added =>
      obtain ⟨_, _, _, rfl⟩ := before.addJob_ok added
      exact found
  | reserve _ _ _ _ _ reserved =>
      obtain ⟨-, -, attempts, inserted, rfl⟩ := before.reserve_ok reserved
      have absent := (Table.insert?_eq_some_iff.mp inserted).1
      show attempts.lookup key = some attempt
      rw [Table.lookup_insert? inserted, if_neg]
      · exact found
      · rintro rfl
        rw [absent] at found
        contradiction
  | settle => exact absurd rfl (tasks _ _)
  | rehold => exact absurd rfl (recoveries _)
  | abandon => exact absurd rfl (recoveries _)
  | reconcile => exact absurd rfl (operators _)
  | _ => exact found

/-- What keeps the attempt of the call and its quarantine keeps what is owed. -/
theorem Ledger.Owes.frame (owes : before.Owes task)
    (attempt : ∀ attempt, before.attempts.lookup task.job.key = some attempt →
      after.attempts.lookup task.job.key = some attempt)
    (quarantined : task.endpoint.pool ∈ before.quarantined →
      task.endpoint.pool ∈ after.quarantined) : after.Owes task := by
  rcases owes with reserved | ⟨unknown, held⟩
  · exact .inl (attempt _ reserved)
  · exact .inr ⟨attempt _ unknown, quarantined held⟩

/-- Of a reserved and an ended call, a live task has the reserved one. -/
theorem Ledger.Owes.reservation {other : Task} (owes : before.Owes task)
    (same : other.job.key = task.job.key)
    (reserved : before.attempts.lookup other.job.key =
      some (Attempt.reservation other.job other.endpoint)) :
    other.endpoint.pool = task.endpoint.pool ∧
      before.attempts.lookup other.job.key =
        some (Attempt.reservation task.job task.endpoint) := by
  rcases owes with own | ⟨unknown, -⟩
  · rw [same] at reserved ⊢
    have attempts := Option.some.inj (reserved.symm.trans own)
    exact ⟨congrArg Attempt.pool attempts, own⟩
  · rw [← same, reserved] at unknown
    have attempts := congrArg (Option.map Attempt.disposition) unknown
    simp [Attempt.reservation, Attempt.settle] at attempts

end Commits

namespace Campaign

variable {campaign : Campaign} {self : Coordinator} {task : Task}

theorem ledger_act (live : campaign.live = some self) (action : Action) :
    (campaign.step (.act action)).1.ledger =
      (action.program campaign.ledger self).durable campaign.ledger := by
  simp only [step, live]

/-- Only the operator ends a quarantine. -/
theorem Sound.quarantine_stays (sound : campaign.Sound) (live : campaign.live = some self)
    {action : Action} {pool : Name} (keeps : action.author .free self ≠ .operator (some pool))
    (held : pool ∈ campaign.ledger.quarantined) :
    pool ∈ (campaign.step (.act action)).1.ledger.quarantined := by
  have chain := sound.chain (.act action)
  simp only [CampaignStep.author, live] at chain
  rw [step_ledger]
  exact isChain_preserves (fun state => pool ∈ state.quarantined)
    (fun _ _ commit member => commit.quarantined_kept keeps member) chain held _ (last_mem _ _)

/-- A step of the coordinator outside its tasks keeps what is owed for a call. -/
theorem Sound.owes_coordinator (sound : campaign.Sound) (live : campaign.live = some self)
    {action : Action}
    (tasks : ∀ orderly legible, action.author .free self ≠ .task orderly legible)
    (operators : ∀ released, action.author .free self ≠ .operator released)
    (owes : campaign.ledger.Owes task) : (campaign.step (.act action)).1.ledger.Owes task := by
  apply owes.frame
  · intro attempt found
    have chain := sound.chain (.act action)
    simp only [CampaignStep.author, live] at chain
    rw [step_ledger]
    exact isChain_preserves (fun state => state.attempts.lookup task.job.key = some attempt)
      (fun _ _ commit found => commit.attempt_stays tasks
        (action.author_ne_recovery .free self) operators found) chain found _ (last_mem _ _)
  · exact sound.quarantine_stays live (operators _)

/-- A task segment of another job keeps what is owed for a call. -/
theorem Sound.owes_other (sound : campaign.Sound) (live : campaign.live = some self)
    {action : Action} {orderly legible : Bool}
    (author : action.author .free self = .task orderly legible) {key : Name × Name}
    (differs : task.job.key ≠ key) {program : RuntimeProgram Visible}
    (runs : action.program campaign.ledger self = program campaign.ledger self)
    (others : Within (OthersKept key) program) (owes : campaign.ledger.Owes task) :
    (campaign.step (.act action)).1.ledger.Owes task := by
  apply owes.frame
  · intro attempt found
    rw [ledger_act live, runs]
    exact (others.ends campaign.ledger self _ differs).trans found
  · apply sound.quarantine_stays live
    rw [author]
    simp

theorem Sound.owes_startTask (sound : campaign.Sound) (live : campaign.live = some self)
    (called : task.job.key ∈ campaign.calls) (jobId : Name) (owes : campaign.ledger.Owes task) :
    (campaign.step (.act (.startTask jobId))).1.ledger.Owes task := by
  cases found : self.task? jobId .created with
  | none =>
      have still : Action.program (.startTask jobId) campaign.ledger self =
          ⟨.ok .quiet, self, []⟩ := by
        simp only [Action.program, readVolatile_bind, found]
        rfl
      rw [ledger_act live, still]
      exact owes
  | some other =>
      obtain ⟨member, -, created⟩ := Coordinator.task?_some found
      have uncalled := (sound.live self live).uncalled other member created
      have differs : task.job.key ≠ other.job.key := by
        intro same
        exact uncalled (same ▸ called)
      have runs : Action.program (.startTask jobId) campaign.ledger self =
          (Runtime.runStart other >>= fun sent =>
            pure (if sent then Visible.inferred other else .quiet)) campaign.ledger self := by
        simp only [Action.program, readVolatile_bind, found]
      exact sound.owes_other live (show _ = Author.task false false from rfl) differs runs
        (within_bind Runtime.othersKept (Runtime.runStart_others other)
          fun _ => within_pure Runtime.othersKept _) owes

/-- An exception that ends the process leaves no coordinator. -/
theorem finishTask_dies (live : campaign.live = some self) {jobId : Name} {other : Task}
    (found : self.task? jobId .awaiting = some other) {exception : PyExc}
    (ends : exception.endsProcess = true) :
    (campaign.step (.act (.finishTask jobId (.raised exception)))).1.live = none := by
  have raises : (Action.program (.finishTask jobId (.raised exception)) campaign.ledger
      self).value = .error exception := by
    have handled : Runtime.handleFailure other exception = raise exception := by
      rw [Runtime.handleFailure, if_pos ends]
    have tried : tryExcept (raise exception) (Runtime.handleFailure other) = raise exception := by
      funext ledger memory
      exact congrFun (congrFun handled ledger) memory
    simp only [Action.program, readVolatile_bind, found, Action.quietly, Runtime.runFinish,
      Runtime.receive, tried]
    rfl
  simp only [step, live, raises, endsProcess, ends, if_true]

theorem Sound.owes_finishTask (sound : campaign.Sound) (live : campaign.live = some self)
    {jobId : Name} {reply : BackendReply} (spares : (Action.finishTask jobId reply).Spares task)
    (survives : (campaign.step (.act (.finishTask jobId reply))).1.live ≠ none)
    (owes : campaign.ledger.Owes task) :
    (campaign.step (.act (.finishTask jobId reply))).1.ledger.Owes task := by
  cases found : self.task? jobId .awaiting with
  | none =>
      have still : Action.program (.finishTask jobId reply) campaign.ledger self =
          ⟨.ok .quiet, self, []⟩ := by
        simp only [Action.program, readVolatile_bind, found]
        rfl
      rw [ledger_act live, still]
      exact owes
  | some other =>
      have runs : Action.program (.finishTask jobId reply) campaign.ledger self =
          Action.quietly (Runtime.runFinish other reply) campaign.ledger self := by
        simp only [Action.program, readVolatile_bind, found]
      by_cases same : other.job.key = task.job.key
      · obtain ⟨member, named, -⟩ := Coordinator.task?_some found
        have reserved := ((sound.live self live).tasks other member).attempt
        obtain ⟨samePool, own⟩ := owes.reservation same reserved
        have unconfirmed := spares (named ▸ congrArg Prod.snd same)
        cases reply with
        | prediction result => contradiction
        | notPrediction => contradiction
        | raised exception =>
            have ordinary : exception.endsProcess = false := by
              by_contra ends
              exact survives (finishTask_dies live found (by simpa using ends))
            have leaves := sound.failedCall live found ordinary
            have unknown : exception.terminationKnown = false := unconfirmed
            have sent : exception.notSent = false := by
              by_contra unsent
              rw [exception.terminationKnown_of_notSent (by simpa using unsent)] at unknown
              contradiction
            right
            constructor
            · rw [same] at own
              rw [leaves.attempts, PyExc.settled, sent, same]
              exact Ledger.lookup_settleAttempt_self none
                (show _ = some (Attempt.reservation task.job task.endpoint) from own)
            · have quarantines := leaves.quarantines
              rw [unknown] at quarantines
              rw [← samePool, Ledger.quarantined, quarantines]
              exact campaign.ledger.mem_quarantined_quarantinePool.mpr (.inl rfl)
      · exact sound.owes_other live (show _ = Author.task false false from rfl) (Ne.symm same) runs
          (within_bind Runtime.othersKept (Runtime.runFinish_others other reply)
            fun _ => within_pure Runtime.othersKept _) owes

/-- Charges for other jobs leave the attempt of the call. -/
theorem applyCharges_others {before after : Ledger} {tenant : Name} {nowNs : Ns}
    {charges : List Charge} (applied : Store.applyCharges tenant nowNs charges before = .ok after)
    (others : ∀ charge ∈ charges, charge.job ≠ PyStr.ofString task.job.id.text)
    {attempt : Attempt} (found : before.attempts.lookup task.job.key = some attempt) :
    after.attempts.lookup task.job.key = some attempt := by
  refine Store.applyCharges_preserves
    (fun ledger => ledger.attempts.lookup task.job.key = some attempt) ?_ applied found
  rintro ledger other actual kind - - ⟨charge, member, named⟩ kept
  have differs : task.job.key ≠ other.key := by
    intro same
    apply others charge member
    rw [named, ← show task.job.id = other.job from congrArg Prod.snd same]
  exact (Ledger.lookup_settleAttempt_of_ne (some actual) differs).trans kept

/-- A step of an operator under the live coordinator keeps what is owed. -/
theorem owes_operator (live : campaign.live = some self)
    {action : Action} (spares : action.Spares task) {released : Option Name}
    (operates : action.author .free self = .operator released)
    (owes : campaign.ledger.Owes task) : (campaign.step (.act action)).1.ledger.Owes task := by
  rw [ledger_act live]
  cases action with
  | reconcile tenant entries nowNs =>
      refine durable_of_wp (fun after => after.Owes task)
        (?_ : wp _ (Commit (.operator none)) _ _ _ _)
      simp only [Action.program, wp_bind, wp_readVolatile]
      rw [wp_ite]
      split
      · exact (wp_pure _).mpr owes
      · simp only [Action.quietly, wp_bind]
        apply wp_reconcileMany tenant entries nowNs
        · intro charges after checked applied
          obtain ⟨attempts, events, same⟩ := Store.applyCharges_frame applied
          apply (wp_pure _).mpr
          apply owes.frame
          · intro attempt found
            apply applyCharges_others applied _ found
            intro charge member named
            obtain ⟨entry, entryMember, entryNamed⟩ := checkEntries_named checked charge member
            exact spares entry entryMember (entryNamed.trans (congrArg _ named))
          · rw [same]
            exact id
        · exact fun _ _ => owes
  | releasePool pool evidence nowNs =>
      refine durable_of_wp (fun after => after.Owes task)
        (?_ : wp _ (Commit (.operator (some pool))) _ _ _ _)
      simp only [Action.program, Action.quietly, wp_bind]
      apply wp_releasePool pool evidence nowNs
      · apply (wp_pure _).mpr
        have kept : task.endpoint.pool ∈ campaign.ledger.quarantined →
            task.endpoint.pool ∈ (campaign.ledger.releaseQuarantine pool).quarantined :=
          fun held => campaign.ledger.mem_quarantined_releaseQuarantine.mpr ⟨Ne.symm spares, held⟩
        exact owes.frame (fun _ found => found) kept
      · exact owes
  | _ => simp [Action.author] at operates

/-- A step that spares the call keeps what is owed for it. -/
theorem Sound.owes_act (sound : campaign.Sound) (live : campaign.live = some self)
    (called : task.job.key ∈ campaign.calls) {action : Action} (spares : action.Spares task)
    (survives : (campaign.step (.act action)).1.live ≠ none) (owes : campaign.ledger.Owes task) :
    (campaign.step (.act action)).1.ledger.Owes task := by
  cases action with
  | startTask jobId => exact sound.owes_startTask live called jobId owes
  | finishTask jobId reply => exact sound.owes_finishTask live spares survives owes
  | reconcile tenant entries nowNs => exact owes_operator live spares rfl owes
  | releasePool pool evidence nowNs => exact owes_operator live spares rfl owes
  | _ => exact sound.owes_coordinator live (by simp [Action.author]) (by simp [Action.author]) owes

/-- The call was made, and under a live coordinator it is still owed for. -/
structure Follows (campaign : Campaign) (task : Task) : Prop extends campaign.Sound where
  made : task.job.key ∈ campaign.calls
  owes : campaign.live ≠ none → campaign.ledger.Owes task

theorem Follows.step (follows : campaign.Follows task) {label : CampaignStep}
    (spares : label.Spares task) : (campaign.step label).1.Follows task := by
  refine ⟨follows.toSound.step label, ?_, ?_⟩
  · cases label with
    | act action =>
        simp only [Campaign.step]
        split
        · exact follows.made
        · exact List.mem_append_left _ follows.made
    | _ =>
        simp only [Campaign.step]
        split <;> exact follows.made
  · intro survives
    cases live : campaign.live with
    | none =>
        cases label with
        | start args => contradiction
        | _ => simp [Campaign.step, live] at survives
    | some self =>
        have owes := follows.owes (by simp [live])
        cases label with
        | act action => exact follows.toSound.owes_act live follows.made spares survives owes
        | start args => contradiction
        | crash action count => simp [Campaign.step, live] at survives
        | _ => simpa only [Campaign.step, live] using owes

theorem Follows.run (follows : campaign.Follows task) {labels : List CampaignStep}
    (spares : ∀ label ∈ labels, label.Spares task) : (campaign.run labels).Follows task :=
  runSteps_invariant (fun campaign : Campaign => campaign.Follows task)
    (fun _ _ spares follows => follows.step spares)
    (stepsMeet_of_forall (fun label member _ => spares label member) _) follows

/-- A call that a live coordinator awaits is followed. -/
theorem Sound.follows (sound : campaign.Sound) (live : campaign.live = some self)
    (member : task ∈ inFlight self) : campaign.Follows task := by
  simp only [inFlight, List.mem_filter, decide_eq_true_eq] at member
  obtain ⟨member, awaiting⟩ := member
  have running := sound.live self live
  exact ⟨sound, running.awaited task member awaiting,
    fun _ => .inl (running.tasks task member).attempt⟩

end Campaign

/-! ## The coordinator that closes -/

namespace Campaign

variable {campaign : Campaign} {self : Coordinator}

theorem beginClose_closed (live : campaign.live = some self) {next : Coordinator}
    (nextLive : (campaign.step (.act .beginClose)).1.live = some next) : next.closed = true := by
  have closes : wp Runtime.beginClose (fun _ _ => True) (fun _ _ next => next.closed = true)
      (fun _ _ next => next.closed = true) campaign.ledger self := by
    simp only [Runtime.beginClose, wp_bind, wp_readVolatile]
    rw [wp_ite]
    split
    · rename_i closed
      exact (wp_pure _).mpr closed
    · simp only [wp_bind, wp_modifyVolatile]
      have steady : Within Steady (Store.jobs self.config.tenant [.queued] >>= fun queued =>
          forEach queued fun entry =>
            Runtime.moveTo entry.1 entry.2 .cancelled "coordinator_shutdown") :=
        within_bind Runtime.steady (Runtime.jobs_steady _ _) fun _ =>
          within_forEach Runtime.steady (fun _ => Runtime.moveTo_steady _ _ _ _) _
      have kept : ∀ after next, Steady (campaign.ledger, { self with closed := true })
          (after, next) → next.closed = true := by
        intro after next same
        exact congrArg (fun fixed => fixed.2.2.1) same
      exact (wp_bind _ _).mp (wp_post (steady campaign.ledger { self with closed := true })
        (fun _ => kept) (fun _ => kept))
  have ended : wp (Action.program .beginClose) (fun _ _ => True)
      (fun _ _ next => next.closed = true) (fun _ _ next => next.closed = true)
      campaign.ledger self := by
    simp only [Action.program, Action.quietly, wp_bind]
    exact wp_post closes (fun _ _ _ closed => (wp_pure _).mpr closed) (fun _ _ _ closed => closed)
  have post := ended.2
  simp only [step, live] at nextLive
  split at nextLive
  · contradiction
  · obtain rfl := Option.some.inj nextLive
    split at post <;> exact post

/-- Nothing opens a closed coordinator. -/
theorem closed_step (closed : ∀ self ∈ campaign.live, self.closed = true) {label : CampaignStep}
    (starts : ∀ args, label ≠ .start args) :
    ∀ next ∈ (campaign.step label).1.live, next.closed = true := by
  intro next nextLive
  cases live : campaign.live with
  | none =>
      cases label with
      | start args => exact absurd rfl (starts args)
      | _ => simp [Campaign.step, live] at nextLive
  | some self =>
      cases label with
      | act action =>
          by_cases closes : action = .beginClose
          · subst closes
            exact beginClose_closed live nextLive
          · have steady := (Action.program_steady closes).ends campaign.ledger self
            simp only [step, live, Option.mem_def] at nextLive
            split at nextLive
            · contradiction
            · obtain rfl := Option.some.inj nextLive
              exact (congrArg (fun fixed => fixed.2.2.1) steady).trans (closed self live)
      | start args => exact absurd rfl (starts args)
      | crash action count => simp [Campaign.step, live] at nextLive
      | _ =>
          simp only [step, live, Option.mem_def, Option.some.injEq] at nextLive
          rw [← nextLive]
          exact closed self live

theorem closed_run {labels : List CampaignStep} (starts : ∀ args, .start args ∉ labels)
    (closed : ∀ self ∈ campaign.live, self.closed = true) :
    ∀ self ∈ (campaign.run labels).live, self.closed = true := by
  have others : StepsMeet step (fun _ label => ∀ args, label ≠ .start args) campaign labels := by
    apply stepsMeet_of_forall
    rintro label member _ args rfl
    exact starts args member
  exact runSteps_invariant (fun campaign => ∀ self ∈ campaign.live, self.closed = true)
    (fun _ _ other closed => closed_step closed other) others closed

end Campaign

/-! ## What a restart finds -/

/-- Nothing is waiting or in flight. -/
structure Ledger.Idle (ledger : Ledger) : Prop where
  rows : ∀ key row, ledger.jobs.lookup key = some row → row.receipt.state.isLive = false
  attempts : ∀ key attempt, ledger.attempts.lookup key = some attempt →
    attempt.disposition ≠ .reserved

/-- No receipt, no attempt and no quarantine has changed. -/
structure Ledger.Unmoved (before after : Ledger) : Prop where
  jobs : after.jobs = before.jobs
  attempts : after.attempts = before.attempts
  quarantines : after.quarantines = before.quarantines

theorem Ledger.Unmoved.trans {first second third : Ledger} (early : first.Unmoved second)
    (late : second.Unmoved third) : first.Unmoved third :=
  ⟨late.jobs.trans early.jobs, late.attempts.trans early.attempts,
    late.quarantines.trans early.quarantines⟩

/-- A closed coordinator without tasks leaves an idle ledger. -/
theorem Campaign.Sound.idle {campaign : Campaign} {self : Coordinator} (sound : campaign.Sound)
    (served : campaign.Served) (live : campaign.live = some self) (closed : self.closed = true)
    (ended : self.running = []) : campaign.ledger.Idle := by
  have running := sound.live self live
  constructor
  · intro key row found
    cases state : row.receipt.state with
    | queued =>
        have awake := (served self live key row found state).awake
        rw [closed] at awake
        contradiction
    | running =>
        obtain ⟨task, member, -⟩ := running.dispatched key row found state
        rw [ended] at member
        contradiction
    | _ => rfl
  · intro key attempt found reserved
    obtain ⟨task, member, -⟩ := running.reserved key attempt found reserved
    rw [ended] at member
    contradiction

section Restart

variable {ledger : Ledger} {self : Coordinator}

/-- A recovery of an idle ledger closes sessions and nothing else. -/
theorem wp_recover_idle {tenant : Name} (now : Ns) (sound : ledger.Sound)
    (bound : ledger.tenant = some tenant) (idle : ledger.Idle) :
    wp (Store.recover tenant now) Ledger.Unmoved (fun _ _ _ => True) (fun _ _ _ => True)
      ledger self := by
  simp only [Store.recover, wp_bind]
  apply wp_jobs sound bound (by simp) (by simp [JobState.isLive])
  intro entries reads
  have none_ : entries = [] := by
    apply List.eq_nil_iff_forall_not_mem.mpr
    intro entry member
    have dead := idle.rows _ _ (reads.stored entry member)
    have chosen := reads.selected entry member
    simp only [List.mem_cons, List.not_mem_nil, or_false] at chosen
    rcases chosen with queued | running
    · rw [queued] at dead
      contradiction
    · rw [running] at dead
      contradiction
  subst none_
  have free : (ledger.attempts.rows.filter fun attempt =>
      attempt.tenant = tenant ∧ attempt.disposition = .reserved) = [] := by
    apply List.filter_eq_nil_iff.mpr
    intro attempt member
    have disposed := idle.attempts _ attempt (Table.lookup_of_mem member)
    simp [disposed]
  -- the first two loops have nothing to do
  rw [wp_bind]
  apply (wp_pure ()).mpr
  simp only [wp_bind, wp_readDurable, free]
  apply (wp_pure ()).mpr
  simp only [wp_bind, wp_readDurable]
  have closes : ∀ session, Emits Ledger.Unmoved
      (Store.recoverSession session : RuntimeProgram Unit) :=
    fun session => emits_commit fun _ => ⟨rfl, rfl, rfl⟩
  exact emits_forEach closes _ ledger self

theorem wp_start_idle (sound : ledger.Sound) (idle : ledger.Idle) :
    wp Runtime.start Ledger.Unmoved (fun _ _ _ => True) (fun _ _ _ => True) ledger self := by
  by_cases accepts : ledger.Accepts self.config
  · apply wp_start_accepted accepts ⟨rfl, rfl, rfl⟩
    intro bound
    have binds : Commit (.recovery false) ledger (ledger.bindTenant self.config.tenant) :=
      .bindTenant _ accepts.2
    apply wp_post (wp_recover_idle _ (binds.sound sound) bound ⟨idle.rows, idle.attempts⟩)
    · exact fun _ _ _ _ => ⟨⟨rfl, rfl, rfl⟩, trivial⟩
    · exact fun _ _ _ _ => trivial
  · exact wp_mono (wp_start_refused accepts) (fun _ _ impossible => impossible.elim)
      (fun _ _ _ impossible => impossible.elim) (fun _ _ _ _ => trivial)

end Restart

namespace Campaign

variable {campaign : Campaign} {self : Coordinator}

/-- Whatever a start on an idle ledger commits, it leaves receipts, attempts and
quarantines alone. -/
theorem Sound.restart_unmoved (sound : campaign.Sound) (idle : campaign.ledger.Idle)
    (args : StartArgs) :
    ∀ after ∈ (campaign.step (.start args)).2, campaign.ledger.Unmoved after := by
  intro after member
  cases live : campaign.live with
  | some self => simp [Campaign.step, live] at member
  | none =>
      have starts : wp Runtime.start Ledger.Unmoved (fun _ _ _ => True) (fun _ _ _ => True)
          campaign.ledger args.memory := wp_start_idle sound.ledger idle
      simp only [Campaign.step, live] at member
      exact isChain_relates Ledger.Unmoved (fun _ => ⟨rfl, rfl, rfl⟩)
        (fun _ _ _ early late => early.trans late) starts.1 after (List.mem_cons_of_mem _ member)

/-- A closed coordinator without tasks stops, and only says so. -/
theorem finishClose_stops (live : campaign.live = some self) (closed : self.closed = true)
    (ended : self.running = []) :
    (campaign.step (.act .finishClose)).1.live = none ∧
      campaign.ledger.Unmoved (campaign.step (.act .finishClose)).1.ledger := by
  have stops : wp (Action.program .finishClose) (fun _ _ => True)
      (fun visible after _ => visible = .stopped ∧ campaign.ledger.Unmoved after)
      (fun _ _ _ => False) campaign.ledger self := by
    simp only [Action.program, wp_bind, wp_readVolatile]
    rw [wp_ite, if_pos ⟨closed, ended⟩]
    simp only [Runtime.finishClose, wp_bind, wp_nowNs, wp_quarantined, wp_event]
    exact ⟨trivial, (wp_pure _).mpr ⟨rfl, rfl, rfl, rfl⟩⟩
  have post := stops.2
  simp only [step, live]
  split at post
  · rename_i visible value
    obtain ⟨rfl, unmoved⟩ := post
    simp only [value, endsProcess, if_true]
    exact ⟨trivial, unmoved⟩
  · contradiction

end Campaign

/-- When `close` returns, nothing is waiting, reserved or counted, a call whose
end was not confirmed since it began is held as unknown on a quarantined pool,
and a restart at any time, wherever it may die, changes no receipt, attempt or
quarantine. -/
theorem clean_shutdown (caps : BudgetCaps) (early rest : List CampaignStep)
    {first self : Coordinator} (lifetime : ∀ args, .start args ∉ rest)
    (began : ((Campaign.fresh caps).run early).live = some first)
    (live : ((Campaign.fresh caps).run (early ++ .act .beginClose :: rest)).live = some self)
    (ended : self.running = []) :
    let closing := (Campaign.fresh caps).run (early ++ .act .beginClose :: rest)
    let stopped := (closing.step (.act .finishClose)).1
    stopped.live = none ∧ stopped.ledger.Idle ∧
      (∀ pool, self.poolUse pool = 0) ∧ (∀ endpoint, self.endpointUse endpoint = 0) ∧
      (∀ task ∈ Campaign.inFlight first, (∀ label ∈ rest, label.Spares task) →
        stopped.ledger.Holds task) ∧
      ∀ args, ∀ after ∈ (stopped.step (.start args)).2, stopped.ledger.Unmoved after := by
  intro closing stopped
  have sound : closing.Sound := Campaign.sound_run caps _
  have served : closing.Served := Campaign.served_run caps _
  have split : closing = (((Campaign.fresh caps).run early).step (.act .beginClose)).1.run rest :=
    Campaign.run_append (Campaign.fresh caps) early (.act .beginClose :: rest)
  have closed : self.closed = true := by
    apply Campaign.closed_run lifetime _ self
    · rw [← split]
      exact live
    · exact fun next nextLive => Campaign.beginClose_closed began nextLive
  have idle := sound.idle served live closed ended
  obtain ⟨stops, unmoved⟩ := Campaign.finishClose_stops live closed ended
  have stoppedIdle : stopped.ledger.Idle :=
    ⟨by rw [unmoved.jobs]; exact idle.rows, by rw [unmoved.attempts]; exact idle.attempts⟩
  have running := sound.live self live
  refine ⟨stops, stoppedIdle, ?_, ?_, ?_, ?_⟩
  · intro pool
    rw [running.poolUse, ended]
    rfl
  · intro endpoint
    rw [running.endpointUse, ended]
    rfl
  · intro task member spares
    have follows := (Campaign.sound_run caps early).follows began member
    have later := (follows.step (show CampaignStep.Spares task (.act .beginClose) from trivial)).run
      spares
    rw [← split] at later
    have kept := (later.owes (by rw [live]; simp)).resolve_left fun reserved =>
      idle.attempts _ _ reserved rfl
    unfold Ledger.Holds Ledger.quarantined
    rw [unmoved.attempts, unmoved.quarantines]
    exact kept
  · exact fun args => (sound.step _).restart_unmoved stoppedIdle args

namespace Sample

/-- The call is cancelled while the coordinator closes. -/
def cancelled : List CampaignStep := [.act (.finishTask job (.raised .cancelledError))]

def closing : Campaign :=
  (Campaign.fresh config.caps).run (sending ++ .act .beginClose :: cancelled)

end Sample

/-- The cancelled call is unknown, its pool is out of service, and a restart
leaves both. -/
theorem clean_shutdown_cancelled :
    ∃ first ∈ ((Campaign.fresh Sample.config.caps).run Sample.sending).live,
      let stopped := (Sample.closing.step (.act .finishClose)).1
      ∃ task ∈ Campaign.inFlight first, stopped.ledger.Holds task ∧
        ∀ args, ∀ after ∈ (stopped.step (.start args)).2, stopped.ledger.Unmoved after := by
  obtain ⟨first, began⟩ := Option.isSome_iff_exists.mp
    (by decide +kernel :
      ((Campaign.fresh Sample.config.caps).run Sample.sending).live.isSome = true)
  obtain ⟨self, live⟩ := Option.isSome_iff_exists.mp
    (by decide +kernel : Sample.closing.live.isSome = true)
  have ended : self.running = [] := by
    have idle : Sample.closing.live.map Coordinator.running = some [] := by decide +kernel
    rw [live] at idle
    exact Option.some.inj idle
  have sent : 0 < (Campaign.inFlight first).length := by
    have counted : ((Campaign.fresh Sample.config.caps).run Sample.sending).live.map
        (fun self => (Campaign.inFlight self).length) = some 1 := by decide +kernel
    rw [began] at counted
    have single : (Campaign.inFlight first).length = 1 := Option.some.inj counted
    omega
  obtain ⟨task, member⟩ := List.exists_mem_of_length_pos sent
  obtain ⟨-, -, -, -, holds, unmoved⟩ := clean_shutdown Sample.config.caps Sample.sending
    Sample.cancelled (by simp [Sample.cancelled]) began live ended
  refine ⟨first, began, task, member, holds task member ?_, unmoved⟩
  simp [Sample.cancelled, CampaignStep.Spares, Action.Spares, BackendReply.confirmed,
    PyExc.terminationKnown]

end AgminaRuntime
