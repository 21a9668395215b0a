import AgminaRuntime.CampaignInvariant

/-!
# The job lifecycle

Every writer of a receipt follows the lifecycle but one: the pre-send check
writes its verdict over whatever state the receipt has reached since the
dispatch.  The two other endings of a task look whether the receipt still says
RUNNING.  A run in which every pre-send check that stops a task finds the
receipt RUNNING, or in the state of its verdict, keeps to the lifecycle.
-/

namespace AgminaRuntime

open Durable Keyed

/-- A receipt has stayed in its state or taken one edge of the lifecycle; out of
the queue, success comes from the cache. -/
def Receipt.Follows (before after : Receipt) : Prop :=
  after.state = before.state ∨
    after.state ∈ before.state.successors ∧
      (before.state = .queued → after.state = .succeeded → after.cacheHit = true)

instance (before after : Receipt) : Decidable (before.Follows after) :=
  inferInstanceAs (Decidable (after.state = before.state ∨
    after.state ∈ before.state.successors ∧
      (before.state = .queued → after.state = .succeeded → after.cacheHit = true)))

/-- Every stored receipt follows the lifecycle. -/
def Ledger.Follows (before after : Ledger) : Prop :=
  ∀ key row, before.jobs.lookup key = some row →
    ∃ next, after.jobs.lookup key = some next ∧ row.receipt.Follows next.receipt

/-- Every state without a successor stays. -/
def Ledger.KeepsTerminal (earlier later : Ledger) : Prop :=
  ∀ key row, earlier.jobs.lookup key = some row → row.receipt.state.successors = [] →
    ∃ next, later.jobs.lookup key = some next ∧ next.receipt.state = row.receipt.state

instance : Trans Ledger.KeepsTerminal Ledger.KeepsTerminal Ledger.KeepsTerminal where
  trans early late := by
    intro key row found terminal
    obtain ⟨next, nextFound, same⟩ := early key row found terminal
    obtain ⟨last, lastFound, lastSame⟩ := late key next nextFound (by rw [same, terminal])
    exact ⟨last, lastFound, lastSame.trans same⟩

theorem Receipt.Follows.terminal {before after : Receipt} (follows : before.Follows after)
    (terminal : before.state.successors = []) : after.state = before.state := by
  rcases follows with same | ⟨edge, -⟩
  · exact same
  · rw [terminal] at edge
    simp at edge

theorem Ledger.Follows.keepsTerminal {before after : Ledger} (follows : before.Follows after) :
    before.KeepsTerminal after := by
  intro key row found terminal
  obtain ⟨next, nextFound, step⟩ := follows key row found
  exact ⟨next, nextFound, step.terminal terminal⟩

/-- Only a disorderly task leaves the lifecycle. -/
theorem Commit.follows {who : Author} {before after : Ledger} (commit : Commit who before after)
    (orderly : ∀ legible, who ≠ .task false legible) : before.Follows after := by
  intro key row found
  obtain ⟨next, nextFound, move, -⟩ := commit.row_kept found
  refine ⟨next, nextFound, ?_⟩
  cases move with
  | kept => exact .inl rfl
  | written _ _ moves cached _ _ =>
      rcases moves with edge | ⟨isOrderly, legible, rfl, -, same | ⟨rfl, -⟩⟩
      · exact .inr ⟨edge, cached⟩
      · exact .inl same
      · exact absurd rfl (orderly legible)

/-- A run under this discipline has no disorderly task. -/
def Discipline.keepsStates : Discipline := { Discipline.free with orderly := true }

theorem CampaignStep.author_orderly (label : CampaignStep) (campaign : Campaign) (legible : Bool) :
    label.author .keepsStates campaign ≠ .task false legible := by
  rcases label.author_cases .keepsStates campaign with
    ⟨self, -, action, -, author⟩ | recovery | ⟨released, operates⟩
  · rw [author]
    cases action <;> simp [Action.author, Discipline.keepsStates]
  · simp [recovery]
  · simp [operates]

/-- In a run whose pre-send checks overwrite no other state, every receipt
follows the lifecycle and a terminal state is final. -/
theorem job_lifecycle (caps : BudgetCaps) (steps : List CampaignStep)
    (keeps : StepsMeet Campaign.step CampaignStep.KeepsState (Campaign.fresh caps) steps) :
    (Campaign.history caps steps).IsChain Ledger.Follows ∧
      (Campaign.history caps steps).Pairwise Ledger.KeepsTerminal := by
  have chain : (Campaign.history caps steps).IsChain Ledger.Follows := by
    refine Campaign.history_chain (fun campaign label condition sound => ?_) keeps
    have commits : List.IsChain (Commit (label.author .keepsStates campaign))
        (campaign.ledger :: (campaign.step label).2) :=
      sound.commits label .keepsStates (fun _ => condition) (fun impossible => by contradiction)
        (fun impossible => by contradiction)
    exact commits.imp fun before after commit =>
      commit.follows (label.author_orderly campaign)
  exact ⟨chain, (chain.imp fun _ _ follows => follows.keepsTerminal).pairwise⟩

namespace Sample

/-- The job is cancelled between its dispatch and its pre-send check. -/
def cancelledEarly : List CampaignStep :=
  opening (fun _ => 10) ++
    [.act (.submit fields), .act .tick, .act (.cancel job), .act (.startTask job)]

/-- The session moves on as well, so the pre-send check finds the job stale. -/
def overwritten : List CampaignStep :=
  opening (fun _ => 10) ++
    [.act (.submit fields), .act .tick, .act (.cancel job),
      .act (.advanceSession session 0 "replan" false), .act (.startTask job)]

end Sample

theorem job_lifecycle_cancelled :
    (Campaign.history Sample.config.caps Sample.cancelledEarly).IsChain Ledger.Follows ∧
      (Campaign.history Sample.config.caps Sample.cancelledEarly).Pairwise
        Ledger.KeepsTerminal :=
  job_lifecycle Sample.config.caps Sample.cancelledEarly (by decide +kernel)

theorem cancelled_overwritten :
    ¬ (Campaign.history Sample.config.caps Sample.overwritten).IsChain Ledger.Follows := by
  intro chain
  have follows : (Campaign.history Sample.config.caps Sample.overwritten).IsChain
      fun before after => ∀ row ∈ before.jobs.lookup (Sample.tenant, Sample.job),
        ∀ next ∈ after.jobs.lookup (Sample.tenant, Sample.job),
          row.receipt.Follows next.receipt := by
    refine chain.imp fun before after step row found other otherFound => ?_
    obtain ⟨next, nextFound, follows⟩ := step _ row found
    obtain rfl : next = other := Option.some.inj (nextFound.symm.trans otherFound)
    exact follows
  revert follows
  decide +kernel

end AgminaRuntime
