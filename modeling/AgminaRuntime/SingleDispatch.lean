import AgminaRuntime.CampaignInvariant

/-!
# Single dispatch

Each job is sent to a backend at most once, whatever crashes and restarts lie
between its submission and its end, and only after its attempt is committed.

`Store.reserve` ends in one of three ways: it commits a row, its insertion
fails on a row that is there already, or the ceilings refuse it and the tick
rejects the job.  The first commits a row that was absent, the second never
happens, and no rejected job has a row; so a reservation never meets one.
-/

namespace AgminaRuntime

open Durable Durable.Program Keyed

namespace Campaign.Sound

variable {campaign : Campaign}

/-- Every call was for a job of the ledger's tenant. -/
theorem called_tenant (sound : campaign.Sound) {key : Name × Name}
    (member : key ∈ campaign.calls) : campaign.ledger.tenant = some key.1 := by
  obtain ⟨attempt, attempted⟩ := Option.isSome_iff_exists.mp (sound.called key member)
  obtain ⟨row, found⟩ :=
    Option.isSome_iff_exists.mp (sound.ledger.attempts key attempt attempted)
  have bound := (sound.ledger.rows key row found).tenant
  have keyEq : row.key = key := Table.key_of_lookup found
  rwa [← keyEq]

/-- No two calls are for one job identifier. -/
theorem calls_once (sound : campaign.Sound) : (campaign.calls.map Prod.snd).Nodup := by
  refine sound.once.map_on ?_
  intro first firstMember second secondMember sameId
  have sameTenant : some first.1 = some second.1 :=
    (sound.called_tenant firstMember).symm.trans (sound.called_tenant secondMember)
  exact Prod.ext (Option.some.inj sameTenant) sameId

variable {self : Coordinator}

theorem calls_attempted (sound : campaign.Sound) (live : campaign.live = some self)
    {action : Action} {task : Task}
    (inferred : (action.program campaign.ledger self).value = .ok (.inferred task)) :
    (campaign.ledger.attempts.lookup task.job.key).isSome = true := by
  have steps := (sound.meets live action).2
  simp only [inferred] at steps
  obtain ⟨member, -⟩ := steps.shows
  rw [((sound.live self live).tasks task member).attempt]
  rfl

theorem inserts (sound : campaign.Sound) (live : campaign.live = some self) (action : Action) :
    (action.program campaign.ledger self).value ≠ .error .integrityError := by
  intro failed
  have fails := (sound.meets live action).2
  simp only [failed] at fails
  exact fails.1 rfl

end Campaign.Sound

/-- What every run shows of the calls and the reservations it makes. -/
theorem single_dispatch (caps : BudgetCaps) (steps : List CampaignStep) :
    let campaign := (Campaign.fresh caps).run steps
    (campaign.calls.map Prod.snd).Nodup ∧
    (∀ self ∈ campaign.live, ∀ (action : Action) (task : Task),
      (action.program campaign.ledger self).value = .ok (.inferred task) →
        (campaign.ledger.attempts.lookup task.job.key).isSome = true) ∧
    (∀ self ∈ campaign.live, campaign.ledger.Waiting ∧ ∀ action : Action,
      (action.program campaign.ledger self).value ≠ .error .integrityError) ∧
    ∀ ledger ∈ Campaign.history caps steps, ∀ key row, ledger.jobs.lookup key = some row →
      row.receipt.cacheHit = true ∨ row.receipt.state = .rejected →
        ledger.attempts.lookup key = none := by
  have sound := Campaign.sound_run caps steps
  refine ⟨sound.calls_once, ?_, ?_, ?_⟩
  · exact fun self live action task inferred => sound.calls_attempted live inferred
  · exact fun self live => ⟨(sound.live self live).unattempted, sound.inserts live⟩
  · intro ledger member key row found spared
    have rowSound := (Campaign.history_sound caps steps ledger member).rows key row found
    rw [← (Table.key_of_lookup found : row.key = key)]
    refine rowSound.spared ?_
    rcases spared with hit | rejected
    · simp [Receipt.spared, hit]
    · simp [Receipt.spared, rejected]

end AgminaRuntime
