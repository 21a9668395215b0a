import AgminaRuntime.DeliveryFence

/-!
# The reported delivery window

A delivery check reports the earliest of the deadline, the age bounds of the
current evidence and the useful time of the consumer.  The clock mapping has a
last instant of its own, which is checked on every call and not reported: the
window is honest exactly when one of the reported bounds falls before it.
-/

namespace AgminaRuntime

/-- The arguments of the same call at another local time. -/
def DeliveryArgs.movedTo (args : DeliveryArgs) (nowLocalNs : Int) : DeliveryArgs :=
  { args with nowLocalNs := nowLocalNs }

/-- The local instant at which the deadline may have passed. -/
def deadlineBound (job : Job) (args : DeliveryArgs) : Int :=
  job.deadlineNs.val + args.serverToLocal.offsetNs - args.serverToLocal.errorNs

/-- One of the bounds of a result is at most an instant. -/
def EndsBy (job : Job) (args : DeliveryArgs) (instant : Int) : Prop :=
  deadlineBound job args ≤ instant ∨
    (job.resultKind ≠ .historical ∧ ∃ observation ∈ job.observations,
      observation.role = .current ∧
        ∃ maxAge ∈ job.maxAgeNs, evidenceBound args maxAge observation ≤ instant) ∨
    (job.workload = .policy ∧ ∃ usefulUntil ∈ args.localUsefulUntilNs, usefulUntil ≤ instant)

/-- What a mapping raises after its last instant. -/
def mappingExpired : PyExc :=
  .valueError "Clock mapping is absent, expired or for a different coordinator"

/-- A mapping answers the same until its last instant, and not after it. -/
theorem ClockMap.map_later {clockMap : ClockMap} {sourceNs nowNs later : Int} {targetClock : PyStr}
    {result : Int × Int} (accepted : clockMap.map sourceNs targetClock nowNs = .ok result)
    (after : nowNs ≤ later) :
    clockMap.map sourceNs targetClock later =
      if clockMap.validUntilNs < later then
        .error mappingExpired
      else .ok result := by
  unfold map at accepted ⊢
  split at accepted
  · contradiction
  rename_i nonnegative
  split at accepted
  · contradiction
  rename_i valid
  split at accepted
  · contradiction
  rename_i positive
  rw [if_neg (by omega)]
  by_cases expired : clockMap.validUntilNs < later
  · rw [if_pos (.inr (.inr expired)), if_pos expired]
    rfl
  · simp only [not_or] at valid
    have usable : ¬ (clockMap.errorNs < 0 ∨ targetClock ≠ clockMap.target ∨
        clockMap.validUntilNs < later) := by
      simp only [not_or]
      exact ⟨valid.1, valid.2.1, expired⟩
    rw [if_neg usable, if_neg positive, if_neg expired, accepted]

section Later

variable {job : Job} {args : DeliveryArgs} {latest later : Int}

theorem boundByEvidence_later {observations : List Observation} {initial : Int}
    (bounded : boundByEvidence job args observations initial = .ok latest)
    (after : args.nowLocalNs ≤ later) (usable : later ≤ args.serverToLocal.validUntilNs) :
    boundByEvidence job (args.movedTo later) observations initial = .ok latest := by
  induction observations generalizing initial with
  | nil => exact bounded
  | cons observation rest ih =>
      rw [boundByEvidence] at bounded ⊢
      split at bounded
      · rename_i current
        rw [if_pos current]
        split at bounded
        · contradiction
        · rename_i capture error mappedEq
          have moved := ClockMap.map_later mappedEq after
          rw [if_neg (not_lt.mpr usable)] at moved
          have same : (args.movedTo later).serverToLocal.map observation.captureNs.val
              (args.movedTo later).localClockId (args.movedTo later).nowLocalNs =
                .ok (capture, error) := moved
          rw [same]
          split at bounded
          · contradiction
          · exact ih bounded
      · rename_i context
        rw [if_neg context]
        exact ih bounded

/-- The bound is the same until the mapping expires, and then there is none. -/
theorem deliveryBound_later (bounded : deliveryBound job args = .ok latest)
    (after : args.nowLocalNs ≤ later) :
    deliveryBound job (args.movedTo later) =
      if args.serverToLocal.validUntilNs < later then
        .error mappingExpired
      else .ok latest := by
  unfold deliveryBound at bounded ⊢
  split at bounded
  · contradiction
  · rename_i deadline error mappedEq
    have moved : (args.movedTo later).serverToLocal.map job.deadlineNs.val
        (args.movedTo later).localClockId (args.movedTo later).nowLocalNs =
          if args.serverToLocal.validUntilNs < later then .error mappingExpired
          else .ok (deadline, error) :=
      ClockMap.map_later mappedEq after
    rw [moved]
    by_cases expired : args.serverToLocal.validUntilNs < later
    · rw [if_pos expired, if_pos expired]
    · rw [if_neg expired, if_neg expired]
      dsimp only
      split at bounded
      · rename_i historical
        rw [if_pos historical, bounded]
      · rename_i current
        rw [if_neg current]
        exact boundByEvidence_later bounded after (not_lt.mp expired)

/-- The bound of the evidence is the least of its parts. -/
theorem boundByEvidence_le_iff {observations : List Observation} {initial : Int}
    (bounded : boundByEvidence job args observations initial = .ok latest) (instant : Int) :
    latest ≤ instant ↔ initial ≤ instant ∨ ∃ observation ∈ observations,
      observation.role = .current ∧
        ∃ maxAge ∈ job.maxAgeNs, evidenceBound args maxAge observation ≤ instant := by
  induction observations generalizing initial with
  | nil =>
      obtain rfl : initial = latest := Except.ok.inj bounded
      simp
  | cons observation rest ih =>
      rw [boundByEvidence] at bounded
      split at bounded
      · rename_i current
        split at bounded
        · contradiction
        rename_i capture error mappedEq
        obtain ⟨rfl, rfl⟩ := ClockMap.map_ok mappedEq
        split at bounded
        · contradiction
        rename_i maxAge maxAgeEq
        have first : (∃ other ∈ job.maxAgeNs, evidenceBound args other observation ≤ instant) ↔
            evidenceBound args maxAge observation ≤ instant := by
          simp [maxAgeEq]
        rw [ih bounded, min_le_iff, or_assoc]
        simp only [List.mem_cons, exists_eq_or_imp, current, true_and, first]
        rfl
      · rename_i context
        rw [ih bounded]
        simp only [List.mem_cons, exists_eq_or_imp, context, false_and, false_or]

theorem deliveryBound_le_iff (bounded : deliveryBound job args = .ok latest) (instant : Int) :
    latest ≤ instant ↔ deadlineBound job args ≤ instant ∨
      (job.resultKind ≠ .historical ∧ ∃ observation ∈ job.observations,
        observation.role = .current ∧
          ∃ maxAge ∈ job.maxAgeNs, evidenceBound args maxAge observation ≤ instant) := by
  unfold deliveryBound at bounded
  split at bounded
  · contradiction
  rename_i deadline error mappedEq
  obtain ⟨rfl, rfl⟩ := ClockMap.map_ok mappedEq
  split at bounded
  · rename_i historical
    rw [← Except.ok.inj bounded]
    simp [historical, deadlineBound]
  · rename_i current
    rw [boundByEvidence_le_iff bounded]
    simp [current, deadlineBound]

theorem boundByUsefulness_le_iff {evidenceLatest : Int}
    (bounded : boundByUsefulness job args evidenceLatest = .ok latest) (instant : Int) :
    latest ≤ instant ↔ evidenceLatest ≤ instant ∨
      (job.workload = .policy ∧ ∃ usefulUntil ∈ args.localUsefulUntilNs,
        usefulUntil ≤ instant) := by
  unfold boundByUsefulness at bounded
  split at bounded
  · rename_i policy
    split at bounded
    · contradiction
    rename_i usefulUntil usefulEq
    rw [← Except.ok.inj bounded, min_le_iff]
    simp [policy, usefulEq]
  · rename_i other
    rw [← Except.ok.inj bounded]
    simp [other]

/-- What a check that returns has computed, and what the same call answers
later. -/
theorem validateDelivery_later {receipt : Receipt} {check : DeliveryCheck}
    (accepted : validateDelivery job receipt args = .ok check) :
    args.nowLocalNs < check.validUntilLocalNs ∧
      (∀ instant, check.validUntilLocalNs ≤ instant ↔ EndsBy job args instant) ∧
      ∀ later, args.nowLocalNs ≤ later → later < check.validUntilLocalNs →
        validateDelivery job receipt (args.movedTo later) =
          if args.serverToLocal.validUntilNs < later then
            .error mappingExpired
          else .ok { check with checkedAtLocalNs := later } := by
  unfold validateDelivery at accepted
  split at accepted
  · contradiction
  rename_i bounds
  split at accepted
  · contradiction
  rename_i belongs
  split at accepted
  · contradiction
  rename_i claimed
  split at accepted
  · contradiction
  rename_i generation
  split at accepted
  · contradiction
  rename_i mapping
  split at accepted
  · contradiction
  rename_i evidenceLatest evidenceEq
  split at accepted
  · contradiction
  rename_i latest usefulEq
  split at accepted
  · contradiction
  rename_i inTime
  obtain rfl := Except.ok.inj accepted
  refine ⟨not_le.mp inTime, ?_, ?_⟩
  · intro instant
    rw [boundByUsefulness_le_iff usefulEq, deliveryBound_le_iff evidenceEq, or_assoc]
    rfl
  · intro later after before
    have moved := deliveryBound_later evidenceEq after
    have useful : boundByUsefulness job (args.movedTo later) evidenceLatest = .ok latest := usefulEq
    unfold validateDelivery
    apply (if_neg bounds).trans
    apply (if_neg belongs).trans
    apply (if_neg claimed).trans
    apply (if_neg generation).trans
    apply (if_neg mapping).trans
    rw [moved]
    by_cases expired : args.serverToLocal.validUntilNs < later
    · rw [if_pos expired, if_pos expired]
    · rw [if_neg expired, if_neg expired]
      dsimp only
      rw [useful]
      exact if_neg (not_le.mpr before)

end Later

/-- The call can be repeated with the same answer throughout the window that it
reported exactly when a bound of the result falls no later than the instant
after the last one of the clock mapping. -/
theorem delivery_window_honest {job : Job} {receipt : Receipt} {args : DeliveryArgs}
    {check : DeliveryCheck} (accepted : validateDelivery job receipt args = .ok check) :
    (∀ later, args.nowLocalNs ≤ later → later < check.validUntilLocalNs →
        ∃ again, validateDelivery job receipt { args with nowLocalNs := later } = .ok again ∧
          again.validUntilLocalNs = check.validUntilLocalNs) ↔
      EndsBy job args (args.serverToLocal.validUntilNs + 1) := by
  obtain ⟨inTime, ends, repeated⟩ := validateDelivery_later accepted
  rw [← ends]
  constructor
  · intro honest
    obtain ⟨again, same, -⟩ := honest (check.validUntilLocalNs - 1) (by omega) (by omega)
    have last := repeated (check.validUntilLocalNs - 1) (by omega) (by omega)
    by_contra beyond
    rw [if_pos (by omega)] at last
    have both : validateDelivery job receipt (args.movedTo (check.validUntilLocalNs - 1)) =
      .ok again := same
    rw [last] at both
    contradiction
  · intro within later after before
    have moved := repeated later after before
    rw [if_neg (by omega)] at moved
    exact ⟨_, moved, rfl⟩

namespace Sample

/-- The mapping of the delivery, which expires before its result does. -/
def shortMapped : DeliveryArgs :=
  { delivery with serverToLocal := ⟨"first", "robot", -5, 2, 950, mapped_clocks, by decide⟩ }

end Sample

theorem delivery_window_honest_mapped :
    ∃ again, validateDelivery Sample.deliveredJob Sample.deliveredReceipt
        { Sample.delivery with nowLocalNs := 992 } = .ok again ∧
      again.validUntilLocalNs = 993 := by
  have accepted : validateDelivery Sample.deliveredJob Sample.deliveredReceipt Sample.delivery =
      .ok ⟨Sample.job, 993, 900, false⟩ := by decide
  have ends : EndsBy Sample.deliveredJob Sample.delivery 1001 := .inl (by decide)
  exact (delivery_window_honest accepted).mpr ends 992 (by decide) (by decide)

/-- At 900 the check reports a window until 993, and at 960 the same call
raises. -/
theorem delivery_window_outlives_mapping :
    validateDelivery Sample.deliveredJob Sample.deliveredReceipt Sample.shortMapped =
        .ok ⟨Sample.job, 993, 900, false⟩ ∧
      validateDelivery Sample.deliveredJob Sample.deliveredReceipt
          { Sample.shortMapped with nowLocalNs := 960 } =
        .error mappingExpired := by
  decide

end AgminaRuntime
