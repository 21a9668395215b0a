import AgminaRuntime.Campaign
import AgminaRuntime.Client
import Mathlib.Algebra.Order.Group.Abs
import Mathlib.Algebra.Order.Group.Int

/-!
# The delivery fence is sound under clock error

Two errors separate what the client compares from what is so: that of the
clock mapping and that of each capture time.  A delivery that the client
accepts is in time, and its evidence is fresh, at every instant of the server
and for every capture time that the two bounds allow.
-/

namespace AgminaRuntime

theorem ClockMap.map_ok {clockMap : ClockMap} {sourceNs nowNs mapped error : Int}
    {targetClock : PyStr} (accepted : clockMap.map sourceNs targetClock nowNs = .ok (mapped, error)) :
    mapped = sourceNs + clockMap.offsetNs ∧ error = clockMap.errorNs := by
  unfold map at accepted
  split at accepted
  · contradiction
  split at accepted
  · contradiction
  split at accepted
  · contradiction
  rw [Except.ok.injEq, Prod.mk.injEq] at accepted
  exact ⟨accepted.1.symm, accepted.2.symm⟩

/-- The local instant at which the evidence of an observation may be too old. -/
def evidenceBound (args : DeliveryArgs) (maxAge : Ns) (observation : Observation) : Int :=
  observation.captureNs.val + args.serverToLocal.offsetNs + maxAge.val -
    observation.uncertaintyNs.val - args.serverToLocal.errorNs

theorem boundByEvidence_ok {job : Job} {args : DeliveryArgs} {observations : List Observation}
    {initial latest : Int} (bounded : boundByEvidence job args observations initial = .ok latest) :
    latest ≤ initial ∧ ∀ observation ∈ observations, observation.role = .current →
      ∃ maxAge ∈ job.maxAgeNs, latest ≤ evidenceBound args maxAge observation := by
  induction observations generalizing initial with
  | nil =>
      simp only [boundByEvidence, Except.ok.injEq] at bounded
      exact ⟨bounded.symm.le, by simp⟩
  | cons observation rest ih =>
      rw [boundByEvidence] at bounded
      split at bounded
      · split at bounded
        · contradiction
        rename_i capture error mappedEq
        obtain ⟨rfl, rfl⟩ := ClockMap.map_ok mappedEq
        split at bounded
        · contradiction
        rename_i maxAge maxAgeEq
        obtain ⟨below, others⟩ := ih bounded
        constructor
        · omega
        · intro other member current
          rcases List.mem_cons.mp member with rfl | later
          · refine ⟨maxAge, maxAgeEq, ?_⟩
            unfold evidenceBound
            omega
          · exact others other later current
      · rename_i context
        obtain ⟨below, others⟩ := ih bounded
        refine ⟨below, ?_⟩
        intro other member current
        rcases List.mem_cons.mp member with rfl | later
        · exact absurd current context
        · exact others other later current

/-- What a bound that was computed stays below. -/
theorem deliveryBound_ok {job : Job} {args : DeliveryArgs} {latest : Int}
    (bounded : deliveryBound job args = .ok latest) :
    latest ≤ job.deadlineNs.val + args.serverToLocal.offsetNs - args.serverToLocal.errorNs ∧
      (job.resultKind ≠ .historical → ∀ observation ∈ job.observations,
        observation.role = .current →
          ∃ maxAge ∈ job.maxAgeNs, latest ≤ evidenceBound args maxAge observation) := by
  unfold deliveryBound at bounded
  split at bounded
  · contradiction
  rename_i deadline error mappedEq
  obtain ⟨rfl, rfl⟩ := ClockMap.map_ok mappedEq
  split at bounded
  · rename_i historical
    rw [Except.ok.injEq] at bounded
    exact ⟨bounded.symm.le, fun notHistorical => absurd historical notHistorical⟩
  · obtain ⟨below, evidence⟩ := boundByEvidence_ok bounded
    exact ⟨below, fun _ => evidence⟩

theorem boundByUsefulness_ok {job : Job} {args : DeliveryArgs} {latest usefulLatest : Int}
    (bounded : boundByUsefulness job args latest = .ok usefulLatest) :
    usefulLatest ≤ latest ∧ (job.workload = .policy →
      ∃ usefulUntil ∈ args.localUsefulUntilNs, usefulLatest ≤ usefulUntil) := by
  unfold boundByUsefulness at bounded
  split at bounded
  · split at bounded
    · contradiction
    rename_i usefulUntil usefulEq
    rw [Except.ok.injEq] at bounded
    subst bounded
    exact ⟨min_le_left _ _, fun _ => ⟨usefulUntil, usefulEq, min_le_right _ _⟩⟩
  · rename_i notPolicy
    rw [Except.ok.injEq] at bounded
    exact ⟨bounded.symm.le, fun policy => absurd policy notPolicy⟩

/-- What a delivery that was accepted has been checked for. -/
structure Delivered (job : Job) (receipt : Receipt) (args : DeliveryArgs) : Prop where
  belongs : receipt.requestFingerprint = job.fingerprint ∧ receipt.jobId = job.id
  consumed : receipt.state = .consumed
  consumer : receipt.consumedBy.map (fun consumer => PyStr.ofString consumer.text) =
    some args.consumerId
  predicted : receipt.predictionJson.isSome = true
  tenant : PyStr.ofString job.tenant.text = args.tenant
  session : PyStr.ofString job.sessionId.text = args.sessionId
  epoch : (job.epoch.val : Int) = args.currentEpoch
  task : PyStr.ofString job.taskRevision.text = args.currentTaskRevision
  deadline : args.nowLocalNs <
    job.deadlineNs.val + args.serverToLocal.offsetNs - args.serverToLocal.errorNs
  evidence : job.resultKind ≠ .historical → ∀ observation ∈ job.observations,
    observation.role = .current →
      ∃ maxAge ∈ job.maxAgeNs, args.nowLocalNs < evidenceBound args maxAge observation
  useful : job.workload = .policy →
    ∃ usefulUntil ∈ args.localUsefulUntilNs, args.nowLocalNs < usefulUntil

theorem delivered_of_ok {job : Job} {receipt : Receipt} {args : DeliveryArgs}
    {check : DeliveryCheck} (accepted : validateDelivery job receipt args = .ok check) :
    Delivered job receipt args := by
  unfold validateDelivery at accepted
  split at accepted
  · contradiction
  split at accepted
  · contradiction
  rename_i belongs
  split at accepted
  · contradiction
  rename_i claimed
  split at accepted
  · contradiction
  rename_i generation
  split at accepted
  · contradiction
  split at accepted
  · contradiction
  rename_i evidenceLatest evidenceEq
  split at accepted
  · contradiction
  rename_i latest usefulEq
  split at accepted
  · contradiction
  rename_i inTime
  simp only [not_or, not_not] at belongs claimed generation
  simp only [Prod.mk.injEq] at generation
  obtain ⟨deadline, evidence⟩ := deliveryBound_ok evidenceEq
  obtain ⟨below, useful⟩ := boundByUsefulness_ok usefulEq
  refine
    { belongs := belongs
      consumed := claimed.1
      consumer := claimed.2.1
      predicted := Option.isSome_iff_ne_none.mpr claimed.2.2
      tenant := generation.1
      session := generation.2.1
      epoch := generation.2.2.1
      task := generation.2.2.2
      deadline := by omega
      evidence := ?_
      useful := ?_ }
  · intro notHistorical observation member current
    obtain ⟨maxAge, maxAgeEq, bound⟩ := evidence notHistorical observation member current
    exact ⟨maxAge, maxAgeEq, by omega⟩
  · intro policy
    obtain ⟨usefulUntil, usefulEq, bound⟩ := useful policy
    exact ⟨usefulUntil, usefulEq, by omega⟩

/-- An instant before the deadline and before every age bound is before the
latest useful instant that submission fixed. -/
theorem Job.lt_fixedLatestNs {job : Job} {instant : Int} (deadline : instant < job.deadlineNs.val)
    (evidence : job.resultKind ≠ .historical → ∀ observation ∈ job.observations,
      observation.role = .current → ∀ maxAge ∈ job.maxAgeNs, instant < ageBound maxAge observation) :
    instant < job.fixedLatestNs := by
  have general : ∀ (bounds : List Int) (initial : Int), instant < initial →
      (∀ bound ∈ bounds, instant < bound) → instant < bounds.foldl min initial := by
    intro bounds
    induction bounds with
    | nil => exact fun initial before _ => before
    | cons bound bounds ih =>
        intro initial before all
        apply ih
        · exact lt_min before (all bound List.mem_cons_self)
        · exact fun other member => all other (List.mem_cons_of_mem _ member)
  unfold fixedLatestNs
  split
  · exact deadline
  rename_i notHistorical
  split
  · exact deadline
  rename_i maxAge maxAgeEq
  apply general _ _ deadline
  intro bound member
  obtain ⟨observation, observed, rfl⟩ := List.mem_map.mp member
  rw [List.mem_filter, decide_eq_true_eq] at observed
  exact evidence notHistorical observation observed.1 observed.2 maxAge maxAgeEq

/-- When the client accepts a delivery, the true instant of the server is in
time and the true evidence is fresh, whatever the two clock errors are. -/
theorem delivery_fence {job : Job} {receipt : Receipt} {args : DeliveryArgs}
    {check : DeliveryCheck} (accepted : validateDelivery job receipt args = .ok check) :
    (∀ serverNs : Int,
      |args.nowLocalNs - (serverNs + args.serverToLocal.offsetNs)| ≤ args.serverToLocal.errorNs →
        serverNs < job.deadlineNs.val ∧
        (job.resultKind ≠ .historical → ∀ observation ∈ job.observations,
          observation.role = .current → ∀ captureNs : Int,
            |captureNs - observation.captureNs.val| ≤ observation.uncertaintyNs.val →
              ∃ maxAge ∈ job.maxAgeNs, serverNs - captureNs < maxAge.val) ∧
        ∀ session : Session, session.bufferUntilNs = none → serverNs < job.latestNs session) ∧
    (job.workload = .policy →
      ∃ usefulUntil ∈ args.localUsefulUntilNs, args.nowLocalNs < usefulUntil) ∧
    receipt.state = .consumed ∧
    receipt.consumedBy.map (fun consumer => PyStr.ofString consumer.text) =
      some args.consumerId ∧
    receipt.predictionJson.isSome = true ∧
    (receipt.jobId = job.id ∧ receipt.requestFingerprint = job.fingerprint) ∧
    PyStr.ofString job.tenant.text = args.tenant ∧
    PyStr.ofString job.sessionId.text = args.sessionId ∧
    (job.epoch.val : Int) = args.currentEpoch ∧
    PyStr.ofString job.taskRevision.text = args.currentTaskRevision := by
  have delivered := delivered_of_ok accepted
  refine ⟨?_, delivered.useful, delivered.consumed, delivered.consumer, delivered.predicted,
    delivered.belongs.symm, delivered.tenant, delivered.session, delivered.epoch, delivered.task⟩
  intro serverNs mapped
  rw [abs_le] at mapped
  have deadline : serverNs < job.deadlineNs.val := by
    have := delivered.deadline
    omega
  refine ⟨deadline, ?_, ?_⟩
  · intro notHistorical observation member current captureNs captured
    rw [abs_le] at captured
    obtain ⟨maxAge, maxAgeEq, bound⟩ :=
      delivered.evidence notHistorical observation member current
    refine ⟨maxAge, maxAgeEq, ?_⟩
    unfold evidenceBound at bound
    omega
  · intro session unbuffered
    have fixed : serverNs < job.fixedLatestNs := by
      apply Job.lt_fixedLatestNs deadline
      intro notHistorical observation member current maxAge maxAgeEq
      obtain ⟨other, otherEq, bound⟩ :=
        delivered.evidence notHistorical observation member current
      obtain rfl : other = maxAge := Option.some.inj (otherEq.symm.trans maxAgeEq)
      unfold evidenceBound at bound
      unfold Job.ageBound
      omega
    unfold Job.latestNs
    rw [unbuffered]
    split
    · contradiction
    · exact fixed

namespace Sample

theorem mapped_clocks : (PyStr.ofString "first").length ≠ 0 ∧
    (PyStr.ofString "robot").length ≠ 0 := by
  decide

/-- The client maps the first clock to its own, which is 5 ns behind it. -/
def delivery : DeliveryArgs where
  tenant := "lab"
  sessionId := "drone"
  currentEpoch := 0
  currentTaskRevision := "inspect"
  consumerId := "reader"
  nowLocalNs := 900
  localClockId := "robot"
  serverToLocal := ⟨"first", "robot", -5, 2, 1000, mapped_clocks, by decide⟩
  maxMappingErrorNs := 10
  localUsefulUntilNs := none

def deliveredJob : Job := ⟨fields, fields_valid⟩

def deliveredReceipt : Receipt :=
  { Receipt.initial deliveredJob .consumed none 10 with
    predictionJson := some "{}"
    consumedBy := some ⟨"reader", by decide⟩ }

end Sample

theorem delivery_fence_accepted :
    (904 : Int) < Sample.deliveredJob.deadlineNs.val ∧
      904 < Sample.deliveredJob.latestNs ⟨Sample.tenant, Sample.session, 0, Sample.revision,
        Sample.firstClock, .active, 10, none⟩ := by
  have accepted : validateDelivery Sample.deliveredJob Sample.deliveredReceipt Sample.delivery =
      .ok ⟨Sample.job, 993, 900, false⟩ := by decide
  have inTime := (delivery_fence accepted).1 904 (by decide)
  exact ⟨inTime.1, inTime.2.2 _ rfl⟩

end AgminaRuntime
