import AgminaRuntime.Tallies
import AgminaRuntime.TimelineRuns

/-!
# Measured coordinator metrics

The report is computed from the journal alone.  Every duration in it is the
distance of two instants of one receipt, or a recorded age, and a percentile or
a maximum of durations is one of them.
-/

namespace AgminaRuntime

open Durable Durable.Program Keyed

def Workload.text : Workload → String
  | policy => "policy"
  | segmentation => "segmentation"
  | semantic => "semantic"
  | mapping => "mapping"
  | query => "query"

namespace Telemetry

/-- Nearest-rank percentile of `p` hundredths. -/
def percentile (values : List Int) (p : Nat) : Option Int :=
  if values = [] then none
  else (values.mergeSort fun a b => a ≤ b)[(p * values.length + 99) / 100 - 1]?

/-! ## The durations of a receipt -/

def queueNs (receipt : Receipt) : Option Int :=
  receipt.startedNs.map fun started => (started.val : Int) - receipt.submittedNs.val

def roundtripNs (receipt : Receipt) : Option Int := do
  let started ← receipt.startedNs
  let completed ← receipt.completedNs
  pure ((completed.val : Int) - started.val)

def firstContentNs (receipt : Receipt) : Option Int := do
  let first ← receipt.firstContentNs
  let started ← receipt.startedNs
  pure ((first.val : Int) - started.val)

def completionNs (receipt : Receipt) : Option Int :=
  receipt.completedNs.map fun completed => (completed.val : Int) - receipt.submittedNs.val

/-- The age that a consumption event records. -/
def consumedAgeNs : Event → Option Int
  | .consumed _ _ maxCurrentAgeNs => maxCurrentAgeNs
  | _ => none

/-! ## The report -/

structure WorkloadCounts where
  offered : Nat
  usableCompletion : Nat
  consumed : Nat
  deriving DecidableEq

def WorkloadCounts.add (receipt : Receipt) (counts : WorkloadCounts) : WorkloadCounts where
  offered := counts.offered + 1
  usableCompletion :=
    counts.usableCompletion + if receipt.state ∈ [JobState.succeeded, .consumed] then 1 else 0
  consumed := counts.consumed + if receipt.state = .consumed then 1 else 0

structure GroupTimes where
  offered : Nat
  roundtripNs : List Int
  queueNs : List Int
  deriving DecidableEq

def GroupTimes.add (receipt : Receipt) (times : GroupTimes) : GroupTimes where
  offered := times.offered + 1
  roundtripNs := times.roundtripNs ++ (Telemetry.roundtripNs receipt).toList
  queueNs := times.queueNs ++ (Telemetry.queueNs receipt).toList

/-- The two groups of a job: its workload and its endpoint. -/
def groups (row : Job × Receipt) : List String :=
  ["workload:" ++ row.1.workload.text,
    "endpoint:" ++ (row.2.endpoint.map Name.text).getD "not_dispatched"]

inductive TokenKind
  | input | output | cachedInput | reasoningOutput
  deriving DecidableEq

def TokenKind.of : TokenKind → Usage → Option Ns
  | input, usage => usage.inputTokens
  | output, usage => usage.outputTokens
  | cachedInput, usage => usage.cachedInputTokens
  | reasoningOutput, usage => usage.reasoningOutputTokens

/-- A receipt counts tokens when its job was dispatched or answered from the
cache. -/
def countsTokens (receipt : Receipt) : Bool := receipt.startedNs.isSome || receipt.cacheHit

def tokenValues (kind : TokenKind) (rows : List (Job × Receipt)) : List (Option Ns) :=
  (rows.filter fun row => countsTokens row.2).map fun row => row.2.usage.bind kind.of

structure Percentiles where
  n : Nat
  p50 : Option Int
  p95 : Option Int
  p99 : Option Int
  deriving DecidableEq

def percentiles (series : List Int) : Percentiles :=
  ⟨series.length, percentile series 50, percentile series 95, percentile series 99⟩

structure Timing extends Percentiles where
  max : Option Int
  deriving DecidableEq

def timing (series : List Int) : Timing := ⟨percentiles series, series.max?⟩

structure GroupReport where
  offered : Nat
  roundtripNs : Percentiles
  queueNs : Percentiles
  deriving DecidableEq

/-- `Store.budget`. -/
structure Budget where
  caps : BudgetCaps
  attempts : Nat
  knownMicrousd : Nat
  heldMicrousd : Nat
  admissionTotalMicrousd : Nat
  unknownAttempts : Nat
  overCeiling : Bool

def budget (ledger : Ledger) : Budget where
  caps := ledger.caps
  attempts := ledger.attemptCount
  knownMicrousd := ledger.knownMicrousd
  heldMicrousd := ledger.heldMicrousd
  admissionTotalMicrousd := ledger.admissionTotalMicrousd
  unknownAttempts := (ledger.attempts.rows.filter fun row => row.disposition = .unknown).length
  overCeiling := ledger.caps.maxMicrousd < ledger.admissionTotalMicrousd

/-- The five series of the report, under their names. -/
def series (rows : List (Job × Receipt)) (ledger : Ledger) : List (String × List Int) :=
  [("queue", rows.filterMap fun row => queueNs row.2),
    ("backend_roundtrip", rows.filterMap fun row => roundtripNs row.2),
    ("first_content", rows.filterMap fun row => firstContentNs row.2),
    ("submit_to_completion", rows.filterMap fun row => completionNs row.2),
    ("observation_age_at_consumption",
      ledger.events.filterMap fun entry => consumedAgeNs entry.event)]

def byWorkload (rows : List (Job × Receipt)) : List (Workload × WorkloadCounts) :=
  Tally.tally (fun row => row.1.workload) ⟨0, 0, 0⟩ (fun row => WorkloadCounts.add row.2) rows

def groupedLatencies (rows : List (Job × Receipt)) : List (String × GroupTimes) :=
  Tally.tally Prod.fst ⟨0, [], []⟩ (fun filed => GroupTimes.add filed.2)
    (rows.flatMap fun row => (groups row).map fun group => (group, row.2))

structure Summary where
  clockId : Name
  offered : Nat
  states : List (JobState × Nat)
  byWorkload : List (Workload × WorkloadCounts)
  timing : List (String × Timing)
  timingGroups : List (String × GroupReport)
  knownTotals : TokenKind → Nat
  missingAttemptCounts : TokenKind → Nat
  cacheHits : Nat
  budget : Budget
  quarantinedPools : List Name

def summary (clockId : Name) (rows : List (Job × Receipt)) (ledger : Ledger) : Summary where
  clockId := clockId
  offered := rows.length
  states := Tally.tally (fun row => row.2.state) 0 (fun _ count => count + 1) rows
  byWorkload := Telemetry.byWorkload rows
  timing := (series rows ledger).map fun named => (named.1, Telemetry.timing named.2)
  timingGroups := (groupedLatencies rows).map fun named =>
    (named.1, ⟨named.2.offered, percentiles named.2.roundtripNs, percentiles named.2.queueNs⟩)
  knownTotals := fun kind => ((tokenValues kind rows).map fun value => (value.map Fin.val).getD 0).sum
  missingAttemptCounts := fun kind => (tokenValues kind rows).count none
  cacheHits := (rows.filter fun row => row.2.cacheHit).length
  budget := Telemetry.budget ledger
  quarantinedPools := ledger.quarantined.mergeSort fun a b => a.text ≤ b.text

def summarize : RuntimeProgram Summary := do
  let self ← readVolatile
  let rows ← Store.jobs self.config.tenant []
  let ledger ← readDurable
  pure (summary self.clock.id rows ledger)

/-! ## Selection -/

theorem percentile_mem {values : List Int} {p : Nat} {value : Int}
    (selected : percentile values p = some value) : value ∈ values := by
  unfold percentile at selected
  split at selected
  · contradiction
  · exact List.mem_mergeSort.mp (List.mem_of_getElem? selected)

/-- A percentile of measurements exists. -/
theorem percentile_isSome {values : List Int} (measured : values ≠ []) {p : Nat} (le : p ≤ 100) :
    (percentile values p).isSome = true := by
  have positive := List.length_pos_iff.mpr measured
  have scaled : p * values.length ≤ 100 * values.length := Nat.mul_le_mul_right _ le
  rw [percentile, if_neg measured, Option.isSome_iff_exists]
  refine ⟨_, List.getElem?_eq_getElem ?_⟩
  rw [List.length_mergeSort]
  omega

/-! ## No duration is negative -/

section Durations

variable {receipt : Receipt}

theorem queueNs_nonneg (timely : receipt.Timely) : ∀ duration ∈ queueNs receipt, 0 ≤ duration := by
  intro duration member
  obtain ⟨started, present, rfl⟩ := Option.map_eq_some_iff.mp member
  have le := Fin.le_def.mp ((Receipt.ordered_iff.mp timely.ordered).1.1 started present)
  omega

theorem roundtripNs_nonneg (timely : receipt.Timely) :
    ∀ duration ∈ roundtripNs receipt, 0 ≤ duration := by
  intro duration member
  simp only [roundtripNs, Option.mem_def, Option.bind_eq_bind, Option.bind_eq_some_iff,
    Option.pure_def, Option.some.injEq] at member
  obtain ⟨started, startedEq, completed, completedEq, rfl⟩ := member
  have le := Fin.le_def.mp
    ((Receipt.ordered_iff.mp timely.ordered).2.1.2.1 started startedEq completed completedEq)
  omega

theorem firstContentNs_nonneg (timely : receipt.Timely) :
    ∀ duration ∈ firstContentNs receipt, 0 ≤ duration := by
  intro duration member
  simp only [firstContentNs, Option.mem_def, Option.bind_eq_bind, Option.bind_eq_some_iff,
    Option.pure_def, Option.some.injEq] at member
  obtain ⟨first, firstEq, started, startedEq, rfl⟩ := member
  have le := Fin.le_def.mp
    ((Receipt.ordered_iff.mp timely.ordered).2.1.1 started startedEq first firstEq)
  omega

theorem completionNs_nonneg (timely : receipt.Timely) :
    ∀ duration ∈ completionNs receipt, 0 ≤ duration := by
  intro duration member
  obtain ⟨completed, present, rfl⟩ := Option.map_eq_some_iff.mp member
  have le := Fin.le_def.mp ((Receipt.ordered_iff.mp timely.ordered).1.2.2.1 completed present)
  omega

end Durations

/-- Every measurement behind a report. -/
structure Unreversed (rows : List (Job × Receipt)) (ledger : Ledger) : Prop where
  series : ∀ named ∈ series rows ledger, ∀ duration ∈ named.2, 0 ≤ duration
  roundtrips : ∀ named ∈ groupedLatencies rows, ∀ duration ∈ named.2.roundtripNs, 0 ≤ duration
  queues : ∀ named ∈ groupedLatencies rows, ∀ duration ∈ named.2.queueNs, 0 ≤ duration

theorem unreversed_of_timely {ledger : Ledger} (timely : ledger.Timely)
    {rows : List (Job × Receipt)} (kept : ∀ row ∈ rows, row.2.Timely) :
    Unreversed rows ledger := by
  have filed : ∀ named ∈ groupedLatencies rows,
      (∀ duration ∈ named.2.roundtripNs, 0 ≤ duration) ∧
        ∀ duration ∈ named.2.queueNs, 0 ≤ duration := by
    apply Tally.forall_tally fun times : GroupTimes =>
      (∀ duration ∈ times.roundtripNs, 0 ≤ duration) ∧ ∀ duration ∈ times.queueNs, 0 ≤ duration
    · simp
    · intro item member times holds
      obtain ⟨row, rowMember, named⟩ := List.mem_flatMap.mp member
      obtain ⟨group, -, rfl⟩ := List.mem_map.mp named
      constructor
      · intro duration added
        rcases List.mem_append.mp added with earlier | own
        · exact holds.1 duration earlier
        · exact roundtripNs_nonneg (kept row rowMember) duration (Option.mem_toList.mp own)
      · intro duration added
        rcases List.mem_append.mp added with earlier | own
        · exact holds.2 duration earlier
        · exact queueNs_nonneg (kept row rowMember) duration (Option.mem_toList.mp own)
  refine ⟨?_, fun named member => (filed named member).1, fun named member => (filed named member).2⟩
  have ofRows : ∀ measure : Receipt → Option Int,
      (∀ row ∈ rows, ∀ duration ∈ measure row.2, 0 ≤ duration) →
        ∀ duration ∈ rows.filterMap fun row => measure row.2, 0 ≤ duration := by
    intro measure nonneg duration member
    obtain ⟨row, rowMember, measured⟩ := List.mem_filterMap.mp member
    exact nonneg row rowMember duration measured
  intro named member
  simp only [Telemetry.series, List.mem_cons, List.not_mem_nil, or_false] at member
  rcases member with rfl | rfl | rfl | rfl | rfl
  · exact ofRows queueNs fun row rowMember => queueNs_nonneg (kept row rowMember)
  · exact ofRows roundtripNs fun row rowMember => roundtripNs_nonneg (kept row rowMember)
  · exact ofRows firstContentNs fun row rowMember => firstContentNs_nonneg (kept row rowMember)
  · exact ofRows completionNs fun row rowMember => completionNs_nonneg (kept row rowMember)
  · intro age aged
    obtain ⟨entry, entryMember, recorded⟩ := List.mem_filterMap.mp aged
    unfold consumedAgeNs at recorded
    split at recorded
    · rename_i job consumer most consumed
      exact timely.ages entry entryMember job consumer age (by rw [consumed, recorded])
    · contradiction

/-- The durations that a report shows. -/
def Percentiles.shown (percentiles : Percentiles) : List (Option Int) :=
  [percentiles.p50, percentiles.p95, percentiles.p99]

def Summary.durations (report : Summary) : List (Option Int) :=
  (report.timing.flatMap fun named => named.2.max :: named.2.shown) ++
    report.timingGroups.flatMap fun named => named.2.roundtripNs.shown ++ named.2.queueNs.shown

theorem percentiles_nonneg {values : List Int} (nonneg : ∀ value ∈ values, 0 ≤ value) :
    ∀ shown ∈ (percentiles values).shown, ∀ duration ∈ shown, 0 ≤ duration := by
  intro shown member duration selected
  simp only [Percentiles.shown, percentiles, List.mem_cons, List.not_mem_nil, or_false] at member
  rcases member with rfl | rfl | rfl
  all_goals exact nonneg duration (percentile_mem selected)

theorem Unreversed.summary {rows : List (Job × Receipt)} {ledger : Ledger}
    (unreversed : Unreversed rows ledger) (clockId : Name) :
    ∀ shown ∈ (summary clockId rows ledger).durations, ∀ duration ∈ shown, 0 ≤ duration := by
  intro shown member duration selected
  rcases List.mem_append.mp member with timed | grouped
  · obtain ⟨report, reportMember, within⟩ := List.mem_flatMap.mp timed
    obtain ⟨named, namedMember, rfl⟩ := List.mem_map.mp reportMember
    have nonneg := unreversed.series named namedMember
    rcases List.mem_cons.mp within with rfl | percentile
    · exact nonneg duration (List.max?_mem selected)
    · exact percentiles_nonneg nonneg shown percentile duration selected
  · obtain ⟨report, reportMember, within⟩ := List.mem_flatMap.mp grouped
    obtain ⟨named, namedMember, rfl⟩ := List.mem_map.mp reportMember
    rcases List.mem_append.mp within with roundtrip | queue
    · exact percentiles_nonneg (unreversed.roundtrips named namedMember) shown roundtrip duration
        selected
    · exact percentiles_nonneg (unreversed.queues named namedMember) shown queue duration selected

/-- What a report reads is in order when the journal is. -/
theorem wp_summarize_timely {ledger : Ledger} (timely : ledger.Timely) (self : Coordinator) :
    wp summarize (fun _ _ => True) (fun report _ _ => (∃ rows, Unreversed rows ledger ∧
      report = summary self.clock.id rows ledger) ∧
        ∀ shown ∈ report.durations, ∀ duration ∈ shown, 0 ≤ duration)
      (fun _ _ _ => True) ledger self := by
  simp only [summarize, wp_bind, wp_readVolatile, wp_jobs_iff]
  split
  · rename_i rows read
    have unreversed : Unreversed rows ledger := by
      apply unreversed_of_timely timely
      intro row member
      obtain ⟨stored, storedMember, -, parsed⟩ := readRows_reparsed read row member
      have found := Table.lookup_of_mem (List.mem_filter.mp storedMember).1
      exact ((timely.kept _ _ found).reparse parsed).toTimely
    simp only [wp_readDurable, wp_pure]
    exact ⟨⟨rows, unreversed, rfl⟩, unreversed.summary self.clock.id⟩
  · trivial

/-- While no clock goes back in a lifetime, the timeline of every receipt in every
ledger of a run is in order, and no report computes a negative duration. -/
theorem timelines_ordered (caps : BudgetCaps) {steps : List CampaignStep}
    (steady : ∀ args, .start args ∈ steps → Monotone args.clock.nowNs) :
    ∀ ledger ∈ Campaign.history caps steps,
      (∀ key row, ledger.jobs.lookup key = some row → row.receipt.Timely) ∧
        ∀ (self : Coordinator) report, (summarize ledger self).value = .ok report →
          (∃ rows, Unreversed rows ledger ∧ report = summary self.clock.id rows ledger) ∧
            ∀ shown ∈ report.durations, ∀ duration ∈ shown, 0 ≤ duration := by
  intro ledger member
  have timely : ledger.Timely := by
    refine Campaign.history_timely caps ?_ ledger member
    intro label labelMember
    cases label with
    | start args => exact steady args labelMember
    | _ => trivial
  refine ⟨fun key row found => (timely.kept key row found).toTimely, ?_⟩
  intro self report reported
  have meets := (wp_summarize_timely timely self).2
  rw [reported] at meets
  exact meets

/-- A run across a restart: a job is sent, answered and consumed. -/
theorem timelines_ordered_restarted :
    let steps := Sample.sending ++ [.act (.finishTask Sample.job (Sample.reply 3)),
      .act (.consume Sample.job "robot"), .crash .tick 0, Sample.restart]
    ∀ ledger ∈ Campaign.history ⟨⟨"campaign", by decide⟩, 100, 1000⟩ steps,
      (∀ key row, ledger.jobs.lookup key = some row → row.receipt.Timely) ∧
        ∀ (self : Coordinator) report, (summarize ledger self).value = .ok report →
          (∃ rows, Unreversed rows ledger ∧ report = summary self.clock.id rows ledger) ∧
            ∀ shown ∈ report.durations, ∀ duration ∈ shown, 0 ≤ duration := by
  apply timelines_ordered
  intro args member
  simp only [Sample.sending, Sample.opening, Sample.restart, List.cons_append, List.nil_append,
    List.mem_cons, List.not_mem_nil, or_false, CampaignStep.start.injEq, reduceCtorEq,
    false_or] at member
  rcases member with rfl | rfl
  all_goals exact monotone_const

end Telemetry

end AgminaRuntime
