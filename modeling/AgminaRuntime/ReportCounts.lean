import AgminaRuntime.CampaignInvariant
import AgminaRuntime.NearestRank
import AgminaRuntime.Telemetry

/-!
# What a report counts

Offered, rejected and expired work stays in the denominator: every job of the
journal is one row of the report, each breakdown adds up to the whole, and no
later report leaves out a job that was once offered.
-/

namespace AgminaRuntime

open Durable Durable.Program Keyed

namespace Telemetry

variable {rows : List (Job × Receipt)} {ledger : Ledger} {clockId : Name}

/-! ## Percentiles -/

/-- A percentile of measurements is one of them; at least `p` hundredths of the
measurements are up to it and fewer are below. -/
structure NearestRankOf (values : List Int) (p : Nat) (value : Int) : Prop where
  measured : value ∈ values
  covers : p * values.length ≤ 100 * values.countP (· ≤ value)
  least : 100 * values.countP (· < value) < p * values.length

theorem pairwise_sorted (values : List Int) :
    (values.mergeSort fun a b => a ≤ b).Pairwise (· ≤ ·) := by
  have sorted : (values.mergeSort fun a b => a ≤ b).Pairwise fun a b => decide (a ≤ b) = true := by
    apply List.pairwise_mergeSort
    · intro a b c
      simpa using le_trans
    · intro a b
      simpa using le_total a b
  simpa using sorted

theorem countP_sorted (values : List Int) (test : Int → Bool) :
    (values.mergeSort fun a b => a ≤ b).countP test = values.countP test :=
  (List.mergeSort_perm values _).countP_eq test

theorem percentile_rank {values : List Int} {p : Nat} {value : Int} (positive : 0 < p)
    (selected : percentile values p = some value) : NearestRankOf values p value := by
  have measured := percentile_mem selected
  have inside := List.length_pos_of_mem measured
  unfold percentile at selected
  rw [if_neg (List.ne_nil_of_mem measured)] at selected
  have ordered := pairwise_sorted values
  have upTo := NearestRank.lt_countP_le ordered selected
  have below := NearestRank.countP_lt_le ordered selected
  rw [countP_sorted] at upTo below
  have scaled : 0 < p * values.length := Nat.mul_pos positive inside
  exact ⟨measured, by omega, by omega⟩

/-- Higher percentiles are no smaller, and the maximum is the largest. -/
theorem percentile_mono {values : List Int} {p q : Nat} {early late : Int} (le : p ≤ q)
    (earlyEq : percentile values p = some early) (lateEq : percentile values q = some late) :
    early ≤ late := by
  have measured := List.ne_nil_of_mem (percentile_mem earlyEq)
  unfold percentile at earlyEq lateEq
  rw [if_neg measured] at earlyEq lateEq
  apply NearestRank.select_mono (pairwise_sorted values) _ earlyEq lateEq
  have scaled : p * values.length ≤ q * values.length := Nat.mul_le_mul_right _ le
  omega

/-- What is shown of a series. -/
structure Ranked (values : List Int) (shown : Percentiles) : Prop where
  n : shown.n = values.length
  unmeasured : values = [] → shown.p50 = none ∧ shown.p95 = none ∧ shown.p99 = none
  measured : values ≠ [] → ∃ low high top, shown.p50 = some low ∧ shown.p95 = some high ∧
    shown.p99 = some top ∧ NearestRankOf values 50 low ∧ NearestRankOf values 95 high ∧
      NearestRankOf values 99 top ∧ low ≤ high ∧ high ≤ top

theorem ranked_percentiles (values : List Int) : Ranked values (percentiles values) where
  n := rfl
  unmeasured := by
    rintro rfl
    exact ⟨rfl, rfl, rfl⟩
  measured := by
    intro measured
    obtain ⟨low, lowEq⟩ := Option.isSome_iff_exists.mp
      (percentile_isSome measured (show 50 ≤ 100 by decide))
    obtain ⟨high, highEq⟩ := Option.isSome_iff_exists.mp
      (percentile_isSome measured (show 95 ≤ 100 by decide))
    obtain ⟨top, topEq⟩ := Option.isSome_iff_exists.mp
      (percentile_isSome measured (show 99 ≤ 100 by decide))
    exact ⟨low, high, top, lowEq, highEq, topEq, percentile_rank (by decide) lowEq,
      percentile_rank (by decide) highEq, percentile_rank (by decide) topEq,
      percentile_mono (by decide) lowEq highEq, percentile_mono (by decide) highEq topEq⟩

/-! ## The breakdowns -/

/-- The rows that a group is about. -/
def inGroup (rows : List (Job × Receipt)) (group : String) : List (Job × Receipt) :=
  rows.filter fun row => group ∈ groups row

/-- Nothing is lost between the rows and a report about them. -/
structure Accounts (rows : List (Job × Receipt)) (ledger : Ledger) (report : Summary) : Prop where
  offered : report.offered = rows.length
  states : ∀ entry ∈ report.states, entry.2 = rows.countP fun row => row.2.state = entry.1
  statesTotal : (report.states.map Prod.snd).sum = rows.length
  workloads : ∀ entry ∈ report.byWorkload,
    entry.2.offered = rows.countP (fun row => row.1.workload = entry.1) ∧
      entry.2.consumed ≤ entry.2.usableCompletion ∧ entry.2.usableCompletion ≤ entry.2.offered
  workloadsTotal : (report.byWorkload.map fun entry => entry.2.offered).sum = rows.length ∧
    (report.byWorkload.map fun entry => entry.2.usableCompletion).sum =
      rows.countP (fun row => row.2.state ∈ [JobState.succeeded, .consumed]) ∧
    (report.byWorkload.map fun entry => entry.2.consumed).sum =
      rows.countP fun row => row.2.state = .consumed
  timing : List.Forall₂ (fun named shown => shown.1 = named.1 ∧
    Ranked named.2 shown.2.toPercentiles ∧ shown.2.max = named.2.max?) (series rows ledger)
      report.timing
  groups : ∀ entry ∈ report.timingGroups,
    entry.2.offered = (inGroup rows entry.1).length ∧
      Ranked ((inGroup rows entry.1).filterMap fun row => roundtripNs row.2) entry.2.roundtripNs ∧
      Ranked ((inGroup rows entry.1).filterMap fun row => queueNs row.2) entry.2.queueNs
  groupsTotal : (report.timingGroups.map fun entry => entry.2.offered).sum = 2 * rows.length
  tokens : ∀ kind, report.missingAttemptCounts kind +
    rows.countP (fun row => countsTokens row.2 && (row.2.usage.bind kind.of).isSome) =
      rows.countP fun row => countsTokens row.2

theorem foldl_count {α : Type} (items : List α) (start : Nat) :
    items.foldl (fun count _ => count + 1) start = start + items.length := by
  induction items generalizing start with
  | nil => rfl
  | cons item items ih =>
      rw [List.foldl_cons, ih, List.length_cons]
      omega

theorem foldl_workload (items : List (Job × Receipt)) (counts : WorkloadCounts) :
    (items.foldl (fun counts row => WorkloadCounts.add row.2 counts) counts).offered =
      counts.offered + items.length := by
  induction items generalizing counts with
  | nil => rfl
  | cons item items ih =>
      rw [List.foldl_cons, ih, List.length_cons]
      simp only [WorkloadCounts.add]
      omega

theorem foldl_times {α : Type} (receipt : α → Receipt) (items : List α) (times : GroupTimes) :
    items.foldl (fun times item => GroupTimes.add (receipt item) times) times =
      ⟨times.offered + items.length,
        times.roundtripNs ++ items.filterMap fun item => roundtripNs (receipt item),
        times.queueNs ++ items.filterMap fun item => queueNs (receipt item)⟩ := by
  induction items generalizing times with
  | nil => simp
  | cons item items ih =>
      rw [List.foldl_cons, ih, GroupTimes.add]
      congr 1
      · simp only [List.length_cons]
        omega
      · rw [List.append_assoc, List.filterMap_cons]
        cases roundtripNs (receipt item) <;> rfl
      · rw [List.append_assoc, List.filterMap_cons]
        cases queueNs (receipt item) <;> rfl

/-- A workload is never taken for an endpoint. -/
theorem groups_nodup (row : Job × Receipt) : (groups row).Nodup := by
  have apart : "workload:" ++ row.1.workload.text ≠
      "endpoint:" ++ (row.2.endpoint.map Name.text).getD "not_dispatched" := by
    intro same
    have heads := congrArg (fun text : String => text.toList.head?) same
    simp at heads
  simpa [groups] using apart

/-- The rows that are filed under a group. -/
theorem filed_group (rows : List (Job × Receipt)) (group : String) :
    ((rows.flatMap fun row => (groups row).map fun group => (group, row.2)).filter
      fun filed => filed.1 = group) = (inGroup rows group).map fun row => (group, row.2) := by
  induction rows with
  | nil => rfl
  | cons row rows ih =>
      have own : (((groups row).map fun group => (group, row.2)).filter
          fun filed => filed.1 = group) =
            if group ∈ groups row then [(group, row.2)] else [] := by
        rw [List.filter_map]
        show ((groups row).filter (· = group)).map _ = _
        rw [List.filter_eq]
        split
        · rename_i member
          rw [List.count_eq_one_of_mem (groups_nodup row) member]
          rfl
        · rename_i absent
          rw [List.count_eq_zero_of_not_mem absent]
          rfl
      rw [List.flatMap_cons, List.filter_append, own, ih, inGroup, inGroup, List.filter_cons]
      split <;> simp_all

/-- Each row is filed twice. -/
theorem length_filed (rows : List (Job × Receipt)) :
    (rows.flatMap fun row => (groups row).map fun group => (group, row.2)).length =
      2 * rows.length := by
  induction rows with
  | nil => rfl
  | cons row rows ih =>
      rw [List.flatMap_cons, List.length_append, ih, List.length_cons]
      simp only [groups, List.length_map, List.length_cons, List.length_nil]
      omega

/-- What counts has a value or is missing. -/
theorem count_missing {α β : Type} [DecidableEq β] (items : List α) (counted : α → Bool)
    (value : α → Option β) :
    ((items.filter counted).map value).count none +
      items.countP (fun item => counted item && (value item).isSome) = items.countP counted := by
  induction items with
  | nil => rfl
  | cons item items ih =>
      cases counts : counted item with
      | false => simpa [counts] using ih
      | true =>
          cases present : value item <;>
            simp only [List.filter_cons, List.countP_cons, counts, present, List.map_cons,
              List.count_cons, if_true, Bool.and_true, Option.isSome_none, Option.isSome_some,
              Bool.true_and, Bool.false_eq_true, if_false, beq_self_eq_true]
          · omega
          · simp
            omega

theorem workload_bounds (receipt : Receipt) (counts : WorkloadCounts)
    (bounds : counts.consumed ≤ counts.usableCompletion ∧
      counts.usableCompletion ≤ counts.offered) :
    (WorkloadCounts.add receipt counts).consumed ≤
        (WorkloadCounts.add receipt counts).usableCompletion ∧
      (WorkloadCounts.add receipt counts).usableCompletion ≤
        (WorkloadCounts.add receipt counts).offered := by
  simp only [WorkloadCounts.add]
  cases receipt.state <;> simp <;> omega

theorem byWorkload_total {rows : List (Job × Receipt)} (measure : WorkloadCounts → Nat)
    (weight : Job × Receipt → Nat) (empty : measure ⟨0, 0, 0⟩ = 0)
    (adds : ∀ row counts, measure (WorkloadCounts.add row.2 counts) =
      measure counts + weight row) :
    ((byWorkload rows).map fun entry => measure entry.2).sum = (rows.map weight).sum :=
  Tally.sum_tally measure weight empty adds

theorem sum_indicator {α : Type} (items : List α) (test : α → Prop) [DecidablePred test] :
    (items.map fun item => if test item then 1 else 0).sum =
      items.countP fun item => decide (test item) := by
  induction items with
  | nil => rfl
  | cons item items ih =>
      rw [List.map_cons, List.sum_cons, ih, List.countP_cons]
      by_cases holds : test item <;> simp [holds]
      omega

theorem accounts_summary (clockId : Name) (rows : List (Job × Receipt)) (ledger : Ledger) :
    Accounts rows ledger (summary clockId rows ledger) where
  offered := rfl
  states := by
    intro entry member
    have counted := Tally.mem_tally member
    rw [counted, foldl_count, Nat.zero_add, List.countP_eq_length_filter]
  statesTotal := by
    have total : ((Tally.tally (fun row : Job × Receipt => row.2.state) 0
        (fun _ count => count + 1) rows).map fun entry => id entry.2).sum =
          (rows.map fun _ => 1).sum := Tally.sum_tally id (fun _ => 1) rfl fun _ _ => rfl
    simpa [summary] using total
  workloads := by
    intro entry member
    have counted := congrArg WorkloadCounts.offered (Tally.mem_tally member)
    rw [foldl_workload, Nat.zero_add, ← List.countP_eq_length_filter] at counted
    have bounds := Tally.forall_tally
      (fun counts : WorkloadCounts => counts.consumed ≤ counts.usableCompletion ∧
        counts.usableCompletion ≤ counts.offered)
      ⟨le_refl _, le_refl _⟩ (fun row _ counts => workload_bounds row.2 counts) entry member
    exact ⟨counted, bounds⟩
  workloadsTotal := by
    simp only [summary]
    refine ⟨?_, ?_, ?_⟩
    · have total := @byWorkload_total rows WorkloadCounts.offered (fun _ => 1) rfl fun _ _ => rfl
      simpa using total
    · rw [byWorkload_total WorkloadCounts.usableCompletion
        (fun row => if row.2.state ∈ [JobState.succeeded, .consumed] then 1 else 0) rfl
        fun _ _ => rfl]
      exact sum_indicator rows _
    · rw [byWorkload_total WorkloadCounts.consumed
        (fun row => if row.2.state = .consumed then 1 else 0) rfl fun _ _ => rfl]
      exact sum_indicator rows _
  timing := by
    simp only [summary]
    rw [List.forall₂_map_right_iff, List.forall₂_same]
    exact fun named _ => ⟨rfl, ranked_percentiles named.2, rfl⟩
  groups := by
    intro entry member
    obtain ⟨named, namedMember, rfl⟩ := List.mem_map.mp member
    have filed := Tally.mem_tally namedMember
    rw [filed_group, List.foldl_map, foldl_times fun row : Job × Receipt => row.2] at filed
    simp only [Nat.zero_add, List.nil_append] at filed
    rw [filed]
    exact ⟨rfl, ranked_percentiles _, ranked_percentiles _⟩
  groupsTotal := by
    have total : ((groupedLatencies rows).map fun entry => entry.2.offered).sum =
        ((rows.flatMap fun row => (groups row).map fun group => (group, row.2)).map
          fun _ => 1).sum :=
      Tally.sum_tally GroupTimes.offered (fun _ => 1) rfl fun _ _ => rfl
    simp only [summary, List.map_map]
    rw [List.map_const', List.sum_replicate_nat, mul_one, length_filed] at total
    exact total
  tokens := by
    intro kind
    simp only [summary, tokenValues]
    exact count_missing rows _ _

/-! ## Reports of a run -/

/-- The rows of a report are the stored jobs of the tenant, in their states. -/
def Stored (ledger : Ledger) (tenant : Name) (rows : List (Job × Receipt)) : Prop :=
  List.Forall₂ (fun stored row => row.1 = stored.job ∧ row.2.state = stored.receipt.state)
    (Store.selectJobs ledger tenant []) rows

theorem stored_of_read {stored : List JobRow} {rows : List (Job × Receipt)}
    (read : Store.readRows stored = .ok rows) :
    List.Forall₂ (fun stored row => row.1 = stored.job ∧ row.2.state = stored.receipt.state)
      stored rows := by
  induction stored generalizing rows with
  | nil =>
      rw [← Except.ok.inj read]
      exact .nil
  | cons first stored ih =>
      simp only [Store.readRows, Store.readRow] at read
      split at read
      · contradiction
      · rename_i row rowEq
        split at read
        · contradiction
        · rename_i rest restEq
          rw [← Except.ok.inj read]
          refine .cons ?_ (ih restEq)
          split at rowEq
          · contradiction
          · rename_i receipt parsed
            rw [← Except.ok.inj rowEq]
            exact ⟨rfl, (Receipt.state_reparse parsed).1⟩

/-- What a report is computed from. -/
theorem summarize_ok {self : Coordinator} {report : Summary}
    (reported : (summarize ledger self).value = .ok report) :
    ∃ rows, Stored ledger self.config.tenant rows ∧
      report = summary self.clock.id rows ledger := by
  have meets : wp summarize (fun _ _ => True) (fun report _ _ =>
      ∃ rows, Stored ledger self.config.tenant rows ∧ report = summary self.clock.id rows ledger)
      (fun _ _ _ => True) ledger self := by
    simp only [summarize, wp_bind, wp_readVolatile, wp_jobs_iff]
    split
    · rename_i rows read
      simp only [wp_readDurable, wp_pure]
      exact ⟨rows, stored_of_read read, rfl⟩
    · trivial
  have post := meets.2
  rw [reported] at post
  exact post

/-- The jobs that a tenant has offered. -/
def offered (ledger : Ledger) (tenant : Name) : Nat :=
  (Store.selectJobs ledger tenant []).length

theorem offered_total (ledger : Ledger) (tenant : Name) :
    offered ledger tenant =
      ledger.jobs.total fun row => if row.job.tenant = tenant then 1 else 0 := by
  rw [Table.total, sum_indicator, List.countP_eq_length_filter, offered, Store.selectJobs]
  simp

/-- No commit takes a job out of the journal. -/
theorem offered_le {before after : Ledger}
    (kept : ∀ key row, before.jobs.lookup key = some row →
      ∃ next, after.jobs.lookup key = some next ∧ next.job = row.job) (tenant : Name) :
    offered before tenant ≤ offered after tenant := by
  rw [offered_total, offered_total]
  apply Table.total_le_total
  intro key row found
  obtain ⟨next, nextFound, same⟩ := kept key row found
  exact ⟨next, nextFound, by rw [same]⟩

/-- Every report accounts for every job of its journal, and in a run no later
report counts fewer jobs than had been offered before. -/
theorem reports_lose_nothing (caps : BudgetCaps) (steps : List CampaignStep) :
    (∀ (ledger : Ledger) (self : Coordinator) report,
      (summarize ledger self).value = .ok report →
        ∃ rows, Stored ledger self.config.tenant rows ∧ Accounts rows ledger report) ∧
    (Campaign.history caps steps).Pairwise fun earlier later =>
      ∀ (self : Coordinator) report, (summarize later self).value = .ok report →
        offered earlier self.config.tenant ≤ report.offered := by
  constructor
  · intro ledger self report reported
    obtain ⟨rows, stored, rfl⟩ := summarize_ok reported
    exact ⟨rows, stored, accounts_summary _ rows ledger⟩
  · have grows : (Campaign.history caps steps).Pairwise fun earlier later =>
        ∀ tenant, offered earlier tenant ≤ offered later tenant := by
      have : Trans (fun earlier later => ∀ tenant, offered earlier tenant ≤ offered later tenant)
          (fun earlier later => ∀ tenant, offered earlier tenant ≤ offered later tenant)
          (fun earlier later : Ledger =>
            ∀ tenant, offered earlier tenant ≤ offered later tenant) :=
        ⟨fun early late tenant => (early tenant).trans (late tenant)⟩
      apply List.IsChain.pairwise
      apply (Campaign.history_commits caps steps).imp
      rintro before after ⟨who, commit⟩
      apply offered_le
      intro key row found
      obtain ⟨next, nextFound, move, -⟩ := commit.row_kept found
      exact ⟨next, nextFound, move.job_eq⟩
    apply grows.imp
    intro earlier later grown self report reported
    obtain ⟨rows, stored, rfl⟩ := summarize_ok reported
    apply (grown self.config.tenant).trans
    exact le_of_eq stored.length_eq

end Telemetry

end AgminaRuntime
