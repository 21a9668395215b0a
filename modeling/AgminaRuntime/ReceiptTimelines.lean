import AgminaRuntime.SessionGenerations

/-!
# Timelines of receipts

The instants of a receipt are written at different readings of the clock: when
the job is submitted, dispatched, answered and consumed, and one of them comes
from the backend.  While the clock does not go back, whatever may still be
written to a receipt comes after what it has.
-/

namespace AgminaRuntime

open Durable Durable.Program Keyed

/-! ## Receipts -/

namespace Receipt

/-- The instants of a receipt, in the order in which they should come. -/
def instants (receipt : Receipt) : List (Option Ns) :=
  [some receipt.submittedNs, receipt.startedNs, receipt.firstContentNs, receipt.completedNs,
    receipt.consumedNs]

/-- No instant that is present comes after a later one. -/
def Ordered (receipt : Receipt) : Prop :=
  receipt.instants.Pairwise fun earlier later =>
    ∀ first ∈ earlier, ∀ second ∈ later, first ≤ second

/-- What the timeline of a receipt shows. -/
structure Timely (receipt : Receipt) : Prop where
  ordered : receipt.Ordered
  computed : ∀ computed ∈ receipt.computedNs, ∀ completed ∈ receipt.completedNs,
    computed ≤ completed
  cached : receipt.cacheHit = true → receipt.startedNs = none ∧ receipt.endpoint = none
  claimed : receipt.consumedBy.isSome = true ↔ receipt.state = .consumed
  consumed : receipt.consumedNs.isSome = true ↔ receipt.state = .consumed
  answered : receipt.state = .succeeded ∨ receipt.state = .consumed →
    receipt.completedNs.isSome = true ∧ receipt.computedNs.isSome = true ∧
      receipt.usage.isSome = true ∧ receipt.predictionJson.isSome = true

/-- A queued receipt shows no call and no answer. -/
structure Kept (receipt : Receipt) : Prop extends Timely receipt where
  waiting : receipt.state = .queued → receipt.startedNs = none ∧ receipt.endpoint = none ∧
    receipt.firstContentNs = none ∧ receipt.completedNs = none ∧ receipt.cacheHit = false

/-- Everything on the receipt has happened by now. -/
def By (receipt : Receipt) (now : Ns) : Prop :=
  ∀ instant ∈ receipt.computedNs :: receipt.instants, ∀ at_ ∈ instant, at_ ≤ now

variable {receipt : Receipt} {now later : Ns}

theorem By.mono (past : receipt.By now) (le : now ≤ later) : receipt.By later :=
  fun instant member at_ present => (past instant member at_ present).trans le

theorem ordered_iff : receipt.Ordered ↔
    ((∀ started ∈ receipt.startedNs, receipt.submittedNs ≤ started) ∧
      (∀ first ∈ receipt.firstContentNs, receipt.submittedNs ≤ first) ∧
        (∀ completed ∈ receipt.completedNs, receipt.submittedNs ≤ completed) ∧
          ∀ consumed ∈ receipt.consumedNs, receipt.submittedNs ≤ consumed) ∧
    ((∀ started ∈ receipt.startedNs, ∀ first ∈ receipt.firstContentNs, started ≤ first) ∧
      (∀ started ∈ receipt.startedNs, ∀ completed ∈ receipt.completedNs, started ≤ completed) ∧
        ∀ started ∈ receipt.startedNs, ∀ consumed ∈ receipt.consumedNs, started ≤ consumed) ∧
    ((∀ first ∈ receipt.firstContentNs, ∀ completed ∈ receipt.completedNs, first ≤ completed) ∧
      ∀ first ∈ receipt.firstContentNs, ∀ consumed ∈ receipt.consumedNs, first ≤ consumed) ∧
    ∀ completed ∈ receipt.completedNs, ∀ consumed ∈ receipt.consumedNs, completed ≤ consumed := by
  simp [Ordered, instants, List.pairwise_cons]

theorem by_iff : receipt.By now ↔ (∀ computed ∈ receipt.computedNs, computed ≤ now) ∧
    receipt.submittedNs ≤ now ∧ (∀ started ∈ receipt.startedNs, started ≤ now) ∧
      (∀ first ∈ receipt.firstContentNs, first ≤ now) ∧
        (∀ completed ∈ receipt.completedNs, completed ≤ now) ∧
          ∀ consumed ∈ receipt.consumedNs, consumed ≤ now := by
  simp [By, instants]

/-- A receipt that has not been consumed has no consumer's instant. -/
theorem Kept.unconsumed (kept : receipt.Kept) (unclaimed : receipt.state ≠ .consumed) :
    receipt.consumedNs = none ∧ receipt.consumedBy = none := by
  constructor
  · rw [← Option.not_isSome_iff_eq_none, kept.consumed]
    exact unclaimed
  · rw [← Option.not_isSome_iff_eq_none, kept.claimed]
    exact unclaimed

/-- A receipt that was read back shows the same instants. -/
theorem Kept.reparse {parsed : Receipt} (kept : receipt.Kept)
    (read : receipt.reparse = some parsed) : parsed.Kept := by
  obtain ⟨reason, providerRequestId, -, -, -, rfl⟩ := reparse_eq_some_iff.mp read
  exact ⟨⟨kept.ordered, kept.computed, kept.cached, kept.claimed, kept.consumed, kept.answered⟩,
    kept.waiting⟩

theorem By.reparse {parsed : Receipt} (past : receipt.By now)
    (read : receipt.reparse = some parsed) : parsed.By now := by
  obtain ⟨reason, providerRequestId, -, -, -, rfl⟩ := reparse_eq_some_iff.mp read
  exact past

theorem state_reparse {parsed : Receipt} (read : receipt.reparse = some parsed) :
    parsed.state = receipt.state ∧ parsed.jobId = receipt.jobId := by
  obtain ⟨reason, providerRequestId, -, -, -, rfl⟩ := reparse_eq_some_iff.mp read
  exact ⟨rfl, rfl⟩

theorem kept_initial (job : Job) {state : JobState} (reason : Option PyStr) (now : Ns)
    (initial : state = .queued ∨ state = .rejected) :
    (Receipt.initial job state reason now).Kept := by
  refine ⟨⟨?_, ?_, ?_, ?_, ?_, ?_⟩, ?_⟩
  · simp [ordered_iff, Receipt.initial]
  all_goals rcases initial with rfl | rfl <;> simp [Receipt.initial]

/-- A receipt moves to a state without an answer, or stays in its own. -/
theorem Kept.moved (kept : receipt.Kept) (unclaimed : receipt.state ≠ .consumed)
    {state : JobState} (ends : state.isDead = true ∨ state = receipt.state)
    (reason : Option PyStr) :
    Kept { receipt with state := state, reason := reason } := by
  rcases ends with dead | rfl
  · obtain ⟨consumedNs, consumedBy⟩ := kept.unconsumed unclaimed
    refine ⟨⟨kept.ordered, kept.computed, kept.cached, ?_, ?_, ?_⟩, ?_⟩
    all_goals cases state <;> simp_all [JobState.isDead]
  · exact ⟨⟨kept.ordered, kept.computed, kept.cached, kept.claimed, kept.consumed,
      kept.answered⟩, kept.waiting⟩

theorem By.moved (past : receipt.By now) (state : JobState) (reason : Option PyStr) :
    By { receipt with state := state, reason := reason } now := past

/-- An answer from the cache. -/
theorem Kept.served (kept : receipt.Kept) (queued : receipt.state = .queued)
    (past : receipt.By now) (payload : String) {computedNs : Ns} (earlier : computedNs ≤ now) :
    let served : Receipt :=
      { receipt with
        state := .succeeded
        predictionJson := some payload
        completedNs := some now
        computedNs := some computedNs
        cacheHit := true
        usage := some (Usage.ofCost 0) }
    served.Kept ∧ served.By now := by
  obtain ⟨started, endpoint, first, -, -⟩ := kept.waiting queued
  obtain ⟨consumedNs, consumedBy⟩ := kept.unconsumed (by simp [queued])
  obtain ⟨-, submitted, -⟩ := by_iff.mp past
  refine ⟨⟨⟨?_, ?_, ?_, ?_, ?_, ?_⟩, ?_⟩, ?_⟩
  · simp [ordered_iff, started, first, consumedNs, submitted]
  · simp [earlier]
  · simp [started, endpoint]
  · simp [consumedBy]
  · simp [consumedNs]
  · simp
  · simp
  · simp [by_iff, started, first, consumedNs, submitted, earlier]

/-- A dispatch. -/
theorem Kept.launched (kept : receipt.Kept) (queued : receipt.state = .queued)
    (past : receipt.By now) (endpoint : Name) :
    let launched : Receipt :=
      { receipt with state := .running, endpoint := some endpoint, startedNs := some now }
    launched.Kept ∧ launched.By now := by
  obtain ⟨started, -, first, completed, hit⟩ := kept.waiting queued
  obtain ⟨consumedNs, consumedBy⟩ := kept.unconsumed (by simp [queued])
  obtain ⟨computed, submitted, -⟩ := by_iff.mp past
  refine ⟨⟨⟨?_, ?_, ?_, ?_, ?_, ?_⟩, ?_⟩, ?_⟩
  · simp [ordered_iff, first, completed, consumedNs, submitted]
  · simp [completed]
  · simp [hit]
  · simp [consumedBy]
  · simp [consumedNs]
  · simp
  · simp
  · simp [by_iff, first, completed, consumedNs, submitted]
    exact computed

/-- The end of a call that failed. -/
theorem Kept.failed (kept : receipt.Kept) (unclaimed : receipt.state ≠ .consumed)
    (waited : receipt.state ≠ .queued) (past : receipt.By now) :
    let failed : Receipt := { receipt with completedNs := some now }
    failed.Kept ∧ failed.By now := by
  obtain ⟨consumedNs, consumedBy⟩ := kept.unconsumed unclaimed
  obtain ⟨computed, submitted, started, first, -, -⟩ := by_iff.mp past
  obtain ⟨⟨startedLater, firstLater, -⟩, ⟨inside, -⟩, -⟩ := ordered_iff.mp kept.ordered
  refine ⟨⟨⟨?_, ?_, kept.cached, kept.claimed, kept.consumed, ?_⟩, ?_⟩, ?_⟩
  · simp only [ordered_iff, consumedNs, Option.mem_def]
    simp_all
  · simp only [Option.mem_def, Option.some.injEq]
    rintro computedNs present _ rfl
    exact computed computedNs present
  · intro answered
    exact ⟨rfl, (kept.answered answered).2⟩
  · intro queued
    exact absurd queued waited
  · simp only [by_iff, consumedNs]
    simp_all

/-- The end of a call that was answered. -/
theorem Kept.completed (kept : receipt.Kept) (unclaimed : receipt.state ≠ .consumed)
    {state : JobState} (accepted : state ≠ .queued ∧ state ≠ .consumed)
    (past : receipt.By now) (reason : Option PyStr) {result : Prediction}
    (inside : ∀ first ∈ result.firstContentNs, ∃ started ∈ receipt.startedNs,
      started ≤ first ∧ first ≤ now) :
    (Runtime.completedReceipt receipt state reason now result).Kept ∧
      (Runtime.completedReceipt receipt state reason now result).By now := by
  obtain ⟨consumedNs, consumedBy⟩ := kept.unconsumed unclaimed
  obtain ⟨-, submitted, started, -, -, -⟩ := by_iff.mp past
  obtain ⟨⟨startedLater, -⟩, -⟩ := ordered_iff.mp kept.ordered
  have bounds : ∀ first, result.firstContentNs = some first →
      receipt.submittedNs ≤ first ∧ first ≤ now ∧
        ∀ started ∈ receipt.startedNs, started ≤ first := by
    intro first present
    obtain ⟨start, startEq, after, before⟩ := inside first present
    refine ⟨(startedLater start startEq).trans after, before, ?_⟩
    intro other otherEq
    rw [Option.some.inj ((Option.mem_def.mp otherEq).symm.trans startEq)]
    exact after
  refine ⟨⟨⟨?_, ?_, kept.cached, ?_, ?_, ?_⟩, ?_⟩, ?_⟩
  · simp only [ordered_iff, Runtime.completedReceipt, consumedNs, Option.mem_def,
      Option.some.injEq]
    refine ⟨⟨startedLater, fun first present => (bounds first present).1, ?_, by simp⟩,
      ⟨fun start startEq first present => (bounds first present).2.2 start startEq, ?_, by simp⟩,
      ⟨?_, by simp⟩, by simp⟩
    · rintro _ rfl
      exact submitted
    · rintro start startEq _ rfl
      exact started start startEq
    · rintro first present _ rfl
      exact (bounds first present).2.1
  · simp [Runtime.completedReceipt]
  · simp [Runtime.completedReceipt, consumedBy, accepted.2]
  · simp [Runtime.completedReceipt, consumedNs, accepted.2]
  · simp [Runtime.completedReceipt]
  · exact fun queued => absurd queued accepted.1
  · simp only [by_iff, Runtime.completedReceipt, consumedNs, Option.mem_def, Option.some.injEq]
    refine ⟨?_, submitted, started, fun first present => (bounds first present).2.1, ?_, by simp⟩
    · rintro _ rfl
      exact le_rfl
    · rintro _ rfl
      exact le_rfl

/-- The first consumption. -/
theorem Kept.claimedBy (kept : receipt.Kept) (succeeded : receipt.state = .succeeded)
    (past : receipt.By now) (consumer : Name) :
    Kept { receipt with
      state := .consumed, consumedBy := some consumer, consumedNs := some now } := by
  obtain ⟨-, submitted, started, first, completed, -⟩ := by_iff.mp past
  obtain ⟨⟨a, b, c, -⟩, ⟨d, e, -⟩, ⟨f, -⟩, -⟩ := ordered_iff.mp kept.ordered
  refine ⟨⟨?_, kept.computed, kept.cached, by simp, by simp, ?_⟩, by simp⟩
  · simp only [ordered_iff, Option.mem_def, Option.some.injEq]
    refine ⟨⟨a, b, c, ?_⟩, ⟨d, e, ?_⟩, ⟨f, ?_⟩, ?_⟩
    · rintro _ rfl
      exact submitted
    · rintro start startEq _ rfl
      exact started start startEq
    · rintro instant present _ rfl
      exact first instant present
    · rintro instant present _ rfl
      exact completed instant present
  · intro _
    exact kept.answered (.inl succeeded)

end Receipt

/-! ## The journal and the memory -/

/-- The next reading of the clock. -/
def Coordinator.now (self : Coordinator) : Ns := self.clock.nowNs self.reads

/-- Every stored timeline is in order, and no recorded age is negative. -/
structure Ledger.Timely (ledger : Ledger) : Prop where
  kept : ∀ key row, ledger.jobs.lookup key = some row → row.receipt.Kept
  own : ∀ key row, ledger.jobs.lookup key = some row → row.receipt.jobId = row.job.id
  ages : ∀ entry ∈ ledger.events, ∀ job consumer age,
    entry.event = .consumed job consumer (some age) → 0 ≤ age

/-- The event records no negative age. -/
def Event.Aged (event : Event) : Prop :=
  ∀ job consumer age, event = .consumed job consumer (some age) → 0 ≤ age

/-- The clock does not go back, and what may still be written to a receipt comes
after what it has: the receipts of live jobs and of tasks are past, and so are
the results that can still be consumed and the cached ones. -/
structure Timed (since : Ns) (ledger : Ledger) (memory : Coordinator) : Prop where
  timely : ledger.Timely
  steady : Monotone memory.clock.nowNs
  since : since ≤ memory.now
  live : ∀ key row, ledger.jobs.lookup key = some row → row.receipt.state.isLive = true →
    row.receipt.By memory.now
  tasks : ∀ task ∈ memory.running, ∀ row, ledger.jobs.lookup task.job.key = some row →
    row.receipt.By memory.now ∧ row.receipt.state ≠ .queued ∧ row.receipt.state ≠ .consumed
  answered : ∀ key row, ledger.jobs.lookup key = some row → row.receipt.state = .succeeded →
    row.receipt.By memory.now ∨ ledger.Departed row.job
  cached : ∀ entry ∈ memory.cache.data, entry.computedNs ≤ memory.now

namespace Timed

variable {since : Ns} {ledger after : Ledger} {self : Coordinator}

/-- The clock is read. -/
theorem read (timed : Timed since ledger self) :
    Timed self.now ledger { self with reads := self.reads + 1 } := by
  have later : self.now ≤ Coordinator.now { self with reads := self.reads + 1 } :=
    timed.steady (Nat.le_succ self.reads)
  exact
    { timely := timed.timely
      steady := timed.steady
      since := later
      live := fun key row found live => (timed.live key row found live).mono later
      tasks := fun task member row found =>
        ⟨(timed.tasks task member row found).1.mono later, (timed.tasks task member row found).2⟩
      answered := fun key row found succeeded =>
        (timed.answered key row found succeeded).imp (·.mono later) id
      cached := fun entry member => (timed.cached entry member).trans later }

theorem weaken (timed : Timed since ledger self) {earlier : Ns} (le : earlier ≤ since) :
    Timed earlier ledger self :=
  { timed with since := le.trans timed.since }

theorem rebase (timed : Timed since ledger self) : Timed self.now ledger self :=
  { timed with since := le_rfl }

/-- Jobs, sessions and events decide. -/
theorem frame (timed : Timed since ledger self) (jobs : after.jobs = ledger.jobs)
    (sessions : after.sessions = ledger.sessions) (events : after.events = ledger.events) :
    Timed since after self := by
  have departed : ∀ {job}, ledger.Departed job → after.Departed job := by
    rintro job ⟨session, found, left⟩
    exact ⟨session, by rw [sessions]; exact found, left⟩
  exact
    { timely := ⟨by rw [jobs]; exact timed.timely.kept, by rw [jobs]; exact timed.timely.own,
        by rw [events]; exact timed.timely.ages⟩
      steady := timed.steady
      since := timed.since
      live := by rw [jobs]; exact timed.live
      tasks := by rw [jobs]; exact timed.tasks
      answered := by
        rw [jobs]
        exact fun key row found succeeded =>
          (timed.answered key row found succeeded).imp id departed
      cached := timed.cached }

theorem note (timed : Timed since ledger self) (atNs : Ns) (event : Event) (aged : event.Aged) :
    Timed since (ledger.note atNs event) self := by
  refine { timed with timely := ⟨timed.timely.kept, timed.timely.own, ?_⟩ }
  intro entry member
  rcases List.mem_append.mp member with earlier | own
  · exact timed.timely.ages entry earlier
  · rw [List.mem_singleton.mp own]
    exact aged

/-- Sessions do not return to what they have left. -/
theorem sessions (timed : Timed since ledger self) {who : Author} (commit : Commit who ledger after)
    (jobs : after.jobs = ledger.jobs) (events : after.events = ledger.events) :
    Timed since after self :=
  { timely := ⟨by rw [jobs]; exact timed.timely.kept, by rw [jobs]; exact timed.timely.own,
      by rw [events]; exact timed.timely.ages⟩
    steady := timed.steady
    since := timed.since
    live := by rw [jobs]; exact timed.live
    tasks := by rw [jobs]; exact timed.tasks
    answered := by
      rw [jobs]
      exact fun key row found succeeded =>
        (timed.answered key row found succeeded).imp id commit.departed_kept
    cached := timed.cached }

/-- The memory changes in what the timelines do not depend on. -/
theorem memory (timed : Timed since ledger self) {next : Coordinator}
    (clock : next.clock = self.clock) (reads : next.reads = self.reads)
    (running : ∀ task ∈ next.running, ∃ old ∈ self.running, old.job = task.job)
    (cached : ∀ entry ∈ next.cache.data, entry.computedNs ≤ self.now) :
    Timed since ledger next := by
  have now : next.now = self.now := by rw [Coordinator.now, Coordinator.now, clock, reads]
  exact
    { timely := timed.timely
      steady := by rw [clock]; exact timed.steady
      since := by rw [now]; exact timed.since
      live := by rw [now]; exact timed.live
      tasks := by
        intro task member row found
        obtain ⟨old, oldMember, same⟩ := running task member
        rw [now]
        exact timed.tasks old oldMember row (by rw [same]; exact found)
      answered := by rw [now]; exact timed.answered
      cached := by rw [now]; exact cached }

end Timed

/-- A row after a write was there before, or shows the receipt. -/
theorem Ledger.row_of_writeReceipt {ledger : Ledger} {tenant : Name} {receipt : Receipt}
    {key : Name × Name} {row : JobRow}
    (found : (ledger.writeReceipt tenant receipt).jobs.lookup key = some row) :
    ledger.jobs.lookup key = some row ∨
      key = (tenant, receipt.jobId) ∧ row.receipt = receipt := by
  rw [Ledger.writeReceipt, Table.lookup_update] at found
  split at found
  · rename_i same
    obtain ⟨old, -, rfl⟩ := Option.map_eq_some_iff.mp found
    exact .inr ⟨same, rfl⟩
  · exact .inl found

namespace Timed

variable {since : Ns} {ledger after : Ledger} {self : Coordinator} {receipt : Receipt}

/-- A receipt is written. -/
theorem write (timed : Timed since ledger self) (tenant : Name) (kept : receipt.Kept)
    (past : receipt.state.isLive = true ∨ receipt.state = .succeeded → receipt.By self.now)
    (task : ∀ task ∈ self.running, task.job.key = (tenant, receipt.jobId) →
      receipt.By self.now ∧ receipt.state ≠ .queued ∧ receipt.state ≠ .consumed) :
    Timed since (ledger.writeReceipt tenant receipt) self where
  timely := by
    refine ⟨fun key row found => ?_, fun key row found => ?_, timed.timely.ages⟩
    · rcases Ledger.row_of_writeReceipt found with earlier | ⟨-, same⟩
      · exact timed.timely.kept key row earlier
      · rw [same]
        exact kept
    · rcases Ledger.row_of_writeReceipt found with earlier | ⟨keyEq, same⟩
      · exact timed.timely.own key row earlier
      · have keys := (Table.key_of_lookup found).trans keyEq
        rw [same]
        exact (congrArg Prod.snd keys).symm
  steady := timed.steady
  since := timed.since
  live := by
    intro key row found live
    rcases Ledger.row_of_writeReceipt found with earlier | ⟨-, same⟩
    · exact timed.live key row earlier live
    · rw [same] at live ⊢
      exact past (.inl live)
  tasks := by
    intro other member row found
    rcases Ledger.row_of_writeReceipt found with earlier | ⟨keyEq, same⟩
    · exact timed.tasks other member row earlier
    · rw [same]
      exact task other member keyEq
  answered := by
    intro key row found succeeded
    rcases Ledger.row_of_writeReceipt found with earlier | ⟨-, same⟩
    · exact timed.answered key row earlier succeeded
    · rw [same] at succeeded ⊢
      exact .inl (past (.inr succeeded))
  cached := timed.cached

/-- A past receipt is written that is neither queued nor consumed. -/
theorem write_past (timed : Timed since ledger self) (tenant : Name) (kept : receipt.Kept)
    (past : receipt.By since) (accepted : receipt.state ≠ .queued ∧ receipt.state ≠ .consumed) :
    Timed since (ledger.writeReceipt tenant receipt) self :=
  timed.write tenant kept (fun _ => past.mono timed.since)
    fun _ _ _ => ⟨past.mono timed.since, accepted⟩

/-- A new job is stored. -/
theorem addJob (timed : Timed since ledger self) {job : Job} (kept : receipt.Kept)
    (named : receipt.jobId = job.id)
    (past : receipt.By since) (idle : ∀ task ∈ self.running, task.job.key ≠ job.key)
    (added : ledger.addJob job receipt = .ok after) : Timed since after self := by
  have rows : ∀ key row, after.jobs.lookup key = some row →
      ledger.jobs.lookup key = some row ∨ key = job.key ∧ row.receipt = receipt := by
    intro key row found
    rw [ledger.lookup_addJob added] at found
    split at found
    · rename_i same
      rw [← Option.some.inj found]
      exact .inr ⟨same.symm, rfl⟩
    · exact .inl found
  have departed : ∀ {other}, ledger.Departed other → after.Departed other := by
    obtain ⟨observations, jobs, -, rfl⟩ := ledger.addJob_ok added
    exact fun departed => departed
  have events : after.events = ledger.events := by
    obtain ⟨observations, jobs, -, rfl⟩ := ledger.addJob_ok added
    rfl
  exact
    { timely := by
        refine ⟨fun key row found => ?_, fun key row found => ?_,
          by rw [events]; exact timed.timely.ages⟩
        · rcases rows key row found with earlier | ⟨-, same⟩
          · exact timed.timely.kept key row earlier
          · rw [same]
            exact kept
        · rcases rows key row found with earlier | ⟨keyEq, same⟩
          · exact timed.timely.own key row earlier
          · have keys := (Table.key_of_lookup found).trans keyEq
            rw [same, named]
            exact (congrArg Prod.snd keys).symm
      steady := timed.steady
      since := timed.since
      live := by
        intro key row found live
        rcases rows key row found with earlier | ⟨-, same⟩
        · exact timed.live key row earlier live
        · rw [same]
          exact past.mono timed.since
      tasks := by
        intro task member row found
        rcases rows _ row found with earlier | ⟨same, -⟩
        · exact timed.tasks task member row earlier
        · exact absurd same (idle task member)
      answered := by
        intro key row found succeeded
        rcases rows key row found with earlier | ⟨-, same⟩
        · exact (timed.answered key row earlier succeeded).imp id departed
        · rw [same]
          exact .inl (past.mono timed.since)
      cached := timed.cached }

/-- A task begins whose receipt is past. -/
theorem spawn (timed : Timed since ledger self) {task : Task}
    (started : ∀ row, ledger.jobs.lookup task.job.key = some row →
      row.receipt.By self.now ∧ row.receipt.state ≠ .queued ∧ row.receipt.state ≠ .consumed) :
    Timed since ledger { self with running := self.running ++ [task] } :=
  { timed with
    tasks := by
      intro other member row found
      rcases List.mem_append.mp member with earlier | own
      · exact timed.tasks other earlier row found
      · rw [List.mem_singleton.mp own] at found
        exact started row found }

end Timed

end AgminaRuntime
