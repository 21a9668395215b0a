import AgminaRuntime.DurableLogic
import AgminaRuntime.LiveState

/-!
# Rules for the operations of the store

What each method of the store does to the ledger, as rules of the program
logic, and the two ways in which the coordinator uses them: reading the live
rows of the journal, and running a body on each of the rows that were read.
-/

namespace AgminaRuntime

open Durable Durable.Program Keyed

section Methods

variable {μ : Type} {guarantee : Ledger → Ledger → Prop} {raised : PyExc → Ledger → μ → Prop}
  {ledger : Ledger} {memory : μ}

@[simp]
theorem wp_event (atNs : Ns) (kind : Event) {normal : Unit → Ledger → μ → Prop} :
    wp (Store.event atNs kind) guarantee normal raised ledger memory ↔
      guarantee ledger (ledger.note atNs kind) ∧ normal () (ledger.note atNs kind) memory :=
  wp_commit _

@[simp]
theorem wp_putSession (session : Session) {normal : Unit → Ledger → μ → Prop} :
    wp (Store.putSession session) guarantee normal raised ledger memory ↔
      guarantee ledger (ledger.putSession session) ∧
        normal () (ledger.putSession session) memory :=
  wp_commit _

@[simp]
theorem wp_receipt (tenant : Name) (receipt : Receipt) {normal : Unit → Ledger → μ → Prop} :
    wp (Store.receipt tenant receipt) guarantee normal raised ledger memory ↔
      guarantee ledger (ledger.writeReceipt tenant receipt) ∧
        normal () (ledger.writeReceipt tenant receipt) memory :=
  wp_commit _

@[simp]
theorem wp_quarantine (pool : Name) (reason : String) {normal : Unit → Ledger → μ → Prop} :
    wp (Store.quarantine pool reason) guarantee normal raised ledger memory ↔
      guarantee ledger (ledger.quarantinePool pool reason) ∧
        normal () (ledger.quarantinePool pool reason) memory :=
  wp_commit _

@[simp]
theorem wp_quarantined {normal : List Name → Ledger → μ → Prop} :
    wp Store.quarantined guarantee normal raised ledger memory ↔
      normal ledger.quarantined ledger memory := by
  simp [Store.quarantined]

/-- Reading a session that is stored. -/
theorem wp_session {tenant sessionId : Name} {session : Session}
    {normal : Session → Ledger → μ → Prop}
    (found : ledger.sessions.lookup (tenant, sessionId) = some session) :
    wp (Store.session tenant sessionId) guarantee normal raised ledger memory ↔
      normal session ledger memory := by
  simp [Store.session, found]

/-- Reading a session that may be missing. -/
theorem wp_session_iff {tenant sessionId : Name} {normal : Session → Ledger → μ → Prop} :
    wp (Store.session tenant sessionId) guarantee normal raised ledger memory ↔
      match ledger.sessions.lookup (tenant, sessionId) with
      | none => raised (.keyError "Unknown session") ledger memory
      | some session => normal session ledger memory := by
  cases found : ledger.sessions.lookup (tenant, sessionId) <;> simp [Store.session, found]

/-- Reading a job that is stored with a readable receipt. -/
theorem wp_job {tenant jobId : Name} {row : JobRow} {receipt : Receipt}
    {normal : Job × Receipt → Ledger → μ → Prop}
    (found : ledger.jobs.lookup (tenant, jobId) = some row)
    (read : row.receipt.reparse = some receipt) :
    wp (Store.job tenant jobId) guarantee normal raised ledger memory ↔
      normal (row.job, receipt) ledger memory := by
  simp [Store.job, found, Store.readRow, read, wp_ofExcept]

/-- Reading a job that may be missing or unreadable. -/
theorem wp_job_intro {tenant jobId : Name} {normal : Job × Receipt → Ledger → μ → Prop}
    (missing : raised (.keyError "Unknown job") ledger memory)
    (unreadable : raised (.validationError "Receipt") ledger memory)
    (returns : ∀ row receipt, ledger.jobs.lookup (tenant, jobId) = some row →
      row.receipt.reparse = some receipt → normal (row.job, receipt) ledger memory) :
    wp (Store.job tenant jobId) guarantee normal raised ledger memory := by
  cases found : ledger.jobs.lookup (tenant, jobId) with
  | none => simpa [Store.job, found] using missing
  | some row =>
      cases read : row.receipt.reparse with
      | none => simpa [Store.job, found, Store.readRow, read, wp_ofExcept] using unreadable
      | some receipt => exact (wp_job found read).mpr (returns row receipt found read)

/-- A charge that SQLite can store, or none. -/
theorem wp_settle {job : Job} {usage : Option Usage} {normal : Unit → Ledger → μ → Prop} :
    wp (Store.settle job usage) guarantee normal raised ledger memory ↔
      match usage.bind (·.costMicrousd) with
      | none => guarantee ledger (ledger.settleAttempt job.key none) ∧
          normal () (ledger.settleAttempt job.key none) memory
      | some value =>
          if bounded : value < 2 ^ 63 then
            guarantee ledger (ledger.settleAttempt job.key (some ⟨value, bounded⟩)) ∧
              normal () (ledger.settleAttempt job.key (some ⟨value, bounded⟩)) memory
          else raised .overflowError ledger memory := by
  simp only [Store.settle, wp_transaction]
  cases usage.bind (·.costMicrousd) with
  | none => rfl
  | some value =>
      by_cases bounded : value < 2 ^ 63
      · simp only [dif_pos bounded]
      · simp only [dif_neg bounded]

end Methods

/-! ## Reading several rows -/

/-- The journal holds the job with exactly this receipt. -/
def Ledger.Stored (ledger : Ledger) (entry : Job × Receipt) : Prop :=
  ledger.jobs.lookup entry.1.key = some ⟨entry.1, entry.2⟩

/-- Every row but one is as it was. -/
def Ledger.SameBut (before : Ledger) (key : Name × Name) (after : Ledger) : Prop :=
  ∀ other, other ≠ key → after.jobs.lookup other = before.jobs.lookup other

theorem readRows_ok {rows : List JobRow} (readable : ∀ row ∈ rows, row.receipt.Readable) :
    Store.readRows rows = .ok (rows.map fun row => (row.job, row.receipt)) := by
  induction rows with
  | nil => rfl
  | cons row rows ih =>
      have first : row.receipt.reparse = some row.receipt := readable row List.mem_cons_self
      have rest := ih fun other member => readable other (List.mem_cons_of_mem _ member)
      simp [Store.readRows, Store.readRow, first, rest]

theorem wp_jobs_iff {μ : Type} {guarantee : Ledger → Ledger → Prop}
    {raised : PyExc → Ledger → μ → Prop} {ledger : Ledger} {memory : μ} {tenant : Name}
    {states : List JobState} {normal : List (Job × Receipt) → Ledger → μ → Prop} :
    wp (Store.jobs tenant states) guarantee normal raised ledger memory ↔
      match Store.readRows (Store.selectJobs ledger tenant states) with
      | .ok entries => normal entries ledger memory
      | .error exception => raised exception ledger memory := by
  simp only [Store.jobs, wp_bind, wp_readDurable, wp_ofExcept]
  cases Store.readRows (Store.selectJobs ledger tenant states) <;> rfl

/-- What `Store.jobs` returns for states in which receipts are readable. -/
structure Reads (ledger : Ledger) (tenant : Name) (states : List JobState)
    (entries : List (Job × Receipt)) : Prop where
  rows : entries =
    (Store.selectJobs ledger tenant states).map fun row => (row.job, row.receipt)
  stored : ∀ entry ∈ entries, ledger.Stored entry
  selected : ∀ entry ∈ entries, entry.2.state ∈ states
  readable : ∀ entry ∈ entries, entry.2.Readable
  distinct : (entries.map fun entry => entry.1.key).Nodup
  complete : ∀ key row, ledger.jobs.lookup key = some row → row.receipt.state ∈ states →
    (row.job, row.receipt) ∈ entries

/-- The rows of the only tenant, when those in the given states are readable. -/
theorem wp_jobs_readable {μ : Type} {guarantee : Ledger → Ledger → Prop}
    {raised : PyExc → Ledger → μ → Prop} {ledger : Ledger} {memory : μ} {tenant : Name}
    {states : List JobState} {normal : List (Job × Receipt) → Ledger → μ → Prop}
    (tenants : ∀ row ∈ ledger.jobs.rows, row.job.tenant = tenant) (nonempty : states ≠ [])
    (legible : ∀ row ∈ ledger.jobs.rows, row.receipt.state ∈ states → row.receipt.Readable)
    (returns : ∀ entries, Reads ledger tenant states entries → normal entries ledger memory) :
    wp (Store.jobs tenant states) guarantee normal raised ledger memory := by
  have selected : ∀ row, row ∈ Store.selectJobs ledger tenant states ↔
      row ∈ ledger.jobs.rows ∧ row.receipt.state ∈ states := by
    intro row
    simp only [Store.selectJobs, List.mem_filter, decide_eq_true_eq, nonempty, false_or]
    constructor
    · rintro ⟨member, _, inStates⟩
      exact ⟨member, inStates⟩
    · rintro ⟨member, inStates⟩
      exact ⟨member, tenants row member, inStates⟩
  have readable : ∀ row ∈ Store.selectJobs ledger tenant states, row.receipt.Readable := by
    intro row member
    obtain ⟨stored, inStates⟩ := (selected row).mp member
    exact legible row stored inStates
  simp only [Store.jobs, wp_bind, wp_readDurable, wp_ofExcept, readRows_ok readable]
  apply returns
  refine ⟨rfl, ?_, ?_, ?_, ?_, ?_⟩
  · intro entry member
    obtain ⟨row, rowMember, rfl⟩ := List.mem_map.mp member
    exact Table.lookup_of_mem ((selected row).mp rowMember).1
  · intro entry member
    obtain ⟨row, rowMember, rfl⟩ := List.mem_map.mp member
    exact ((selected row).mp rowMember).2
  · intro entry member
    obtain ⟨row, rowMember, rfl⟩ := List.mem_map.mp member
    exact readable row rowMember
  · rw [List.map_map]
    exact ledger.jobs.distinct.sublist (List.filter_sublist.map _)
  · intro key row found inStates
    exact List.mem_map.mpr ⟨row, (selected row).mpr ⟨Table.mem_of_lookup found, inStates⟩, rfl⟩

theorem wp_jobs {μ : Type} {guarantee : Ledger → Ledger → Prop}
    {raised : PyExc → Ledger → μ → Prop} {ledger : Ledger} {memory : μ} {tenant : Name}
    {states : List JobState} {normal : List (Job × Receipt) → Ledger → μ → Prop}
    (sound : ledger.Sound) (bound : ledger.tenant = some tenant) (nonempty : states ≠ [])
    (live : ∀ state ∈ states, state.isLive = true)
    (returns : ∀ entries, Reads ledger tenant states entries → normal entries ledger memory) :
    wp (Store.jobs tenant states) guarantee normal raised ledger memory := by
  apply wp_jobs_readable _ nonempty _ returns
  · intro row member
    have rowTenant := (sound.rows _ _ (Table.lookup_of_mem member)).tenant
    rw [bound, Option.some.injEq] at rowTenant
    exact rowTenant.symm
  · intro row member inStates
    exact (sound.rows _ _ (Table.lookup_of_mem member)).complete.readable (live _ inStates)

/-! ## A body on each row -/

/-- A loop over rows that were read keeps an invariant, when each round leaves
the other rows alone. -/
theorem wp_forEach_stored {α μ : Type} {guarantee : Ledger → Ledger → Prop}
    {raised : PyExc → Ledger → μ → Prop} (entry : α → Job × Receipt)
    {body : α → LedgerProgram μ Unit} (invariant : List α → Ledger → μ → Prop)
    (step : ∀ item rest ledger memory, invariant (item :: rest) ledger memory →
      ledger.Stored (entry item) →
        wp (body item) guarantee
          (fun _ after memory =>
            invariant rest after memory ∧ ledger.SameBut (entry item).1.key after)
          raised ledger memory)
    {items : List α} {ledger : Ledger} {memory : μ}
    (stored : ∀ item ∈ items, ledger.Stored (entry item))
    (distinct : (items.map fun item => (entry item).1.key).Nodup)
    (initially : invariant items ledger memory) :
    wp (forEach items body) guarantee (fun _ => invariant []) raised ledger memory := by
  refine wp_post (wp_forEach
    (fun rest ledger memory => invariant rest ledger memory ∧
      (∀ item ∈ rest, ledger.Stored (entry item)) ∧
        (rest.map fun item => (entry item).1.key).Nodup)
    ?_ ⟨initially, stored, distinct⟩) (fun _ _ _ kept => kept.1) (fun _ _ _ failed => failed)
  · rintro item rest ledger memory ⟨kept, stored, distinct⟩
    rw [List.map_cons, List.nodup_cons] at distinct
    refine wp_post (step item rest ledger memory kept (stored item List.mem_cons_self)) ?_
      (fun _ _ _ failed => failed)
    rintro _ after memory ⟨kept, others⟩
    refine ⟨kept, ?_, distinct.2⟩
    intro other member
    have differs : (entry other).1.key ≠ (entry item).1.key := by
      intro same
      exact distinct.1 (List.mem_map.mpr ⟨other, member, same⟩)
    exact (others _ differs).trans (stored other (List.mem_cons_of_mem _ member))

end AgminaRuntime
