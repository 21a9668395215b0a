import Mathlib.Algebra.Order.Ring.Int
import Mathlib.Data.List.Nodup
import Mathlib.Data.List.Perm.Subperm
import Mathlib.Data.List.Sort

/-!
# Greedy schedules on equal slots

Work items with a release time, a latest useful time and an estimate compete
for a fixed number of equal slots.  At every instant the waiting items that
would still be in time by their estimate are started in the order of a rank,
as far as slots are free.  An item that was started keeps its slot for its own
service time, which the choice never looks at before it has passed.
-/

namespace Greedy

/-- Items that compete for slots.  The rank may depend on the instant. -/
structure Demand (κ β : Type) [LinearOrder β] where
  items : List κ
  distinct : items.Nodup
  slots : Nat
  release : κ → Nat
  latest : κ → Nat
  estimate : κ → Nat
  service : κ → Nat
  positive : ∀ item ∈ items, 0 < service item
  rank : Nat → κ → β
  rankInjective : ∀ t, ∀ first ∈ items, ∀ second ∈ items,
    rank t first = rank t second → first = second

/-- The instants at which items were started. -/
abbrev Starts (κ : Type) := κ → Option Nat

namespace Demand

variable {κ β : Type} [LinearOrder β] (work : Demand κ β)

/-- A started item keeps its slot from its start until its service is over. -/
def running (start : Starts κ) (t : Nat) (item : κ) : Bool :=
  match start item with
  | none => false
  | some began => decide (began ≤ t ∧ t < began + work.service item)

def busy (start : Starts κ) (t : Nat) : Nat :=
  work.items.countP (work.running start t)

/-- Released, never started, and in time if it were started now. -/
def waiting (start : Starts κ) (t : Nat) (item : κ) : Bool :=
  decide (work.release item ≤ t) && (start item).isNone &&
    decide (t + work.estimate item < work.latest item)

/-- The order of the ranks at one instant. -/
def rankLE (t : Nat) (first second : κ) : Prop :=
  work.rank t first ≤ work.rank t second

instance (t : Nat) : DecidableRel (work.rankLE t) := fun first second =>
  inferInstanceAs (Decidable (work.rank t first ≤ work.rank t second))

instance (t : Nat) : Std.Total (work.rankLE t) := ⟨fun _ _ => le_total _ _⟩

instance (t : Nat) : IsTrans κ (work.rankLE t) := ⟨fun _ _ _ => le_trans⟩

/-- The items that are started at one instant. -/
def chosen (start : Starts κ) (t : Nat) : List κ :=
  ((work.items.filter (work.waiting start t)).insertionSort (work.rankLE t)).take
    (work.slots - work.busy start t)

variable [DecidableEq κ]

def dispatch (start : Starts κ) (t : Nat) : Starts κ := fun item =>
  if item ∈ work.chosen start t then some t else start item

/-- What has been started before an instant. -/
def startsBefore : Nat → Starts κ
  | 0 => fun _ => none
  | t + 1 => work.dispatch (startsBefore t) t

/-- What has been started up to and at an instant. -/
abbrev startsBy (t : Nat) : Starts κ := work.startsBefore (t + 1)

/-- The start of an item in the whole schedule: none is started from its
latest useful time on. -/
def finalStart (item : κ) : Option Nat := work.startsBefore (work.latest item) item

section Choice

variable {work}
variable {start : Starts κ} {t : Nat} {item : κ}

omit [DecidableEq κ] in
theorem waiting_iff :
    work.waiting start t item = true ↔
      work.release item ≤ t ∧ start item = none ∧ t + work.estimate item < work.latest item := by
  simp only [waiting, Bool.and_eq_true, decide_eq_true_eq, Option.isNone_iff_eq_none, and_assoc]

omit [DecidableEq κ] in
theorem running_iff :
    work.running start t item = true ↔
      ∃ began, start item = some began ∧ began ≤ t ∧ t < began + work.service item := by
  unfold running
  cases start item with
  | none => simp
  | some began => simp

omit [DecidableEq κ] in
theorem mem_of_mem_chosen (member : item ∈ work.chosen start t) :
    item ∈ work.items ∧ work.waiting start t item = true := by
  have sorted := List.mem_of_mem_take member
  rw [List.mem_insertionSort] at sorted
  exact List.mem_filter.mp sorted

omit [DecidableEq κ] in
theorem chosen_nodup : (work.chosen start t).Nodup := by
  apply List.Nodup.sublist (List.take_sublist _ _)
  exact (List.perm_insertionSort _ _).nodup_iff.mpr (work.distinct.filter _)

theorem dispatch_of_mem (member : item ∈ work.chosen start t) :
    work.dispatch start t item = some t := if_pos member

theorem dispatch_of_notMem (absent : item ∉ work.chosen start t) :
    work.dispatch start t item = start item := if_neg absent

/-- A start that was made is kept. -/
theorem dispatch_of_started {began : Nat} (started : start item = some began) :
    work.dispatch start t item = some began := by
  rw [dispatch_of_notMem, started]
  intro member
  have waits := (waiting_iff.mp (mem_of_mem_chosen member).2).2.1
  rw [started] at waits
  contradiction

/-- After a choice an item runs if it ran before or was chosen. -/
theorem running_dispatch (known : item ∈ work.items) :
    work.running (work.dispatch start t) t item =
      (work.running start t item || decide (item ∈ work.chosen start t)) := by
  by_cases member : item ∈ work.chosen start t
  · have begins : work.running (work.dispatch start t) t item = true := by
      rw [running_iff]
      have lasts := work.positive item known
      exact ⟨t, dispatch_of_mem member, le_refl t, by omega⟩
    simp [begins, member]
  · simp only [running, dispatch_of_notMem member, member, decide_false, Bool.or_false]

omit [DecidableEq κ] in
theorem not_running_of_mem_chosen (member : item ∈ work.chosen start t) :
    work.running start t item = false := by
  have waits := (waiting_iff.mp (mem_of_mem_chosen member).2).2.1
  simp [running, waits]

/-- The slots in use after a choice. -/
theorem busy_dispatch :
    work.busy (work.dispatch start t) t = work.busy start t + (work.chosen start t).length := by
  have split : ∀ items : List κ, (∀ item ∈ items, item ∈ work.items) →
      items.countP (work.running (work.dispatch start t) t) =
        items.countP (work.running start t) +
          items.countP fun item => decide (item ∈ work.chosen start t) := by
    intro items within
    induction items with
    | nil => rfl
    | cons item rest ih =>
        have tail := ih fun other member => within other (List.mem_cons_of_mem _ member)
        simp only [List.countP_cons, tail, running_dispatch (within item List.mem_cons_self)]
        by_cases member : item ∈ work.chosen start t
        · simp only [not_running_of_mem_chosen member, member]
          simp
          omega
        · simp only [member, decide_false, Bool.or_false]
          simp
          omega
  have taken : (work.items.countP fun item => decide (item ∈ work.chosen start t)) =
      (work.chosen start t).length := by
    rw [List.countP_eq_length_filter]
    apply List.Perm.length_eq
    rw [List.perm_ext_iff_of_nodup (work.distinct.filter _) chosen_nodup]
    intro item
    rw [List.mem_filter, decide_eq_true_eq]
    exact ⟨fun both => both.2, fun member => ⟨(mem_of_mem_chosen member).1, member⟩⟩
  rw [busy, split work.items fun _ member => member, taken, busy]

omit [DecidableEq κ] in
/-- There is one way to arrange the waiting items by their rank. -/
theorem eq_sorted_of_perm {arranged : List κ}
    (perm : arranged.Perm (work.items.filter (work.waiting start t)))
    (sorted : arranged.Pairwise (work.rankLE t)) :
    arranged = (work.items.filter (work.waiting start t)).insertionSort (work.rankLE t) := by
  have permSorted := List.perm_insertionSort (work.rankLE t)
    (work.items.filter (work.waiting start t))
  apply List.Perm.eq_of_pairwise ?_ sorted (List.pairwise_insertionSort _ _)
    (perm.trans permSorted.symm)
  intro first second firstMember secondMember forwards backwards
  apply work.rankInjective t first _ second _ (le_antisymm forwards backwards)
  · exact (List.mem_filter.mp (perm.mem_iff.mp firstMember)).1
  · exact (List.mem_filter.mp (permSorted.mem_iff.mp secondMember)).1

omit [DecidableEq κ] in
theorem length_chosen :
    (work.chosen start t).length =
      min (work.slots - work.busy start t)
        (work.items.filter (work.waiting start t)).length := by
  simp [chosen, List.length_insertionSort]

/-- A choice never takes more slots than there are. -/
theorem busy_dispatch_le (fits : work.busy start t ≤ work.slots) :
    work.busy (work.dispatch start t) t ≤ work.slots := by
  rw [busy_dispatch, length_chosen]
  omega

/-- While a slot stays free, nothing is left waiting. -/
theorem not_waiting_of_busy_lt (free : work.busy (work.dispatch start t) t < work.slots)
    (known : item ∈ work.items) : work.waiting (work.dispatch start t) t item = false := by
  rw [Bool.eq_false_iff]
  intro waits
  obtain ⟨released, unstarted, inTime⟩ := waiting_iff.mp waits
  have absent : item ∉ work.chosen start t := by
    intro member
    rw [dispatch_of_mem member] at unstarted
    contradiction
  rw [dispatch_of_notMem absent] at unstarted
  -- a free slot means that the choice took the whole waiting list
  have whole : (work.items.filter (work.waiting start t)).length ≤
      work.slots - work.busy start t := by
    rw [busy_dispatch, length_chosen] at free
    omega
  apply absent
  unfold chosen
  rw [List.take_of_length_le (by rw [List.length_insertionSort]; exact whole),
    List.mem_insertionSort, List.mem_filter]
  exact ⟨known, waiting_iff.mpr ⟨released, unstarted, inTime⟩⟩

end Choice

section Runs

variable {work}
variable {t later : Nat} {item : κ} {began : Nat}

/-- A start that was made is never changed. -/
theorem startsBefore_mono (started : work.startsBefore t item = some began)
    (order : t ≤ later) : work.startsBefore later item = some began := by
  induction order with
  | refl => exact started
  | step _ ih => exact dispatch_of_started ih

/-- What a start was checked for. -/
theorem startsBefore_spec (started : work.startsBefore t item = some began) :
    item ∈ work.items ∧ began < t ∧ work.release item ≤ began ∧
      began + work.estimate item < work.latest item := by
  induction t with
  | zero => simp [startsBefore] at started
  | succ t ih =>
      by_cases member : item ∈ work.chosen (work.startsBefore t) t
      · rw [startsBefore, dispatch_of_mem member, Option.some.injEq] at started
        subst started
        obtain ⟨known, waits⟩ := mem_of_mem_chosen member
        obtain ⟨released, _, inTime⟩ := waiting_iff.mp waits
        exact ⟨known, by omega, released, inTime⟩
      · rw [startsBefore, dispatch_of_notMem member] at started
        obtain ⟨known, earlier, rest⟩ := ih started
        exact ⟨known, by omega, rest⟩

/-- A start belongs to what was started by its own instant. -/
theorem startsBy_of_started (started : work.startsBefore later item = some began)
    (order : began ≤ t) : work.startsBy t item = some began := by
  by_cases reached : later ≤ t + 1
  · exact startsBefore_mono started reached
  · have earlier := (startsBefore_spec started).2.1
    cases mine : work.startsBefore (t + 1) item with
    | some other =>
        have kept := startsBefore_mono mine (show t + 1 ≤ later by omega)
        rw [started] at kept
        rw [kept]
        exact mine
    | none =>
        -- the start would have been made after `t`, but it was made at `began ≤ t`
        exfalso
        have late : ∀ instant, t + 1 ≤ instant → ∀ other,
            work.startsBefore instant item = some other → t + 1 ≤ other := by
          intro instant order
          induction order with
          | refl => intro other found; rw [mine] at found; contradiction
          | @step instant order ih =>
              intro other found
              by_cases member : item ∈ work.chosen (work.startsBefore instant) instant
              · rw [startsBefore, dispatch_of_mem member, Option.some.injEq] at found
                rw [← found]
                exact order
              · rw [startsBefore, dispatch_of_notMem member] at found
                exact ih other found
        have := late later (by omega) began started
        omega

/-- The starts up to an instant are the final starts that are not later. -/
theorem startsBy_eq_some_iff :
    work.startsBy t item = some began ↔ work.finalStart item = some began ∧ began ≤ t := by
  constructor
  · intro started
    obtain ⟨_, earlier, _, inTime⟩ := startsBefore_spec started
    have own := startsBy_of_started started (le_refl began)
    exact ⟨startsBefore_mono own (by omega), by omega⟩
  · rintro ⟨started, order⟩
    exact startsBy_of_started started order

theorem running_finalStart :
    work.running work.finalStart t item = work.running (work.startsBy t) t item := by
  rw [Bool.eq_iff_iff, running_iff, running_iff]
  constructor
  · rintro ⟨began, started, begun, runs⟩
    exact ⟨began, startsBy_eq_some_iff.mpr ⟨started, begun⟩, begun, runs⟩
  · rintro ⟨began, started, begun, runs⟩
    exact ⟨began, (startsBy_eq_some_iff.mp started).1, begun, runs⟩

/-- What runs at the next instant before its choice ran already. -/
theorem busy_succ_le : work.busy (work.startsBy t) (t + 1) ≤ work.busy (work.startsBy t) t := by
  apply List.countP_mono_left
  intro item _ runs
  obtain ⟨began, started, _, lasts⟩ := running_iff.mp runs
  have earlier := (startsBefore_spec started).2.1
  exact running_iff.mpr ⟨began, started, by omega, by omega⟩

/-- The capacity of the slots is respected at every instant. -/
theorem busy_startsBy_le : work.busy (work.startsBy t) t ≤ work.slots := by
  induction t with
  | zero =>
      apply busy_dispatch_le
      have idle : work.busy (work.startsBefore 0) 0 = 0 := by
        apply List.countP_eq_zero.mpr
        simp [running, startsBefore]
      exact (le_of_eq idle).trans (Nat.zero_le _)
  | succ t ih => exact busy_dispatch_le (le_trans busy_succ_le ih)

/-- No slot idles while an item waits. -/
theorem started_of_free (known : item ∈ work.items) (released : work.release item ≤ t)
    (inTime : t + work.estimate item < work.latest item)
    (free : work.busy (work.startsBy t) t < work.slots) :
    ∃ began ≤ t, work.finalStart item = some began := by
  have idle := not_waiting_of_busy_lt free known
  cases mine : work.startsBy t item with
  | some began =>
      obtain ⟨final, order⟩ := startsBy_eq_some_iff.mp mine
      exact ⟨began, order, final⟩
  | none =>
      have waits := waiting_iff.mpr ⟨released, mine, inTime⟩
      rw [startsBy, startsBefore] at waits
      rw [idle] at waits
      contradiction

/-- Between two instants without a release or a completion nothing is
started. -/
theorem startsBefore_of_quiet (order : t < later)
    (noRelease : ∀ item ∈ work.items, work.release item ≤ t ∨ later ≤ work.release item)
    (noFinish : ∀ item ∈ work.items, ∀ began, work.startsBy t item = some began →
      began + work.service item ≤ t ∨ later ≤ began + work.service item) :
    work.startsBefore later = work.startsBy t := by
  have quiet : ∀ instant, t + 1 ≤ instant → instant ≤ later →
      work.startsBefore instant = work.startsBy t := by
    intro instant reached
    induction reached with
    | refl => intro _; rfl
    | @step instant reached ih =>
        intro within
        have after : t + 1 ≤ instant := reached
        have same := ih (by omega)
        rw [startsBefore, same]
        have nothing : work.chosen (work.startsBy t) instant = [] := by
          by_contra some
          obtain ⟨item, member⟩ := List.exists_mem_of_ne_nil _ some
          obtain ⟨known, waits⟩ := mem_of_mem_chosen member
          obtain ⟨released, unstarted, inTime⟩ := waiting_iff.mp waits
          -- the item waited at `t` already, so all slots were taken there
          have full : ¬ work.busy (work.startsBy t) t < work.slots := by
            intro free
            have idle := not_waiting_of_busy_lt free known
            have early : work.release item ≤ t := by
              rcases noRelease item known with early | late
              · exact early
              · omega
            have waited := waiting_iff.mpr ⟨early, unstarted,
              show t + work.estimate item < work.latest item by omega⟩
            rw [startsBy, startsBefore, idle] at waited
            contradiction
          -- and they still are
          have still : work.busy (work.startsBy t) t ≤ work.busy (work.startsBy t) instant := by
            apply List.countP_mono_left
            intro other present runs
            obtain ⟨began, started, begun, lasts⟩ := running_iff.mp runs
            have ends := noFinish other present began started
            exact running_iff.mpr ⟨began, started, by omega, by omega⟩
          have room := List.length_pos_of_mem member
          rw [length_chosen] at room
          omega
        funext item
        exact dispatch_of_notMem (by rw [nothing]; exact List.not_mem_nil)
  exact quiet later order (le_refl later)

end Runs

section Causality

/-- Two demands that cannot be told apart by what has happened up to an
instant: the same items were released, and their service times differ at most
where neither schedule has completed the item. -/
structure AgreeUpTo (first second : Demand κ β) (t : Nat) : Prop where
  slots : first.slots = second.slots
  released : ∀ item, item ∈ first.items ∧ first.release item ≤ t ↔
    item ∈ second.items ∧ second.release item ≤ t
  release : ∀ item ∈ first.items, first.release item ≤ t →
    first.release item = second.release item
  latest : ∀ item ∈ first.items, first.release item ≤ t →
    first.latest item = second.latest item
  estimate : ∀ item ∈ first.items, first.release item ≤ t →
    first.estimate item = second.estimate item
  rank : ∀ item ∈ first.items, first.release item ≤ t →
    ∀ instant, first.rank instant item = second.rank instant item
  service : ∀ item ∈ first.items, first.release item ≤ t →
    first.service item = second.service item ∨
      ∀ began, (first.finalStart item = some began → t < began + first.service item) ∧
        (second.finalStart item = some began → t < began + second.service item)

variable {first second : Demand κ β} {t instant : Nat} {item : κ}

/-- With the same starts, the same items run. -/
theorem AgreeUpTo.running_iff (agree : AgreeUpTo first second t)
    (same : first.startsBefore instant = second.startsBefore instant) (order : instant ≤ t) :
    item ∈ first.items ∧ first.running (first.startsBefore instant) instant item = true ↔
      item ∈ second.items ∧ second.running (second.startsBefore instant) instant item = true := by
  have lasts : ∀ began, first.startsBefore instant item = some began →
      (instant < began + first.service item ↔ instant < began + second.service item) := by
    intro began started
    obtain ⟨known, earlier, released, _⟩ := startsBefore_spec started
    rcases agree.service item known (by omega) with equal | unobserved
    · rw [equal]
    · have mine := startsBy_of_started started (show began ≤ instant by omega)
      have other := startsBy_of_started (same ▸ started) (show began ≤ instant by omega)
      have := (unobserved began).1 (startsBy_eq_some_iff.mp mine).1
      have := (unobserved began).2 (startsBy_eq_some_iff.mp other).1
      omega
  rw [Demand.running_iff, Demand.running_iff]
  constructor
  · rintro ⟨_, began, started, begun, runs⟩
    have theirs : second.startsBefore instant item = some began := same ▸ started
    exact ⟨(startsBefore_spec theirs).1, began, theirs, begun, (lasts began started).mp runs⟩
  · rintro ⟨_, began, started, begun, runs⟩
    have mine : first.startsBefore instant item = some began := same ▸ started
    exact ⟨(startsBefore_spec mine).1, began, mine, begun, (lasts began mine).mpr runs⟩

/-- With the same starts, the same items wait. -/
theorem AgreeUpTo.waiting_iff (agree : AgreeUpTo first second t)
    (same : first.startsBefore instant = second.startsBefore instant) (order : instant ≤ t) :
    item ∈ first.items ∧ first.waiting (first.startsBefore instant) instant item = true ↔
      item ∈ second.items ∧ second.waiting (second.startsBefore instant) instant item = true := by
  rw [Demand.waiting_iff, Demand.waiting_iff, same]
  constructor
  · rintro ⟨known, released, unstarted, inTime⟩
    have early : first.release item ≤ t := by omega
    rw [← agree.release item known early, ← agree.latest item known early,
      ← agree.estimate item known early]
    exact ⟨((agree.released item).mp ⟨known, early⟩).1, released, unstarted, inTime⟩
  · rintro ⟨known, released, unstarted, inTime⟩
    obtain ⟨mine, early⟩ := (agree.released item).mpr ⟨known, by omega⟩
    rw [agree.release item mine early, agree.latest item mine early,
      agree.estimate item mine early]
    exact ⟨mine, released, unstarted, inTime⟩

/-- With the same starts, the same choice is made. -/
theorem AgreeUpTo.chosen_eq (agree : AgreeUpTo first second t)
    (same : first.startsBefore instant = second.startsBefore instant) (order : instant ≤ t) :
    first.chosen (first.startsBefore instant) instant =
      second.chosen (second.startsBefore instant) instant := by
  have busy : first.busy (first.startsBefore instant) instant =
      second.busy (second.startsBefore instant) instant := by
    unfold Demand.busy
    rw [List.countP_eq_length_filter, List.countP_eq_length_filter]
    apply List.Perm.length_eq
    rw [List.perm_ext_iff_of_nodup (first.distinct.filter _) (second.distinct.filter _)]
    intro item
    rw [List.mem_filter, List.mem_filter]
    exact agree.running_iff same order
  have perm : (first.items.filter (first.waiting (first.startsBefore instant) instant)).Perm
      (second.items.filter (second.waiting (second.startsBefore instant) instant)) := by
    rw [List.perm_ext_iff_of_nodup (first.distinct.filter _) (second.distinct.filter _)]
    intro item
    rw [List.mem_filter, List.mem_filter]
    exact agree.waiting_iff same order
  have sorted := List.pairwise_insertionSort (first.rankLE instant)
    (first.items.filter (first.waiting (first.startsBefore instant) instant))
  have permSorted := List.perm_insertionSort (first.rankLE instant)
    (first.items.filter (first.waiting (first.startsBefore instant) instant))
  unfold Demand.chosen
  rw [busy, agree.slots, ← eq_sorted_of_perm (permSorted.trans perm)]
  apply sorted.imp_of_mem
  intro one other oneMember otherMember ordered
  have ranked : ∀ item, item ∈ (first.items.filter
      (first.waiting (first.startsBefore instant) instant)).insertionSort
        (first.rankLE instant) → first.rank instant item = second.rank instant item := by
    intro item member
    obtain ⟨known, waits⟩ := List.mem_filter.mp (permSorted.mem_iff.mp member)
    exact agree.rank item known (by have := (Demand.waiting_iff.mp waits).1; omega) instant
  unfold rankLE at ordered ⊢
  rw [← ranked one oneMember, ← ranked other otherMember]
  exact ordered

/-- What is started up to an instant depends only on what can be observed by
then. -/
theorem AgreeUpTo.startsBefore_eq (agree : AgreeUpTo first second t) (order : instant ≤ t + 1) :
    first.startsBefore instant = second.startsBefore instant := by
  induction instant with
  | zero => rfl
  | succ instant ih =>
      have same := ih (by omega)
      funext item
      simp only [startsBefore, dispatch]
      rw [agree.chosen_eq same (by omega), same]

theorem AgreeUpTo.finalStart_iff (agree : AgreeUpTo first second t) {began : Nat}
    (order : began ≤ t) :
    first.finalStart item = some began ↔ second.finalStart item = some began := by
  have same := agree.startsBefore_eq (le_refl (t + 1))
  constructor
  · intro started
    have mine : first.startsBy t item = some began := startsBy_eq_some_iff.mpr ⟨started, order⟩
    rw [startsBy, same] at mine
    exact (startsBy_eq_some_iff.mp mine).1
  · intro started
    have theirs : second.startsBy t item = some began :=
      startsBy_eq_some_iff.mpr ⟨started, order⟩
    rw [startsBy, ← same] at theirs
    exact (startsBy_eq_some_iff.mp theirs).1

end Causality

end Demand

end Greedy
