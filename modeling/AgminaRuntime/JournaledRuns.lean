import AgminaRuntime.DurableLogic

/-!
# Runs of a machine with a journal

A machine takes labelled steps and every step appends the durable states it
commits to a journal.  What each step preserves holds along every run, and
what relates each commit to the one before it relates the neighbours in the
journal of the whole run, across crashes and restarts.

A run may be subject to a condition on each of its steps, read in the state
before that step.
-/

namespace Durable

variable {σ ι δ : Type}

/-- The final state of a run and the journal it appends. -/
def runSteps (step : σ → ι → σ × List δ) : σ → List ι → σ × List δ
  | state, [] => (state, [])
  | state, label :: labels =>
      let first := step state label
      let rest := runSteps step first.1 labels
      (rest.1, first.2 ++ rest.2)

/-- Every step of the run meets a condition in the state before it. -/
def StepsMeet (step : σ → ι → σ × List δ) (condition : σ → ι → Prop) :
    σ → List ι → Prop
  | _, [] => True
  | state, label :: labels =>
      condition state label ∧ StepsMeet step condition (step state label).1 labels

variable {step : σ → ι → σ × List δ} {condition : σ → ι → Prop}

instance decidableStepsMeet [∀ state label, Decidable (condition state label)] :
    ∀ state labels, Decidable (StepsMeet step condition state labels)
  | _, [] => .isTrue trivial
  | state, label :: labels =>
      have := decidableStepsMeet (step state label).1 labels
      inferInstanceAs (Decidable (condition state label ∧ StepsMeet step condition _ labels))

theorem stepsMeet_true (state : σ) (labels : List ι) :
    StepsMeet step (fun _ _ => True) state labels := by
  induction labels generalizing state with
  | nil => trivial
  | cons label labels ih => exact ⟨trivial, ih _⟩

theorem stepsMeet_of_forall {labels : List ι}
    (meets : ∀ label ∈ labels, ∀ state, condition state label) (state : σ) :
    StepsMeet step condition state labels := by
  induction labels generalizing state with
  | nil => trivial
  | cons label labels ih =>
      exact ⟨meets label List.mem_cons_self state,
        ih (fun other member => meets other (List.mem_cons_of_mem _ member)) _⟩

theorem runSteps_append (state : σ) (first second : List ι) :
    runSteps step state (first ++ second) =
      ((runSteps step (runSteps step state first).1 second).1,
        (runSteps step state first).2 ++
          (runSteps step (runSteps step state first).1 second).2) := by
  induction first generalizing state with
  | nil => rfl
  | cons label first ih => simp [runSteps, ih]

theorem stepsMeet_append (state : σ) (first second : List ι) :
    StepsMeet step condition state (first ++ second) ↔
      StepsMeet step condition state first ∧
        StepsMeet step condition (runSteps step state first).1 second := by
  induction first generalizing state with
  | nil => simp [StepsMeet, runSteps]
  | cons label first ih => simp [StepsMeet, runSteps, ih, and_assoc]

/-- What every step preserves holds after every run. -/
theorem runSteps_invariant (invariant : σ → Prop)
    (preserved : ∀ state label, condition state label → invariant state →
      invariant (step state label).1)
    {state : σ} {labels : List ι} (meets : StepsMeet step condition state labels)
    (initially : invariant state) : invariant (runSteps step state labels).1 := by
  induction labels generalizing state with
  | nil => exact initially
  | cons label labels ih =>
      exact ih meets.2 (preserved state label meets.1 initially)

/-- What every step has in the states that an invariant allows, every step of a
run has. -/
theorem stepsMeet_of_invariant (invariant : σ → Prop) {property : σ → ι → Prop}
    (preserved : ∀ state label, condition state label → invariant state →
      invariant (step state label).1)
    (yields : ∀ state label, condition state label → invariant state → property state label)
    {state : σ} {labels : List ι} (meets : StepsMeet step condition state labels)
    (initially : invariant state) : StepsMeet step property state labels := by
  induction labels generalizing state with
  | nil => trivial
  | cons label labels ih =>
      exact ⟨yields state label meets.1 initially,
        ih meets.2 (preserved state label meets.1 initially)⟩

/-- What relates the commits of every step relates the neighbours in the
journal of every run. -/
theorem runSteps_chain (invariant : σ → Prop) (durable : σ → δ) {guarantee : δ → δ → Prop}
    (preserved : ∀ state label, condition state label → invariant state →
      invariant (step state label).1)
    (kept : ∀ state label,
      durable (step state label).1 = (step state label).2.getLast?.getD (durable state))
    (chained : ∀ state label, condition state label → invariant state →
      List.IsChain guarantee (durable state :: (step state label).2))
    {state : σ} {labels : List ι} (meets : StepsMeet step condition state labels)
    (initially : invariant state) :
    List.IsChain guarantee (durable state :: (runSteps step state labels).2) := by
  induction labels generalizing state with
  | nil => exact .singleton _
  | cons label labels ih =>
      refine (Program.isChain_append_commits _ _ _).mpr
        ⟨chained state label meets.1 initially, ?_⟩
      rw [← kept]
      exact ih meets.2 (preserved state label meets.1 initially)

/-- What the commits of every step have, the journal of every run has, when an
assumption holds of all of it. -/
theorem runSteps_journal (invariant : σ → Prop) (durable : σ → δ)
    {assumption property : δ → Prop}
    (preserved : ∀ state label, condition state label → invariant state →
      invariant (step state label).1)
    (kept : ∀ state label,
      durable (step state label).1 = (step state label).2.getLast?.getD (durable state))
    (stepped : ∀ state label, condition state label → invariant state →
      (∀ entry ∈ durable state :: (step state label).2, assumption entry) →
        property (durable state) → ∀ entry ∈ (step state label).2, property entry)
    {state : σ} {labels : List ι} (meets : StepsMeet step condition state labels)
    (initially : invariant state)
    (assumed : ∀ entry ∈ durable state :: (runSteps step state labels).2, assumption entry)
    (holds : property (durable state)) :
    ∀ entry ∈ durable state :: (runSteps step state labels).2, property entry := by
  induction labels generalizing state with
  | nil =>
      intro entry member
      rw [List.mem_singleton.mp member]
      exact holds
  | cons label labels ih =>
      simp only [runSteps] at assumed ⊢
      have first : ∀ entry ∈ durable state :: (step state label).2, property entry := by
        refine List.forall_mem_cons.mpr ⟨holds, stepped state label meets.1 initially ?_ holds⟩
        intro entry member
        refine assumed entry ?_
        rcases List.mem_cons.mp member with rfl | later
        · exact List.mem_cons_self
        · exact List.mem_cons_of_mem _ (List.mem_append_left _ later)
      have last : durable (step state label).1 ∈ durable state :: (step state label).2 := by
        rw [kept]
        exact Program.last_mem _ _
      have rest := ih meets.2 (preserved state label meets.1 initially) (by
        intro entry member
        rcases List.mem_cons.mp member with rfl | later
        · refine assumed _ ?_
          rcases List.mem_cons.mp last with same | later
          · rw [same]
            exact List.mem_cons_self
          · exact List.mem_cons_of_mem _ (List.mem_append_left _ later)
        · exact assumed entry (List.mem_cons_of_mem _ (List.mem_append_right _ later)))
        (first _ last)
      intro entry member
      rcases List.mem_cons.mp member with rfl | member
      · exact holds
      · rcases List.mem_append.mp member with early | late
        · exact first entry (List.mem_cons_of_mem _ early)
        · exact rest entry (List.mem_cons_of_mem _ late)

/-- A chain that gains a property gains it between two neighbours. -/
theorem exists_onset (property : δ → Prop) {guarantee : δ → δ → Prop} {start : δ}
    {entries : List δ} (chain : List.IsChain guarantee (start :: entries))
    (without : ¬ property start) {last : δ} (member : last ∈ start :: entries)
    (holds : property last) :
    ∃ before after, [before, after] <:+: start :: entries ∧ guarantee before after ∧
      ¬ property before ∧ property after := by
  induction entries generalizing start with
  | nil =>
      rw [List.mem_singleton.mp member] at holds
      contradiction
  | cons next rest ih =>
      obtain ⟨step, chain⟩ := List.isChain_cons_cons.mp chain
      by_cases gained : property next
      · exact ⟨start, next, ⟨[], rest, rfl⟩, step, without, gained⟩
      · have later : last ∈ next :: rest := by
          rcases List.mem_cons.mp member with rfl | later
          · contradiction
          · exact later
        obtain ⟨before, after, inside, onset⟩ := ih chain gained later
        exact ⟨before, after, inside.trans (List.suffix_cons start _).isInfix, onset⟩

/-- The last entry of the journal is the durable state. -/
theorem runSteps_durable (durable : σ → δ)
    (kept : ∀ state label,
      durable (step state label).1 = (step state label).2.getLast?.getD (durable state))
    (state : σ) (labels : List ι) :
    durable (runSteps step state labels).1 =
      (runSteps step state labels).2.getLast?.getD (durable state) := by
  induction labels generalizing state with
  | nil => rfl
  | cons label labels ih =>
      simp only [runSteps]
      rw [ih, kept, List.getLast?_append]
      cases (runSteps step (step state label).1 labels).2.getLast? <;> rfl

end Durable
