import AgminaRuntime.DurableProgram

/-!
# A crash-aware program logic

`wp` is the weakest precondition of a program.  Besides the two
postconditions, for a returned value and for a raised exception, it carries a
guarantee: a relation that every committed transaction must satisfy.  A crash
can only leave a state on that chain of commits, so what the guarantee
preserves holds after a crash as well.
-/

namespace Durable

namespace Program

variable {δ μ ε α β : Type}
  {guarantee : δ → δ → Prop} {normal : α → δ → μ → Prop} {raised : ε → δ → μ → Prop}
  {start : δ} {memory : μ}

/-- Every commit is a `guarantee` step, and the execution ends in `normal` or
`raised`. -/
def wp (program : Program δ μ ε α) (guarantee : δ → δ → Prop)
    (normal : α → δ → μ → Prop) (raised : ε → δ → μ → Prop)
    (start : δ) (memory : μ) : Prop :=
  List.IsChain guarantee (start :: (program start memory).commits) ∧
    match (program start memory).value with
    | .ok value =>
        normal value ((program start memory).durable start) (program start memory).volatile
    | .error exception =>
        raised exception ((program start memory).durable start) (program start memory).volatile

/-- The program returns, and what it leaves meets a postcondition. -/
abbrev Returns (program : Program δ μ ε α) (normal : α → δ → μ → Prop) (start : δ)
    (memory : μ) : Prop :=
  wp program (fun _ _ => True) normal (fun _ _ _ => False) start memory

/-! ## Chains of commits -/

theorem isChain_append_commits (first rest : List δ) (start : δ) :
    List.IsChain guarantee (start :: (first ++ rest)) ↔
      List.IsChain guarantee (start :: first) ∧
        List.IsChain guarantee (first.getLast?.getD start :: rest) := by
  induction first generalizing start with
  | nil => simp
  | cons next first ih =>
      have lastEq : (next :: first).getLast?.getD start = first.getLast?.getD next := by
        cases first <;> simp [List.getLast?_cons]
      rw [lastEq]
      simp only [List.cons_append, List.isChain_cons_cons, ih]
      tauto

theorem isChain_and {guarantee' : δ → δ → Prop} {commits : List δ}
    (first : List.IsChain guarantee commits) (second : List.IsChain guarantee' commits) :
    List.IsChain (fun before after => guarantee before after ∧ guarantee' before after)
      commits := by
  induction first with
  | nil => exact .nil
  | singleton state => exact .singleton state
  | cons_cons step _ ih =>
      rw [List.isChain_cons_cons] at second
      exact .cons_cons ⟨step, second.1⟩ (ih second.2)

/-- A property that every guaranteed step preserves holds of all commits. -/
theorem isChain_preserves (property : δ → Prop)
    (preserved : ∀ before after, guarantee before after → property before → property after)
    {start : δ} {commits : List δ} (chain : List.IsChain guarantee (start :: commits))
    (holds : property start) : ∀ state ∈ start :: commits, property state := by
  induction commits generalizing start with
  | nil => simpa using holds
  | cons next commits ih =>
      rw [List.isChain_cons_cons] at chain
      intro state member
      rcases List.mem_cons.mp member with rfl | later
      · exact holds
      · exact ih chain.2 (preserved _ _ chain.1 holds) state later

/-- A preorder that contains every guaranteed step relates the start to all
commits. -/
theorem isChain_relates (relation : δ → δ → Prop)
    (refl : ∀ state, relation state state)
    (extend : ∀ first middle last, relation first middle → guarantee middle last →
      relation first last)
    {start : δ} {commits : List δ} (chain : List.IsChain guarantee (start :: commits)) :
    ∀ state ∈ start :: commits, relation start state := by
  have general : ∀ (current : δ) (rest : List δ),
      List.IsChain guarantee (current :: rest) → relation start current →
        ∀ state ∈ current :: rest, relation start state := by
    intro current rest
    induction rest generalizing current with
    | nil =>
        intro _ related state member
        rw [List.mem_singleton.mp member]
        exact related
    | cons next rest ih =>
        intro chain related state member
        rw [List.isChain_cons_cons] at chain
        rcases List.mem_cons.mp member with rfl | later
        · exact related
        · exact ih next chain.2 (extend _ _ _ related chain.1) state later
  exact general start commits chain (refl start)

theorem isChain_take {start : δ} {commits : List δ}
    (chain : List.IsChain guarantee (start :: commits)) (count : Nat) :
    List.IsChain guarantee (start :: commits.take count) := by
  rw [← List.take_append_drop count commits, isChain_append_commits] at chain
  exact chain.1

theorem last_mem (commits : List δ) (start : δ) :
    commits.getLast?.getD start ∈ start :: commits := by
  cases lastEq : commits.getLast? with
  | none => simp
  | some state => simpa using Or.inr (List.mem_of_getLast? lastEq)

/-- What every guaranteed step preserves and some commit has, the last one has. -/
theorem isChain_last (property : δ → Prop)
    (preserved : ∀ before after, guarantee before after → property before → property after)
    {start : δ} {commits : List δ} (chain : List.IsChain guarantee (start :: commits))
    {state : δ} (member : state ∈ start :: commits) (holds : property state) :
    property (commits.getLast?.getD start) := by
  induction commits generalizing start with
  | nil => rwa [← List.mem_singleton.mp member]
  | cons next commits ih =>
      have lastEq : (next :: commits).getLast?.getD start = commits.getLast?.getD next := by
        cases commits <;> simp [List.getLast?_cons]
      rw [lastEq]
      rcases List.mem_cons.mp member with rfl | later
      · exact isChain_preserves property preserved chain holds _
          (List.mem_cons_of_mem _ (last_mem _ _))
      · exact ih (List.isChain_cons_cons.mp chain).2 later

theorem durable_mem (outcome : Outcome δ μ ε α) (start : δ) :
    outcome.durable start ∈ start :: outcome.commits :=
  last_mem outcome.commits start

/-- What an execution leaves however it ends. -/
theorem durable_of_wp (property : δ → Prop) {program : Program δ μ ε α} {start : δ} {memory : μ}
    (meets : wp program guarantee (fun _ after _ => property after)
      (fun _ after _ => property after) start memory) :
    property ((program start memory).durable start) := by
  have ended := meets.2
  split at ended <;> exact ended

/-! ## One rule for each way to build a program -/

@[simp]
theorem wp_pure (value : α) :
    wp (pure value : Program δ μ ε α) guarantee normal raised start memory ↔
      normal value start memory := by
  simp [wp, pure, Program.pure, Outcome.durable]

@[simp]
theorem wp_raise (exception : ε) :
    wp (raise exception : Program δ μ ε α) guarantee normal raised start memory ↔
      raised exception start memory := by
  simp [wp, raise, Outcome.durable]

@[simp]
theorem wp_bind (first : Program δ μ ε β) (next : β → Program δ μ ε α) :
    wp (first >>= next) guarantee normal raised start memory ↔
      wp first guarantee
        (fun value => wp (next value) guarantee normal raised) raised start memory := by
  simp only [wp, bind, Program.bind, Outcome.durable]
  cases first start memory with
  | mk value volatile commits =>
      cases value with
      | error exception => simp
      | ok value => simp [isChain_append_commits, and_assoc]

theorem wp_ofExcept (result : Except ε α) :
    wp (ofExcept result : Program δ μ ε α) guarantee normal raised start memory ↔
      match result with
      | .ok value => normal value start memory
      | .error exception => raised exception start memory := by
  simp only [wp, ofExcept, Outcome.durable]
  cases result <;> simp

@[simp]
theorem wp_readDurable {normal : δ → δ → μ → Prop} :
    wp (readDurable : Program δ μ ε δ) guarantee normal raised start memory ↔
      normal start start memory := by
  simp [wp, readDurable, Outcome.durable]

@[simp]
theorem wp_readVolatile {normal : μ → δ → μ → Prop} :
    wp (readVolatile : Program δ μ ε μ) guarantee normal raised start memory ↔
      normal memory start memory := by
  simp [wp, readVolatile, Outcome.durable]

@[simp]
theorem wp_modifyVolatile (update : μ → μ) {normal : Unit → δ → μ → Prop} :
    wp (modifyVolatile update : Program δ μ ε Unit) guarantee normal raised start memory ↔
      normal () start (update memory) := by
  simp [wp, modifyVolatile, Outcome.durable]

theorem wp_transaction (body : δ → Except ε δ) {normal : Unit → δ → μ → Prop} :
    wp (transaction body : Program δ μ ε Unit) guarantee normal raised start memory ↔
      match body start with
      | .ok next => guarantee start next ∧ normal () next memory
      | .error exception => raised exception start memory := by
  simp only [wp, transaction, Outcome.durable]
  cases body start <;> simp

@[simp]
theorem wp_commit (update : δ → δ) {normal : Unit → δ → μ → Prop} :
    wp (commit update : Program δ μ ε Unit) guarantee normal raised start memory ↔
      guarantee start (update start) ∧ normal () (update start) memory := by
  rw [commit, wp_transaction]

@[simp]
theorem wp_tryExcept (body : Program δ μ ε α) (handler : ε → Program δ μ ε α) :
    wp (tryExcept body handler) guarantee normal raised start memory ↔
      wp body guarantee normal
        (fun exception => wp (handler exception) guarantee normal raised) start memory := by
  simp only [wp, tryExcept, Outcome.durable]
  cases body start memory with
  | mk value volatile commits =>
      cases value with
      | ok value => simp
      | error exception => simp [isChain_append_commits, and_assoc]

@[simp]
theorem wp_tryFinally (body : Program δ μ ε α) (ended : α → Bool) (cleanup : μ → μ) :
    wp (tryFinally body ended cleanup) guarantee normal raised start memory ↔
      wp body guarantee
        (fun value durable volatile =>
          normal value durable (if ended value then cleanup volatile else volatile))
        (fun exception durable volatile => raised exception durable (cleanup volatile))
        start memory := by
  simp only [wp, tryFinally, Outcome.durable]
  cases body start memory with
  | mk value volatile commits => cases value <;> simp

theorem wp_ite (condition : Prop) [Decidable condition] (yes no : Program δ μ ε α) :
    wp (if condition then yes else no) guarantee normal raised start memory ↔
      if condition then wp yes guarantee normal raised start memory
      else wp no guarantee normal raised start memory := by
  split <;> rfl

/-! ## Consequence and conjunction -/

theorem wp_mono {program : Program δ μ ε α} {stronger : δ → δ → Prop}
    {normal' : α → δ → μ → Prop} {raised' : ε → δ → μ → Prop}
    (meets : wp program stronger normal' raised' start memory)
    (steps : ∀ before after, stronger before after → guarantee before after)
    (returns : ∀ value durable volatile, normal' value durable volatile →
      normal value durable volatile)
    (raises : ∀ exception durable volatile, raised' exception durable volatile →
      raised exception durable volatile) :
    wp program guarantee normal raised start memory := by
  refine ⟨meets.1.imp steps, ?_⟩
  have post := meets.2
  cases valueEq : (program start memory).value with
  | ok value =>
      rw [valueEq] at post
      exact returns _ _ _ post
  | error exception =>
      rw [valueEq] at post
      exact raises _ _ _ post

/-- Weaken the postconditions only. -/
theorem wp_post {program : Program δ μ ε α}
    {normal' : α → δ → μ → Prop} {raised' : ε → δ → μ → Prop}
    (meets : wp program guarantee normal' raised' start memory)
    (returns : ∀ value durable volatile, normal' value durable volatile →
      normal value durable volatile)
    (raises : ∀ exception durable volatile, raised' exception durable volatile →
      raised exception durable volatile) :
    wp program guarantee normal raised start memory :=
  wp_mono meets (fun _ _ step => step) returns raises

theorem wp_and {program : Program δ μ ε α} {guarantee' : δ → δ → Prop}
    {normal' : α → δ → μ → Prop} {raised' : ε → δ → μ → Prop}
    (first : wp program guarantee normal raised start memory)
    (second : wp program guarantee' normal' raised' start memory) :
    wp program (fun before after => guarantee before after ∧ guarantee' before after)
      (fun value durable volatile =>
        normal value durable volatile ∧ normal' value durable volatile)
      (fun exception durable volatile =>
        raised exception durable volatile ∧ raised' exception durable volatile)
      start memory := by
  refine ⟨isChain_and first.1 second.1, ?_⟩
  have firstPost := first.2
  have secondPost := second.2
  cases valueEq : (program start memory).value <;>
    simp only [valueEq] at firstPost secondPost ⊢ <;>
    exact ⟨firstPost, secondPost⟩

/-! ## States on the way -/

/-- Some durable state of the execution, before or after one of its commits, has
the property. -/
def Visits (program : Program δ μ ε α) (start : δ) (memory : μ) (property : δ → Prop) : Prop :=
  ∃ state ∈ start :: (program start memory).commits, property state

/-- A state that an execution visits is one that a cut of it leaves. -/
theorem Visits.cut {program : Program δ μ ε α} {property : δ → Prop}
    (visits : Visits program start memory property) :
    ∃ count, property ((program start memory).cut count start) := by
  obtain ⟨state, member, holds⟩ := visits
  rcases List.mem_cons.mp member with rfl | later
  · exact ⟨0, holds⟩
  · obtain ⟨index, bounded, rfl⟩ := List.mem_iff_getElem.mp later
    refine ⟨index + 1, ?_⟩
    have last : ((program start memory).commits.take (index + 1)).getLast? =
        some ((program start memory).commits[index]) := by
      simp [List.getLast?_take, bounded]
    rw [Outcome.cut, last]
    exact holds

/-- What a cut leaves is a state of the execution. -/
theorem cut_mem (outcome : Outcome δ μ ε α) (count : Nat) (start : δ) :
    outcome.cut count start ∈ start :: outcome.commits := by
  rcases List.mem_cons.mp (last_mem (outcome.commits.take count) start) with same | later
  · rw [Outcome.cut, same]
    exact List.mem_cons_self
  · exact List.mem_cons_of_mem _ (List.mem_of_mem_take later)

theorem visits_commit (update : δ → δ) {property : δ → Prop} (holds : property (update start)) :
    Visits (commit update : Program δ μ ε Unit) start memory property :=
  ⟨update start, by simp [commit, transaction], holds⟩

theorem visits_bind_first {first : Program δ μ ε β} {next : β → Program δ μ ε α}
    {property : δ → Prop} (visits : Visits first start memory property) :
    Visits (first >>= next) start memory property := by
  obtain ⟨state, member, holds⟩ := visits
  refine ⟨state, ?_, holds⟩
  simp only [bind, Program.bind]
  cases (first start memory).value with
  | error exception => exact member
  | ok value =>
      rcases List.mem_cons.mp member with rfl | later
      · exact List.mem_cons_self
      · exact List.mem_cons_of_mem _ (List.mem_append_left _ later)

theorem visits_bind_next {first : Program δ μ ε β} {next : β → Program δ μ ε α}
    {property : δ → Prop}
    (meets : wp first (fun _ _ => True) (fun value durable volatile =>
      Visits (next value) durable volatile property) (fun _ _ _ => False) start memory) :
    Visits (first >>= next) start memory property := by
  have returned := meets.2
  cases valueEq : (first start memory).value with
  | error exception => simp only [valueEq] at returned
  | ok value =>
      simp only [valueEq] at returned
      obtain ⟨state, member, holds⟩ := returned
      refine ⟨state, ?_, holds⟩
      simp only [bind, Program.bind, valueEq]
      rcases List.mem_cons.mp member with rfl | later
      · rcases List.mem_cons.mp (durable_mem (first start memory) start) with same | early
        · rw [same]
          exact List.mem_cons_self
        · exact List.mem_cons_of_mem _ (List.mem_append_left _ early)
      · exact List.mem_cons_of_mem _ (List.mem_append_right _ later)

/-! ## Loops -/

@[simp]
theorem wp_forEach_nil (body : β → Program δ μ ε Unit) {normal : Unit → δ → μ → Prop} :
    wp (forEach [] body) guarantee normal raised start memory ↔ normal () start memory :=
  wp_pure ()

@[simp]
theorem wp_collect_nil (body : β → Program δ μ ε (Option α)) {normal : List α → δ → μ → Prop} :
    wp (collect [] body) guarantee normal raised start memory ↔ normal [] start memory :=
  wp_pure []

/-- A loop keeps an invariant of the items still to come. -/
theorem wp_forEach {body : β → Program δ μ ε Unit} (invariant : List β → δ → μ → Prop)
    (step : ∀ item rest durable volatile, invariant (item :: rest) durable volatile →
      wp (body item) guarantee (fun _ => invariant rest) raised durable volatile)
    {items : List β} (initially : invariant items start memory) :
    wp (forEach items body) guarantee (fun _ => invariant []) raised start memory := by
  induction items generalizing start memory with
  | nil => exact (wp_pure ()).mpr initially
  | cons item rest ih =>
      refine (wp_bind (body item) fun _ => forEach rest body).mpr ?_
      exact wp_post (step item rest start memory initially)
        (fun _ _ _ kept => ih kept) (fun _ _ _ failed => failed)

/-- A loop visits what the round of one of its items visits, when the rounds
before it keep an invariant of the items still to come. -/
theorem visits_forEach {body : β → Program δ μ ε Unit} {property : δ → Prop} {target : β}
    (invariant : List β → δ → μ → Prop)
    (step : ∀ item rest durable volatile, item ≠ target → target ∈ rest →
      invariant (item :: rest) durable volatile →
        wp (body item) (fun _ _ => True) (fun _ => invariant rest) (fun _ _ _ => False)
          durable volatile)
    (round : ∀ rest durable volatile, invariant (target :: rest) durable volatile →
      Visits (body target) durable volatile property)
    {items : List β} (member : target ∈ items) (initially : invariant items start memory) :
    Visits (forEach items body) start memory property := by
  induction items generalizing start memory with
  | nil => simp at member
  | cons item rest ih =>
      show Visits (body item >>= fun _ => forEach rest body) start memory property
      by_cases same : item = target
      · subst same
        exact visits_bind_first (round rest start memory initially)
      · have later : target ∈ rest := by
          rcases List.mem_cons.mp member with rfl | later
          · exact absurd rfl same
          · exact later
        apply visits_bind_next
        exact wp_post (step item rest start memory same later initially)
          (fun _ _ _ kept => ih later kept) (fun _ _ _ failed => failed)

/-- A collecting loop keeps an invariant of the items still to come and of the
values collected so far. -/
theorem wp_collect {body : β → Program δ μ ε (Option α)}
    (invariant : List β → List α → δ → μ → Prop)
    (step : ∀ item rest values durable volatile,
      invariant (item :: rest) values durable volatile →
        wp (body item) guarantee
          (fun value => invariant rest (values ++ value.toList)) raised durable volatile)
    {items : List β} (initially : invariant items [] start memory) :
    wp (collect items body) guarantee (fun values => invariant [] values)
      raised start memory := by
  have general : ∀ (items : List β) (collected : List α) (start : δ) (memory : μ),
      invariant items collected start memory →
        wp (collect items body) guarantee
          (fun values => invariant [] (collected ++ values)) raised start memory := by
    intro items
    induction items with
    | nil =>
        intro collected start memory initially
        refine (wp_pure _).mpr ?_
        simpa using initially
    | cons item rest ih =>
        intro collected start memory initially
        refine (wp_bind (body item) _).mpr ?_
        refine wp_post (step item rest collected start memory initially) ?_
          (fun _ _ _ failed => failed)
        intro value durable volatile kept
        refine (wp_bind (collect rest body) _).mpr ?_
        refine wp_post (ih _ durable volatile kept) ?_ (fun _ _ _ failed => failed)
        intro values durable volatile done
        refine (wp_pure _).mpr ?_
        simpa using done
  simpa using general items [] start memory initially

end Program

end Durable
