import AgminaRuntime.DurableLogic

/-!
# What every part of a program keeps

A relation between states that holds of a state and itself, and composes, holds
between the start and the end of a program when each of its parts keeps it.
Nothing about the start is assumed, so these rules need no invariant.

`Emits` is the same for the commits of a program alone.  `rounds` lists the
rounds of a loop, each with the states its body begins in.
-/

namespace Durable

namespace Program

variable {δ μ ε α β : Type}

/-- A relation between states that a sequence of steps keeps when each step does. -/
structure Cumulative (relation : δ × μ → δ × μ → Prop) : Prop where
  refl : ∀ state, relation state state
  trans : ∀ {first second third}, relation first second → relation second third →
    relation first third

/-- Every execution keeps the relation, however it ends. -/
def Within (relation : δ × μ → δ × μ → Prop) (program : Program δ μ ε α) : Prop :=
  ∀ start memory, wp program (fun _ _ => True)
    (fun _ after next => relation (start, memory) (after, next))
    (fun _ after next => relation (start, memory) (after, next)) start memory

variable {relation : δ × μ → δ × μ → Prop} {program : Program δ μ ε α}

theorem Within.mono {weaker : δ × μ → δ × μ → Prop} (within : Within relation program)
    (weakens : ∀ first second, relation first second → weaker first second) :
    Within weaker program :=
  fun start memory => wp_post (within start memory) (fun _ _ _ kept => weakens _ _ kept)
    (fun _ _ _ kept => weakens _ _ kept)

/-- What is kept holds of the states of a postcondition. -/
theorem Within.wp (within : Within relation program) {guarantee : δ → δ → Prop}
    {normal : α → δ → μ → Prop} {raised : ε → δ → μ → Prop} {start : δ} {memory : μ}
    (meets : wp program guarantee normal raised start memory) :
    wp program guarantee
      (fun value after next => normal value after next ∧ relation (start, memory) (after, next))
      (fun exception after next =>
        raised exception after next ∧ relation (start, memory) (after, next))
      start memory :=
  wp_mono (wp_and meets (within start memory)) (fun _ _ both => both.1) (fun _ _ _ both => both)
    (fun _ _ _ both => both)

/-- What is kept relates the start to what the execution leaves. -/
theorem Within.ends (within : Within relation program) (start : δ) (memory : μ) :
    relation (start, memory)
      ((program start memory).durable start, (program start memory).volatile) := by
  have ended := (within start memory).2
  split at ended <;> exact ended

/-- The states of a postcondition are those that the execution leaves. -/
theorem wp_exact {guarantee : δ → δ → Prop} {normal : α → δ → μ → Prop}
    {raised : ε → δ → μ → Prop} {start : δ} {memory : μ}
    (meets : Program.wp program guarantee normal raised start memory) :
    Program.wp program guarantee
      (fun value after next => normal value after next ∧
        (program start memory).value = .ok value ∧ (program start memory).durable start = after ∧
          (program start memory).volatile = next)
      raised start memory := by
  have ended := meets.2
  refine ⟨meets.1, ?_⟩
  cases valueEq : (program start memory).value with
  | ok value =>
      simp only [valueEq, and_true] at ended ⊢
      exact ended
  | error exception =>
      simp only [valueEq] at ended
      exact ended

/-- What every commit preserves holds in the end. -/
theorem wp_preserves (property : δ → Prop) {guarantee : δ → δ → Prop}
    {normal : α → δ → μ → Prop} {raised : ε → δ → μ → Prop} {start : δ} {memory : μ}
    (preserved : ∀ before after, guarantee before after → property before → property after)
    (holds : property start)
    (meets : Program.wp program guarantee normal raised start memory) :
    Program.wp program guarantee
      (fun value after next => normal value after next ∧ property after)
      (fun exception after next => raised exception after next ∧ property after)
      start memory := by
  have kept := isChain_preserves property preserved meets.1 holds _
    (durable_mem (program start memory) start)
  have ended := meets.2
  refine ⟨meets.1, ?_⟩
  cases valueEq : (program start memory).value <;>
    simp only [valueEq] at ended ⊢ <;>
    exact ⟨ended, kept⟩

/-- What every commit preserves holds before each of them. -/
theorem wp_guarded (property : δ → Prop) {guarantee : δ → δ → Prop}
    {normal : α → δ → μ → Prop} {raised : ε → δ → μ → Prop} {start : δ} {memory : μ}
    (preserved : ∀ before after, guarantee before after → property before → property after)
    (holds : property start)
    (meets : Program.wp program guarantee normal raised start memory) :
    Program.wp program (fun before after => property before ∧ guarantee before after) normal raised
      start memory := by
  have kept := isChain_preserves property preserved meets.1 holds
  refine ⟨?_, meets.2⟩
  exact List.IsChain.imp_of_mem_imp (fun before _ member _ step => ⟨kept before member, step⟩) meets.1

section Rules

variable (cumulative : Cumulative relation)
include cumulative

theorem within_pure (value : α) : Within relation (pure value : Program δ μ ε α) :=
  fun _ _ => (wp_pure value).mpr (cumulative.refl _)

theorem within_raise (exception : ε) : Within relation (raise exception : Program δ μ ε α) :=
  fun _ _ => (wp_raise exception).mpr (cumulative.refl _)

theorem within_ofExcept (result : Except ε α) :
    Within relation (ofExcept result : Program δ μ ε α) := by
  intro start memory
  rw [wp_ofExcept]
  cases result <;> exact cumulative.refl _

theorem within_readDurable : Within relation (readDurable : Program δ μ ε δ) :=
  fun _ _ => wp_readDurable.mpr (cumulative.refl _)

theorem within_readVolatile : Within relation (readVolatile : Program δ μ ε μ) :=
  fun _ _ => wp_readVolatile.mpr (cumulative.refl _)

theorem within_transaction {body : δ → Except ε δ}
    (kept : ∀ start next memory, body start = .ok next →
      relation (start, memory) (next, memory)) :
    Within relation (transaction body : Program δ μ ε Unit) := by
  intro start memory
  rw [wp_transaction]
  cases bodyEq : body start with
  | ok next => exact ⟨trivial, kept start next memory bodyEq⟩
  | error exception => exact cumulative.refl _

theorem within_bind {first : Program δ μ ε β} {next : β → Program δ μ ε α}
    (earlier : Within relation first) (later : ∀ value, Within relation (next value)) :
    Within relation (first >>= next) := by
  intro start memory
  apply (wp_bind first next).mpr
  apply wp_post (earlier start memory) _ (fun _ _ _ kept => kept)
  intro value middle volatile kept
  exact wp_post (later value middle volatile) (fun _ _ _ rest => cumulative.trans kept rest)
    (fun _ _ _ rest => cumulative.trans kept rest)

theorem within_tryExcept {handler : ε → Program δ μ ε α} (tried : Within relation program)
    (handled : ∀ exception, Within relation (handler exception)) :
    Within relation (tryExcept program handler) := by
  intro start memory
  apply (wp_tryExcept program handler).mpr
  apply wp_post (tried start memory) (fun _ _ _ kept => kept)
  intro exception middle volatile kept
  exact wp_post (handled exception middle volatile) (fun _ _ _ rest => cumulative.trans kept rest)
    (fun _ _ _ rest => cumulative.trans kept rest)

theorem within_forEach {body : β → Program δ μ ε Unit}
    (each : ∀ item, Within relation (body item)) (items : List β) :
    Within relation (forEach items body) := by
  induction items with
  | nil => exact within_pure cumulative ()
  | cons item rest ih => exact within_bind cumulative (each item) fun _ => ih

theorem within_collect {body : β → Program δ μ ε (Option α)}
    (each : ∀ item, Within relation (body item)) (items : List β) :
    Within relation (collect items body) := by
  induction items with
  | nil => exact within_pure cumulative []
  | cons item rest ih =>
      apply within_bind cumulative (each item)
      intro value
      apply within_bind cumulative ih
      exact fun values => within_pure cumulative _

end Rules

theorem within_modifyVolatile {update : μ → μ}
    (kept : ∀ start memory, relation (start, memory) (start, update memory)) :
    Within relation (modifyVolatile update : Program δ μ ε Unit) :=
  fun start memory => (wp_modifyVolatile update).mpr (kept start memory)

theorem within_commit {update : δ → δ}
    (kept : ∀ start memory, relation (start, memory) (update start, memory)) :
    Within relation (commit update : Program δ μ ε Unit) :=
  fun start memory => (wp_commit update).mpr ⟨trivial, kept start memory⟩

theorem within_tryFinally (cumulative : Cumulative relation) {ended : α → Bool}
    {cleanup : μ → μ} (within : Within relation program)
    (kept : ∀ start memory, relation (start, memory) (start, cleanup memory)) :
    Within relation (tryFinally program ended cleanup) := by
  intro start memory
  apply (wp_tryFinally program ended cleanup).mpr
  apply wp_post (within start memory)
  · intro value after next earlier
    split
    · exact cumulative.trans earlier (kept after next)
    · exact earlier
  · intro exception after next earlier
    exact cumulative.trans earlier (kept after next)

/-! ## What every commit does -/

/-- Every commit is a `guarantee` step, however the execution ends. -/
def Emits (guarantee : δ → δ → Prop) (program : Program δ μ ε α) : Prop :=
  ∀ start memory, wp program guarantee (fun _ _ _ => True) (fun _ _ _ => True) start memory

section Emitting

variable {guarantee : δ → δ → Prop}

theorem Emits.mono {weaker : δ → δ → Prop} (emits : Emits guarantee program)
    (weakens : ∀ before after, guarantee before after → weaker before after) :
    Emits weaker program :=
  fun start memory => wp_mono (emits start memory) weakens (fun _ _ _ ended => ended)
    (fun _ _ _ ended => ended)

theorem emits_pure (value : α) : Emits guarantee (pure value : Program δ μ ε α) :=
  fun _ _ => (wp_pure value).mpr trivial

theorem emits_raise (exception : ε) : Emits guarantee (raise exception : Program δ μ ε α) :=
  fun _ _ => (wp_raise exception).mpr trivial

theorem emits_ofExcept (result : Except ε α) :
    Emits guarantee (ofExcept result : Program δ μ ε α) := by
  intro start memory
  rw [wp_ofExcept]
  cases result <;> trivial

theorem emits_readDurable : Emits guarantee (readDurable : Program δ μ ε δ) :=
  fun _ _ => wp_readDurable.mpr trivial

theorem emits_readVolatile : Emits guarantee (readVolatile : Program δ μ ε μ) :=
  fun _ _ => wp_readVolatile.mpr trivial

theorem emits_modifyVolatile (update : μ → μ) :
    Emits guarantee (modifyVolatile update : Program δ μ ε Unit) :=
  fun _ _ => (wp_modifyVolatile update).mpr trivial

theorem emits_commit {update : δ → δ} (kept : ∀ start, guarantee start (update start)) :
    Emits guarantee (commit update : Program δ μ ε Unit) :=
  fun start _ => (wp_commit update).mpr ⟨kept start, trivial⟩

theorem emits_transaction {body : δ → Except ε δ}
    (kept : ∀ start next, body start = .ok next → guarantee start next) :
    Emits guarantee (transaction body : Program δ μ ε Unit) := by
  intro start memory
  rw [wp_transaction]
  cases bodyEq : body start with
  | ok next => exact ⟨kept start next bodyEq, trivial⟩
  | error exception => trivial

theorem emits_bind {first : Program δ μ ε β} {next : β → Program δ μ ε α}
    (earlier : Emits guarantee first) (later : ∀ value, Emits guarantee (next value)) :
    Emits guarantee (first >>= next) :=
  fun start memory => (wp_bind first next).mpr
    (wp_post (earlier start memory) (fun value after volatile _ => later value after volatile)
      fun _ _ _ ended => ended)

theorem emits_tryExcept {handler : ε → Program δ μ ε α} (tried : Emits guarantee program)
    (handled : ∀ exception, Emits guarantee (handler exception)) :
    Emits guarantee (tryExcept program handler) :=
  fun start memory => (wp_tryExcept program handler).mpr
    (wp_post (tried start memory) (fun _ _ _ ended => ended)
      fun exception after volatile _ => handled exception after volatile)

theorem emits_tryFinally {ended : α → Bool} {cleanup : μ → μ} (emits : Emits guarantee program) :
    Emits guarantee (tryFinally program ended cleanup) := by
  intro start memory
  apply (wp_tryFinally program ended cleanup).mpr
  exact wp_post (emits start memory) (fun _ _ _ _ => trivial) (fun _ _ _ _ => trivial)

theorem emits_forEach {body : β → Program δ μ ε Unit}
    (each : ∀ item, Emits guarantee (body item)) (items : List β) :
    Emits guarantee (forEach items body) := by
  induction items with
  | nil => exact emits_pure ()
  | cons item rest ih => exact emits_bind (each item) fun _ => ih

theorem emits_collect {body : β → Program δ μ ε (Option α)}
    (each : ∀ item, Emits guarantee (body item)) (items : List β) :
    Emits guarantee (collect items body) := by
  induction items with
  | nil => exact emits_pure []
  | cons item rest ih =>
      exact emits_bind (each item) fun _ => emits_bind ih fun _ => emits_pure _

end Emitting

/-! ## The rounds of a loop -/

/-- Binding is associative. -/
theorem bind_assoc {γ : Type} (first : Program δ μ ε α) (second : α → Program δ μ ε β)
    (third : β → Program δ μ ε γ) :
    first >>= second >>= third = first >>= fun value => second value >>= third := by
  funext start memory
  simp only [bind, Program.bind, Outcome.durable]
  cases first start memory with
  | mk value volatile commits =>
      cases value with
      | error exception => rfl
      | ok value =>
          dsimp only
          cases second value (commits.getLast?.getD start) volatile with
          | mk value volatile later =>
              cases value with
              | error exception => rfl
              | ok value =>
                  have last : (commits ++ later).getLast?.getD start =
                      later.getLast?.getD (commits.getLast?.getD start) := by
                    rw [List.getLast?_append]
                    cases later.getLast? <;> simp
                  simp only [last, List.append_assoc]

/-- One round of a loop: its item, and the states in which its body begins. -/
structure Round (δ μ β : Type) where
  item : β
  durable : δ
  volatile : μ

/-- The rounds of a loop up to the first one that raises. -/
def rounds (body : β → Program δ μ ε Unit) : List β → δ → μ → List (Round δ μ β)
  | [], _, _ => []
  | item :: rest, start, memory =>
      let outcome := body item start memory
      ⟨item, start, memory⟩ ::
        match outcome.value with
        | .ok _ => rounds body rest (outcome.durable start) outcome.volatile
        | .error _ => []

/-- A loop runs round after round: `taken` relates the rounds to come, the states
they begin in and the states that the loop ends in. -/
theorem wp_rounds {body : β → Program δ μ ε Unit} {guarantee : δ → δ → Prop}
    {raised : ε → δ → μ → Prop} (invariant : List β → δ → μ → Prop)
    (taken : List β → δ × μ → List (Round δ μ β) → δ × μ → Prop)
    (nil : ∀ state, taken [] state [] state)
    (cons : ∀ item rest start memory, invariant (item :: rest) start memory →
      wp (body item) guarantee
        (fun _ middle volatile => invariant rest middle volatile ∧
          ∀ turns finish, taken rest (middle, volatile) turns finish →
            taken (item :: rest) (start, memory) (⟨item, start, memory⟩ :: turns) finish)
        raised start memory)
    {items : List β} {start : δ} {memory : μ} (initially : invariant items start memory) :
    wp (forEach items body) guarantee
      (fun _ after next => invariant [] after next ∧
        taken items (start, memory) (rounds body items start memory) (after, next))
      raised start memory := by
  induction items generalizing start memory with
  | nil => exact (wp_pure ()).mpr ⟨initially, nil _⟩
  | cons item rest ih =>
      apply (wp_bind (body item) fun _ => forEach rest body).mpr
      apply wp_post (wp_exact (cons item rest start memory initially)) _
        (fun _ _ _ failed => failed)
      rintro value middle volatile ⟨⟨kept, extend⟩, valueEq, rfl, rfl⟩
      have unfolded : rounds body (item :: rest) start memory = ⟨item, start, memory⟩ ::
          rounds body rest ((body item start memory).durable start)
            (body item start memory).volatile := by
        simp only [rounds, valueEq]
      rw [unfolded]
      exact wp_post (ih kept) (fun _ after next kept => ⟨kept.1, extend _ _ kept.2⟩)
        (fun _ _ _ failed => failed)

end Program

end Durable
