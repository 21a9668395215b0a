import Mathlib.Algebra.Order.Ring.Int
import Mathlib.Data.List.Chain

/-!
# Programs over a durable and a volatile state

A process that keeps a database works on two states: the durable one, which
changes only by committed transactions and outlives the process, and the
volatile one, which is lost when the process dies.  A `Program` reads both,
may raise an exception, and records the durable state after each commit, so
that the states a crash can leave behind are exactly the start state and the
recorded ones.
-/

namespace Durable

/-- What an execution leaves: the returned value or the raised exception, the
volatile state, and the durable state after each commit, oldest first. -/
structure Outcome (δ μ ε α : Type) where
  value : Except ε α
  volatile : μ
  commits : List δ

/-- The durable state after an execution that began in `start`. -/
def Outcome.durable {δ μ ε α : Type} (outcome : Outcome δ μ ε α) (start : δ) : δ :=
  outcome.commits.getLast?.getD start

/-- The durable state when the process dies after a number of commits. -/
def Outcome.cut {δ μ ε α : Type} (outcome : Outcome δ μ ε α) (count : Nat) (start : δ) : δ :=
  (outcome.commits.take count).getLast?.getD start

/-- A program over durable states `δ` and volatile states `μ` that may raise an
exception of type `ε`. -/
def Program (δ μ ε α : Type) : Type :=
  δ → μ → Outcome δ μ ε α

namespace Program

variable {δ μ ε α β : Type}

/-- Return a value and change nothing. -/
protected def pure (value : α) : Program δ μ ε α :=
  fun _ memory => ⟨.ok value, memory, []⟩

/-- Raise an exception and change nothing. -/
def raise (exception : ε) : Program δ μ ε α :=
  fun _ memory => ⟨.error exception, memory, []⟩

/-- Run `next` on the value and the states that `first` leaves. -/
protected def bind (first : Program δ μ ε α) (next : α → Program δ μ ε β) :
    Program δ μ ε β :=
  fun start memory =>
    let outcome := first start memory
    match outcome.value with
    | .error exception => ⟨.error exception, outcome.volatile, outcome.commits⟩
    | .ok value =>
        let rest := next value (outcome.durable start) outcome.volatile
        ⟨rest.value, rest.volatile, outcome.commits ++ rest.commits⟩

instance : Monad (Program δ μ ε) where
  pure := Program.pure
  bind := Program.bind

/-- Return the value or raise the exception of a pure computation. -/
def ofExcept (result : Except ε α) : Program δ μ ε α :=
  fun _ memory => ⟨result, memory, []⟩

/-- Read the durable state. -/
def readDurable : Program δ μ ε δ :=
  fun start memory => ⟨.ok start, memory, []⟩

/-- Read the volatile state. -/
def readVolatile : Program δ μ ε μ :=
  fun _ memory => ⟨.ok memory, memory, []⟩

/-- Change the volatile state. -/
def modifyVolatile (update : μ → μ) : Program δ μ ε Unit :=
  fun _ memory => ⟨.ok (), update memory, []⟩

/-- One transaction: when its body raises nothing is committed. -/
def transaction (body : δ → Except ε δ) : Program δ μ ε Unit :=
  fun start memory =>
    match body start with
    | .ok next => ⟨.ok (), memory, [next]⟩
    | .error exception => ⟨.error exception, memory, []⟩

/-- A transaction that cannot raise. -/
def commit (update : δ → δ) : Program δ μ ε Unit :=
  transaction fun start => .ok (update start)

/-- Run `handler` on the exception that `body` raises.  What `body` committed
before it raised stays committed. -/
def tryExcept (body : Program δ μ ε α) (handler : ε → Program δ μ ε α) :
    Program δ μ ε α :=
  fun start memory =>
    let outcome := body start memory
    match outcome.value with
    | .ok value => ⟨.ok value, outcome.volatile, outcome.commits⟩
    | .error exception =>
        let rest := handler exception (outcome.durable start) outcome.volatile
        ⟨rest.value, rest.volatile, outcome.commits ++ rest.commits⟩

/-- Change the volatile state once `body` has ended, by a value that `ended`
accepts or by an exception. -/
def tryFinally (body : Program δ μ ε α) (ended : α → Bool) (cleanup : μ → μ) :
    Program δ μ ε α :=
  fun start memory =>
    let outcome := body start memory
    let finished := match outcome.value with
      | .ok value => ended value
      | .error _ => true
    ⟨outcome.value, if finished then cleanup outcome.volatile else outcome.volatile,
      outcome.commits⟩

/-- Run `body` on each item in turn. -/
def forEach (items : List α) (body : α → Program δ μ ε Unit) : Program δ μ ε Unit :=
  match items with
  | [] => Program.pure ()
  | item :: rest => Program.bind (body item) fun _ => forEach rest body

/-- Run `body` on each item in turn and collect the values it returns. -/
def collect (items : List α) (body : α → Program δ μ ε (Option β)) :
    Program δ μ ε (List β) :=
  match items with
  | [] => Program.pure []
  | item :: rest =>
      Program.bind (body item) fun value =>
        Program.bind (collect rest body) fun values =>
          Program.pure (value.toList ++ values)

/-! ## Programs that begin with a reading -/

section Readings

variable {start : δ} {memory : μ}

theorem readDurable_bind (next : δ → Program δ μ ε α) :
    (readDurable >>= next) start memory = next start start memory := rfl

theorem readVolatile_bind (next : μ → Program δ μ ε α) :
    (readVolatile >>= next) start memory = next memory start memory := rfl

theorem ofExcept_bind (result : Except ε β) (next : β → Program δ μ ε α) :
    (ofExcept result >>= next) start memory =
      match result with
      | .ok value => next value start memory
      | .error exception => ⟨.error exception, memory, []⟩ := by
  cases result <;> rfl

end Readings

end Program

end Durable
