import AgminaRuntime.DurableFrames
import AgminaRuntime.TickRules

/-!
# What a tick never takes back

While a tick runs, no session moves and no quarantine is set or released, the
slot counters only grow, tasks are only added and the clock is only read
further.  Only the start of a task moves the counters.  All of this holds of
every part of the tick, whatever state it begins in.
-/

namespace AgminaRuntime

open Durable Durable.Program Keyed

/-- What the construction of a coordinator has fixed, and whether it is closed. -/
def Coordinator.fixed (self : Coordinator) : RuntimeConfig × Clock × Bool × Bool × List Name :=
  (self.config, self.clock, self.closed, self.allowNetwork, self.backends)

/-- Nothing but the work in flight has moved. -/
structure Proceeds (first second : Ledger × Coordinator) : Prop where
  sessions : second.1.sessions = first.1.sessions
  quarantines : second.1.quarantines = first.1.quarantines
  fixed : second.2.fixed = first.2.fixed
  reads : first.2.reads ≤ second.2.reads
  poolUse : ∀ pool, first.2.poolUse pool ≤ second.2.poolUse pool
  endpointUse : ∀ endpoint, first.2.endpointUse endpoint ≤ second.2.endpointUse endpoint
  running : first.2.running <+: second.2.running

namespace Proceeds

theorem cumulative : Cumulative Proceeds where
  refl := fun _ => ⟨rfl, rfl, rfl, le_rfl, fun _ => le_rfl, fun _ => le_rfl, List.prefix_refl _⟩
  trans := fun early late =>
    { sessions := late.sessions.trans early.sessions
      quarantines := late.quarantines.trans early.quarantines
      fixed := late.fixed.trans early.fixed
      reads := early.reads.trans late.reads
      poolUse := fun pool => (early.poolUse pool).trans (late.poolUse pool)
      endpointUse := fun endpoint => (early.endpointUse endpoint).trans (late.endpointUse endpoint)
      running := early.running.trans late.running }

variable {first second : Ledger × Coordinator}

theorem config (proceeds : Proceeds first second) : second.2.config = first.2.config :=
  congrArg Prod.fst proceeds.fixed

theorem clock (proceeds : Proceeds first second) : second.2.clock = first.2.clock :=
  congrArg (fun fixed => fixed.2.1) proceeds.fixed

theorem closed (proceeds : Proceeds first second) : second.2.closed = first.2.closed :=
  congrArg (fun fixed => fixed.2.2.1) proceeds.fixed

theorem quarantined (proceeds : Proceeds first second) :
    second.1.quarantined = first.1.quarantined := by
  rw [Ledger.quarantined, Ledger.quarantined, proceeds.quarantines]

end Proceeds

/-- Rows may have been written and the clock read, and nothing else has moved. -/
structure Rests (first second : Ledger × Coordinator) : Prop where
  sessions : second.1.sessions = first.1.sessions
  quarantines : second.1.quarantines = first.1.quarantines
  fixed : second.2.fixed = first.2.fixed
  reads : first.2.reads ≤ second.2.reads
  poolUse : second.2.poolUse = first.2.poolUse
  endpointUse : second.2.endpointUse = first.2.endpointUse
  running : second.2.running = first.2.running

theorem Rests.cumulative : Cumulative Rests where
  refl := fun _ => ⟨rfl, rfl, rfl, le_rfl, rfl, rfl, rfl⟩
  trans := fun early late =>
    { sessions := late.sessions.trans early.sessions
      quarantines := late.quarantines.trans early.quarantines
      fixed := late.fixed.trans early.fixed
      reads := early.reads.trans late.reads
      poolUse := late.poolUse.trans early.poolUse
      endpointUse := late.endpointUse.trans early.endpointUse
      running := late.running.trans early.running }

theorem Rests.proceeds {first second : Ledger × Coordinator} (rests : Rests first second) :
    Proceeds first second where
  sessions := rests.sessions
  quarantines := rests.quarantines
  fixed := rests.fixed
  reads := rests.reads
  poolUse := fun pool => le_of_eq (congrFun rests.poolUse pool).symm
  endpointUse := fun endpoint => le_of_eq (congrFun rests.endpointUse endpoint).symm
  running := rests.running ▸ List.prefix_refl _

/-! ## Each part of the tick -/


namespace Runtime

theorem within_proceeds {α : Type} {program : RuntimeProgram α} (rests : Within Rests program) :
    Within Proceeds program :=
  rests.mono fun _ _ rests => rests.proceeds

theorem nowNs_rests : Within Rests nowNs := by
  intro ledger self
  simp only [wp_nowNs]
  exact ⟨rfl, rfl, rfl, Nat.le_succ _, rfl, rfl, rfl⟩

theorem event_rests (atNs : Ns) (kind : Event) :
    Within Rests (Store.event atNs kind : RuntimeProgram Unit) :=
  within_commit fun _ _ =>
    ⟨rfl, rfl, rfl, le_rfl, rfl, rfl, rfl⟩

theorem receipt_rests (tenant : Name) (receipt : Receipt) :
    Within Rests (Store.receipt tenant receipt : RuntimeProgram Unit) :=
  within_commit fun _ _ =>
    ⟨rfl, rfl, rfl, le_rfl, rfl, rfl, rfl⟩

theorem reserve_rests (job : Job) (endpoint : Endpoint) (nowNs : Ns) :
    Within Rests (Store.reserve job endpoint nowNs : RuntimeProgram Unit) := by
  apply within_transaction Rests.cumulative
  intro ledger after self reserved
  obtain ⟨-, -, attempts, -, rfl⟩ := ledger.reserve_ok reserved
  exact ⟨rfl, rfl, rfl, le_rfl, rfl, rfl, rfl⟩

/-- Reading the journal moves nothing, whether or not it can be read. -/
theorem session_rests (tenant sessionId : Name) :
    Within Rests (Store.session tenant sessionId : RuntimeProgram Session) := by
  apply within_bind Rests.cumulative (within_readDurable Rests.cumulative)
  intro ledger
  split
  · exact within_raise Rests.cumulative _
  · exact within_pure Rests.cumulative _

theorem job_rests (tenant jobId : Name) :
    Within Rests (Store.job tenant jobId : RuntimeProgram (Job × Receipt)) := by
  apply within_bind Rests.cumulative (within_readDurable Rests.cumulative)
  intro ledger
  split
  · exact within_raise Rests.cumulative _
  · exact within_ofExcept Rests.cumulative _

theorem jobs_rests (tenant : Name) (states : List JobState) :
    Within Rests (Store.jobs tenant states : RuntimeProgram (List (Job × Receipt))) :=
  within_bind Rests.cumulative (within_readDurable Rests.cumulative)
    fun _ => within_ofExcept Rests.cumulative _

theorem moveTo_rests (job : Job) (receipt : Receipt) (state : JobState) (reason : PyStr) :
    Within Rests (moveTo job receipt state reason) := by
  apply within_bind Rests.cumulative _ fun _ => within_pure Rests.cumulative _
  apply within_bind Rests.cumulative (receipt_rests _ _)
  intro _
  apply within_bind Rests.cumulative nowNs_rests
  intro now
  exact within_bind Rests.cumulative (event_rests _ _)
    fun _ => within_pure Rests.cumulative _

theorem expireJob_rests (now : Ns) (entry : Job × Receipt) :
    Within Rests (expireJob now entry) := by
  apply within_bind Rests.cumulative (within_readVolatile Rests.cumulative)
  intro self
  apply within_bind Rests.cumulative (session_rests _ _)
  intro session
  split
  · exact within_pure Rests.cumulative _
  · exact moveTo_rests _ _ _ _

theorem expire_rests : Within Rests expire := by
  apply within_bind Rests.cumulative (within_readVolatile Rests.cumulative)
  intro self
  apply within_bind Rests.cumulative nowNs_rests
  intro now
  apply within_bind Rests.cumulative (jobs_rests _ _)
  exact fun live => within_forEach Rests.cumulative (expireJob_rests now) live

theorem rankReady_rests (now : Ns) (entry : Job × Receipt) :
    Within Rests (rankReady now entry) := by
  apply within_bind Rests.cumulative (within_readVolatile Rests.cumulative)
  intro self
  apply within_bind Rests.cumulative
  · apply within_collect Rests.cumulative
    intro dependency
    exact within_bind Rests.cumulative (job_rests _ _)
      fun _ => within_pure Rests.cumulative _
  · intro states
    split
    · exact within_bind Rests.cumulative (moveTo_rests _ _ _ _)
        fun _ => within_pure Rests.cumulative _
    · split
      · exact within_pure Rests.cumulative _
      · apply within_bind Rests.cumulative (session_rests _ _)
        intro session
        split
        · exact within_raise Rests.cumulative _
        · exact within_pure Rests.cumulative _

theorem tryReserve_rests (job : Job) (endpoint : Endpoint) (now : Ns) :
    Within Rests (tryReserve job endpoint now) := by
  apply within_tryExcept Rests.cumulative
  · exact within_bind Rests.cumulative (reserve_rests _ _ _)
      fun _ => within_pure Rests.cumulative _
  · intro exception
    split
    · exact within_pure Rests.cumulative _
    · exact within_raise Rests.cumulative _

theorem cacheGet_rests (key : Option CacheKey) (now : Ns) :
    Within Rests (cacheGet key now) := by
  apply within_bind Rests.cumulative (within_readVolatile Rests.cumulative)
  intro self
  apply within_bind Rests.cumulative _ fun _ => within_pure Rests.cumulative _
  apply within_modifyVolatile
  exact fun ledger self =>
    ⟨rfl, rfl, rfl, le_rfl, rfl, rfl, rfl⟩

theorem increment_le (use : Name → Int) (name other : Name) :
    use other ≤ increment use name other := by
  by_cases same : other = name
  · rw [same, increment, Function.update_self]
    omega
  · rw [increment, Function.update_of_ne same]

theorem launch_proceeds (job : Job) (receipt : Receipt) (endpoint : Endpoint)
    (cacheKey : Option CacheKey) (now : Ns) (latestNs : Int) :
    Within Proceeds (launch job receipt endpoint cacheKey now latestNs) := by
  apply within_bind Proceeds.cumulative (within_proceeds (receipt_rests _ _))
  intro _
  apply within_bind Proceeds.cumulative
  · apply within_modifyVolatile
    exact fun ledger self =>
      ⟨rfl, rfl, rfl, le_rfl, increment_le _ _, increment_le _ _, List.prefix_refl _⟩
  · intro _
    apply within_bind Proceeds.cumulative (within_proceeds (event_rests _ _))
    intro _
    apply within_modifyVolatile
    exact fun ledger self =>
      ⟨rfl, rfl, rfl, le_rfl, fun _ => le_rfl, fun _ => le_rfl, List.prefix_append _ _⟩

theorem dispatch_proceeds (job : Job) (receipt : Receipt) (session : Session) (now : Ns)
    (cacheKey : Option CacheKey) : Within Proceeds (dispatch job receipt session now cacheKey) := by
  apply within_bind Proceeds.cumulative (within_readVolatile Proceeds.cumulative)
  intro self
  apply within_bind Proceeds.cumulative
  · exact within_bind Proceeds.cumulative (within_readDurable Proceeds.cumulative)
      fun _ => within_pure Proceeds.cumulative _
  · intro quarantined
    split
    · exact within_pure Proceeds.cumulative _
    · apply within_bind Proceeds.cumulative (within_proceeds (tryReserve_rests _ _ _))
      intro reserved
      split
      · exact launch_proceeds _ _ _ _ _ _
      · exact within_proceeds (moveTo_rests _ _ _ _)

theorem dispatchReady_proceeds (item : RankKey × Job × Receipt) :
    Within Proceeds (dispatchReady item) := by
  apply within_bind Proceeds.cumulative (within_readVolatile Proceeds.cumulative)
  intro self
  apply within_bind Proceeds.cumulative (within_proceeds nowNs_rests)
  intro now
  apply within_bind Proceeds.cumulative (within_proceeds (session_rests _ _))
  intro session
  dsimp only
  split
  · exact within_proceeds (moveTo_rests _ _ _ _)
  · split
    · exact within_raise Proceeds.cumulative _
    · apply within_bind Proceeds.cumulative (within_proceeds (cacheGet_rests _ _))
      intro hit
      split
      · apply within_bind Proceeds.cumulative (within_proceeds (receipt_rests _ _))
        exact fun _ => within_proceeds (event_rests _ _)
      · exact dispatch_proceeds _ _ _ _ _

theorem tick_proceeds : Within Proceeds tick := by
  apply within_bind Proceeds.cumulative (within_readVolatile Proceeds.cumulative)
  intro self
  split
  · exact within_pure Proceeds.cumulative _
  · apply within_bind Proceeds.cumulative (within_proceeds expire_rests)
    intro _
    apply within_bind Proceeds.cumulative (within_proceeds nowNs_rests)
    intro now
    apply within_bind Proceeds.cumulative (within_proceeds (jobs_rests _ _))
    intro queued
    apply within_bind Proceeds.cumulative
    · exact within_collect Proceeds.cumulative (fun entry => within_proceeds (rankReady_rests now entry)) _
    · exact fun ready => within_forEach Proceeds.cumulative dispatchReady_proceeds _

end Runtime

end AgminaRuntime
