import AgminaRuntime.MirrorActions

/-!
# One instant of a mirrored run

The driver takes a mirrored run through an instant: the calls that are over
return, the released requests are submitted, the tick launches what the greedy
schedule chooses, and the new tasks are sent.  The stage before an instant and
the stage after it both follow from the starts of the greedy schedule.
-/

namespace AgminaRuntime

open Durable Durable.Program Keyed Greedy

/-! ## Refusals stay -/

section Refusals

variable {who : Author} {before after : Ledger}

/-- A job that a limit has refused stays refused. -/
theorem RowMove.limited {row next : JobRow} (move : RowMove who row next)
    (limited : row.receipt.Limited) : next.receipt.Limited := by
  cases move with
  | kept => exact limited
  | written _ _ moves _ _ _ =>
      rw [limited.1] at moves
      rcases moves with edge | ⟨_, _, _, ended, _⟩
      · simp [JobState.successors] at edge
      · simp at ended

theorem Commit.unlimited (commit : Commit who before after) (unlimited : after.Unlimited) :
    before.Unlimited := by
  intro row member limited
  obtain ⟨next, found, move, -⟩ := commit.row_kept (Table.lookup_of_mem member)
  exact unlimited next (Table.mem_of_lookup found) (move.limited limited)

/-- A campaign goes on from a sound one, and remembers every refusal. -/
structure Campaign.Continues (before after : Campaign) : Prop where
  sound : after.Sound
  unlimited : after.ledger.Unlimited → before.ledger.Unlimited

theorem Campaign.Continues.refl {campaign : Campaign} (sound : campaign.Sound) :
    campaign.Continues campaign :=
  ⟨sound, fun unlimited => unlimited⟩

theorem Campaign.Continues.trans {first second third : Campaign}
    (early : first.Continues second) (late : second.Continues third) : first.Continues third :=
  ⟨late.sound, fun unlimited => early.unlimited (late.unlimited unlimited)⟩

theorem Campaign.Sound.continues {campaign : Campaign} (sound : campaign.Sound)
    (label : CampaignStep) : campaign.Continues (campaign.step label).1 := by
  refine ⟨sound.step label, ?_⟩
  intro unlimited
  by_contra limited
  have last : (campaign.step label).1.ledger ∈ campaign.ledger :: (campaign.step label).2 := by
    rw [step_ledger]
    exact last_mem _ _
  apply isChain_preserves (fun ledger => ¬ ledger.Unlimited) _ (sound.chain label) limited _ last
    unlimited
  intro earlier later commit refused free
  exact refused (commit.unlimited free)

/-- The clock may be set to another instant between two steps. -/
theorem Campaign.Sound.advanceTo {campaign : Campaign} (sound : campaign.Sound) (now : Ns) :
    campaign.Continues (campaign.advanceTo now) := by
  refine ⟨⟨sound.ledger, sound.called, sound.once, ?_⟩, fun unlimited => unlimited⟩
  intro self live
  obtain ⟨memory, alive, rfl⟩ := Option.map_eq_some_iff.mp live
  have running := sound.live memory alive
  exact
    ⟨{ running.toLive with
        config := rfl
        clock := rfl
        reads := le_rfl
        cached := fun _ member => member
        cacheTtl := running.cacheTtl }, running.current⟩

end Refusals

/-! ## Steps of the driver -/

namespace Driven

variable {now : Ns} {driven : Driven} {action : Action} {memory : Coordinator}

@[simp]
theorem acts_nil : driven.acts now [] = driven := rfl

@[simp]
theorem acts_cons (actions : List Action) :
    driven.acts now (action :: actions) = (driven.act now action).acts now actions := rfl

theorem continues_acts (sound : driven.campaign.Sound) (actions : List Action) :
    driven.campaign.Continues (driven.acts now actions).campaign := by
  induction actions generalizing driven with
  | nil => exact .refl sound
  | cons action actions ih =>
      have first : driven.campaign.Continues (driven.act now action).campaign :=
        sound.continues (.act action)
      exact first.trans (ih first.sound)

/-- The driver has noted exactly the calls that were made. -/
def Noted (driven : Driven) : Prop :=
  ∀ id, (driven.called id).isSome ↔ id ∈ driven.campaign.calls.map Prod.snd

/-- A step that returns shows what its program leaves. -/
theorem act_of_returns {normal : Visible → Ledger → Coordinator → Prop}
    (live : driven.campaign.live = some memory)
    (returns : Returns action.program normal driven.campaign.ledger memory)
    (lives : ∀ visible after next, normal visible after next → visible ≠ .stopped) :
    ∃ visible next, normal visible (driven.act now action).campaign.ledger next ∧
      (driven.act now action).campaign.live = some next ∧
        (driven.act now action).campaign.calls =
          driven.campaign.calls ++ Campaign.called (.ok visible) := by
  have ended := returns.2
  simp only [act, Campaign.step, live]
  cases valueEq : (action.program driven.campaign.ledger memory).value with
  | error exception =>
      rw [valueEq] at ended
      exact ended.elim
  | ok visible =>
      rw [valueEq] at ended
      have survives : Campaign.endsProcess (.ok visible) = false := by
        have alive := lives _ _ _ ended
        cases visible <;> first | rfl | exact absurd rfl alive
      refine ⟨visible, _, ended, ?_, rfl⟩
      rw [survives]
      rfl

theorem act_called (id : Name) :
    (driven.act now action).called id =
      (driven.called id <|>
        if id ∈ (driven.act now action).campaign.calls.map Prod.snd then some now.val
        else none) := rfl

/-- A step that makes no call leaves the notes alone. -/
theorem called_of_calls (noted : driven.Noted)
    (same : (driven.act now action).campaign.calls = driven.campaign.calls) :
    (driven.act now action).called = driven.called := by
  funext id
  rw [act_called, same]
  cases called : driven.called id with
  | some began => rfl
  | none =>
      have absent : id ∉ driven.campaign.calls.map Prod.snd := by
        rw [← noted id, called]
        simp
      rw [if_neg absent]
      rfl

theorem noted_act (noted : driven.Noted)
    (grows : ∃ more, (driven.act now action).campaign.calls = driven.campaign.calls ++ more) :
    (driven.act now action).Noted := by
  intro id
  obtain ⟨more, calls⟩ := grows
  have before := noted id
  rw [act_called, calls, List.map_append]
  cases called : driven.called id with
  | some began =>
      rw [called] at before
      exact iff_of_true rfl (List.mem_append_left _ (before.mp rfl))
  | none =>
      by_cases member : id ∈ driven.campaign.calls.map Prod.snd ++ more.map Prod.snd
      · rw [if_pos member]
        exact iff_of_true rfl member
      · rw [if_neg member]
        exact iff_of_false (by simp) member

/-- A quiet step leaves what its program leaves, and the notes alone. -/
theorem act_quiet {normal : Ledger → Coordinator → Prop} (noted : driven.Noted)
    (live : driven.campaign.live = some memory)
    (returns : Returns action.program
      (fun visible after next => visible = .quiet ∧ normal after next) driven.campaign.ledger
      memory) :
    (driven.act now action).Noted ∧ (driven.act now action).called = driven.called ∧
      ∃ next, (driven.act now action).campaign.live = some next ∧
        normal (driven.act now action).campaign.ledger next := by
  obtain ⟨visible, next, ⟨rfl, holds⟩, alive, calls⟩ :=
    act_of_returns live returns (by rintro _ _ _ ⟨rfl, -⟩; simp)
  have silent : Campaign.called (.ok .quiet) = [] := rfl
  rw [silent, List.append_nil] at calls
  exact ⟨noted_act noted ⟨[], by rw [calls, List.append_nil]⟩, called_of_calls noted calls, next,
    alive, holds⟩

end Driven

/-! ## Stages of a driven run -/

namespace Stage

def finishAll (ids : List Name) (stage : Stage) : Stage :=
  { stage with occupied := fun id => stage.occupied id ∧ id ∉ ids }

def submitAll (ids : List Name) (stage : Stage) : Stage :=
  { stage with released := fun id => stage.released id ∨ id ∈ ids }

def sendAll (ids : List Name) (stage : Stage) : Stage :=
  { stage with created := fun id => stage.created id ∧ id ∉ ids }

variable (stage : Stage) (id : Name) (ids : List Name)

@[simp]
theorem finishAll_cons : stage.finishAll (id :: ids) = (stage.finish id).finishAll ids := by
  simp [finishAll, finish, and_assoc]

@[simp]
theorem submitAll_cons : stage.submitAll (id :: ids) = (stage.submit id).submitAll ids := by
  simp [submitAll, submit, or_assoc]

@[simp]
theorem sendAll_cons : stage.sendAll (id :: ids) = (stage.send id).sendAll ids := by
  simp [sendAll, send, and_assoc]

@[simp]
theorem finishAll_nil : stage.finishAll [] = stage := by simp [finishAll]

@[simp]
theorem submitAll_nil : stage.submitAll [] = stage := by simp [submitAll]

@[simp]
theorem sendAll_nil : stage.sendAll [] = stage := by simp [sendAll]

end Stage

/-- A driven run at a stage: the driver has noted the start of every request
whose task has been sent, and a task that has not been sent is of this
instant. -/
structure Poised {trace : Trace} (mirror : Mirror trace) (now : Ns) (stage : Stage)
    (driven : Driven) : Prop where
  sound : driven.campaign.Sound
  noted : driven.Noted
  live : ∃ memory, driven.campaign.live = some memory ∧
    Staged mirror now stage driven.campaign.ledger memory
  called : ∀ request ∈ trace.requests, ∀ began, driven.called request.id = some began ↔
    ¬ stage.created request.id ∧ stage.start request.id = some began
  created : ∀ request ∈ trace.requests, stage.created request.id →
    stage.start request.id = some now.val

namespace Poised

variable {trace : Trace} {mirror : Mirror trace} {now : Ns} {stage : Stage} {driven : Driven}
  {request : ReplayRequest}

/-- The clock moves on when every task has been sent. -/
theorem advance {later : Ns} (poised : Poised mirror now stage driven) (order : now ≤ later)
    (sent : ∀ request ∈ trace.requests, ¬ stage.created request.id) :
    Poised mirror later stage { driven with campaign := driven.campaign.advanceTo later } := by
  obtain ⟨memory, live, staged⟩ := poised.live
  refine
    { sound := (poised.sound.advanceTo later).sound
      noted := poised.noted
      live := ⟨memory.advanceTo later, ?_, staged.advance order⟩
      called := poised.called
      created := fun request known created => absurd created (sent request known) }
  rw [Campaign.advanceTo, live]
  rfl

/-- A quiet step that starts and creates nothing. -/
theorem act {target : Stage} {action : Action} (poised : Poised mirror now stage driven)
    (start : target.start = stage.start) (created : target.created = stage.created)
    (returns : ∀ memory, Staged mirror now stage driven.campaign.ledger memory →
      Returns action.program (fun visible after next => visible = .quiet ∧
        Staged mirror now target after next) driven.campaign.ledger memory) :
    Poised mirror now target (driven.act now action) := by
  obtain ⟨memory, live, staged⟩ := poised.live
  obtain ⟨noted, called, next, alive, reached⟩ :=
    Driven.act_quiet poised.noted live (returns memory staged)
  refine
    { sound := (poised.sound.continues (.act action)).sound
      noted := noted
      live := ⟨next, alive, reached⟩
      called := ?_
      created := ?_ }
  · rw [called, start, created]
    exact poised.called
  · rw [start, created]
    exact poised.created

theorem finish (poised : Poised mirror now stage driven) (known : request ∈ trace.requests)
    (occupied : stage.occupied request.id) (sent : ¬ stage.created request.id) :
    Poised mirror now (stage.finish request.id)
      (driven.act now (.finishTask request.id (.prediction (mirror.reply request)))) := by
  refine poised.act (show (stage.finish request.id).start = stage.start from rfl) rfl ?_
  intro memory staged
  exact staged.wp_finishTask known occupied sent

theorem finishAll {requests : List ReplayRequest} (poised : Poised mirror now stage driven)
    (distinct : requests.Nodup)
    (due : ∀ request ∈ requests, request ∈ trace.requests ∧ stage.occupied request.id ∧
      ¬ stage.created request.id) :
    Poised mirror now (stage.finishAll (requests.map (·.id)))
      (driven.acts now (requests.map fun request =>
        .finishTask request.id (.prediction (mirror.reply request)))) := by
  induction requests generalizing stage driven with
  | nil => simpa using poised
  | cons request requests ih =>
      obtain ⟨fresh, distinct⟩ := List.nodup_cons.mp distinct
      obtain ⟨known, occupied, sent⟩ := due request List.mem_cons_self
      rw [List.map_cons, List.map_cons, Stage.finishAll_cons, Driven.acts_cons]
      apply ih (poised.finish known occupied sent) distinct
      intro other member
      obtain ⟨otherKnown, otherOccupied, otherSent⟩ :=
        due other (List.mem_cons_of_mem _ member)
      refine ⟨otherKnown, ⟨otherOccupied, ?_⟩, otherSent⟩
      intro same
      rw [Trace.eq_of_id otherKnown known same] at member
      exact fresh member

theorem submit (poised : Poised mirror now stage driven) (known : request ∈ trace.requests)
    (unreleased : ¬ stage.released request.id) (unstarted : stage.start request.id = none)
    (release : request.releaseNs = now) :
    Poised mirror now (stage.submit request.id)
      (driven.act now (.submit (mirror.job request).toJobFields)) := by
  refine poised.act (show (stage.submit request.id).start = stage.start from rfl) rfl ?_
  intro memory staged
  exact staged.wp_submit known unreleased unstarted release

theorem submitAll {requests : List ReplayRequest} (poised : Poised mirror now stage driven)
    (distinct : requests.Nodup)
    (due : ∀ request ∈ requests, request ∈ trace.requests ∧ ¬ stage.released request.id ∧
      stage.start request.id = none ∧ request.releaseNs = now) :
    Poised mirror now (stage.submitAll (requests.map (·.id)))
      (driven.acts now (requests.map fun request =>
        .submit (mirror.job request).toJobFields)) := by
  induction requests generalizing stage driven with
  | nil => simpa using poised
  | cons request requests ih =>
      obtain ⟨fresh, distinct⟩ := List.nodup_cons.mp distinct
      obtain ⟨known, unreleased, unstarted, release⟩ := due request List.mem_cons_self
      rw [List.map_cons, List.map_cons, Stage.submitAll_cons, Driven.acts_cons]
      apply ih (poised.submit known unreleased unstarted release) distinct
      intro other member
      obtain ⟨otherKnown, otherUnreleased, otherUnstarted, otherRelease⟩ :=
        due other (List.mem_cons_of_mem _ member)
      refine ⟨otherKnown, ?_, otherUnstarted, otherRelease⟩
      rintro (earlier | same)
      · exact otherUnreleased earlier
      · rw [Trace.eq_of_id otherKnown known same] at member
        exact fresh member

/-- A task is sent, and the driver notes the instant. -/
theorem send (poised : Poised mirror now stage driven) (known : request ∈ trace.requests)
    (occupied : stage.occupied request.id) (created : stage.created request.id)
    (inTime : now.val < request.latestNs) :
    Poised mirror now (stage.send request.id) (driven.act now (.startTask request.id)) := by
  obtain ⟨memory, live, staged⟩ := poised.live
  obtain ⟨visible, next, ⟨⟨task, rfl, job⟩, reached⟩, alive, calls⟩ :=
    Driven.act_of_returns live
      (staged.wp_startTask known occupied created inTime)
      (by rintro _ _ _ ⟨⟨task, rfl, -⟩, -⟩; simp)
  have named : task.job.key.2 = request.id := by
    rw [job, (mirror.mirrored request known).key]
  refine
    { sound := (poised.sound.continues _).sound
      noted := Driven.noted_act poised.noted ⟨_, calls⟩
      live := ⟨next, alive, reached⟩
      called := ?_
      created := fun other otherKnown still => poised.created other otherKnown still.1 }
  intro other otherKnown began
  have noted := poised.noted other.id
  have before := poised.called other otherKnown
  rw [Driven.act_called, calls, Campaign.called, List.map_append]
  by_cases same : other.id = request.id
  · have uncalled : driven.called other.id = none := by
      cases called : driven.called other.id with
      | none => rfl
      | some began => exact absurd (same ▸ created) ((before began).mp called).1
    have begun := poised.created other otherKnown (same ▸ created)
    rw [uncalled, if_pos (by simp [named, same])]
    simp [Stage.send, same, ← begun]
  · have others : ∀ called : Option Nat, driven.called other.id = called →
        (called <|> if other.id ∈ driven.campaign.calls.map Prod.snd ++ [task.job.key].map Prod.snd
          then some now.val else none) = called := by
      intro called calledEq
      cases called with
      | some began => rfl
      | none =>
          rw [calledEq] at noted
          rw [if_neg]
          · rfl
          rw [List.mem_append, ← noted]
          simp [named, same]
    rw [others _ rfl, before]
    simp [Stage.send, same]

theorem sendAll {ids : List Name} (poised : Poised mirror now stage driven)
    (distinct : ids.Nodup)
    (fresh : ∀ id ∈ ids, ∃ request ∈ trace.requests, request.id = id ∧ stage.occupied id ∧
      stage.created id ∧ now.val < request.latestNs) :
    Poised mirror now (stage.sendAll ids) (driven.acts now (ids.map .startTask)) := by
  induction ids generalizing stage driven with
  | nil => simpa using poised
  | cons id ids ih =>
      obtain ⟨new, others⟩ := List.nodup_cons.mp distinct
      obtain ⟨request, known, rfl, occupied, created, inTime⟩ := fresh id List.mem_cons_self
      rw [List.map_cons, Stage.sendAll_cons, Driven.acts_cons]
      apply ih (poised.send known occupied created inTime) others
      intro other member
      obtain ⟨owner, ownerKnown, named, otherOccupied, otherCreated, otherInTime⟩ :=
        fresh other (List.mem_cons_of_mem _ member)
      refine ⟨owner, ownerKnown, named, otherOccupied, ⟨otherCreated, ?_⟩, otherInTime⟩
      rintro rfl
      exact new member

/-- The slot counters agree with the tasks. -/
theorem tally {memory : Coordinator} (poised : Poised mirror now stage driven)
    (live : driven.campaign.live = some memory)
    (staged : Staged mirror now stage driven.campaign.ledger memory) : Tally mirror memory := by
  have running := poised.sound.live memory live
  constructor
  · rw [running.poolUse]
    have pooled : memory.running.countP (fun task =>
        decide (task.endpoint.pool = mirror.pool.id)) = memory.running.length := by
      rw [List.countP_eq_length]
      intro task member
      obtain ⟨request, known, _, _, endpoint, _⟩ := staged.tasks task member
      rw [endpoint, mirror.endpoint_pool known]
      simp
    rw [pooled]
  · intro request known
    rw [running.endpointUse]
    exact Int.ofNat_le.mpr List.countP_le_length

/-- The tick launches what the greedy schedule chooses. -/
theorem tick (poised : Poised mirror now stage driven)
    (due : stage.Due trace mirror.config.scheduler now.val)
    (unlimited : (driven.act now .tick).campaign.ledger.Unlimited) :
    Poised mirror now
      (stage.launch ((trace.work mirror.config.scheduler).chosen stage.start now.val) now.val)
      (driven.act now .tick) := by
  obtain ⟨memory, live, staged⟩ := poised.live
  have running := poised.sound.live memory live
  have returns := staged.wp_tick (poised.tally live staged) due running.distinct
  have quiet : Returns Action.tick.program (fun visible after next => visible = .quiet ∧
      ∃ items, Staged mirror now (stage.launch items now.val) after next ∧
        (¬ after.Unlimited ∨
          items = (trace.work mirror.config.scheduler).chosen stage.start now.val))
      driven.campaign.ledger memory := by
    simp only [Action.program, Action.quietly, wp_bind]
    apply wp_post returns _ (fun _ _ _ failed => failed)
    intro _ after next launched
    exact (wp_pure _).mpr ⟨rfl, launched⟩
  obtain ⟨noted, called, next, alive, items, reached, chosen⟩ :=
    Driven.act_quiet poised.noted live quiet
  obtain rfl := chosen.resolve_left (fun limited => limited unlimited)
  refine
    { sound := (poised.sound.continues (.act .tick)).sound
      noted := noted
      live := ⟨next, alive, reached⟩
      called := ?_
      created := ?_ }
  · intro request known began
    rw [called, poised.called request known began]
    by_cases member :
        request.id ∈ (trace.work mirror.config.scheduler).chosen stage.start now.val
    · have unstarted := (Demand.waiting_iff.mp (Demand.mem_of_mem_chosen member).2).2.1
      simp [Stage.launch, member, unstarted]
    · simp [Stage.launch, member]
  · intro request known created
    by_cases member :
        request.id ∈ (trace.work mirror.config.scheduler).chosen stage.start now.val
    · exact if_pos member
    · simp only [Stage.launch, if_neg member]
      exact poised.created request known (created.resolve_right member)

/-- The driver sends the tasks that have not run yet. -/
theorem sends (poised : Poised mirror now stage driven) :
    ∃ ids : List Name, driven.sends = ids.map .startTask ∧ ids.Nodup ∧
      ∀ id, id ∈ ids ↔ ∃ request ∈ trace.requests, request.id = id ∧ stage.occupied id ∧
        stage.created id := by
  obtain ⟨memory, live, staged⟩ := poised.live
  have running := poised.sound.live memory live
  let fresh := memory.running.filter fun task => task.phase = .created
  refine ⟨fresh.map fun task => task.job.id, ?_,
    running.distinct.sublist (List.filter_sublist.map _), ?_⟩
  · simp only [Driven.sends, live, List.map_map]
    rfl
  · intro id
    simp only [fresh, List.mem_map, List.mem_filter, decide_eq_true_eq]
    constructor
    · rintro ⟨task, ⟨member, created⟩, rfl⟩
      obtain ⟨request, known, occupied, job, -, phase⟩ := staged.tasks task member
      rw [job, (mirror.mirrored request known).id]
      exact ⟨request, known, rfl, occupied, phase.mp created⟩
    · rintro ⟨request, known, rfl, occupied, created⟩
      obtain ⟨task, member, job⟩ := staged.busy request known occupied
      have named : task.job.id = request.id := by rw [job, (mirror.mirrored request known).id]
      obtain ⟨other, otherKnown, -, otherJob, -, phase⟩ := staged.tasks task member
      rw [job] at otherJob
      obtain rfl := mirror.eq_of_job known otherKnown (congrArg (·.id) otherJob)
      exact ⟨task, ⟨member, phase.mpr created⟩, named⟩

end Poised

/-! ## One instant -/

/-- The stage of the greedy schedule when everything before an instant is done,
but for the calls that are over at it. -/
def Trace.stageAt (trace : Trace) (mode : Scheduler) (cut : Nat) : Stage where
  released := fun id => (trace.work mode).release id < cut
  start := (trace.work mode).startsBefore cut
  occupied := fun id => ∃ began, (trace.work mode).startsBefore cut id = some began ∧
    cut ≤ began + (trace.work mode).service id
  created := fun _ => False

/-- That stage after the completions of its instant. -/
def Trace.returnedAt (trace : Trace) (mode : Scheduler) (now : Nat) : Stage :=
  { trace.stageAt mode now with
    occupied := fun id =>
      (trace.work mode).running ((trace.work mode).startsBefore now) now id = true }

/-- That stage after the submissions of its instant. -/
def Trace.dueAt (trace : Trace) (mode : Scheduler) (now : Nat) : Stage :=
  { trace.returnedAt mode now with released := fun id => (trace.work mode).release id ≤ now }

section Instant

variable {trace : Trace} {mirror : Mirror trace} {before now : Ns} {stage : Stage}
  {driven : Driven}

theorem Mirror.continues_instant (sound : driven.campaign.Sound) :
    driven.campaign.Continues (mirror.instant driven now).campaign := by
  let waiting : Driven := { driven with campaign := driven.campaign.advanceTo now }
  let returned := waiting.acts now (mirror.replies now waiting)
  let ticked := returned.acts now (mirror.submissions now ++ [.tick])
  have ready : driven.campaign.Continues waiting.campaign := sound.advanceTo now
  have replied : waiting.campaign.Continues returned.campaign :=
    Driven.continues_acts ready.sound _
  have ranked : returned.campaign.Continues ticked.campaign :=
    Driven.continues_acts replied.sound _
  exact ((ready.trans replied).trans ranked).trans (Driven.continues_acts ranked.sound _)

/-- After the tick of an instant, what has been started and is not over then
holds a slot. -/
theorem Trace.occupied_launch {mode : Scheduler} {request : ReplayRequest} {instant : Nat}
    (known : request ∈ trace.requests) :
    (trace.stageAt mode (instant + 1)).occupied request.id ↔
      ((trace.dueAt mode instant).launch ((trace.work mode).chosen
        ((trace.work mode).startsBefore instant) instant) instant).occupied request.id := by
  have member : request.id ∈ (trace.work mode).items := List.mem_map_of_mem known
  have running : (trace.work mode).running ((trace.work mode).startsBy instant) instant
      request.id = (_ || decide (request.id ∈ (trace.work mode).chosen
        ((trace.work mode).startsBefore instant) instant)) := Demand.running_dispatch member
  rw [Bool.eq_iff_iff, Bool.or_eq_true, decide_eq_true_eq, Demand.running_iff] at running
  apply Iff.trans _ running
  constructor
  · rintro ⟨began, started, lasts⟩
    have early := (Demand.startsBefore_spec started).2.1
    exact ⟨began, started, by omega, by omega⟩
  · rintro ⟨began, started, _, lasts⟩
    exact ⟨began, started, by omega⟩

namespace Poised

/-- Stages that agree on the requests of the trace. -/
theorem congr {next : Stage} (poised : Poised mirror now stage driven)
    (released : ∀ request ∈ trace.requests, next.released request.id ↔ stage.released request.id)
    (start : ∀ request ∈ trace.requests, next.start request.id = stage.start request.id)
    (occupied : ∀ request ∈ trace.requests,
      next.occupied request.id ↔ stage.occupied request.id)
    (created : ∀ request ∈ trace.requests, next.created request.id ↔ stage.created request.id) :
    Poised mirror now next driven := by
  obtain ⟨memory, live, staged⟩ := poised.live
  refine
    { sound := poised.sound
      noted := poised.noted
      live := ⟨memory, live, staged.congr released start occupied created⟩
      called := ?_
      created := ?_ }
  · intro request known began
    rw [poised.called request known began, created request known, start request known]
  · intro request known new
    rw [start request known]
    exact poised.created request known ((created request known).mp new)

/-- After the completions of an instant, what still runs holds a slot. -/
theorem replies {mode : Scheduler} (poised : Poised mirror now (trace.stageAt mode now.val) driven) :
    Poised mirror now (trace.returnedAt mode now.val) (driven.acts now (mirror.replies now driven)) := by
  obtain ⟨returning, returningEq⟩ : ∃ returning, (mirror.returns.filter fun request =>
      (driven.called request.id).any fun began => began + request.serviceNs.val = now.val) =
    returning := ⟨_, rfl⟩
  have ends : ∀ request ∈ trace.requests, request ∈ returning ↔ ∃ began,
      (trace.work mode).startsBefore now.val request.id = some began ∧
        began + request.serviceNs.val = now.val := by
    intro request known
    have called := poised.called request known
    simp only [← returningEq, List.mem_filter, mirror.allReturn.mem_iff, known, true_and,
      Option.any_eq_true, decide_eq_true_eq]
    constructor
    · rintro ⟨began, noted, ends⟩
      exact ⟨began, ((called began).mp noted).2, ends⟩
    · rintro ⟨began, started, ends⟩
      exact ⟨began, (called began).mpr ⟨id, started⟩, ends⟩
  have service : ∀ request ∈ trace.requests,
      (trace.work mode).service request.id = request.serviceNs.val :=
    fun request known => Trace.reading_of_mem (·.serviceNs.val) known
  have inside : ∀ request ∈ returning, request ∈ trace.requests := by
    intro request member
    rw [← returningEq] at member
    exact mirror.allReturn.mem_iff.mp (List.mem_filter.mp member).1
  have distinct : returning.Nodup := by
    rw [← returningEq]
    exact (mirror.allReturn.nodup_iff.mpr (List.Nodup.of_map _ trace.unique)).filter _
  have returned := poised.finishAll distinct (by
      intro request member
      have known := inside request member
      obtain ⟨began, started, ends⟩ := (ends request known).mp member
      refine ⟨known, ⟨began, started, ?_⟩, id⟩
      rw [service request known]
      omega)
  rw [Mirror.replies, returningEq]
  refine returned.congr (fun _ _ => Iff.rfl) (fun _ _ => rfl) ?_ (fun _ _ => Iff.rfl)
  intro request known
  have named : request.id ∈ returning.map (·.id) ↔ request ∈ returning := by
    constructor
    · intro member
      obtain ⟨other, otherMember, same⟩ := List.mem_map.mp member
      rwa [Trace.eq_of_id (inside other otherMember) known same] at otherMember
    · exact fun member => List.mem_map_of_mem member
  simp only [Stage.finishAll, Trace.returnedAt, Trace.stageAt, named, ends request known,
    Demand.running_iff, service request known]
  constructor
  · rintro ⟨began, started, begun, lasts⟩
    refine ⟨⟨began, started, by omega⟩, ?_⟩
    rintro ⟨other, otherStarted, ends⟩
    rw [started, Option.some.injEq] at otherStarted
    omega
  · rintro ⟨⟨began, started, lasts⟩, open'⟩
    have early := (Demand.startsBefore_spec started).2.1
    have running : began + request.serviceNs.val ≠ now.val :=
      fun ends => open' ⟨began, started, ends⟩
    exact ⟨began, started, by omega, by omega⟩

/-- After the submissions of an instant, what is released by then has been
submitted. -/
theorem submissions {mode : Scheduler}
    (poised : Poised mirror now (trace.returnedAt mode now.val) driven) :
    Poised mirror now (trace.dueAt mode now.val) (driven.acts now (mirror.submissions now)) := by
  obtain ⟨due, dueEq⟩ : ∃ due,
    (trace.ordered.filter fun request => request.releaseNs = now) = due := ⟨_, rfl⟩
  have release : ∀ request ∈ trace.requests,
      (trace.work mode).release request.id = request.releaseNs.val :=
    fun request known => Trace.reading_of_mem (·.releaseNs.val) known
  have mem_due : ∀ request, request ∈ due ↔ request ∈ trace.requests ∧
      request.releaseNs = now := by
    intro request
    simp only [← dueEq, List.mem_filter, Trace.mem_ordered, decide_eq_true_eq]
  have distinct : due.Nodup := by
    rw [← dueEq]
    exact Trace.ordered_nodup.filter _
  have submitted := poised.submitAll distinct (by
    intro request member
    obtain ⟨known, releases⟩ := (mem_due request).mp member
    refine ⟨known, ?_, ?_, releases⟩
    · simp only [Trace.returnedAt, Trace.stageAt, release request known, releases]
      exact lt_irrefl _
    · change (trace.work mode).startsBefore now.val request.id = none
      cases started : (trace.work mode).startsBefore now.val request.id with
      | none => rfl
      | some began =>
          obtain ⟨_, early, late, _⟩ := Demand.startsBefore_spec started
          rw [release request known, releases] at late
          omega)
  rw [Mirror.submissions, dueEq]
  refine submitted.congr ?_ (fun _ _ => rfl) (fun _ _ => Iff.rfl) (fun _ _ => Iff.rfl)
  intro request known
  have named : request.id ∈ due.map (·.id) ↔ request.releaseNs = now := by
    constructor
    · intro member
      obtain ⟨other, otherMember, same⟩ := List.mem_map.mp member
      obtain ⟨otherKnown, releases⟩ := (mem_due other).mp otherMember
      rwa [Trace.eq_of_id otherKnown known same] at releases
    · exact fun releases => List.mem_map_of_mem ((mem_due request).mpr ⟨known, releases⟩)
  simp only [Stage.submitAll, Trace.dueAt, Trace.returnedAt, Trace.stageAt,
    release request known, named]
  rw [← Fin.val_inj]
  omega

/-- An instant of the driver is one of the greedy schedule, unless a limit
refuses a job. -/
theorem instant
    (poised : Poised mirror before (trace.stageAt mirror.config.scheduler now.val) driven)
    (order : before ≤ now) (unlimited : (mirror.instant driven now).campaign.ledger.Unlimited) :
    Poised mirror now (trace.stageAt mirror.config.scheduler (now.val + 1))
      (mirror.instant driven now) := by
  let waiting : Driven := { driven with campaign := driven.campaign.advanceTo now }
  let returned := waiting.acts now (mirror.replies now waiting)
  let released := returned.acts now (mirror.submissions now)
  let ticked := released.act now .tick
  have whole : mirror.instant driven now = ticked.acts now ticked.sends := by
    have split : returned.acts now (mirror.submissions now ++ [.tick]) = ticked :=
      List.foldl_append
    change (returned.acts now (mirror.submissions now ++ [.tick])).acts now
      (returned.acts now (mirror.submissions now ++ [.tick])).sends = _
    rw [split]
  have ready : Poised mirror now (trace.stageAt mirror.config.scheduler now.val) waiting :=
    poised.advance order (fun _ _ created => created)
  have submitted : Poised mirror now (trace.dueAt mirror.config.scheduler now.val) released :=
    ready.replies.submissions
  have due : (trace.dueAt mirror.config.scheduler now.val).Due trace mirror.config.scheduler
      now.val := by
    constructor
    · intro request known
      change (trace.work mirror.config.scheduler).release request.id ≤ now.val ↔ _
      rw [show (trace.work mirror.config.scheduler).release request.id = request.releaseNs.val
        from Trace.reading_of_mem (·.releaseNs.val) known]
    · exact fun _ _ => Iff.rfl
  have sound : ticked.campaign.Sound := (submitted.sound.continues (.act .tick)).sound
  rw [whole] at unlimited ⊢
  have launched := submitted.tick due
    ((Driven.continues_acts sound ticked.sends).unlimited unlimited)
  obtain ⟨ids, sends, distinct, fresh⟩ := launched.sends
  rw [sends]
  have sent := launched.sendAll distinct (by
    intro id member
    obtain ⟨request, known, rfl, occupied, created⟩ := (fresh id).mp member
    refine ⟨request, known, rfl, occupied, created, ?_⟩
    rcases created with created | chosen
    · exact created.elim
    have waits := (Demand.waiting_iff.mp (Demand.mem_of_mem_chosen chosen).2).2.2
    have latest : (trace.work mirror.config.scheduler).latest request.id = request.latestNs :=
      Trace.reading_of_mem (·.latestNs) known
    omega)
  exact sent.congr (fun _ _ => Nat.lt_succ_iff) (fun _ _ => rfl)
    (fun request known => Trace.occupied_launch known)
    (fun request known => iff_of_false id (by
      rintro ⟨created | chosen, unsent⟩
      · exact created
      · exact unsent ((fresh request.id).mpr
          ⟨request, known, rfl, .inr chosen, .inr chosen⟩)))

end Poised

end Instant

end AgminaRuntime
