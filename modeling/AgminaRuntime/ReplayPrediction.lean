import AgminaRuntime.MirrorRuns
import AgminaRuntime.ReplayCausality

/-!
# A replay predicts the coordinator

The driver visits the instants of the replay, and between two of them neither
does anything.  So whatever the trace and the policy, the coordinator starts
the jobs that the replay starts, and when it starts them, as long as neither
the queue nor the budget refuses a job.
-/

namespace AgminaRuntime

open Durable Keyed Greedy

section Prediction

variable {trace : Trace} {mirror : Mirror trace} {mode : Scheduler} {now : Ns} {driven : Driven}
  {state : Replaying} {campaign : Campaign} {cut later : Nat}

/-- Nothing has happened to a coordinator that is ready. -/
theorem Mirror.Ready.poised (ready : mirror.Ready campaign) :
    Poised mirror 0 (trace.stageAt mode 0) ⟨campaign, fun _ => none⟩ := by
  obtain ⟨caps, steps, rfl⟩ := ready.reachable
  have sound := Campaign.sound_run caps steps
  obtain ⟨memory, live, config, clock, network, backends, awake⟩ := ready.live
  have running := sound.live memory live
  have unknown : ∀ key, ((Campaign.fresh caps).run steps).ledger.jobs.lookup key = none := by
    intro key
    cases found : ((Campaign.fresh caps).run steps).ledger.jobs.lookup key with
    | none => rfl
    | some row =>
        have member := Table.mem_of_lookup found
        rw [ready.jobs] at member
        contradiction
  have unattempted : ∀ key,
      ((Campaign.fresh caps).run steps).ledger.attempts.lookup key = none := by
    intro key
    cases found : ((Campaign.fresh caps).run steps).ledger.attempts.lookup key with
    | none => rfl
    | some attempt =>
        have stored := sound.ledger.attempts key attempt found
        rw [unknown] at stored
        contradiction
  have idle : memory.running = [] := by
    apply List.eq_nil_iff_forall_not_mem.mpr
    intro task member
    obtain ⟨receipt, found, -⟩ := (running.tasks task member).row
    rw [unknown] at found
    contradiction
  have silent : ((Campaign.fresh caps).run steps).calls = [] := by
    apply List.eq_nil_iff_forall_not_mem.mpr
    intro key member
    have attempted := sound.called key member
    rw [unattempted] at attempted
    contradiction
  have recorded : Recorded mirror 0 (trace.stageAt mode 0)
      ((Campaign.fresh caps).run steps).ledger :=
    { quarantined := ready.quarantined
      sessions := ready.sessions
      evidence := by
        intro row member
        rw [ready.observations] at member
        contradiction
      rows := by
        intro key row found
        rw [unknown] at found
        contradiction
      stored := fun _ _ released => absurd released (Nat.not_lt_zero _)
      unattempted := fun _ _ _ => unattempted _ }
  have manned : Manned mirror 0 (trace.stageAt mode 0) memory :=
    { config, clock, awake, network, backends
      tasks := by simp [idle]
      busy := by
        rintro _ _ ⟨_, started, _⟩
        contradiction }
  refine
    { sound := sound
      noted := by simp [Driven.Noted, silent]
      live := ⟨memory, live, ⟨recorded, manned, ?_⟩⟩
      called := ?_
      created := fun _ _ created => created.elim }
  · rintro _ _ ⟨_, started, _⟩
    contradiction
  · intro request known began
    simp [Trace.stageAt, Demand.startsBefore]

/-! ## Between two instants -/

/-- The stage stands still with it. -/
theorem Poised.wait (poised : Poised mirror now (trace.stageAt mode (cut + 1)) driven)
    (tracks : trace.TracksAt mode (cut + 1) state) (order : cut < later)
    (quiet : Quiescent state later) : Poised mirror now (trace.stageAt mode later) driven := by
  have starts := tracks.quiet_starts order quiet
  refine poised.congr ?_ (fun _ _ => congrFun starts _) ?_ (fun _ _ => Iff.rfl)
  · intro request known
    have release : (trace.work mode).release request.id = request.releaseNs.val :=
      Trace.reading_of_mem (·.releaseNs.val) known
    have := tracks.releases quiet (Trace.mem_ordered.mpr known)
    simp only [Trace.stageAt, release]
    omega
  · intro request known
    have service : (trace.work mode).service request.id = request.serviceNs.val :=
      Trace.reading_of_mem (·.serviceNs.val) known
    simp only [Trace.stageAt, starts, service]
    constructor
    · rintro ⟨began, started, lasts⟩
      exact ⟨began, started, by omega⟩
    · rintro ⟨began, started, lasts⟩
      have := tracks.finishes quiet (Trace.mem_ordered.mpr known) started
      exact ⟨began, started, by omega⟩

/-- From its latest useful time on the start of a request is final. -/
theorem Trace.finalStart_eq {request : ReplayRequest} (known : request ∈ trace.requests)
    (past : request.latestNs ≤ cut) :
    (trace.work mode).startsBefore cut request.id = (trace.work mode).finalStart request.id := by
  have latest : (trace.work mode).latest request.id = request.latestNs :=
    Trace.reading_of_mem (·.latestNs) known
  cases final : (trace.work mode).finalStart request.id with
  | some began => exact Demand.startsBefore_mono final (by omega)
  | none =>
      cases started : (trace.work mode).startsBefore cut request.id with
      | none => rfl
      | some began =>
          have inTime := (Demand.startsBefore_spec started).2.2.2
          have own := Demand.startsBy_of_started started (le_refl began)
          have final' := Demand.startsBefore_mono own (show began + 1 ≤
            (trace.work mode).latest request.id by omega)
          rw [Demand.finalStart] at final
          rw [final] at final'
          contradiction

/-! ## Whole runs -/

theorem replayInstants_last {slots : Nat} (unfinished : state.unfinished = true)
    (none : (state.turn slots mode).nextTimes.min? = none) :
    replayInstants slots mode state = [state.now] := by
  rw [replayInstants, if_pos unfinished]
  split
  · rfl
  · rename_i next least
    rw [none] at least
    contradiction

theorem replayInstants_next {slots next : Nat} (unfinished : state.unfinished = true)
    (least : (state.turn slots mode).nextTimes.min? = some next) :
    replayInstants slots mode state =
      state.now :: replayInstants slots mode { state.turn slots mode with now := next } := by
  rw [replayInstants, if_pos unfinished]
  split
  · rename_i none
    rw [least] at none
    contradiction
  · rename_i other otherLeast
    rw [least, Option.some.injEq] at otherLeast
    rw [otherLeast]

theorem replayInstants_le {slots : Nat} :
    ∀ instant ∈ replayInstants slots mode state, state.now ≤ instant := by
  induction events : state.pending using Nat.strong_induction_on generalizing state with
  | h count ih =>
      intro instant member
      rw [replayInstants] at member
      split at member
      · rcases List.mem_cons.mp member with rfl | rest
        · exact le_refl _
        split at rest
        · contradiction
        · rename_i next least
          have fewer := (jump_pending (List.min?_mem least)).trans_le
            (turn_pending slots mode state)
          rw [events] at fewer
          have later : state.now < next := (mem_nextTimes.mp (List.min?_mem least)).1
          have after := ih _ fewer rfl instant rest
          change next ≤ instant at after
          omega
      · contradiction

theorem Mirror.continues_instants (instants : List Ns) (sound : driven.campaign.Sound) :
    driven.campaign.Continues (instants.foldl mirror.instant driven).campaign := by
  induction instants generalizing driven with
  | nil => exact .refl sound
  | cons instant instants ih =>
      have first : driven.campaign.Continues (mirror.instant driven instant).campaign :=
        mirror.continues_instant sound
      exact first.trans (ih first.sound)

/-- The run that is left for the driver ends with the whole greedy schedule
done, unless a limit refuses a job. -/
theorem Poised.drive
    (tracks : trace.TracksAt mirror.config.scheduler state.now state)
    (unfinished : state.unfinished = true)
    (poised : Poised mirror now (trace.stageAt mirror.config.scheduler state.now) driven)
    (order : now.val ≤ state.now)
    (unlimited : (((replayInstants trace.slots mirror.config.scheduler state).filterMap
      Ns.ofNat?).foldl mirror.instant driven).campaign.ledger.Unlimited) :
    ∃ last cut, Poised mirror last (trace.stageAt mirror.config.scheduler cut)
        (((replayInstants trace.slots mirror.config.scheduler state).filterMap
          Ns.ofNat?).foldl mirror.instant driven) ∧
      ∀ request ∈ trace.requests,
        (trace.work mirror.config.scheduler).startsBefore cut request.id =
          (trace.work mirror.config.scheduler).finalStart request.id := by
  -- by induction on the events that are left, as the loop of the replay ends
  induction events : state.pending using Nat.strong_induction_on
    generalizing state driven now with
  | h count ih =>
      by_cases shown : state.now < 2 ^ 63
      · have instantEq : Ns.ofNat? state.now = some ⟨state.now, shown⟩ := dif_pos shown
        have turned : trace.TracksAt mirror.config.scheduler (state.now + 1)
          (state.turn trace.slots mirror.config.scheduler) := Tracks.turn tracks
        have continued : driven.campaign.Continues
            (mirror.instant driven ⟨state.now, shown⟩).campaign :=
          mirror.continues_instant poised.sound
        have stepped : ∀ rest : List Ns,
            (rest.foldl mirror.instant
              (mirror.instant driven ⟨state.now, shown⟩)).campaign.ledger.Unlimited →
            Poised mirror ⟨state.now, shown⟩
              (trace.stageAt mirror.config.scheduler (state.now + 1))
              (mirror.instant driven ⟨state.now, shown⟩) := by
          intro rest unlimited
          exact Poised.instant poised order
            ((mirror.continues_instants rest continued.sound).unlimited unlimited)
        cases least : (state.turn trace.slots mirror.config.scheduler).nextTimes.min? with
        | none =>
            rw [replayInstants_last unfinished least,
              List.filterMap_cons_some instantEq] at unlimited ⊢
            refine ⟨_, _, stepped [] unlimited, ?_⟩
            intro request known
            have quiet : Quiescent (state.turn trace.slots mirror.config.scheduler)
                (state.now + 1 + request.latestNs) := by
              apply Tracks.quiescent_of_next turned
              rw [List.min?_eq_none_iff.mp least]
              intro instant member
              contradiction
            have still := congrFun (Tracks.quiet_starts turned (by omega) quiet) request.id
            exact still.symm.trans (Trace.finalStart_eq known (by omega))
        | some next =>
            rw [replayInstants_next unfinished least,
              List.filterMap_cons_some instantEq, List.foldl_cons] at unlimited ⊢
            obtain ⟨chosen, below⟩ := List.min?_eq_some_iff.mp least
            have later : state.now < next := (mem_nextTimes.mp chosen).1
            have fewer := (jump_pending chosen).trans_le
              (turn_pending trace.slots mirror.config.scheduler state)
            rw [events] at fewer
            have quiet := Tracks.quiescent_of_next turned below
            have advanced := Tracks.advance tracks ⟨unfinished, next, least, rfl⟩
            have more : (state.turn trace.slots mirror.config.scheduler).unfinished = true :=
              unfinished_of_next chosen
            exact ih _ fewer advanced more ((stepped _ unlimited).wait turned later quiet)
              (Nat.le_of_lt later) unlimited rfl
      · -- no clock of the coordinator shows such an instant, but every job has expired
        have unseen : (replayInstants trace.slots mirror.config.scheduler state).filterMap
            Ns.ofNat? = [] := by
          apply List.filterMap_eq_nil_iff.mpr
          intro instant member
          have := replayInstants_le instant member
          exact dif_neg (by omega)
        rw [unseen]
        refine ⟨now, state.now, poised, ?_⟩
        intro request known
        apply Trace.finalStart_eq known
        have deadline := request.deadlineNs.isLt
        unfold ReplayRequest.latestNs
        omega

/-- The driver ends with the whole greedy schedule done. -/
theorem Mirror.Ready.finished (ready : mirror.Ready campaign)
    (unlimited : (mirror.drive campaign).campaign.ledger.Unlimited) :
    ∃ last cut, Poised mirror last (trace.stageAt mirror.config.scheduler cut)
        (mirror.drive campaign) ∧
      ∀ request ∈ trace.requests,
        (trace.work mirror.config.scheduler).startsBefore cut request.id =
          (trace.work mirror.config.scheduler).finalStart request.id := by
  have initially : trace.TracksAt mirror.config.scheduler (Replaying.initial trace).now
    (Replaying.initial trace) := Trace.tracks_initial
  by_cases unfinished : (Replaying.initial trace).unfinished = true
  · exact Poised.drive initially unfinished ready.poised (Nat.le_refl 0) unlimited
  · have empty : trace.ordered = [] := by
      simpa [Replaying.unfinished, Replaying.initial] using unfinished
    have nothing : mirror.drive campaign = ⟨campaign, fun _ => none⟩ := by
      rw [Mirror.drive, replayInstants, if_neg unfinished]
      rfl
    rw [nothing]
    refine ⟨0, 0, ready.poised, ?_⟩
    intro request known
    rw [← Trace.mem_ordered, empty] at known
    contradiction

/-- At a stage of the greedy schedule the started jobs are those of the
schedule. -/
theorem Poised.dispatched_iff {id : Name} {instant : Nat}
    (poised : Poised mirror now (trace.stageAt mode cut) driven) :
    driven.campaign.ledger.Dispatched id instant ↔ ∃ request ∈ trace.requests,
      request.id = id ∧ (trace.work mode).startsBefore cut request.id = some instant := by
  obtain ⟨memory, live, staged⟩ := poised.live
  constructor
  · rintro ⟨row, member, rfl, begun⟩
    have found := Table.lookup_of_mem member
    obtain ⟨request, known, released, job⟩ := staged.rows _ row found
    obtain ⟨-, receipt, stored, stands⟩ := staged.stored request known released
    have key : row.key = (mirror.job request).key := by rw [← job]; rfl
    have same : row = ⟨mirror.job request, receipt⟩ := by
      rw [key] at found
      exact Option.some.inj (found.symm.trans stored)
    refine ⟨request, known, by rw [job, (mirror.mirrored request known).id], ?_⟩
    rw [same] at begun
    exact stands.started.symm.trans begun
  · rintro ⟨request, known, rfl, started⟩
    obtain ⟨-, early, release, -⟩ := Demand.startsBefore_spec started
    have released : (trace.work mode).release request.id < cut := by omega
    obtain ⟨-, receipt, stored, stands⟩ := staged.stored request known released
    exact ⟨_, Table.mem_of_lookup stored, (mirror.mirrored request known).id,
      stands.started.trans started⟩

end Prediction

/-- Replay predicts the real coordinator. -/
theorem dispatched_iff_started {trace : Trace} (mirror : Mirror trace) {campaign : Campaign}
    (ready : mirror.Ready campaign)
    (unlimited : (mirror.drive campaign).campaign.ledger.Unlimited) (id : Name) (instant : Nat) :
    (mirror.drive campaign).campaign.ledger.Dispatched id instant ↔
      (replay trace mirror.config.scheduler).Started id instant := by
  have started : (replay trace mirror.config.scheduler).Started id instant ↔
      ∃ request ∈ trace.requests, request.id = id ∧
        (trace.work mirror.config.scheduler).finalStart request.id = some instant := by
    rw [ReplayReport.Started, replay_records]
    constructor
    · rintro ⟨record, member, named, begun⟩
      obtain ⟨request, known, rfl⟩ := List.mem_map.mp member
      refine ⟨request, Trace.mem_ordered.mp known, ?_⟩
      unfold Trace.finalRecord at named begun
      cases final : (trace.work mirror.config.scheduler).finalStart request.id with
      | none =>
          rw [final] at begun
          contradiction
      | some began =>
          rw [final] at named begun
          exact ⟨named, begun⟩
    · rintro ⟨request, known, named, final⟩
      refine ⟨_, List.mem_map_of_mem (Trace.mem_ordered.mpr known), ?_⟩
      rw [Trace.finalRecord, final]
      exact ⟨named, rfl⟩
  obtain ⟨last, cut, poised, final⟩ := ready.finished unlimited
  rw [started, poised.dispatched_iff]
  constructor
  · rintro ⟨request, known, named, begun⟩
    exact ⟨request, known, named, (final request known).symm.trans begun⟩
  · rintro ⟨request, known, named, begun⟩
    exact ⟨request, known, named, (final request known).trans begun⟩

namespace Sample

def followingName : Name := ⟨"following", by decide⟩

/-- A request for the sample endpoint. -/
def inspection : ReplayRequest :=
  { probe 5 (by decide) with
    id := job
    session := session
    releaseNs := 11
    captureNs := 10
    deadlineNs := 1000
    profileNs := 1
    maxAgeNs := 1000
    captured := by decide
    timely := by decide }

/-- A request that is released with it and has to wait for the slot. -/
def following : ReplayRequest :=
  { inspection with id := followingName, deadlineNs := 1001, timely := by decide }

def inspectionTrace : Trace :=
  { brief with
    requests := [inspection, following]
    bounded := by decide
    unique := by decide
    inside := by decide }

/-- The jobs that mirror the requests. -/
def inspectionJob : Job := ⟨fields, fields_valid⟩

def followingJob : Job where
  toJobFields := { fields with id := followingName, deadlineNs := 1001 }
  valid := by decide

def inspectionMirror : Mirror inspectionTrace where
  config := config
  clockId := firstClock
  allowNetwork := false
  backends := []
  pool := config.pools.head (by decide)
  job := fun request => if request.id = job then inspectionJob else followingJob
  endpoint := fun _ => endpoint
  reply := fun _ => ⟨"{}", .ofCost 3, none, none, unidentified⟩
  returns := [inspection, following]
  onePool := rfl
  slots := rfl
  journal := by decide
  mirrored := by
    intro request member
    rcases List.mem_pair.mp member with rfl | rfl
    all_goals
      constructor
      case evidence => exact ⟨observation, by decide, by decide, by decide, by decide⟩
      all_goals decide +kernel
  inflight := by decide
  network := by decide
  evidence := by decide +kernel
  storable := by
    intro request _
    constructor <;> decide
  allReturn := .refl _

/-- The coordinator has opened the session of the requests. -/
def inspectionCampaign : Campaign := (Campaign.fresh config.caps).run (opening fun _ => 0)

theorem inspectionMirror_ready : inspectionMirror.Ready inspectionCampaign := by
  constructor
  · exact ⟨_, _, rfl⟩
  · exact ⟨_, rfl, rfl, rfl, rfl, rfl, rfl⟩
  · rfl
  · rfl
  · rfl
  · intro request member
    rcases List.mem_pair.mp member with rfl | rfl <;>
      exact ⟨_, rfl, rfl, rfl, rfl, rfl, rfl⟩

/-- The instants of the replay: the releases, and the two completions. -/
theorem inspectionTrace_instants :
    replayInstants 1 .slack (Replaying.initial inspectionTrace) = [0, 11, 16, 21] := by
  rw [replayInstants_next (by decide) (show _ = some 11 by decide),
    replayInstants_next (by decide) (show _ = some 16 by decide),
    replayInstants_next (by decide) (show _ = some 21 by decide), replayInstants_last]
  all_goals decide

/-- The coordinator gives the slot to the second request when the first one has
completed, and so does the replay. -/
theorem inspection_dispatched :
    (inspectionMirror.drive inspectionCampaign).campaign.ledger.Dispatched followingName 16 ∧
      (replay inspectionTrace .slack).Started followingName 16 := by
  have driven : inspectionMirror.drive inspectionCampaign =
      (([0, 11, 16, 21] : List Nat).filterMap Ns.ofNat?).foldl inspectionMirror.instant
        ⟨inspectionCampaign, fun _ => none⟩ := by
    rw [← inspectionTrace_instants]
    rfl
  have unlimited : (inspectionMirror.drive inspectionCampaign).campaign.ledger.Unlimited := by
    rw [driven]
    decide +kernel
  have dispatched :
      (inspectionMirror.drive inspectionCampaign).campaign.ledger.Dispatched followingName 16 := by
    rw [driven]
    unfold Ledger.Dispatched
    decide +kernel
  exact ⟨dispatched, (dispatched_iff_started inspectionMirror inspectionMirror_ready unlimited
    followingName 16).mp dispatched⟩

end Sample

end AgminaRuntime
