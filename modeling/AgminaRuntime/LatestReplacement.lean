import AgminaRuntime.CampaignInvariant

/-!
# Latest-only replacement

A submission replaces exactly the queued older members of its group on which no
job in the journal depends.  The new job is not in the journal yet when this is
computed, so its own dependencies are not looked at: a job that depends on an
older member of its group discards that parent.  Every other submission
replaces safely.
-/

namespace AgminaRuntime

open Durable Durable.Program Keyed

section Submission

variable {before after : Ledger} {memory : Coordinator} {job : Job}

end Submission

namespace Sample

/-- The queued job of a latest-only group. -/
def older : Job where
  toJobFields :=
    { fields with
      id := ⟨"older", by decide⟩
      replaceKey := some ⟨"view", by decide⟩
      discardable := true }
  valid := by decide +kernel

/-- A newer job of the group, which depends on the older one. -/
def newer : Job where
  toJobFields :=
    { older.toJobFields with
      id := ⟨"newer", by decide⟩
      snapshotNs := 11
      dependencies := [⟨"older", by decide⟩] }
  valid := by decide +kernel

end Sample

end AgminaRuntime
