import AgminaRuntime.Store
import AgminaRuntime.StrictJson

/-!
# Charge records

A provider export is a list of records, each a JSON object of exactly three
fields.  `record` checks one of them, and an import as a whole has at least
one record and no job twice.
-/

namespace AgminaRuntime

open Json (Value)

/-- `MAX_IMPORT_BYTES` -/
def maxImportBytes : Nat := 8000000

/-- `MAX_RECORDS` -/
def maxRecords : Nat := 10000

/-- The names `job_id`, `actual_microusd` and `evidence_ref`. -/
def jobIdKey : List Json.Point :=
  ['j', 'o', 'b', '_', 'i', 'd'].map Json.pointOf

def actualKey : List Json.Point :=
  ['a', 'c', 't', 'u', 'a', 'l', '_', 'm', 'i', 'c', 'r', 'o', 'u', 's', 'd'].map Json.pointOf

def evidenceKey : List Json.Point :=
  ['e', 'v', 'i', 'd', 'e', 'n', 'c', 'e', '_', 'r', 'e', 'f'].map Json.pointOf

/-- `RECORD_KEYS` -/
def recordKeys : List (List Json.Point) := [jobIdKey, actualKey, evidenceKey]

/-- A record that `_record` lets pass. -/
structure Charge.WellFormed (charge : Charge) : Prop where
  job : charge.job.length ≠ 0 ∧ charge.job.length ≤ 256
  evidence : charge.evidenceRef.length ≠ 0 ∧ charge.evidenceRef.length ≤ 1024
  line : (0x0A : CodePoint) ∉ charge.evidenceRef.points

/-- The records of an import. -/
structure ImportRecords where
  charges : List Charge
  wellFormed : ∀ charge ∈ charges, charge.WellFormed
  nonempty : charges ≠ []
  bounded : charges.length ≤ maxRecords
  distinct : (charges.map Charge.job).Nodup

/-- The entries that an import passes to `reconcile_many`. -/
def ImportRecords.entries (records : ImportRecords) : List (PyValue × PyValue × PyValue) :=
  records.charges.map fun charge =>
    (.str charge.job, .int charge.actualMicrousd, .str charge.evidenceRef)

section

variable {φ : Type}

/-- `_record(value, source=source)` -/
def record (value : Value φ) (source : String) : Except PyExc Charge :=
  match value with
  | .obj members =>
      if (∀ name ∈ members.map Prod.fst, name ∈ recordKeys) ∧
          ∀ key ∈ recordKeys, key ∈ members.map Prod.fst then
        match members.lookup jobIdKey with
        | some (.str job) =>
            if job.length = 0 ∨ 256 < job.length then
              .error (.valueError (source ++ ": invalid job_id"))
            else
              match members.lookup actualKey with
              | some (.int actual) =>
                  if actual < 0 then
                    .error (.valueError (source ++ ": actual_microusd must be a nonnegative integer"))
                  else
                    match members.lookup evidenceKey with
                    | some (.str evidence) =>
                        if evidence.length = 0 ∨ 1024 < evidence.length ∨
                            (0x0A : CodePoint) ∈ evidence then
                          .error (.valueError (source ++ ": invalid evidence_ref"))
                        else .ok ⟨⟨job⟩, actual.toNat, ⟨evidence⟩⟩
                    | _ => .error (.valueError (source ++ ": invalid evidence_ref"))
              | _ =>
                  .error (.valueError (source ++ ": actual_microusd must be a nonnegative integer"))
        | _ => .error (.valueError (source ++ ": invalid job_id"))
      else
        .error (.valueError
          (source ++ ": record must contain exactly job_id, actual_microusd, evidence_ref"))
  | _ =>
      .error (.valueError
        (source ++ ": record must contain exactly job_id, actual_microusd, evidence_ref"))

/-- What passes is well formed. -/
theorem record_wellFormed {value : Value φ} {source : String} {charge : Charge}
    (read : record value source = .ok charge) : charge.WellFormed := by
  unfold record at read
  split at read
  · split at read
    · split at read
      · split at read
        · contradiction
        rename_i job
        split at read
        · split at read
          · contradiction
          split at read
          · split at read
            · contradiction
            rename_i evidence
            obtain rfl := Except.ok.inj read
            simp only [not_or, not_lt] at job evidence
            exact ⟨⟨job.1, job.2⟩, ⟨evidence.1, evidence.2.1⟩, evidence.2.2⟩
          · contradiction
        · contradiction
      · contradiction
    · contradiction
  · contradiction

end

end AgminaRuntime
