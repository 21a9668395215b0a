import AgminaRuntime.Config

/-!
# The exact-result cache of immutable historical queries

Full evidence timestamps, session, epoch, task and the pinned model contract
enter the key.  Entries are kept least recently used first.
-/

namespace AgminaRuntime

/-- The fields of a job that enter its cache key: everything but the identity,
the deadline, the priority, the allowed sites, the dependencies and the two
replacement fields. -/
structure CacheView where
  tenant : Name
  sessionId : Name
  epoch : Ns
  taskRevision : Name
  clockId : Name
  model : Name
  operation : Name
  workload : Workload
  resultKind : ResultKind
  observations : List Observation
  snapshotNs : Ns
  maxAgeNs : Option Ns
  maxUncertaintyNs : Ns
  payloadJson : String
  cacheable : Bool
  deriving DecidableEq

def Job.cacheView (job : Job) : CacheView where
  tenant := job.tenant
  sessionId := job.sessionId
  epoch := job.epoch
  taskRevision := job.taskRevision
  clockId := job.clockId
  model := job.model
  operation := job.operation
  workload := job.workload
  resultKind := job.resultKind
  observations := job.observations
  snapshotNs := job.snapshotNs
  maxAgeNs := job.maxAgeNs
  maxUncertaintyNs := job.maxUncertaintyNs
  payloadJson := job.payloadJson
  cacheable := job.cacheable

abbrev CacheKey := Fingerprint (Fingerprint ModelContract × CacheView)

structure CacheEntry where
  key : CacheKey
  payload : String
  computedNs : Ns
  size : Nat
  deriving DecidableEq

structure HistoricalCache where
  entries : Nat
  maxBytes : Nat
  ttlNs : Ns
  data : List CacheEntry
  bytes : Int
  deriving DecidableEq

namespace HistoricalCache

/-- `HistoricalCache(entries, max_bytes, ttl_ns)`. -/
def new (entries maxBytes : Nat) (ttlNs : Ns) : HistoricalCache :=
  ⟨entries, maxBytes, ttlNs, [], 0⟩

/-- `HistoricalCache.key`. -/
def key (job : Job) (contractFingerprint : Fingerprint ModelContract) : Option CacheKey :=
  if ¬ job.cacheable ∨ job.resultKind ≠ .historical then none
  else some ⟨(contractFingerprint, job.cacheView)⟩

/-- Remove the entry of a key. -/
def pop (cache : HistoricalCache) (entry : CacheEntry) : HistoricalCache :=
  { cache with
    data := cache.data.filter fun other => other.key ≠ entry.key
    bytes := cache.bytes - entry.size }

/-- `HistoricalCache.get`: the payload and its computation time, and the cache
afterwards. -/
def get (cache : HistoricalCache) (key : Option CacheKey) (nowNs : Ns) :
    Option (String × Ns) × HistoricalCache :=
  match key with
  | none => (none, cache)
  | some key =>
      match cache.data.find? fun entry => entry.key = key with
      | none => (none, cache)
      | some entry =>
          if (cache.ttlNs.val : Int) ≤ nowNs.val - entry.computedNs.val then
            (none, cache.pop entry)
          else
            -- move_to_end
            (some (entry.payload, entry.computedNs),
              { cache with
                data := (cache.data.filter fun other => other.key ≠ key) ++ [entry] })

/-- The `while` loop of `put`: drop the oldest entries until `size` more bytes
and one more entry fit. -/
def makeRoom (entries maxBytes size : Nat) : List CacheEntry → Int → List CacheEntry × Int
  | [], bytes => ([], bytes)
  | oldest :: rest, bytes =>
      if entries ≤ (oldest :: rest).length ∨ (maxBytes : Int) < bytes + size then
        makeRoom entries maxBytes size rest (bytes - oldest.size)
      else (oldest :: rest, bytes)

/-- `HistoricalCache.put`. -/
def put (cache : HistoricalCache) (key : Option CacheKey) (payload : String)
    (computedNs : Ns) : HistoricalCache :=
  match key with
  | none => cache
  | some key =>
      if cache.entries = 0 then cache
      else
        let size := payload.utf8ByteSize
        if cache.maxBytes < size then cache
        else
          let cleared :=
            match cache.data.find? fun entry => entry.key = key with
            | none => cache
            | some entry => cache.pop entry
          let (data, bytes) :=
            makeRoom cache.entries cache.maxBytes size cleared.data cleared.bytes
          { cache with
            data := data ++ [⟨key, payload, computedNs, size⟩]
            bytes := bytes + size }

/-! ## What a lookup and an insertion change -/

variable {cache : HistoricalCache} {key : Option CacheKey}

/-- A hit is an entry under the key that is younger than the time to live. -/
theorem get_hit {nowNs computedNs : Ns} {payload : String}
    (hit : (cache.get key nowNs).1 = some (payload, computedNs)) :
    ∃ entry ∈ cache.data, key = some entry.key ∧ entry.payload = payload ∧
      entry.computedNs = computedNs ∧
        (nowNs.val : Int) - entry.computedNs.val < cache.ttlNs.val := by
  unfold get at hit
  split at hit
  · contradiction
  · rename_i key
    split at hit
    · contradiction
    · rename_i entry found
      split at hit
      · contradiction
      · rename_i young
        simp only [Option.some.injEq, Prod.mk.injEq] at hit
        have named : entry.key = key := by simpa using List.find?_some found
        exact ⟨entry, List.mem_of_find?_eq_some found, by rw [named], hit.1, hit.2,
          not_le.mp young⟩

theorem get_data_subset {nowNs : Ns} {entry : CacheEntry}
    (member : entry ∈ (cache.get key nowNs).2.data) : entry ∈ cache.data := by
  unfold get at member
  split at member
  · exact member
  · split at member
    · exact member
    · rename_i other found
      split at member
      · exact (List.mem_filter.mp member).1
      · rcases List.mem_append.mp member with kept | moved
        · exact (List.mem_filter.mp kept).1
        · rw [List.mem_singleton.mp moved]
          exact List.mem_of_find?_eq_some found

@[simp] theorem get_ttlNs {nowNs : Ns} : (cache.get key nowNs).2.ttlNs = cache.ttlNs := by
  unfold get
  split
  · rfl
  · split
    · rfl
    · split <;> rfl

theorem makeRoom_subset {entries maxBytes size : Nat} {data : List CacheEntry} {bytes : Int} :
    (makeRoom entries maxBytes size data bytes).1 ⊆ data := by
  induction data generalizing bytes with
  | nil => simp [makeRoom]
  | cons oldest rest ih =>
      unfold makeRoom
      split
      · exact List.subset_cons_of_subset _ ih
      · exact List.Subset.refl _

/-- An insertion adds at most its own entry. -/
theorem put_data {computedNs : Ns} {payload : String} {entry : CacheEntry}
    (member : entry ∈ (cache.put key payload computedNs).data) :
    entry ∈ cache.data ∨
      key = some entry.key ∧ entry.payload = payload ∧ entry.computedNs = computedNs := by
  unfold put at member
  split at member
  · exact .inl member
  · split at member
    · exact .inl member
    · by_cases large : cache.maxBytes < payload.utf8ByteSize
      · rw [if_pos large] at member
        exact .inl member
      · rw [if_neg large] at member
        rcases List.mem_append.mp member with kept | added
        · have cleared := makeRoom_subset kept
          split at cleared
          · exact .inl cleared
          · exact .inl (List.mem_filter.mp cleared).1
        · rw [List.mem_singleton.mp added]
          exact .inr ⟨rfl, rfl, rfl⟩

@[simp] theorem put_ttlNs {computedNs : Ns} {payload : String} :
    (cache.put key payload computedNs).ttlNs = cache.ttlNs := by
  unfold put
  split
  · rfl
  · split
    · rfl
    · by_cases large : cache.maxBytes < payload.utf8ByteSize
      · rw [if_pos large]
      · rw [if_neg large]

end HistoricalCache

end AgminaRuntime
