import AgminaRuntime.Campaign
import Mathlib.Data.List.Dedup
import Mathlib.Data.List.Induction

/-!
# The cache as a bounded map of least recently used entries

Over any sequence of calls the byte counter keeps to the stored sizes and both
limits hold.  What a lookup returns is told from the calls alone: the last
insertion under its key that fitted, unless an insertion has evicted it or a
lookup has found it expired since.  An insertion evicts the shortest run of
other entries, oldest use first, that makes room.
-/

namespace AgminaRuntime

namespace HistoricalCache

/-- A call of the cache. -/
inductive Call
  | get (key : Option CacheKey) (nowNs : Ns)
  | put (key : Option CacheKey) (payload : String) (computedNs : Ns)
  deriving DecidableEq

def step (cache : HistoricalCache) : Call → HistoricalCache
  | .get key nowNs => (cache.get key nowNs).2
  | .put key payload computedNs => cache.put key payload computedNs

def run (cache : HistoricalCache) (calls : List Call) : HistoricalCache :=
  calls.foldl step cache

/-! ## What the calls tell -/

/-- An insertion is not ignored. -/
def Fits (cache : HistoricalCache) (payload : String) : Prop :=
  cache.entries ≠ 0 ∧ payload.utf8ByteSize ≤ cache.maxBytes

instance (cache : HistoricalCache) (payload : String) : Decidable (cache.Fits payload) :=
  inferInstanceAs (Decidable (_ ∧ _))

/-- An entry is stored under the key. -/
def Stores (cache : HistoricalCache) (key : CacheKey) : Prop :=
  key ∈ cache.data.map CacheEntry.key

instance (cache : HistoricalCache) (key : CacheKey) : Decidable (cache.Stores key) :=
  inferInstanceAs (Decidable (_ ∈ _))

/-- The call evicts the entry of the key: it inserts under another one. -/
def Evicts (cache : HistoricalCache) (key : CacheKey) : Call → Prop
  | .get _ _ => False
  | .put other payload computedNs =>
      other ≠ some key ∧ cache.Stores key ∧ ¬ (cache.put other payload computedNs).Stores key

/-- The call looks the key up and finds its entry expired. -/
def FindsExpired (cache : HistoricalCache) (key : CacheKey) : Call → Prop
  | .get other nowNs => other = some key ∧ ∃ entry ∈ cache.data, entry.key = key ∧
      (cache.ttlNs.val : Int) ≤ nowNs.val - entry.computedNs.val
  | .put _ _ _ => False

/-- The call inserts under the key. -/
def Replaces (cache : HistoricalCache) (key : CacheKey) : Call → Prop
  | .get _ _ => False
  | .put other payload _ => other = some key ∧ cache.Fits payload

/-- None of the calls evicts the entry of the key, finds it expired or replaces
it. -/
def Keeps (key : CacheKey) : HistoricalCache → List Call → Prop
  | _, [] => True
  | cache, call :: calls =>
      (¬ cache.Evicts key call ∧ ¬ cache.FindsExpired key call ∧ ¬ cache.Replaces key call) ∧
        Keeps key (cache.step call) calls

/-- The last insertion under the key that fitted has been neither evicted nor
found expired. -/
def Retains (cache : HistoricalCache) (calls : List Call) (key : CacheKey) (payload : String)
    (computedNs : Ns) : Prop :=
  ∃ before after, calls = before ++ .put (some key) payload computedNs :: after ∧
    (cache.run before).Fits payload ∧
      Keeps key ((cache.run before).put (some key) payload computedNs) after

/-- The key that a call uses: a lookup that hits, or an insertion that fits. -/
def usedBy (cache : HistoricalCache) : Call → List CacheKey
  | .get (some key) nowNs => if (cache.get (some key) nowNs).1.isSome then [key] else []
  | .put (some key) payload _ => if cache.Fits payload then [key] else []
  | _ => []

/-- The keys that the calls have used, oldest use first. -/
def uses : HistoricalCache → List Call → List CacheKey
  | _, [] => []
  | cache, call :: calls => cache.usedBy call ++ uses (cache.step call) calls

/-- The entries of other keys, least recently used first. -/
def others (cache : HistoricalCache) (key : CacheKey) : List CacheEntry :=
  cache.data.filter fun entry => entry.key ≠ key

/-- The bytes of some entries. -/
def sizes (data : List CacheEntry) : Nat := (data.map CacheEntry.size).sum

/-- The entries leave room for one more of a given size. -/
def Room (cache : HistoricalCache) (size : Nat) (data : List CacheEntry) : Prop :=
  data.length < cache.entries ∧ sizes data + size ≤ cache.maxBytes

/-- The counter and the limits. -/
structure Sound (cache : HistoricalCache) : Prop where
  distinct : (cache.data.map CacheEntry.key).Nodup
  counted : cache.bytes = sizes cache.data
  bounded : sizes cache.data ≤ cache.maxBytes
  filled : cache.data.length ≤ cache.entries

/-! ## Lookups -/

variable {cache : HistoricalCache}

theorem sizes_cons (entry : CacheEntry) (data : List CacheEntry) :
    sizes (entry :: data) = entry.size + sizes data := by
  simp [sizes]

theorem sizes_append (first second : List CacheEntry) :
    sizes (first ++ second) = sizes first + sizes second := by
  simp [sizes]

/-- One entry is found under each stored key. -/
theorem Sound.find_eq (sound : cache.Sound) {entry : CacheEntry} (member : entry ∈ cache.data) :
    (cache.data.find? fun other => other.key = entry.key) = some entry := by
  have distinct := sound.distinct
  revert member distinct
  induction cache.data with
  | nil => simp
  | cons first rest ih =>
      intro member distinct
      rw [List.map_cons, List.nodup_cons] at distinct
      rcases List.mem_cons.mp member with rfl | later
      · simp
      · have apart : first.key ≠ entry.key := by
          intro same
          exact distinct.1 (same ▸ List.mem_map_of_mem later)
        rw [List.find?_cons_of_neg (by simpa using apart)]
        exact ih later distinct.2

theorem find_none {key : CacheKey} (absent : ¬ cache.Stores key) :
    (cache.data.find? fun other => other.key = key) = none := by
  rw [List.find?_eq_none]
  intro entry member same
  exact absent (of_decide_eq_true same ▸ List.mem_map_of_mem member)

theorem others_of_not_stores {key : CacheKey} (absent : ¬ cache.Stores key) :
    cache.others key = cache.data := by
  rw [others, List.filter_eq_self]
  intro entry member
  rw [decide_eq_true_eq]
  intro same
  exact absent (same ▸ List.mem_map_of_mem member)

/-- The entry of a key and the others make up the cache. -/
theorem Sound.perm_others (sound : cache.Sound) {entry : CacheEntry} (member : entry ∈ cache.data) :
    (entry :: cache.others entry.key).Perm cache.data := by
  have distinct := sound.distinct
  unfold others
  revert member distinct
  induction cache.data with
  | nil => simp
  | cons first rest ih =>
      intro member distinct
      rw [List.map_cons, List.nodup_cons] at distinct
      rcases List.mem_cons.mp member with rfl | later
      · have apart : (rest.filter fun other => other.key ≠ entry.key) = rest := by
          rw [List.filter_eq_self]
          intro other among
          rw [decide_eq_true_eq]
          intro same
          exact distinct.1 (same ▸ List.mem_map_of_mem among)
        rw [List.filter_cons_of_neg (by simp), apart]
      · have apart : first.key ≠ entry.key := by
          intro same
          exact distinct.1 (same ▸ List.mem_map_of_mem later)
        rw [List.filter_cons_of_pos (by simpa using apart)]
        exact (List.Perm.swap _ _ _).trans ((ih later distinct.2).cons first)

theorem Sound.sizes_others (sound : cache.Sound) {entry : CacheEntry}
    (member : entry ∈ cache.data) :
    sizes (cache.others entry.key) + entry.size = sizes cache.data := by
  have same := ((sound.perm_others member).map CacheEntry.size).sum_nat
  rw [List.map_cons, List.sum_cons] at same
  unfold sizes
  omega

theorem get_absent {key : CacheKey} (absent : ¬ cache.Stores key) (nowNs : Ns) :
    cache.get (some key) nowNs = (none, cache) := by
  rw [get]
  simp only [find_none absent]

theorem Sound.get_expired (sound : cache.Sound) {entry : CacheEntry} (member : entry ∈ cache.data)
    {nowNs : Ns} (expired : (cache.ttlNs.val : Int) ≤ nowNs.val - entry.computedNs.val) :
    cache.get (some entry.key) nowNs = (none, cache.pop entry) := by
  rw [get]
  simp only [sound.find_eq member, if_pos expired]

theorem Sound.get_young (sound : cache.Sound) {entry : CacheEntry} (member : entry ∈ cache.data)
    {nowNs : Ns} (young : ¬ (cache.ttlNs.val : Int) ≤ nowNs.val - entry.computedNs.val) :
    cache.get (some entry.key) nowNs =
      (some (entry.payload, entry.computedNs),
        { cache with data := cache.others entry.key ++ [entry] }) := by
  rw [get]
  simp only [sound.find_eq member, if_neg young]
  rfl

/-- A lookup hits exactly the stored entry that has not expired. -/
theorem Sound.get_eq_some_iff (sound : cache.Sound) {key : CacheKey} {nowNs computedNs : Ns}
    {payload : String} :
    (cache.get (some key) nowNs).1 = some (payload, computedNs) ↔
      (∃ entry ∈ cache.data, entry.key = key ∧ entry.payload = payload ∧
        entry.computedNs = computedNs) ∧
        (nowNs.val : Int) - computedNs.val < cache.ttlNs.val := by
  constructor
  · intro hit
    obtain ⟨entry, member, same, rfl, rfl, young⟩ := get_hit hit
    exact ⟨⟨entry, member, (Option.some.inj same).symm, rfl, rfl⟩, young⟩
  · rintro ⟨⟨entry, member, rfl, rfl, rfl⟩, young⟩
    rw [sound.get_young member (not_le.mpr young)]

/-! ## Insertions -/

/-- The loop drops the shortest run of the oldest entries that makes room. -/
theorem makeRoom_spec {size : Nat} (fits : 0 < cache.entries ∧ size ≤ cache.maxBytes)
    (data : List CacheEntry) :
    ∃ evicted kept, data = evicted ++ kept ∧
      makeRoom cache.entries cache.maxBytes size data (sizes data) =
          (kept, (sizes kept : Int)) ∧
        cache.Room size kept ∧ ∀ shorter < evicted.length, ¬ cache.Room size (data.drop shorter) := by
  induction data with
  | nil => exact ⟨[], [], rfl, rfl, by simpa [Room, sizes] using fits, by simp⟩
  | cons oldest rest ih =>
      rw [makeRoom]
      by_cases full : cache.entries ≤ (oldest :: rest).length ∨
          (cache.maxBytes : Int) < (sizes (oldest :: rest) : Int) + size
      · obtain ⟨evicted, kept, rfl, made, room, shortest⟩ := ih
        have dropped : ((sizes (oldest :: (evicted ++ kept)) : Nat) : Int) - oldest.size =
            sizes (evicted ++ kept) := by
          rw [sizes_cons]
          omega
        refine ⟨oldest :: evicted, kept, rfl, ?_, room, ?_⟩
        · rw [if_pos full, dropped, made]
        · intro shorter less
          cases shorter with
          | zero =>
              rw [List.drop_zero]
              rintro ⟨few, small⟩
              omega
          | succ shorter => exact shortest shorter (by simpa using less)
      · refine ⟨[], oldest :: rest, rfl, if_neg full, ?_, by simp⟩
        rw [not_or] at full
        exact ⟨by omega, by omega⟩

theorem put_ignored {key : Option CacheKey} {payload : String} (ignored : ¬ cache.Fits payload)
    (computedNs : Ns) : cache.put key payload computedNs = cache := by
  unfold put
  split
  · rfl
  · split
    · rfl
    · rename_i some
      have large : cache.maxBytes < payload.utf8ByteSize := by
        by_contra small
        exact ignored ⟨some, not_lt.mp small⟩
      exact if_pos large

/-- An insertion that fits drops the entry of its key, evicts the shortest run
of the others that makes room, and stores its own entry as the last one used. -/
theorem Sound.put_fits (sound : cache.Sound) {key : CacheKey} {payload : String}
    (fits : cache.Fits payload) (computedNs : Ns) :
    ∃ evicted kept, cache.others key = evicted ++ kept ∧
      cache.put (some key) payload computedNs =
        { cache with
          data := kept ++ [⟨key, payload, computedNs, payload.utf8ByteSize⟩]
          bytes := sizes kept + payload.utf8ByteSize } ∧
        cache.Room payload.utf8ByteSize kept ∧
          ∀ shorter < evicted.length,
            ¬ cache.Room payload.utf8ByteSize ((cache.others key).drop shorter) := by
  obtain ⟨evicted, kept, split, made, room, shortest⟩ :=
    makeRoom_spec ⟨Nat.pos_of_ne_zero fits.1, fits.2⟩ (cache.others key)
  refine ⟨evicted, kept, split, ?_, room, shortest⟩
  simp only [put, if_neg fits.1, if_neg (not_lt.mpr fits.2)]
  by_cases stored : cache.Stores key
  · obtain ⟨entry, member, rfl⟩ := List.mem_map.mp stored
    have counted : cache.bytes - entry.size = sizes (cache.others entry.key) := by
      have rest := sound.sizes_others member
      have all := sound.counted
      omega
    simp only [sound.find_eq member, pop, counted]
    rw [show (cache.data.filter fun other => other.key ≠ entry.key) = cache.others entry.key
      from rfl, made]
  · rw [others_of_not_stores stored] at made
    simp only [find_none stored, sound.counted, made]

/-! ## One call -/

/-- The limits stay as they were configured. -/
theorem step_limits (call : Call) :
    (cache.step call).entries = cache.entries ∧ (cache.step call).maxBytes = cache.maxBytes ∧
      (cache.step call).ttlNs = cache.ttlNs := by
  cases call with
  | get key nowNs =>
      rw [step]
      unfold get
      split
      · exact ⟨rfl, rfl, rfl⟩
      · split
        · exact ⟨rfl, rfl, rfl⟩
        · split <;> exact ⟨rfl, rfl, rfl⟩
  | put key payload computedNs =>
      rw [step]
      by_cases fits : cache.Fits payload
      · unfold put
        split
        · exact ⟨rfl, rfl, rfl⟩
        · rw [if_neg fits.1]
          dsimp only
          rw [if_neg (not_lt.mpr fits.2)]
          exact ⟨rfl, rfl, rfl⟩
      · rw [put_ignored fits]
        exact ⟨rfl, rfl, rfl⟩

theorem others_sublist (key : CacheKey) : (cache.others key).Sublist cache.data :=
  List.filter_sublist

theorem sizes_le_of_sublist {first second : List CacheEntry} (within : first.Sublist second) :
    sizes first ≤ sizes second := by
  induction within with
  | slnil => exact Nat.le_refl _
  | cons entry _ ih =>
      rw [sizes_cons]
      omega
  | cons_cons entry _ ih =>
      rw [sizes_cons, sizes_cons]
      omega

theorem not_mem_others (key : CacheKey) : key ∉ (cache.others key).map CacheEntry.key := by
  intro member
  obtain ⟨entry, among, same⟩ := List.mem_map.mp member
  exact of_decide_eq_true (List.mem_filter.mp among).2 same

/-- The counter and the limits hold after every call. -/
theorem Sound.step (sound : cache.Sound) (call : Call) : (cache.step call).Sound := by
  cases call with
  | get key nowNs =>
      rw [HistoricalCache.step]
      cases key with
      | none => exact sound
      | some key =>
          by_cases stored : cache.Stores key
          · obtain ⟨entry, member, rfl⟩ := List.mem_map.mp stored
            have total := sound.sizes_others member
            have counted := sound.counted
            by_cases expired : (cache.ttlNs.val : Int) ≤ nowNs.val - entry.computedNs.val
            · rw [sound.get_expired member expired]
              exact
                { distinct := sound.distinct.sublist ((cache.others_sublist entry.key).map _)
                  counted := show cache.bytes - entry.size = sizes (cache.others entry.key) by omega
                  bounded :=
                    (sizes_le_of_sublist (cache.others_sublist entry.key)).trans sound.bounded
                  filled := (cache.others_sublist entry.key).length_le.trans sound.filled }
            · rw [sound.get_young member expired]
              have moved : (cache.others entry.key ++ [entry]).Perm cache.data :=
                (List.perm_append_singleton _ _).trans (sound.perm_others member)
              have same : sizes (cache.others entry.key ++ [entry]) = sizes cache.data :=
                (moved.map CacheEntry.size).sum_nat
              exact
                { distinct := ((moved.map CacheEntry.key).nodup_iff).mpr sound.distinct
                  counted := by rw [same]; exact counted
                  bounded := by rw [same]; exact sound.bounded
                  filled := moved.length_eq.trans_le sound.filled }
          · rw [get_absent stored]
            exact sound
  | put key payload computedNs =>
      rw [HistoricalCache.step]
      by_cases fits : cache.Fits payload
      · cases key with
        | none => exact sound
        | some key =>
            obtain ⟨evicted, kept, split, stored, room, -⟩ := sound.put_fits fits computedNs
            rw [stored]
            have within : kept.Sublist (cache.others key) := by
              rw [split]
              exact List.sublist_append_right _ _
            have distinct : (kept.map CacheEntry.key).Nodup :=
              sound.distinct.sublist ((within.trans (cache.others_sublist key)).map _)
            have fresh : key ∉ kept.map CacheEntry.key :=
              fun member => cache.not_mem_others key ((within.map CacheEntry.key).subset member)
            have size : sizes (kept ++ [⟨key, payload, computedNs, payload.utf8ByteSize⟩]) =
                sizes kept + payload.utf8ByteSize := by
              rw [sizes_append]
              simp [sizes]
            constructor
            · rw [List.map_append]
              exact List.nodup_append_comm.mp (List.nodup_cons.mpr ⟨fresh, distinct⟩)
            · rw [size]
              rfl
            · rw [size]
              exact room.2
            · rw [List.length_append]
              exact room.1
      · rw [put_ignored fits]
        exact sound

/-- An entry stays unless the call evicts it, finds it expired or replaces it. -/
theorem Sound.mem_step (sound : cache.Sound) {entry : CacheEntry} (member : entry ∈ cache.data)
    {call : Call} (keeps : ¬ cache.Evicts entry.key call ∧ ¬ cache.FindsExpired entry.key call ∧
      ¬ cache.Replaces entry.key call) : entry ∈ (cache.step call).data := by
  cases call with
  | get key nowNs =>
      rw [HistoricalCache.step]
      cases key with
      | none => exact member
      | some key =>
          by_cases stored : cache.Stores key
          · obtain ⟨other, among, rfl⟩ := List.mem_map.mp stored
            by_cases expired : (cache.ttlNs.val : Int) ≤ nowNs.val - other.computedNs.val
            · rw [sound.get_expired among expired]
              apply List.mem_filter.mpr
              refine ⟨member, decide_eq_true ?_⟩
              intro same
              exact keeps.2.1 ⟨congrArg some same.symm, other, among, same.symm, expired⟩
            · rw [sound.get_young among expired]
              by_cases same : entry.key = other.key
              · obtain rfl := List.inj_on_of_nodup_map sound.distinct member among same
                exact List.mem_append_right _ (List.mem_singleton.mpr rfl)
              · apply List.mem_append_left
                exact List.mem_filter.mpr ⟨member, decide_eq_true same⟩
          · rw [get_absent stored]
            exact member
  | put key payload computedNs =>
      rw [HistoricalCache.step]
      by_cases fits : cache.Fits payload
      · cases key with
        | none => exact member
        | some key =>
            by_cases same : key = entry.key
            · exact absurd ⟨congrArg some same, fits⟩ keeps.2.2
            · obtain ⟨evicted, kept, split, stored, -, -⟩ := sound.put_fits fits computedNs
              have remains : (cache.put (some key) payload computedNs).Stores entry.key := by
                by_contra gone
                exact keeps.1 ⟨fun equal => same (Option.some.inj equal),
                  List.mem_map_of_mem member, gone⟩
              obtain ⟨other, among, named⟩ := List.mem_map.mp remains
              rw [stored] at among
              rcases List.mem_append.mp among with old | new
              · have known : other ∈ cache.data := by
                  apply (cache.others_sublist key).subset
                  rw [split]
                  exact List.mem_append_right _ old
                obtain rfl := List.inj_on_of_nodup_map sound.distinct known member named
                rw [stored]
                exact List.mem_append_left _ old
              · rw [List.mem_singleton.mp new] at named
                exact absurd named same
      · rw [put_ignored fits]
        exact member

/-- Every entry after a call was there before and is kept by it, or was inserted
by it. -/
theorem Sound.of_mem_step (sound : cache.Sound) {entry : CacheEntry} {call : Call}
    (member : entry ∈ (cache.step call).data) :
    (call = .put (some entry.key) entry.payload entry.computedNs ∧ cache.Fits entry.payload) ∨
      entry ∈ cache.data ∧ ¬ cache.Evicts entry.key call ∧ ¬ cache.FindsExpired entry.key call ∧
        ¬ cache.Replaces entry.key call := by
  cases call with
  | get key nowNs =>
      have old : entry ∈ cache.data := get_data_subset member
      refine .inr ⟨old, fun evicts => evicts, ?_, fun replaces => replaces⟩
      rintro ⟨rfl, other, among, named, expired⟩
      obtain rfl := List.inj_on_of_nodup_map sound.distinct among old named
      rw [HistoricalCache.step, sound.get_expired among expired] at member
      exact of_decide_eq_true (List.mem_filter.mp member).2 rfl
  | put key payload computedNs =>
      rw [HistoricalCache.step] at member
      by_cases fits : cache.Fits payload
      · cases key with
        | none => exact .inr ⟨member, fun evicts => evicts.2.2 evicts.2.1, fun finds => finds,
            fun replaces => by simpa using replaces.1⟩
        | some key =>
            obtain ⟨evicted, kept, split, stored, -, -⟩ := sound.put_fits fits computedNs
            rw [stored] at member
            rcases List.mem_append.mp member with old | new
            · have among : entry ∈ cache.others key := by
                rw [split]
                exact List.mem_append_right _ old
              refine .inr ⟨(cache.others_sublist key).subset among, ?_, fun finds => finds, ?_⟩
              · rintro ⟨-, -, gone⟩
                rw [stored] at gone
                exact gone (List.mem_map_of_mem (List.mem_append_left _ old))
              · rintro ⟨same, -⟩
                obtain rfl := Option.some.inj same
                exact cache.not_mem_others _ (List.mem_map_of_mem among)
            · obtain rfl := List.mem_singleton.mp new
              exact .inl ⟨rfl, fits⟩
      · rw [put_ignored fits] at member
        refine .inr ⟨member, ?_, fun finds => finds, fun replaces => fits replaces.2⟩
        rintro ⟨-, stores, gone⟩
        rw [put_ignored fits] at gone
        exact gone stores

/-! ## Any sequence of calls -/

theorem run_append (calls : List Call) (call : Call) :
    cache.run (calls ++ [call]) = (cache.run calls).step call := by
  rw [run, List.foldl_append]
  rfl

theorem Sound.run (sound : cache.Sound) (calls : List Call) : (cache.run calls).Sound := by
  induction calls generalizing cache with
  | nil => exact sound
  | cons call calls ih => exact ih (sound.step call)

theorem run_limits (calls : List Call) :
    (cache.run calls).entries = cache.entries ∧ (cache.run calls).maxBytes = cache.maxBytes ∧
      (cache.run calls).ttlNs = cache.ttlNs := by
  induction calls generalizing cache with
  | nil => exact ⟨rfl, rfl, rfl⟩
  | cons call calls ih =>
      obtain ⟨entries, maxBytes, ttlNs⟩ := cache.step_limits call
      have rest := @ih (cache.step call)
      rw [entries, maxBytes, ttlNs] at rest
      exact rest

theorem keeps_append {key : CacheKey} {calls : List Call} {call : Call} :
    Keeps key cache (calls ++ [call]) ↔ Keeps key cache calls ∧
      ¬ (cache.run calls).Evicts key call ∧ ¬ (cache.run calls).FindsExpired key call ∧
        ¬ (cache.run calls).Replaces key call := by
  induction calls generalizing cache with
  | nil => simp [Keeps, run]
  | cons first calls ih =>
      rw [List.cons_append, Keeps, Keeps, ih]
      exact and_assoc.symm

theorem uses_append (calls : List Call) (call : Call) :
    cache.uses (calls ++ [call]) = cache.uses calls ++ (cache.run calls).usedBy call := by
  induction calls generalizing cache with
  | nil => simp [uses, run]
  | cons first calls ih =>
      rw [List.cons_append, uses, uses, ih, List.append_assoc]
      rfl

/-- One more call: it is the insertion itself, or it keeps what was retained. -/
theorem retains_append {key : CacheKey} {calls : List Call} {call : Call} {payload : String}
    {computedNs : Ns} :
    cache.Retains (calls ++ [call]) key payload computedNs ↔
      (call = .put (some key) payload computedNs ∧ (cache.run calls).Fits payload) ∨
        cache.Retains calls key payload computedNs ∧ ¬ (cache.run calls).Evicts key call ∧
          ¬ (cache.run calls).FindsExpired key call ∧ ¬ (cache.run calls).Replaces key call := by
  constructor
  · rintro ⟨before, after, split, fits, keeps⟩
    rcases List.eq_nil_or_concat' after with rfl | ⟨rest, last, rfl⟩
    · obtain ⟨rfl, same⟩ := List.append_inj' split rfl
      exact .inl ⟨(List.cons.inj same).1, fits⟩
    · have moved : calls ++ [call] =
          (before ++ .put (some key) payload computedNs :: rest) ++ [last] := by
        rw [split]
        simp
      obtain ⟨rfl, same⟩ := List.append_inj' moved rfl
      obtain rfl := (List.cons.inj same).1
      obtain ⟨early, late⟩ := keeps_append.mp keeps
      refine .inr ⟨⟨before, rest, rfl, fits, early⟩, ?_⟩
      rw [run, List.foldl_append]
      exact late
  · rintro (⟨rfl, fits⟩ | ⟨⟨before, after, rfl, fits, keeps⟩, late⟩)
    · exact ⟨calls, [], rfl, fits, trivial⟩
    · refine ⟨before, after ++ [call], by simp, fits, keeps_append.mpr ⟨keeps, ?_⟩⟩
      rw [run, List.foldl_append] at late
      exact late

/-- What is stored is what the calls tell. -/
theorem stored_iff_retains (sound : cache.Sound) (empty : cache.data = []) (calls : List Call)
    (key : CacheKey) (payload : String) (computedNs : Ns) :
    (∃ entry ∈ (cache.run calls).data, entry.key = key ∧ entry.payload = payload ∧
        entry.computedNs = computedNs) ↔ cache.Retains calls key payload computedNs := by
  induction calls using List.reverseRecOn with
  | nil =>
      constructor
      · rintro ⟨entry, member, -⟩
        rw [run, List.foldl_nil, empty] at member
        simp at member
      · rintro ⟨before, after, split, -⟩
        simp at split
  | append_singleton calls call ih =>
      rw [retains_append, ← ih, run_append]
      have before := sound.run calls
      constructor
      · rintro ⟨entry, member, rfl, rfl, rfl⟩
        rcases before.of_mem_step member with inserted | ⟨old, keeps⟩
        · exact .inl inserted
        · exact .inr ⟨⟨entry, old, rfl, rfl, rfl⟩, keeps⟩
      · rintro (⟨rfl, fits⟩ | ⟨⟨entry, old, rfl, rfl, rfl⟩, keeps⟩)
        · obtain ⟨evicted, kept, -, stored, -, -⟩ := before.put_fits fits computedNs
          refine ⟨⟨key, payload, computedNs, payload.utf8ByteSize⟩, ?_, rfl, rfl, rfl⟩
          rw [step, stored]
          exact List.mem_append_right _ (List.mem_singleton.mpr rfl)
        · exact ⟨entry, before.mem_step old keeps, rfl, rfl, rfl⟩

/-- The last use of a key moves it behind the others. -/
theorem dedup_append_singleton (keys : List CacheKey) (key : CacheKey) :
    (keys ++ [key]).dedup = (keys.dedup.filter fun other => other ≠ key) ++ [key] := by
  induction keys with
  | nil => simp
  | cons first keys ih =>
      rw [List.cons_append]
      by_cases again : first ∈ keys
      · rw [List.dedup_cons_of_mem (List.mem_append_left _ again), List.dedup_cons_of_mem again, ih]
      · rw [List.dedup_cons_of_notMem again]
        by_cases same : first = key
        · subst same
          rw [List.dedup_cons_of_mem (List.mem_append_right _ List.mem_cons_self), ih,
            List.filter_cons_of_neg (by simp)]
        · have fresh : first ∉ keys ++ [key] := by simp [again, same]
          rw [List.dedup_cons_of_notMem fresh, ih, List.filter_cons_of_pos (by simpa using same)]
          rfl

theorem map_key_others (key : CacheKey) :
    (cache.others key).map CacheEntry.key =
      (cache.data.map CacheEntry.key).filter fun other => other ≠ key := by
  rw [others, List.filter_map]
  rfl

/-- After a call that uses a key, its entry is the last one. -/
theorem Sound.keys_step (sound : cache.Sound) (call : Call) :
    (cache.usedBy call = [] ∧
        ((cache.step call).data.map CacheEntry.key).Sublist (cache.data.map CacheEntry.key)) ∨
      ∃ key, cache.usedBy call = [key] ∧ ((cache.step call).data.map CacheEntry.key).Sublist
        (((cache.data.map CacheEntry.key).filter fun other => other ≠ key) ++ [key]) := by
  cases call with
  | get key nowNs =>
      rw [HistoricalCache.step]
      cases key with
      | none => exact .inl ⟨rfl, List.Sublist.refl _⟩
      | some key =>
          rw [usedBy]
          by_cases stored : cache.Stores key
          · obtain ⟨entry, member, rfl⟩ := List.mem_map.mp stored
            by_cases expired : (cache.ttlNs.val : Int) ≤ nowNs.val - entry.computedNs.val
            · rw [sound.get_expired member expired]
              exact .inl ⟨rfl, (cache.others_sublist entry.key).map _⟩
            · rw [sound.get_young member expired]
              refine .inr ⟨entry.key, rfl, ?_⟩
              rw [List.map_append, map_key_others]
              exact List.Sublist.refl _
          · rw [get_absent stored]
            exact .inl ⟨rfl, List.Sublist.refl _⟩
  | put key payload computedNs =>
      rw [HistoricalCache.step]
      by_cases fits : cache.Fits payload
      · cases key with
        | none => exact .inl ⟨rfl, List.Sublist.refl _⟩
        | some key =>
            obtain ⟨evicted, kept, split, stored, -, -⟩ := sound.put_fits fits computedNs
            refine .inr ⟨key, by rw [usedBy, if_pos fits], ?_⟩
            rw [stored, ← map_key_others, split, List.map_append]
            exact ((List.sublist_append_right evicted kept).map _).append (List.Sublist.refl _)
      · rw [put_ignored fits]
        refine .inl ⟨?_, List.Sublist.refl _⟩
        cases key with
        | none => rfl
        | some key => rw [usedBy, if_neg fits]

/-- The entries are stored in the order of their last use. -/
theorem keys_sublist_uses (sound : cache.Sound) (empty : cache.data = []) (calls : List Call) :
    ((cache.run calls).data.map CacheEntry.key).Sublist (cache.uses calls).dedup := by
  induction calls using List.reverseRecOn with
  | nil =>
      rw [run, List.foldl_nil, empty]
      exact List.nil_sublist _
  | append_singleton calls call ih =>
      rw [run_append, uses_append]
      rcases (sound.run calls).keys_step call with ⟨unused, within⟩ | ⟨key, used, within⟩
      · rw [unused, List.append_nil]
        exact within.trans ih
      · rw [used, dedup_append_singleton]
        exact within.trans ((ih.filter _).append (List.Sublist.refl _))

theorem new_sound (entries maxBytes : Nat) (ttlNs : Ns) : (new entries maxBytes ttlNs).Sound where
  distinct := List.nodup_nil
  counted := rfl
  bounded := Nat.zero_le _
  filled := Nat.zero_le _

end HistoricalCache

open HistoricalCache in
/-- The cache is a bounded map of least recently used entries with expiry, over
every sequence of calls. -/
theorem cache_refines_lru (entries maxBytes : Nat) (ttlNs : Ns) (calls : List Call) :
    let fresh := new entries maxBytes ttlNs
    let cache := fresh.run calls
    (cache.bytes = sizes cache.data ∧ cache.bytes ≤ maxBytes ∧ cache.data.length ≤ entries) ∧
    (∀ key nowNs payload computedNs,
      (cache.get (some key) nowNs).1 = some (payload, computedNs) ↔
        fresh.Retains calls key payload computedNs ∧
          (nowNs.val : Int) - computedNs.val < ttlNs.val) ∧
    (cache.data.map CacheEntry.key).Sublist (fresh.uses calls).dedup ∧
    (∀ key payload computedNs, cache.Fits payload →
      ∃ evicted kept, cache.others key = evicted ++ kept ∧
        (cache.put (some key) payload computedNs).data =
          kept ++ [⟨key, payload, computedNs, payload.utf8ByteSize⟩] ∧
        cache.Room payload.utf8ByteSize kept ∧
          ∀ shorter < evicted.length,
            ¬ cache.Room payload.utf8ByteSize ((cache.others key).drop shorter)) ∧
    ∀ key payload computedNs, (key = none ∨ ¬ cache.Fits payload) →
      cache.put key payload computedNs = cache := by
  intro fresh cache
  have sound := (new_sound entries maxBytes ttlNs).run calls
  obtain ⟨entriesEq, maxBytesEq, ttlEq⟩ := fresh.run_limits calls
  refine ⟨⟨sound.counted, ?_, ?_⟩, ?_, ?_, ?_, ?_⟩
  · have bounded := sound.bounded
    rw [maxBytesEq] at bounded
    rw [sound.counted]
    exact_mod_cast bounded
  · exact sound.filled.trans_eq entriesEq
  · intro key nowNs payload computedNs
    rw [sound.get_eq_some_iff, stored_iff_retains (new_sound entries maxBytes ttlNs) rfl, ttlEq]
    rfl
  · exact keys_sublist_uses (new_sound entries maxBytes ttlNs) rfl calls
  · intro key payload computedNs fits
    obtain ⟨evicted, kept, split, stored, room, shortest⟩ := sound.put_fits fits computedNs
    exact ⟨evicted, kept, split, by rw [stored], room, shortest⟩
  · rintro key payload computedNs (rfl | ignored)
    · rfl
    · exact put_ignored ignored computedNs

namespace Sample

def query : Job := ⟨{ fields with resultKind := .historical, cacheable := true }, by decide⟩

def contract : ModelContract := ⟨model, "weights", "preprocessing", "operation", "schema"⟩

def cacheKey : CacheKey := ⟨(⟨contract⟩, query.cacheView)⟩

end Sample

/-- A cache for no entries ignores an insertion of 2 bytes, which fits its 10
bytes. -/
theorem empty_cache_ignores_insertion :
    HistoricalCache.key Sample.query ⟨Sample.contract⟩ = some Sample.cacheKey ∧
      "{}".utf8ByteSize ≤ 10 ∧
        (((HistoricalCache.new 0 10 100).run [.put (some Sample.cacheKey) "{}" 0]).get
          (some Sample.cacheKey) 0).1 = none := by
  decide

end AgminaRuntime
