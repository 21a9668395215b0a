import AgminaRuntime.Campaign
import AgminaRuntime.HttpEndpoint

/-!
# The charge of a chat reply

`usage_from_chat` reads the token counts of a reply and attaches the charge:
the one that the provider reports, else the price at the configured rates,
rounded up to a whole microdollar.  The charge is attached after the contract
has been checked, so its bound is the one field bound that can fail.
-/

namespace AgminaRuntime

open Json (Value)

/-- A field `Ns | None`, checked strictly: a `bool` is no integer. -/
def nsField {φ : Type} : Value φ → Except PyExc (Option Ns)
  | .null => .ok none
  | .int value =>
      if bounded : 0 ≤ value ∧ value < 2 ^ 63 then
        .ok (some ⟨value.toNat, by omega⟩)
      else .error (.validationError "Usage")
  | _ => .error (.validationError "Usage")

/-- A count of a subset does not exceed the count of the whole. -/
def subsetWithin : Option Ns → Option Ns → Bool
  | none, _ => true
  | some _, none => false
  | some part, some whole => part ≤ whole

theorem subsetWithin_iff {part whole : Option Ns} :
    subsetWithin part whole = true ↔ ∀ count ∈ part, ∃ total ∈ whole, count ≤ total := by
  cases part with
  | none => simp [subsetWithin]
  | some part => cases whole <;> simp [subsetWithin]

/-- `Usage(...)` without a charge. -/
def Usage.construct (inputTokens outputTokens cachedInputTokens reasoningOutputTokens : Option Ns) :
    Except PyExc Usage :=
  if within : subsetWithin cachedInputTokens inputTokens = true ∧
      subsetWithin reasoningOutputTokens outputTokens = true then
    .ok ⟨inputTokens, outputTokens, cachedInputTokens, reasoningOutputTokens, none,
      subsetWithin_iff.mp within.1, subsetWithin_iff.mp within.2⟩
  else .error (.validationError "Usage")

/-- The rates of a million tokens in microdollars. -/
structure Rates where
  input : Nat
  cached : Nat
  output : Nat

/-- The tokens that are priced. -/
structure Tokens where
  prompt : Nat
  cached : Nat
  completion : Nat

/-- A million times the price. -/
def Rates.numerator (rates : Rates) (tokens : Tokens) : Int :=
  ((tokens.prompt : Int) - tokens.cached) * rates.input + tokens.cached * rates.cached +
    tokens.completion * rates.output

/-- `(numerator + 999999)//1_000_000` -/
def Rates.charge (rates : Rates) (tokens : Tokens) : Int :=
  (rates.numerator tokens + 999999) / 1000000

section

variable {φ : Type} [PyFloats φ]

/-- The configured rates, if input and output have one; the cached rate is the
input rate unless it is set. -/
def HttpEndpoint.rates (endpoint : HttpEndpoint φ) : Option Rates := do
  let input ← endpoint.inputPerMillionMicrousd
  let output ← endpoint.outputPerMillionMicrousd
  pure ⟨input.val, ((endpoint.cachedPerMillionMicrousd.getD input)).val, output.val⟩

/-- The priced tokens, if the prompt and the completion are counted; a missing
cached count is zero. -/
def Usage.tokens (usage : Usage) : Option Tokens := do
  let prompt ← usage.inputTokens
  let completion ← usage.outputTokens
  pure ⟨prompt.val, (usage.cachedInputTokens.map Fin.val).getD 0, completion.val⟩

/-- `value.get(name) or {}`, of which only `get` is used. -/
def orEmpty (value : Value φ) : Except PyExc (Dict φ) :=
  if truthy value then
    match value with
    | .obj members => .ok members
    | _ => .error (.other "AttributeError")
  else .ok []

/-- The charge that the provider reports: `cost` in dollars. -/
def reportedCost (value : Value φ) : Except PyExc (Option Nat) :=
  match value with
  | .int dollars =>
      if isFloatable dollars then
        .ok (if 0 ≤ dollars then some (dollars * 1000000).toNat else none)
      else .error .overflowError
  | .float dollars =>
      if Json.Floats.finite dollars && PyFloats.nonnegative dollars then
        match PyFloats.micros dollars with
        | some micros => .ok (some micros)
        | none => .error .overflowError
      else .ok none
  | _ => .ok none

/-- The charge at the configured rates. -/
def pricedCost (usage : Usage) (endpoint : HttpEndpoint φ) : Option Nat := do
  let tokens ← usage.tokens
  let rates ← endpoint.rates
  pure (rates.charge tokens).toNat

/-- The charge that `usage_from_chat` attaches. -/
def chatCost (members : Dict φ) (usage : Usage) (endpoint : HttpEndpoint φ) :
    Except PyExc (Option Nat) :=
  if endpoint.externallyBilled = false then .ok (some 0)
  else do
    match ← reportedCost (Dict.get members "cost") with
    | some cost => pure (some cost)
    | none => pure (pricedCost usage endpoint)

/-- The token counts of `usage_from_chat`. -/
def chatTokens (members : Dict φ) : Except PyExc Usage := do
  let details ← orEmpty (Dict.get members "prompt_tokens_details")
  let outDetails ← orEmpty (Dict.get members "completion_tokens_details")
  let prompt ← nsField (Dict.get members "prompt_tokens")
  let completion ← nsField (Dict.get members "completion_tokens")
  let cached ← nsField (Dict.get details "cached_tokens")
  let reasoning ← nsField (Dict.get outDetails "reasoning_tokens")
  Usage.construct prompt completion cached reasoning

/-- `usage_from_chat(value, endpoint)` -/
def usageFromChat (value : Value φ) (endpoint : HttpEndpoint φ) : Except PyExc Usage :=
  match value with
  | .null =>
      .ok ⟨none, none, none, none, if endpoint.externallyBilled then none else some 0,
        Usage.within_unknown, Usage.within_unknown⟩
  | .obj members => do
      let usage ← chatTokens members
      let cost ← chatCost members usage endpoint
      pure { usage with costMicrousd := cost }
  | _ => .error (.valueError "Usage must be an object")

/-! ## What a charge is made of -/

/-- A count in a usage object. -/
def countOf : Value φ → Option Nat
  | .int value => some value.toNat
  | _ => none

/-- A member of a value that may be an object. -/
def memberOf (value : Value φ) (name : String) : Value φ :=
  match value with
  | .obj members => Dict.get members name
  | _ => .null

/-- The detail `prompt_tokens_details.cached_tokens` of a usage object. -/
def cachedDetail (members : Dict φ) : Value φ :=
  memberOf (Dict.get members "prompt_tokens_details") "cached_tokens"

/-- The tokens that a usage object counts. -/
def usageTokens (members : Dict φ) : Option Tokens := do
  let prompt ← countOf (Dict.get members "prompt_tokens")
  let completion ← countOf (Dict.get members "completion_tokens")
  pure ⟨prompt, (countOf (cachedDetail members)).getD 0, completion⟩

/-- A usage object is priced at the configured rates: the endpoint is paid, the
provider reports no charge, and the tokens and the rates are known. -/
structure Priced (value : Value φ) (endpoint : HttpEndpoint φ) (rates : Rates)
    (tokens : Tokens) : Prop where
  billed : endpoint.externallyBilled = true
  counted : ∃ members, value = .obj members ∧
    reportedCost (Dict.get members "cost") = .ok none ∧ usageTokens members = some tokens
  configured : endpoint.rates = some rates

/-- The exact price in microdollars. -/
def Rates.price (rates : Rates) (tokens : Tokens) : Rat :=
  (((tokens.prompt : Rat) - tokens.cached) * rates.input + tokens.cached * rates.cached +
    tokens.completion * rates.output) / 1000000

/-- A detail object without its cached tokens. -/
def eraseCached : Value φ → Value φ
  | .obj details => .obj (details.filter fun member => member.1 ≠ field "cached_tokens")
  | value => value

/-- The members of a usage object without the detail of cached tokens. -/
def withoutCachedMembers (members : Dict φ) : Dict φ :=
  members.map fun member =>
    (member.1, if member.1 = field "prompt_tokens_details" then eraseCached member.2
      else member.2)

/-- The usage object without the detail of cached tokens. -/
def withoutCached : Value φ → Value φ
  | .obj members => .obj (withoutCachedMembers members)
  | value => value

/-- What the contract and the rates promise of a returned usage: the charge is
within the bound of its field; at the configured rates it is the least whole
number of microdollars not below the price, and leaving out the cached tokens
does not lower it. -/
structure PricingHolds (value : Value φ) (endpoint : HttpEndpoint φ) (usage : Usage) : Prop where
  bounded : ∀ cost ∈ usage.costMicrousd, cost < 2 ^ 63
  least : ∀ rates tokens, Priced value endpoint rates tokens →
    ∃ cost ∈ usage.costMicrousd, (cost : Int) = ⌈rates.price tokens⌉
  conservative : ∀ rates tokens, Priced value endpoint rates tokens →
    ∃ other, usageFromChat (withoutCached value) endpoint = .ok other ∧
      ∃ cost ∈ usage.costMicrousd, ∃ plain ∈ other.costMicrousd, cost ≤ plain

/-- The dollars of a cost member are within what the field can hold of microdollars. -/
structure CostFits (cost : Value φ) : Prop where
  whole : ∀ dollars, cost = .int dollars → dollars * 1000000 < 2 ^ 63
  fractional : ∀ dollars micros, cost = .float dollars → Json.Floats.finite dollars = true →
    PyFloats.nonnegative dollars = true → PyFloats.micros dollars = some micros → micros < 2 ^ 63

/-- A reported charge and the price are within what the field can hold. -/
structure ChargeWithin (value : Value φ) (endpoint : HttpEndpoint φ) : Prop where
  reported : endpoint.externallyBilled = true → ∀ members, value = .obj members →
    CostFits (Dict.get members "cost")
  priced : ∀ rates tokens, Priced value endpoint rates tokens →
    rates.numerator tokens ≤ (2 ^ 63 - 1) * 1000000

/-- What the cached rate adds to the price beyond the input rate is no more than
rounding up adds to the price without cached tokens. -/
def SurchargeAbsorbed (value : Value φ) (endpoint : HttpEndpoint φ) : Prop :=
  ∀ rates tokens, Priced value endpoint rates tokens →
    (tokens.cached : Int) * rates.cached - tokens.cached * rates.input ≤
      -rates.numerator { tokens with cached := 0 } % 1000000

/-! ## Rounding up -/

theorem Rates.numerator_eq (rates : Rates) (tokens : Tokens) :
    (rates.numerator tokens : Rat) / 1000000 = rates.price tokens := by
  simp [Rates.numerator, Rates.price]

/-- The charge is the price rounded up. -/
theorem Rates.charge_eq_ceil (rates : Rates) (tokens : Tokens) :
    rates.charge tokens = ⌈rates.price tokens⌉ := by
  symm
  rw [Int.ceil_eq_iff, ← rates.numerator_eq]
  have lower : (rates.charge tokens - 1) * 1000000 < rates.numerator tokens := by
    unfold Rates.charge
    omega
  have upper : rates.numerator tokens ≤ rates.charge tokens * 1000000 := by
    unfold Rates.charge
    omega
  constructor
  · rw [lt_div_iff₀ (by norm_num)]
    exact_mod_cast lower
  · rw [div_le_iff₀ (by norm_num)]
    exact_mod_cast upper

/-- One charge is at most another when the numerators differ by no more than
rounding up adds to the other. -/
theorem charge_le_iff (first second : Int) :
    (first + 999999) / 1000000 ≤ (second + 999999) / 1000000 ↔
      first - second ≤ -second % 1000000 := by
  omega

theorem charge_within_iff (numerator : Int) (bound : Int) :
    (numerator + 999999) / 1000000 ≤ bound ↔ numerator ≤ bound * 1000000 := by
  omega

theorem Rates.charge_nonneg {rates : Rates} {tokens : Tokens}
    (within : tokens.cached ≤ tokens.prompt) : 0 ≤ rates.charge tokens := by
  have numerator : 0 ≤ rates.numerator tokens := by
    have uncached : 0 ≤ (tokens.prompt : Int) - tokens.cached := by omega
    unfold Rates.numerator
    positivity
  unfold Rates.charge
  omega

end

section

variable {φ : Type}

/-! ## Leaving out the cached tokens -/

theorem lookup_map_snd (members : Dict φ) (change : List Json.Point → Value φ → Value φ)
    (name : List Json.Point) :
    (members.map fun member => (member.1, change member.1 member.2)).lookup name =
      (members.lookup name).map (change name) := by
  induction members with
  | nil => rfl
  | cons member members ih =>
      rw [List.map_cons, List.lookup_cons, List.lookup_cons]
      cases same : name == member.1 with
      | true =>
          rw [beq_iff_eq] at same
          rw [same]
          rfl
      | false => exact ih

theorem lookup_filter_ne (members : Dict φ) (name : List Json.Point) :
    (members.filter fun member => member.1 ≠ name).lookup name = none := by
  rw [List.lookup_eq_none_iff]
  intro member listed
  have other := (List.mem_filter.mp listed).2
  simp only [ne_eq, decide_not, Bool.not_eq_true', decide_eq_false_iff_not] at other
  simpa using Ne.symm other

theorem get_withoutCached {members : Dict φ} {name : String}
    (other : field name ≠ field "prompt_tokens_details") :
    Dict.get (withoutCachedMembers members) name = Dict.get members name := by
  rw [Dict.get, Dict.get, withoutCachedMembers, lookup_map_snd members fun key value =>
    if key = field "prompt_tokens_details" then eraseCached value else value]
  simp only [if_neg other, Option.map_id']

theorem get_withoutCached_details (members : Dict φ) :
    Dict.get (withoutCachedMembers members) "prompt_tokens_details" =
      eraseCached (Dict.get members "prompt_tokens_details") := by
  rw [Dict.get, Dict.get, withoutCachedMembers, lookup_map_snd members fun key value =>
    if key = field "prompt_tokens_details" then eraseCached value else value]
  simp only [if_true]
  cases members.lookup (field "prompt_tokens_details") <;> rfl

/-! ## Counting the tokens -/

theorem nsField_ok {value : Value φ} {count : Option Ns} (read : nsField value = .ok count) :
    countOf value = count.map Fin.val := by
  unfold nsField at read
  split at read
  · obtain rfl := Except.ok.inj read
    rfl
  · split at read
    · obtain rfl := Except.ok.inj read
      rfl
    · contradiction
  · contradiction

variable [PyFloats φ]

theorem orEmpty_ok {value : Value φ} {details : Dict φ} (read : orEmpty value = .ok details)
    (name : String) : Dict.get details name = memberOf value name := by
  unfold orEmpty at read
  split at read
  · rename_i solid
    cases value with
    | obj members =>
        obtain rfl := Except.ok.inj read
        rfl
    | _ => contradiction
  · rename_i empty
    obtain rfl := Except.ok.inj read
    cases value with
    | obj members =>
        have none_ : members = [] := by simpa [truthy] using empty
        rw [memberOf, none_]
    | _ => rfl

theorem Usage.construct_ok {input output cached reasoning : Option Ns} {usage : Usage}
    (built : Usage.construct input output cached reasoning = .ok usage) :
    usage.inputTokens = input ∧ usage.outputTokens = output ∧
      usage.cachedInputTokens = cached ∧ usage.reasoningOutputTokens = reasoning := by
  unfold Usage.construct at built
  split at built
  · obtain rfl := Except.ok.inj built
    exact ⟨rfl, rfl, rfl, rfl⟩
  · contradiction

/-- The parts of a successful count. -/
structure TokensRead (members : Dict φ) (usage : Usage) : Prop where
  details : ∃ details, orEmpty (Dict.get members "prompt_tokens_details") = .ok details ∧
    nsField (Dict.get details "cached_tokens") = .ok usage.cachedInputTokens
  outDetails : ∃ details, orEmpty (Dict.get members "completion_tokens_details") = .ok details ∧
    nsField (Dict.get details "reasoning_tokens") = .ok usage.reasoningOutputTokens
  prompt : nsField (Dict.get members "prompt_tokens") = .ok usage.inputTokens
  completion : nsField (Dict.get members "completion_tokens") = .ok usage.outputTokens

theorem chatTokens_ok {members : Dict φ} {usage : Usage}
    (read : chatTokens members = .ok usage) : TokensRead members usage := by
  simp only [chatTokens, bind_ok_iff] at read
  obtain ⟨details, detailsRead, outDetails, outRead, prompt, promptRead, completion,
    completionRead, cached, cachedRead, reasoning, reasoningRead, built⟩ := read
  obtain ⟨rfl, rfl, rfl, rfl⟩ := Usage.construct_ok built
  exact ⟨⟨details, detailsRead, cachedRead⟩, ⟨outDetails, outRead, reasoningRead⟩, promptRead,
    completionRead⟩

theorem TokensRead.tokens {members : Dict φ} {usage : Usage} (counted : TokensRead members usage) :
    usage.tokens = usageTokens members := by
  obtain ⟨details, detailsRead, cachedRead⟩ := counted.details
  have cached : countOf (cachedDetail members) = usage.cachedInputTokens.map Fin.val := by
    rw [← nsField_ok cachedRead, orEmpty_ok detailsRead, cachedDetail]
  simp only [usageTokens, nsField_ok counted.prompt, nsField_ok counted.completion, cached,
    Usage.tokens]
  cases usage.inputTokens with
  | none => rfl
  | some prompt => cases usage.outputTokens <;> rfl

/-- The cached tokens are among those of the prompt. -/
theorem Usage.tokens_within {usage : Usage} {tokens : Tokens}
    (counted : usage.tokens = some tokens) : tokens.cached ≤ tokens.prompt := by
  simp only [Usage.tokens, Option.bind_eq_bind, Option.bind_eq_some_iff, Option.pure_def,
    Option.some.injEq] at counted
  obtain ⟨prompt, promptEq, completion, -, rfl⟩ := counted
  cases cachedEq : usage.cachedInputTokens with
  | none => simp
  | some cached =>
      obtain ⟨input, inputEq, within⟩ := usage.cachedWithinInput cached cachedEq
      obtain rfl : prompt = input := Option.some.inj (promptEq.symm.trans inputEq)
      simpa using within

theorem orEmpty_eraseCached {value : Value φ} {details : Dict φ}
    (read : orEmpty value = .ok details) :
    ∃ rest, orEmpty (eraseCached value) = .ok rest ∧ Dict.get rest "cached_tokens" = .null := by
  cases value with
  | obj members =>
      have none_ : ((members.filter fun member => member.1 ≠ field "cached_tokens").lookup
          (field "cached_tokens")).getD .null = .null := by
        rw [lookup_filter_ne]
        rfl
      rw [eraseCached, orEmpty]
      split
      · exact ⟨_, rfl, none_⟩
      · exact ⟨_, rfl, rfl⟩
  | _ =>
      exact ⟨details, read, orEmpty_ok read _⟩

/-- Without its cached tokens the object is counted as before but for them. -/
theorem chatTokens_withoutCached {members : Dict φ} {usage : Usage}
    (read : chatTokens members = .ok usage) :
    ∃ other, chatTokens (withoutCachedMembers members) = .ok other ∧
      other.tokens = usage.tokens.map fun tokens => { tokens with cached := 0 } := by
  have counted := chatTokens_ok read
  obtain ⟨details, detailsRead, -⟩ := counted.details
  obtain ⟨outDetails, outRead, reasoningRead⟩ := counted.outDetails
  obtain ⟨rest, restRead, restCached⟩ := orEmpty_eraseCached detailsRead
  refine ⟨⟨usage.inputTokens, usage.outputTokens, none, usage.reasoningOutputTokens, none,
    by simp, usage.reasoningWithinOutput⟩, ?_, ?_⟩
  · simp only [chatTokens, bind_ok_iff, get_withoutCached_details,
      get_withoutCached (show field "completion_tokens_details" ≠ _ by decide),
      get_withoutCached (show field "prompt_tokens" ≠ _ by decide),
      get_withoutCached (show field "completion_tokens" ≠ _ by decide)]
    refine ⟨rest, restRead, outDetails, outRead, _, counted.prompt, _, counted.completion, none,
      by rw [restCached]; rfl, _, reasoningRead, ?_⟩
    rw [Usage.construct,
      dif_pos ⟨rfl, subsetWithin_iff.mpr usage.reasoningWithinOutput⟩]
  · simp only [Usage.tokens]
    cases usage.inputTokens with
    | none => rfl
    | some prompt => cases usage.outputTokens <;> rfl

/-! ## The charge -/

/-- Where a charge comes from. -/
theorem chatCost_ok {members : Dict φ} {usage : Usage} {endpoint : HttpEndpoint φ}
    {cost : Option Nat} (read : chatCost members usage endpoint = .ok cost) :
    endpoint.externallyBilled = false ∧ cost = some 0 ∨
      endpoint.externallyBilled = true ∧ ∃ reported,
        reportedCost (Dict.get members "cost") = .ok reported ∧
          cost = reported.or (pricedCost usage endpoint) := by
  unfold chatCost at read
  split at read
  · rename_i free
    exact .inl ⟨free, (Except.ok.inj read).symm⟩
  · rename_i billed
    obtain ⟨reported, found, same⟩ := bind_ok_iff.mp read
    refine .inr ⟨by simpa using billed, reported, found, ?_⟩
    cases reported with
    | none => exact (Except.ok.inj same).symm
    | some amount => exact (Except.ok.inj same).symm

theorem usageFromChat_obj {members : Dict φ} {endpoint : HttpEndpoint φ} {usage : Usage} :
    usageFromChat (.obj members) endpoint = .ok usage ↔
      ∃ counted cost, chatTokens members = .ok counted ∧
        chatCost members counted endpoint = .ok cost ∧
          usage = { counted with costMicrousd := cost } := by
  simp only [usageFromChat, bind_ok_iff]
  constructor
  · rintro ⟨counted, read, cost, charged, same⟩
    exact ⟨counted, cost, read, charged, (Except.ok.inj same).symm⟩
  · rintro ⟨counted, cost, read, charged, rfl⟩
    exact ⟨counted, read, cost, charged, rfl⟩

/-- The charge at the configured rates. -/
theorem Priced.cost {value : Value φ} {endpoint : HttpEndpoint φ} {usage : Usage} {rates : Rates}
    {tokens : Tokens} (priced : Priced value endpoint rates tokens)
    (returned : usageFromChat value endpoint = .ok usage) :
    usage.costMicrousd = some (rates.charge tokens).toNat ∧ 0 ≤ rates.charge tokens := by
  obtain ⟨members, rfl, unreported, counts⟩ := priced.counted
  obtain ⟨counted, cost, read, charged, rfl⟩ := usageFromChat_obj.mp returned
  have sameTokens : counted.tokens = some tokens := (chatTokens_ok read).tokens.trans counts
  refine ⟨?_, Rates.charge_nonneg (Usage.tokens_within sameTokens)⟩
  rcases chatCost_ok charged with ⟨free, -⟩ | ⟨-, reported, found, rfl⟩
  · rw [priced.billed] at free
    contradiction
  · obtain rfl : none = reported := Except.ok.inj (unreported.symm.trans found)
    simp [pricedCost, sameTokens, priced.configured]

/-- The same object without its cached tokens is priced at the same rates. -/
theorem Priced.withoutCached {value : Value φ} {endpoint : HttpEndpoint φ} {usage : Usage}
    {rates : Rates} {tokens : Tokens} (priced : Priced value endpoint rates tokens)
    (returned : usageFromChat value endpoint = .ok usage) :
    ∃ other, usageFromChat (AgminaRuntime.withoutCached value) endpoint = .ok other ∧
      other.costMicrousd = some (rates.charge { tokens with cached := 0 }).toNat := by
  obtain ⟨members, rfl, unreported, counts⟩ := priced.counted
  obtain ⟨counted, cost, read, charged, rfl⟩ := usageFromChat_obj.mp returned
  have sameTokens : counted.tokens = some tokens := (chatTokens_ok read).tokens.trans counts
  obtain ⟨other, otherRead, otherTokens⟩ := chatTokens_withoutCached read
  refine ⟨{ other with costMicrousd := pricedCost other endpoint },
    usageFromChat_obj.mpr ⟨other, _, otherRead, ?_, rfl⟩, ?_⟩
  · simp only [chatCost, priced.billed, Bool.true_eq_false, if_false,
      get_withoutCached (show field "cost" ≠ _ by decide), unreported]
    rfl
  · simp [pricedCost, otherTokens, sameTokens, priced.configured]

theorem reportedCost_int {dollars : Int} {reported : Option Nat}
    (read : reportedCost (.int dollars : Value φ) = .ok reported) :
    reported = if 0 ≤ dollars then some (dollars * 1000000).toNat else none := by
  simp only [reportedCost] at read
  split at read
  · exact (Except.ok.inj read).symm
  · cases read

theorem reportedCost_float {dollars : φ} {reported : Option Nat}
    (read : reportedCost (.float dollars) = .ok reported) (micros : Nat) :
    reported = some micros ↔ Json.Floats.finite dollars = true ∧
      PyFloats.nonnegative dollars = true ∧ PyFloats.micros dollars = some micros := by
  simp only [reportedCost] at read
  rw [← and_assoc, ← Bool.and_eq_true]
  split at read
  · rename_i charged
    cases microsEq : PyFloats.micros dollars with
    | none =>
        rw [microsEq] at read
        cases read
    | some amount =>
        rw [microsEq] at read
        obtain rfl := Except.ok.inj read
        simp [charged]
  · rename_i uncharged
    obtain rfl := Except.ok.inj read
    simp [uncharged]

/-- A reported charge is within its bound exactly when the dollars are. -/
theorem reportedCost_fits {cost : Value φ} {reported : Option Nat}
    (read : reportedCost cost = .ok reported) :
    (∀ micros ∈ reported, micros < 2 ^ 63) ↔ CostFits cost := by
  cases cost with
  | int dollars =>
      obtain rfl := reportedCost_int read
      constructor
      · intro bounded
        refine ⟨fun other same => ?_, by simp⟩
        cases same
        by_cases charged : 0 ≤ dollars
        · have small := bounded _ (if_pos charged)
          omega
        · omega
      · intro fits micros member
        have small := fits.whole dollars rfl
        split at member
        · cases member
          omega
        · cases member
  | float dollars =>
      have charges := reportedCost_float read
      constructor
      · intro bounded
        refine ⟨by simp, fun other micros same finite nonnegative found => ?_⟩
        cases same
        exact bounded micros ((charges micros).mpr ⟨finite, nonnegative, found⟩)
      · intro fits micros member
        obtain ⟨finite, nonnegative, found⟩ := (charges micros).mp member
        exact fits.fractional dollars micros rfl finite nonnegative found
  | _ =>
      obtain rfl := Except.ok.inj read
      exact ⟨fun _ => ⟨by simp, by simp⟩, by simp⟩

/-- The charge is within its bound exactly when what it is made of is. -/
theorem bounded_iff {value : Value φ} {endpoint : HttpEndpoint φ} {usage : Usage}
    (returned : usageFromChat value endpoint = .ok usage) :
    (∀ cost ∈ usage.costMicrousd, cost < 2 ^ 63) ↔ ChargeWithin value endpoint := by
  constructor
  · intro bounded
    constructor
    · rintro billed members rfl
      obtain ⟨counted, cost, -, charged, rfl⟩ := usageFromChat_obj.mp returned
      rcases chatCost_ok charged with ⟨free, -⟩ | ⟨-, reported, found, rfl⟩
      · rw [billed] at free
        contradiction
      · apply (reportedCost_fits found).mp
        rintro amount rfl
        exact bounded amount rfl
    · intro rates tokens priced
      obtain ⟨costEq, nonneg⟩ := priced.cost returned
      have small := bounded _ costEq
      have charge : rates.charge tokens ≤ 2 ^ 63 - 1 := by omega
      exact (charge_within_iff _ _).mp charge
  · intro within cost costEq
    cases value with
    | obj members =>
        obtain ⟨counted, cost', read, charged, rfl⟩ := usageFromChat_obj.mp returned
        rcases chatCost_ok charged with ⟨-, rfl⟩ | ⟨billed, reported, found, rfl⟩
        · obtain rfl : 0 = cost := Option.some.inj costEq
          decide
        · cases reported with
          | some amount =>
              obtain rfl : amount = cost := Option.some.inj costEq
              exact (reportedCost_fits found).mpr (within.reported billed members rfl) amount rfl
          | none =>
              simp only [pricedCost, Option.none_or, Option.mem_def, Option.bind_eq_bind,
                Option.bind_eq_some_iff, Option.pure_def, Option.some.injEq] at costEq
              obtain ⟨tokens, tokensEq, rates, ratesEq, rfl⟩ := costEq
              have priced : Priced (.obj members) endpoint rates tokens :=
                ⟨billed, ⟨members, rfl, found, (chatTokens_ok read).tokens.symm.trans tokensEq⟩,
                  ratesEq⟩
              have charge : rates.charge tokens ≤ 2 ^ 63 - 1 :=
                (charge_within_iff _ _).mpr (within.priced rates tokens priced)
              omega
    | null =>
        obtain rfl := Except.ok.inj returned
        cases billed : endpoint.externallyBilled with
        | true => simp [billed] at costEq
        | false =>
            obtain rfl : 0 = cost := by simpa [billed] using costEq
            decide
    | _ => contradiction

theorem numerator_withoutCached (rates : Rates) (tokens : Tokens) :
    rates.numerator tokens - rates.numerator { tokens with cached := 0 } =
      (tokens.cached : Int) * rates.cached - tokens.cached * rates.input := by
  simp only [Rates.numerator, Nat.cast_zero]
  ring

end

/-- A returned usage is valid and conservative exactly when its charge is within
the bound and the surcharge of cached tokens, if any, is absorbed by rounding. -/
theorem chat_pricing_iff {φ : Type} [PyFloats φ] (value : Value φ) (endpoint : HttpEndpoint φ)
    (usage : Usage) (returned : usageFromChat value endpoint = .ok usage) :
    PricingHolds value endpoint usage ↔
      ChargeWithin value endpoint ∧ SurchargeAbsorbed value endpoint := by
  have lowers : ∀ {rates : Rates} {tokens : Tokens}, Priced value endpoint rates tokens →
      ((rates.charge tokens).toNat ≤ (rates.charge { tokens with cached := 0 }).toNat ↔
        (tokens.cached : Int) * rates.cached - tokens.cached * rates.input ≤
          -rates.numerator { tokens with cached := 0 } % 1000000) := by
    intro rates tokens priced
    have nonneg := (priced.cost returned).2
    have plain : 0 ≤ rates.charge { tokens with cached := 0 } := Rates.charge_nonneg (Nat.zero_le _)
    rw [← numerator_withoutCached, ← charge_le_iff]
    change _ ↔ rates.charge tokens ≤ rates.charge { tokens with cached := 0 }
    omega
  constructor
  · intro holds
    refine ⟨(bounded_iff returned).mp holds.bounded, fun rates tokens priced => ?_⟩
    obtain ⟨other, otherReturned, cost, costEq, plain, plainEq, le⟩ :=
      holds.conservative rates tokens priced
    obtain ⟨same, sameReturned, sameCost⟩ := priced.withoutCached returned
    obtain rfl : other = same := Except.ok.inj (otherReturned.symm.trans sameReturned)
    rw [Option.mem_def, (priced.cost returned).1, Option.some.injEq] at costEq
    rw [Option.mem_def, sameCost, Option.some.injEq] at plainEq
    rw [← costEq, ← plainEq] at le
    exact (lowers priced).mp le
  · rintro ⟨within, absorbed⟩
    refine ⟨(bounded_iff returned).mpr within, ?_, ?_⟩
    · intro rates tokens priced
      obtain ⟨costEq, nonneg⟩ := priced.cost returned
      refine ⟨_, costEq, ?_⟩
      rw [← rates.charge_eq_ceil]
      omega
    · intro rates tokens priced
      obtain ⟨other, otherReturned, otherCost⟩ := priced.withoutCached returned
      exact ⟨other, otherReturned, _, (priced.cost returned).1, _, otherCost,
        (lowers priced).mpr (absorbed rates tokens priced)⟩

namespace Sample

/-- A paid chat endpoint with the given rates. -/
def paidEndpoint (input cached output : Ns) : HttpEndpoint Json.Verbatim where
  toEndpoint :=
    { endpoint with
      kind := .chat
      externallyBilled := true
      paidReserves := by decide }
  credentialEnv := none
  modelName := PyStr.ofString "vision"
  modelVersion := none
  responseModelRequired := true
  inputPerMillionMicrousd := some input
  cachedPerMillionMicrousd := some cached
  outputPerMillionMicrousd := some output
  stream := false
  maxOutputTokens := 256
  maxResponseBytes := 2000000
  extraBodyJson := PyStr.ofString "{}"
  outputBounded := by decide
  responseBounded := by decide
  extraValid := ⟨[], strictJson_empty (by decide), by decide⟩

/-- A reply that counts its tokens, half of the prompt among the cached ones. -/
def countedUsage : Value Json.Verbatim :=
  .obj [(field "prompt_tokens", .int 100), (field "completion_tokens", .int 10),
    (field "prompt_tokens_details", .obj [(field "cached_tokens", .int 50)])]

/-- A reply that reports a charge in dollars. -/
def reportedUsage (dollars : Int) : Value Json.Verbatim :=
  .obj [(field "prompt_tokens", .int 1), (field "cost", .int dollars)]

end Sample

theorem isOk_exists {ε α : Type} {result : Except ε α} (returned : result.isOk = true) :
    ∃ value, result = .ok value := by
  cases result with
  | error fault => contradiction
  | ok value => exact ⟨value, rfl⟩

theorem toOption_any {ε α : Type} {tried : Except ε α} {check : α → Bool}
    (passes : tried.toOption.any check = true) :
    ∃ value, tried = .ok value ∧ check value = true := by
  cases tried with
  | error exception => contradiction
  | ok value => exact ⟨value, rfl, passes⟩

/-- The tokens and the rates of the priced reply. -/
theorem Sample.priced_countedUsage {input cached output : Ns} {rates : Rates} {tokens : Tokens}
    (priced : Priced countedUsage (paidEndpoint input cached output) rates tokens) :
    rates = ⟨input.val, cached.val, output.val⟩ ∧ tokens = ⟨100, 50, 10⟩ := by
  obtain ⟨members, same, -, counts⟩ := priced.counted
  cases same
  exact ⟨(Option.some.inj priced.configured).symm, (Option.some.inj counts).symm⟩

/-- Cached tokens below the input rate are priced conservatively. -/
theorem chat_pricing_discounted :
    let endpoint := Sample.paidEndpoint 1000000 100000 2000000
    ∃ usage, usageFromChat Sample.countedUsage endpoint = .ok usage ∧
      PricingHolds Sample.countedUsage endpoint usage := by
  intro endpoint
  obtain ⟨usage, returned⟩ := isOk_exists
    (by decide +kernel : (usageFromChat Sample.countedUsage endpoint).isOk = true)
  refine ⟨usage, returned, (chat_pricing_iff _ _ _ returned).mpr ⟨⟨?_, ?_⟩, ?_⟩⟩
  · intro _ members same
    cases same
    have unreported : CostFits (Value.null : Value Json.Verbatim) := ⟨by simp, by simp⟩
    exact unreported
  · intro rates tokens priced
    obtain ⟨rfl, rfl⟩ := Sample.priced_countedUsage priced
    decide +kernel
  · intro rates tokens priced
    obtain ⟨rfl, rfl⟩ := Sample.priced_countedUsage priced
    decide +kernel

/-- A reported charge outgrows the field, and cached tokens above the input rate
cost more than uncached ones. -/
theorem chat_pricing_exceeds :
    (∃ usage, usageFromChat (Sample.reportedUsage 9223372036855)
        (Sample.paidEndpoint 1000000 100000 2000000) = .ok usage ∧
      ¬ PricingHolds (Sample.reportedUsage 9223372036855)
        (Sample.paidEndpoint 1000000 100000 2000000) usage) ∧
    ∃ usage, usageFromChat Sample.countedUsage (Sample.paidEndpoint 1000000 3000000 2000000) =
        .ok usage ∧
      ¬ PricingHolds Sample.countedUsage (Sample.paidEndpoint 1000000 3000000 2000000) usage := by
  constructor
  · obtain ⟨usage, returned⟩ := isOk_exists
      (by decide +kernel : (usageFromChat (Sample.reportedUsage 9223372036855)
        (Sample.paidEndpoint 1000000 100000 2000000)).isOk = true)
    refine ⟨usage, returned, fun holds => ?_⟩
    have within := (bounded_iff returned).mp holds.bounded
    have small := (within.reported rfl _ rfl).whole 9223372036855 rfl
    revert small
    decide
  · obtain ⟨usage, returned⟩ := isOk_exists
      (by decide +kernel : (usageFromChat Sample.countedUsage
        (Sample.paidEndpoint 1000000 3000000 2000000)).isOk = true)
    refine ⟨usage, returned, fun holds => ?_⟩
    have priced : Priced Sample.countedUsage (Sample.paidEndpoint 1000000 3000000 2000000)
        ⟨1000000, 3000000, 2000000⟩ ⟨100, 50, 10⟩ := ⟨rfl, ⟨_, rfl, rfl, by rfl⟩, by rfl⟩
    obtain ⟨other, otherReturned, cost, costEq, plain, plainEq, le⟩ :=
      holds.conservative _ _ priced
    obtain ⟨same, sameReturned, sameCost⟩ := priced.withoutCached returned
    obtain rfl : other = same := Except.ok.inj (otherReturned.symm.trans sameReturned)
    rw [Option.mem_def, (priced.cost returned).1, Option.some.injEq] at costEq
    rw [Option.mem_def, sameCost, Option.some.injEq] at plainEq
    rw [← costEq, ← plainEq] at le
    revert le
    decide +kernel

end AgminaRuntime
