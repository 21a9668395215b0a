import AgminaRuntime.Config
import AgminaRuntime.PythonValues

/-!
# HTTP endpoints

The fields of an endpoint that the HTTP backend reads: what it pins in a
request, what it requires of a reply, and the rates of a paid model.
-/

namespace AgminaRuntime

/-- The names that `extra_body_json` may not carry. -/
def reservedNames : List String :=
  ["model", "messages", "stream", "max_tokens", "max_completion_tokens"]

/-- The bound of `extra_body_json` in bytes. -/
def maxExtraBytes : Nat := 8192

/-- An endpoint with the fields of the HTTP adapters; `φ` are the
floating-point numbers of its extra body. -/
structure HttpEndpoint (φ : Type) [PyFloats φ] extends Endpoint where
  credentialEnv : Option String
  modelName : PyStr
  modelVersion : Option PyStr
  responseModelRequired : Bool
  inputPerMillionMicrousd : Option Ns
  cachedPerMillionMicrousd : Option Ns
  outputPerMillionMicrousd : Option Ns
  stream : Bool
  maxOutputTokens : Nat
  maxResponseBytes : Nat
  extraBodyJson : PyStr
  outputBounded : 1 ≤ maxOutputTokens ∧ maxOutputTokens ≤ 65536
  responseBounded : 256 ≤ maxResponseBytes ∧ maxResponseBytes ≤ 32000000
  extraValid : ∃ extra : Dict φ, strictJson extraBodyJson maxExtraBytes = .ok extra ∧
    ∀ name ∈ reservedNames, Dict.has extra name = false

/-- An endpoint without extras. -/
theorem strictJson_empty {φ : Type} [PyFloats φ] {maxBytes : Nat} (room : 2 ≤ maxBytes) :
    strictJson (PyStr.ofString "{}") maxBytes = .ok ([] : Dict φ) := by
  rw [strictJson_ok, PyStr.ofString_eq]
  refine ⟨['{', '}'], PyStr.chars_ofChars _, room, strictObject_ok.mpr ⟨?_, rfl⟩⟩
  have spelled : Json.Spells (strictHooks : Json.Hooks φ) recursionLimit (.value (.obj []))
      ('{' :: ([] ++ ['}'])) := .emptyObject Json.space_nil rfl
  exact spelled.loads Json.space_nil Json.space_nil

end AgminaRuntime
