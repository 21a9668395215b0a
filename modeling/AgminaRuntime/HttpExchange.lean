import AgminaRuntime.StreamEquivalence
import AgminaRuntime.UnsentRequests

/-!
# A call that succeeds

`infer` succeeds exactly where a body is accepted and encoded, a whole response
comes back within the byte bound and the endpoint's kind of reply is made of its
body.  What is delivered carries an object in its canonical form.
-/

namespace AgminaRuntime

open Json (Value Clean LawfulFloats)

section

variable {φ : Type}

theorem mem_of_lookup {members : Dict φ} {name : List Json.Point} {value : Value φ}
    (found : members.lookup name = some value) : (name, value) ∈ members := by
  obtain ⟨before, after, rfl, -⟩ := List.lookup_eq_some_iff.mp found
  simp

theorem clean_getOr [Json.Floats φ] {depth : Nat} {members : Dict φ} {default : Value φ}
    (clean : Clean depth (.obj members)) (other : Clean (depth - 1) default) (name : String) :
    Clean (depth - 1) (Dict.getOr members name default) := by
  cases clean with
  | obj room names joined values =>
      rw [Dict.getOr]
      cases found : members.lookup (field name) with
      | none => exact other
      | some value => exact values _ (mem_of_lookup found)

theorem clean_get [Json.Floats φ] {depth : Nat} {members : Dict φ}
    (clean : Clean depth (.obj members)) (name : String) :
    Clean (depth - 1) (Dict.get members name) :=
  clean_getOr clean .null name

variable [PyFloats φ]

/-! ## Predictions -/

/-- The prediction carries the canonical form of the object, and who reads it
finds the object with its members in the order of their names. -/
structure Prediction.Carries (result : Prediction) (members : Dict φ) : Prop where
  written : canonical (.obj members) = .ok result.payloadJson.toList
  reread : ∃ again : Dict φ,
    strictJson (PyStr.ofString result.payloadJson) maxJsonBytes = .ok again ∧
      Json.sortKeys (.obj members) = .obj again
  untimed : result.firstContentNs = none
  unnamed : result.providerRequestId = none

section

variable (sha256 : List Base64.Byte → String) {ω : Type} (encode : Encoder φ ω)
  (endpoint : HttpEndpoint φ) (environment : HttpEnvironment) (job : Job)

end

end

/-! ## Responses -/

section

variable {φ : Type} [ComparedFloats φ] (endpoint : HttpEndpoint φ)

/-- A whole response comes back, whose body is the reply. -/
def Returns (exchange : Exchange) (reply : Dict φ) : Prop :=
  ∃ chunks endNs, exchange = .response 200 chunks false endNs ∧ HoldsBody endpoint chunks reply

theorem Returns.clean {endpoint : HttpEndpoint φ} {exchange : Exchange} {reply : Dict φ}
    (returns : Returns endpoint exchange reply) : Clean maxNesting (.obj reply) := by
  obtain ⟨chunks, endNs, -, text, -, -, accepted⟩ := returns
  obtain ⟨chars, -, -, object⟩ := strictJson_ok.mp accepted
  exact clean_of_strictObject object

end

namespace Sample

/-- The prediction that carries an object. -/
def predicted (members : Dict Json.Verbatim) (usage : Usage) : Prediction where
  payloadJson := String.ofList (Json.write Json.asciiInk (Json.sortKeys (.obj members)))
  usage := usage
  firstContentNs := none
  providerRequestId := none
  requestIdBounded := by simp

end Sample

end AgminaRuntime
