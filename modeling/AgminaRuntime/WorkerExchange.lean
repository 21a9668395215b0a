import AgminaRuntime.HttpExchange

/-!
# What a worker is sent and what is made of its answer

A worker is told which job, session and epoch its work is for and answers under
the same job and epoch.  What it reports of its usage is taken as it stands, if
it is one that a usage can be.
-/

namespace AgminaRuntime

open Json (Value Clean LawfulFloats)

section

variable {φ : Type}

/-! ## The usage of a worker -/

variable [PyFloats φ]

end

section

variable {φ : Type} [ComparedFloats φ] (job : Job)

/-! ## Replies -/

variable (sha256 : List Base64.Byte → String) (endpoint : HttpEndpoint φ)
  {ω : Type} (encode : Encoder φ ω) (environment : HttpEnvironment)

end

namespace Sample

/-- What it says of its usage. -/
def reported : Dict Json.Verbatim :=
  [(field "cost_microusd", .int 4), (field "input_tokens", .int 3)]

def counted : Usage := ⟨some 3, none, none, none, some 4, by simp, by simp⟩

end Sample

end AgminaRuntime
