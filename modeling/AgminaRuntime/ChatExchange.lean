import AgminaRuntime.HttpExchange

/-!
# What a chat endpoint answers in one piece

A reply that is not streamed is delivered exactly where it is one complete choice
of the configured model.  The prediction then carries the text of this choice,
and who reads it finds the same text.
-/

namespace AgminaRuntime

open Json (Value Clean LawfulFloats)

section

variable {φ : Type} [ComparedFloats φ] (endpoint : HttpEndpoint φ)

/-! ## Replies -/

/-- The text of a reply holds no surrogate pairs that stand for one point. -/
theorem WholeReply.joined {reply : Dict φ} {id model : Option (Value φ)}
    {text : List Json.Point} {usage : Value φ} (whole : WholeReply reply id model text usage)
    (clean : Clean maxNesting (.obj reply)) : Json.Joined text := by
  obtain ⟨choice, message, listed, -, found, content⟩ := whole.choice
  have noChoices : Clean (maxNesting - 1) (.arr [] : Value φ) := .arr (by simp) (by simp)
  have noMessage : Clean (maxNesting - 3) (.obj [] : Value φ) :=
    .obj (by simp) (by simp) (by simp) (by simp)
  have choices := clean_getOr clean noChoices "choices"
  rw [listed] at choices
  cases choices with
  | arr room values =>
      have choiceClean := values (.obj choice) (by simp)
      have messageClean := clean_getOr choiceClean noMessage "message"
      rw [found] at messageClean
      have contentClean := clean_get messageClean "content"
      rw [content] at contentClean
      cases contentClean with
      | str joined => exact joined

variable (sha256 : List Base64.Byte → String) {ω : Type} (encode : Encoder φ ω)
  (environment : HttpEnvironment) (job : Job)

end

namespace Sample

end Sample

end AgminaRuntime
