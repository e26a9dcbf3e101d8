/-
HyperCors.BuildErrors — what a refused configuration is told.

`validate` checks four knobs in one order and reports the first that holds
the constant `*` under unconditional credentials (`validate_eq_find`).
`build_panics_iff` reads this off the calls that configured the builder,
through `tryBuild`, the text of its error and the panic of `build`.
-/
import HyperCors.BuilderCalls

namespace HyperCors

open Polling (Panic)

section BuildErrors

variable [HttpCrate]

/-- The knobs that `validate` compares with `*`, in its order. -/
def checkedKnobs : List Knob := [.allowOrigin, .allowMethods, .allowHeaders, .exposeHeaders]

/-- What `validate` says of a knob that holds `*`. -/
def Knob.complaint : Knob → String
  | .allowOrigin => "cannot combine `Access-Control-Allow-Credentials: true` " ++
      "with `Access-Control-Allow-Origin: *`. Echo the request origin instead."
  | .allowMethods => "cannot combine `Access-Control-Allow-Credentials: true` " ++
      "with `Access-Control-Allow-Methods: *`."
  | .allowHeaders => "cannot combine `Access-Control-Allow-Credentials: true` " ++
      "with `Access-Control-Allow-Headers: *`."
  | .exposeHeaders => "cannot combine `Access-Control-Allow-Credentials: true` " ++
      "with `Access-Control-Expose-Headers: *`."
  | _ => ""

namespace CorsBuilder

variable (self : CorsBuilder)

/-- The check of one knob. -/
def holdsWildcard : Knob → Bool
  | .allowOrigin => self.allowOrigin.isWildcard
  | .allowMethods => self.allowMethods.isWildcard
  | .allowHeaders => self.allowHeaders.isWildcard
  | .exposeHeaders => self.exposeHeaders.isWildcard
  | _ => false

theorem holdsWildcard_iff (k : Knob) :
    self.holdsWildcard k = true ↔ k.IsWildcard (self.read k) := by
  cases k with
  | allowOrigin => exact AllowOrigin.isWildcard_iff
  | allowMethods => exact AllowMethods.isWildcard_iff
  | allowHeaders => exact AllowHeaders.isWildcard_iff
  | exposeHeaders => exact ExposeHeaders.isWildcard_iff
  | _ => exact iff_of_false Bool.false_ne_true id

/-- Validation reports the first offending knob. -/
theorem validate_eq_find :
    self.validate =
      if self.allowCredentials.isTrue then
        match checkedKnobs.find? self.holdsWildcard with
        | some k => .error ⟨k.complaint⟩
        | none => .ok ()
      else .ok () := by
  unfold validate
  cases self.allowCredentials.isTrue with
  | false => rfl
  | true =>
    simp only [Bool.not_true, Bool.false_eq_true, if_false, if_true, checkedKnobs, List.find?,
      holdsWildcard]
    cases self.allowOrigin.isWildcard with
    | true => rfl
    | false =>
      cases self.allowMethods.isWildcard with
      | true => rfl
      | false =>
        cases self.allowHeaders.isWildcard with
        | true => rfl
        | false => cases self.exposeHeaders.isWildcard <;> rfl

/-- `build` succeeds with what `tryBuild` hands out. -/
theorem build_eq_ok_iff {S : Type} {inner : S} {cors : Cors S} :
    self.build inner = .ok cors ↔ self.tryBuild inner = .ok cors := by
  unfold build
  cases self.tryBuild inner with
  | ok cors' => simp
  | error e => simp

theorem build_eq_error_iff {S : Type} {inner : S} {p : Panic} :
    self.build inner = .error p ↔ self.allowCredentials.isTrue = true ∧
      ∃ k, checkedKnobs.find? self.holdsWildcard = some k ∧
        p = ⟨(ConfigError.mk k.complaint).fmt⟩ := by
  unfold build tryBuild
  rw [validate_eq_find]
  cases self.allowCredentials.isTrue with
  | false => simp
  | true =>
    cases checkedKnobs.find? self.holdsWildcard with
    | none => simp
    | some k => simp [eq_comm]

end CorsBuilder

/-- **A refusal names the first offender.** After any sequence of calls,
`build` panics exactly if the last credentials setting is `yes` and the
last setting of some checked knob is the constant `*`; the panic then names
the first such knob in the order of the checks, whatever the order of the
calls. Otherwise it hands out what `tryBuild` does. -/
theorem build_panics_iff [ItoaCrate] {S : Type} (inner : S) (calls : List Setting) :
    (∀ p, (CorsBuilder.configured calls).build inner = .error p ↔
      lastCall .allowCredentials calls = some (.allowCredentials .yes) ∧
      ∃ before k after, checkedKnobs = before ++ k :: after ∧
        (∃ c, lastCall k calls = some c ∧ c.ProducesWildcard) ∧
        (∀ k' ∈ before, ¬ ∃ c, lastCall k' calls = some c ∧ c.ProducesWildcard) ∧
        p = ⟨"Invalid CORS configuration: " ++ k.complaint⟩) ∧
    ∀ cors, (CorsBuilder.configured calls).build inner = .ok cors ↔
      (CorsBuilder.configured calls).tryBuild inner = .ok cors := by
  refine ⟨?_, fun cors => CorsBuilder.build_eq_ok_iff _⟩
  intro p
  rw [CorsBuilder.build_eq_error_iff, CorsBuilder.allowCredentials_configured]
  refine and_congr_right fun _ => ?_
  simp only [List.find?_eq_some_iff_append, ← CorsBuilder.isWildcard_configured,
    ← CorsBuilder.holdsWildcard_iff, Bool.not_eq_true', Bool.not_eq_true]
  constructor
  · intro h
    obtain ⟨k, ⟨hk, before, after, hsplit, hbefore⟩, rfl⟩ := h
    exact ⟨before, k, after, hsplit, hk, hbefore, rfl⟩
  · intro h
    obtain ⟨before, k, after, hsplit, hk, hbefore, rfl⟩ := h
    exact ⟨k, ⟨hk, before, after, hsplit, hbefore⟩, rfl⟩

end BuildErrors

/-- The origin is checked before the methods, whichever was set first. -/
example : (CorsBuilder.configured [.allowMethods .any, .allowCredentials .yes,
      .allowOrigin .any]).build () =
    .error ⟨"Invalid CORS configuration: " ++ Knob.complaint .allowOrigin⟩ := rfl

end HyperCors
