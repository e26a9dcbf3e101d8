/-
HyperCors.Config — the builder of the middleware and its validation.

`CorsBuilder` is the source's record, `setX` its setter for `X`. `Cors`
is what `tryBuild` hands out: the inner service and the configuration
with its `vary` brought up to date.
-/
import HyperCors.AllowOrigin

namespace HyperCors

structure ConfigError where
  message : String
deriving DecidableEq

/-- `Display`. -/
def ConfigError.fmt (self : ConfigError) : String :=
  "Invalid CORS configuration: " ++ self.message

section Config

variable [HttpCrate]

structure CorsBuilder where
  allowOrigin : AllowOrigin
  allowCredentials : AllowCredentials
  allowMethods : AllowMethods
  allowHeaders : AllowHeaders
  exposeHeaders : ExposeHeaders
  maxAge : MaxAge
  vary : Vary
  varyPinned : Bool
  deliverPreflight : Bool
  deliverNonAllowedOrigin : Bool
  deliverNonAllowedOriginWebsocketUpgrade : Bool
  rejectionStatus : StatusCode

/-- The middleware: an inner service and its configuration. -/
structure Cors (S : Type) where
  inner : S
  config : CorsBuilder

namespace CorsBuilder

def new : CorsBuilder where
  allowOrigin := .default
  allowCredentials := .no
  allowMethods := .mirrorRequest
  allowHeaders := .mirrorRequest
  exposeHeaders := .const none
  maxAge := .none
  vary := .default
  varyPinned := false
  deliverPreflight := false
  deliverNonAllowedOrigin := true
  deliverNonAllowedOriginWebsocketUpgrade := false
  rejectionStatus := .badRequest

variable (self : CorsBuilder)

def setAllowOrigin (allowOrigin : AllowOrigin) : CorsBuilder := { self with allowOrigin }

def setAllowCredentials (allowCredentials : AllowCredentials) : CorsBuilder :=
  { self with allowCredentials }

def setAllowMethods (allowMethods : AllowMethods) : CorsBuilder := { self with allowMethods }

def setAllowHeaders (allowHeaders : AllowHeaders) : CorsBuilder := { self with allowHeaders }

def setExposeHeaders (exposeHeaders : ExposeHeaders) : CorsBuilder := { self with exposeHeaders }

def setMaxAge [ItoaCrate] (maxAge : Duration) : CorsBuilder :=
  { self with maxAge := .exact maxAge }

/-- Pins `Vary`, so that it is no longer derived. -/
def setVary (headers : Vary) : CorsBuilder := { self with vary := headers, varyPinned := true }

def setDeliverPreflight (deliver : Bool) : CorsBuilder := { self with deliverPreflight := deliver }

def setDeliverNonAllowedOrigin (deliver : Bool) : CorsBuilder :=
  { self with deliverNonAllowedOrigin := deliver }

def setDeliverNonAllowedOriginWebsocketUpgrade (deliver : Bool) : CorsBuilder :=
  { self with deliverNonAllowedOriginWebsocketUpgrade := deliver }

def setRejectionStatus (status : StatusCode) : CorsBuilder :=
  { self with rejectionStatus := status }

def validate : Except ConfigError Unit :=
  if !self.allowCredentials.isTrue then .ok ()
  else if self.allowOrigin.isWildcard then
    .error ⟨"cannot combine `Access-Control-Allow-Credentials: true` " ++
      "with `Access-Control-Allow-Origin: *`. Echo the request origin instead."⟩
  else if self.allowMethods.isWildcard then
    .error ⟨"cannot combine `Access-Control-Allow-Credentials: true` " ++
      "with `Access-Control-Allow-Methods: *`."⟩
  else if self.allowHeaders.isWildcard then
    .error ⟨"cannot combine `Access-Control-Allow-Credentials: true` " ++
      "with `Access-Control-Allow-Headers: *`."⟩
  else if self.exposeHeaders.isWildcard then
    .error ⟨"cannot combine `Access-Control-Allow-Credentials: true` " ++
      "with `Access-Control-Expose-Headers: *`."⟩
  else .ok ()

/-- The names of a derived `Vary`. -/
def derivedVaryNames : List HeaderName :=
  let varyMethod := self.allowMethods.variesWithRequestMethod
  let varyHeaders := self.allowHeaders.variesWithRequestHeaders
  let names := [header.origin]
  let names := if varyMethod then names ++ [header.accessControlRequestMethod] else names
  if varyHeaders then names ++ [header.accessControlRequestHeaders] else names

def updateVary : CorsBuilder :=
  if self.varyPinned then self else { self with vary := .list self.derivedVaryNames }

def tryBuild {S : Type} (inner : S) : Except ConfigError (Cors S) :=
  match self.validate with
  | .error e => .error e
  | .ok () => .ok ⟨inner, self.updateVary⟩

/-- `build` panics with the error that `tryBuild` returns. -/
def build {S : Type} (inner : S) : Except Polling.Panic (Cors S) :=
  match self.tryBuild inner with
  | .ok cors => .ok cors
  | .error e => .error ⟨e.fmt⟩

variable {self}

theorem tryBuild_eq_ok {S : Type} {inner : S} {cors : Cors S}
    (h : self.tryBuild inner = .ok cors) :
    self.validate = .ok () ∧ cors = ⟨inner, self.updateVary⟩ := by
  unfold tryBuild at h
  split at h
  · cases h
  · rename_i hv
    exact ⟨hv, (Except.ok.inj h).symm⟩

theorem tryBuild_of_validate {S : Type} {inner : S} (h : self.validate = .ok ()) :
    self.tryBuild inner = .ok ⟨inner, self.updateVary⟩ := by
  simp [tryBuild, h]

/-- What is built is built around the service it was given. -/
theorem inner_of_tryBuild {S : Type} {inner : S} {cors : Cors S}
    (h : self.tryBuild inner = .ok cors) : cors.inner = inner := by
  rw [(tryBuild_eq_ok h).2]

theorem config_of_tryBuild {S : Type} {inner : S} {cors : Cors S}
    (h : self.tryBuild inner = .ok cors) : cors.config = self.updateVary := by
  rw [(tryBuild_eq_ok h).2]

/-- Bringing `vary` up to date touches nothing else. -/
theorem updateVary_eq : self.updateVary = { self with vary := self.updateVary.vary } := by
  unfold updateVary
  split <;> rfl

/-- A pinned `Vary` stays. -/
theorem updateVary_of_pinned (h : self.varyPinned = true) : self.updateVary = self := by
  simp [updateVary, h]

/-- A derived `Vary` is the list of the derived names. -/
theorem updateVary_vary (h : self.varyPinned = false) :
    self.updateVary.vary = .list self.derivedVaryNames := by
  simp [updateVary, h]

theorem mem_derivedVaryNames {n : HeaderName} :
    n ∈ self.derivedVaryNames ↔ n = header.origin ∨
      (n = header.accessControlRequestMethod ∧
        self.allowMethods.variesWithRequestMethod = true) ∨
      (n = header.accessControlRequestHeaders ∧
        self.allowHeaders.variesWithRequestHeaders = true) := by
  unfold derivedVaryNames
  cases self.allowMethods.variesWithRequestMethod <;>
    cases self.allowHeaders.variesWithRequestHeaders <;> simp

/-- What validation rules out: unconditional credentials together with a
constant that is the literal `*`. -/
theorem validate_eq_ok_iff : self.validate = .ok () ↔
    (self.allowCredentials.isTrue = true →
      self.allowOrigin.isWildcard = false ∧ self.allowMethods.isWildcard = false ∧
        self.allowHeaders.isWildcard = false ∧ self.exposeHeaders.isWildcard = false) := by
  unfold validate
  cases self.allowCredentials.isTrue <;> cases self.allowOrigin.isWildcard <;>
    cases self.allowMethods.isWildcard <;> cases self.allowHeaders.isWildcard <;>
    cases self.exposeHeaders.isWildcard <;> simp

/-- What the builder refuses. -/
theorem exists_tryBuild_eq_error_iff {S : Type} {inner : S} :
    (∃ e, self.tryBuild inner = .error e) ↔ self.allowCredentials.isTrue = true ∧
      (self.allowOrigin.isWildcard = true ∨ self.allowMethods.isWildcard = true ∨
        self.allowHeaders.isWildcard = true ∨ self.exposeHeaders.isWildcard = true) := by
  have hrefused : (∃ e, self.tryBuild inner = .error e) ↔ ¬ self.validate = .ok () := by
    unfold tryBuild
    cases self.validate <;> simp
  rw [hrefused, validate_eq_ok_iff]
  simp only [Classical.not_imp, not_and_or, Bool.not_eq_false]

end CorsBuilder

end Config

end HyperCors
