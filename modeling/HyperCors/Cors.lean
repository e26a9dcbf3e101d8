/-
HyperCors.Cors — `Cors::call` and the future it returns.

`CorsFuture` keeps the source's two variants with their fields, and
`poll` follows the source block by block: each block that mutates the
projected fields is a function from the variant to the variant. The
inner service acts on a world `W`, which the blocks pass along; the
inner future's `poll` is a parameter, as it is a trait method of `F`.

`A` and `B` are the request and response bodies, `E` the inner error.
`B::default()` is `default`.
-/
import HyperCors.Config
import HyperCors.Merge

namespace HyperCors

open Polling

section Cors

variable [HttpCrate] {W A B E F : Type}

/-- The inner service of the middleware. -/
abbrev Inner (W A B E F : Type) := Service W (Request A) F (Except E (Response B))

/-- `OPTIONS` carrying `Access-Control-Request-Method`. -/
def isPreflightRequest (parts : Parts) : Bool :=
  decide (parts.method = .options) && parts.headers.containsKey header.accessControlRequestMethod

/-- A request that carries `Sec-WebSocket-Version`. -/
def isWebsocketUpgradeRequest (parts : Parts) : Bool :=
  parts.headers.containsKey header.secWebsocketVersion

/-! ## The headers that depend on the origin decision -/

structure LazyHeaders where
  allowCredentials : AllowCredentials
  allowMethods : AllowMethods
  allowHeaders : AllowHeaders
  exposeHeaders : ExposeHeaders
  maxAge : MaxAge

def LazyHeaders.computeInto (self : LazyHeaders) (out : HeaderBuf) (parts : Parts)
    (origin : Option HeaderValue) (isPreflight : Bool) : Except Panic HeaderBuf := do
  let out ← out.pushOpt (self.allowCredentials.toHeader origin parts)
  if isPreflight then
    let out ← out.pushOpt (self.allowMethods.toHeader parts)
    let out ← out.pushOpt (self.allowHeaders.toHeader parts)
    out.pushOpt (self.maxAge.toHeader origin parts)
  else
    out.pushOpt (self.exposeHeaders.toHeader parts)

/-- The match on the origin verdict: a pair is pushed, and allows. -/
def pushVerdict (headers : HeaderBuf) : Option Pair → Except Panic (Bool × HeaderBuf)
  | some pair => (headers.push pair).map fun headers => (true, headers)
  | none => .ok (false, headers)

/-! ## The forwarding arm -/

structure Forward (W A B E F : Type) where
  allowOriginFuture : AllowOriginFuture
  allowOriginComplete : Bool
  service : Option (Inner W A B E F)
  body : Option A
  inner : Option F
  headers : HeaderBuf
  lazy : Option LazyHeaders
  parts : Option Parts
  isPreflight : Bool
  hasOrigin : Bool
  origin : Option HeaderValue
  deliverNonAllowedOrigin : Bool
  rejectionStatus : StatusCode
  rejectWebsocketUpgrade : Bool

namespace Forward

def rejects (self : Forward W A B E F) (originAllowed : Bool) : Bool :=
  !originAllowed && self.hasOrigin &&
    (!self.deliverNonAllowedOrigin || self.rejectWebsocketUpgrade)

/-- Drop the pending request and answer with the rejection status. -/
def reject [Inhabited B] (self : Forward W A B E F) :
    Except Panic (Response B × Forward W A B E F) := do
  let self := { self with service := none, body := none, parts := none }
  let response : Response B := { Response.new default with status := self.rejectionStatus }
  let headers ← mergeHeaders response.headers self.headers
  .ok ({ response with headers := headers }, self)

/-- `lazy.take()`, and compute the headers if it was there. -/
def computeLazy (self : Forward W A B E F) : Except Panic (Forward W A B E F) :=
  match self.lazy, self.parts with
  | some lazy, some parts => do
    let headers ← lazy.computeInto self.headers parts self.origin self.isPreflight
    .ok { self with headers := headers, lazy := none }
  | _, _ => .ok { self with lazy := none }

/-- Take the service and the request, and call the one with the other. -/
def dispatch (self : Forward W A B E F) (w : W) : Except Panic (Forward W A B E F × W) :=
  let taken := { self with service := none, parts := none, body := none }
  match self.service, self.parts, self.body with
  | some svc, some parts, some body => do
    let (fut, w) ← svc.call ⟨parts, body⟩ w
    .ok ({ taken with inner := some fut }, w)
  | _, _, _ => .ok (taken, w)

/-- Poll the inner future, and merge the headers into its response. -/
def pollInner (pollF : Machine (F × W) (Except E (Response B))) (self : Forward W A B E F)
    (w : W) : Except Panic (Poll (Except E (Response B)) × Forward W A B E F × W) :=
  match self.inner with
  | none => .error ⟨"polled after completion"⟩
  | some fut => do
    let (res, fut, w) ← pollF (fut, w)
    let self := { self with inner := some fut }
    match res with
    | .pending => .ok (.pending, self, w)
    | .ready (.error e) => .ok (.ready (.error e), self, w)
    | .ready (.ok response) =>
      let headers ← mergeHeaders response.headers self.headers
      .ok (.ready (.ok { response with headers := headers }), self, w)

/-- Everything that happens once the verdict is in. -/
def settle [Inhabited B] (pollF : Machine (F × W) (Except E (Response B)))
    (self : Forward W A B E F) (verdict : Option Pair) (w : W) :
    Except Panic (Poll (Except E (Response B)) × Forward W A B E F × W) := do
  let (originAllowed, headers) ← pushVerdict self.headers verdict
  let self := { self with headers := headers, allowOriginComplete := true }
  if self.rejects originAllowed then
    let (response, self) ← self.reject
    .ok (.ready (.ok response), self, w)
  else
    let self ← if originAllowed then self.computeLazy else .ok self
    let (self, w) ← self.dispatch w
    self.pollInner pollF w

def poll [Inhabited B] (pollF : Machine (F × W) (Except E (Response B))) :
    Machine (Forward W A B E F × W) (Except E (Response B)) := fun (self, w) =>
  if self.allowOriginComplete then self.pollInner pollF w
  else do
    let (res, fut) ← self.allowOriginFuture.poll
    let self := { self with allowOriginFuture := fut }
    match res with
    | .pending => .ok (.pending, self, w)
    | .ready verdict => self.settle pollF verdict w

end Forward

/-! ## The short-circuiting arm -/

structure Preflight where
  allowOriginFuture : AllowOriginFuture
  headers : HeaderBuf
  lazy : LazyHeaders
  parts : Parts
  hasOrigin : Bool
  origin : Option HeaderValue
  deliverNonAllowedOrigin : Bool
  rejectionStatus : StatusCode

namespace Preflight

/-- Everything that happens once the verdict is in. -/
def settle [Inhabited B] (self : Preflight) (verdict : Option Pair) :
    Except Panic (Response B × Preflight) := do
  let (originAllowed, headers) ← pushVerdict self.headers verdict
  let self := { self with headers := headers }
  let response : Response B := Response.new default
  if !originAllowed && self.hasOrigin then
    let response := if !self.deliverNonAllowedOrigin then
      { response with status := self.rejectionStatus } else response
    let headers ← mergeHeaders response.headers self.headers
    .ok ({ response with headers := headers }, self)
  else
    let headers ← self.lazy.computeInto self.headers self.parts self.origin true
    let self := { self with headers := headers }
    let headers ← mergeHeaders response.headers self.headers
    .ok ({ response with headers := headers }, self)

def poll [Inhabited B] : Machine (Preflight × W) (Except E (Response B)) := fun (self, w) => do
  let (res, fut) ← self.allowOriginFuture.poll
  let self := { self with allowOriginFuture := fut }
  match res with
  | .pending => .ok (.pending, self, w)
  | .ready verdict =>
    let (response, self) ← self.settle verdict
    .ok (.ready (.ok response), self, w)

end Preflight

/-! ## The future and the service -/

inductive CorsFuture (W A B E F : Type) where
  | forward (st : Forward W A B E F)
  | preflight (st : Preflight)

namespace CorsFuture

def poll [Inhabited B] (pollF : Machine (F × W) (Except E (Response B))) :
    Machine (CorsFuture W A B E F × W) (Except E (Response B))
  | (.forward st, w) => (Forward.poll pollF (st, w)).map fun r => (r.1, .forward r.2.1, r.2.2)
  | (.preflight st, w) => (Preflight.poll (st, w)).map fun r => (r.1, .preflight r.2.1, r.2.2)

/-- The header buffer. -/
def headers : CorsFuture W A B E F → HeaderBuf
  | .forward st => st.headers
  | .preflight st => st.headers

end CorsFuture

namespace Cors

/-- `Cors::call`. The inner service is only called from `poll`. -/
def call (self : Cors (Inner W A B E F)) (req : Request A) (w : W) :
    Except Panic (CorsFuture W A B E F × W) := do
  let parts := req.parts
  let origin := parts.headers.get header.origin
  let isPreflight := isPreflightRequest parts
  let isWebsocketUpgrade := isWebsocketUpgradeRequest parts
  let allowOriginFuture := self.config.allowOrigin.toFuture origin parts
  let hasOrigin := allowOriginFuture.hasOrigin
  let commonHeaders ← HeaderBuf.default.pushOpt self.config.vary.toHeader
  let lazyFactory : LazyHeaders :=
    { allowCredentials := self.config.allowCredentials
      allowMethods := self.config.allowMethods
      allowHeaders := self.config.allowHeaders
      exposeHeaders := self.config.exposeHeaders
      maxAge := self.config.maxAge }
  if isPreflight && !self.config.deliverPreflight then
    .ok (.preflight
      { allowOriginFuture := allowOriginFuture
        headers := commonHeaders
        lazy := lazyFactory
        parts := parts
        hasOrigin := hasOrigin
        origin := origin
        deliverNonAllowedOrigin := self.config.deliverNonAllowedOrigin
        rejectionStatus := self.config.rejectionStatus }, w)
  else
    .ok (.forward
      { allowOriginFuture := allowOriginFuture
        allowOriginComplete := false
        service := some self.inner
        body := some req.body
        inner := none
        headers := commonHeaders
        lazy := some lazyFactory
        parts := some parts
        isPreflight := isPreflight
        hasOrigin := hasOrigin
        origin := origin
        deliverNonAllowedOrigin := self.config.deliverNonAllowedOrigin
        rejectionStatus := self.config.rejectionStatus
        rejectWebsocketUpgrade := isWebsocketUpgrade &&
          !self.config.deliverNonAllowedOriginWebsocketUpgrade }, w)

/-- The middleware is a service itself. -/
def service [Inhabited B] (self : Cors (Inner W A B E F)) :
    Service W (Request A) (CorsFuture W A B E F) (Except E (Response B)) where
  call := self.call
  poll := CorsFuture.poll self.inner.poll

end Cors

end Cors

end HyperCors
