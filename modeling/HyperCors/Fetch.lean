/-
HyperCors.Fetch — the party that reads the headers.

The headers of the middleware are written for browsers. This module says
what a browser makes of them, for one request of a page: whether it asks
for a permission first, when it takes an answer for one, and when it lets
the page read a response. It states the purpose of the headers and is no
translation of the source; `FetchTheorems` connects it with the
middleware.

The origin of a page is one token without white space, and not `*`.
-/
import HyperCors.HeaderLists

namespace HyperCors

open Polling

/-! ## The request of a page -/

/-- A cross-origin request of a page. Its `unsafeNames` are the header
fields that need a permission. -/
structure PageRequest where
  origin : HeaderValue
  method : Method
  unsafeNames : List HeaderName
  credentials : Bool
  clean : TokenList.Clean space isAsciiWhitespace origin.bytes
  ne_wildcard : origin ≠ wildcard

namespace PageRequest

variable (self : PageRequest)

/-- The methods that need no permission. -/
def safeMethods : List Method := [.get, .fromStatic "HEAD", .fromStatic "POST"]

/-- The field that no `*` permits. -/
def authorization : HeaderName := .fromStatic "authorization"

/-- The browser asks first. -/
def needsPreflight : Bool := !safeMethods.contains self.method || !self.unsafeNames.isEmpty

/-- The permitted methods `methods` cover the one of the request. Only
without credentials is `*` more than a name. -/
def methodAllowed (methods : List Bytes) : Bool :=
  safeMethods.contains self.method || methods.contains self.method.asStr ||
    (!self.credentials && methods.contains (ascii "*"))

/-- The permitted names cover the fields of the request. -/
def headersAllowed (names : List Bytes) : Bool :=
  self.unsafeNames.all fun n => names.any (fun t => eqIgnoreAsciiCase t n.asStr) ||
    (!self.credentials && decide (n ≠ authorization) && names.contains (ascii "*"))

end PageRequest

section Browser

variable [HttpCrate] {W A B E F : Type}

/-- The head of the preflight for a request: it announces the method and
the names of the fields. -/
structure Announces (page : PageRequest) (parts : Parts) : Prop where
  method : parts.method = .options
  origin : parts.headers.getAll header.origin = [page.origin]
  requestMethod :
    parts.headers.getAll header.accessControlRequestMethod = [methodToValue page.method]
  requestHeaders : parts.headers.getAll header.accessControlRequestHeaders =
    (separatedByCommas (page.unsafeNames.map HeaderName.toValue)).toList

/-- The head of the request itself. -/
structure Performs (page : PageRequest) (parts : Parts) : Prop where
  method : parts.method = page.method
  origin : parts.headers.getAll header.origin = [page.origin]
  requestMethod : parts.headers.getAll header.accessControlRequestMethod = []

/-! ## Reading a response -/

/-- The response is meant for the origin of the page, with credentials if it
was asked for with credentials. -/
def corsCheck (page : PageRequest) (headers : HeaderMap) : Bool :=
  match headers.getAll header.accessControlAllowOrigin with
  | [v] =>
    if !page.credentials && v == wildcard then true
    else v == page.origin && (!page.credentials ||
      headers.getAll header.accessControlAllowCredentials == [allowCredentialsTrue])
  | _ => false

/-- The answer to a preflight permits the request. -/
def preflightPasses (page : PageRequest) (response : Response B) : Bool :=
  decide (200 ≤ response.status.code ∧ response.status.code < 300) &&
    corsCheck page response.headers &&
    page.methodAllowed
      (listedTokens (response.headers.getAll header.accessControlAllowMethods)) &&
    page.headersAllowed
      (listedTokens (response.headers.getAll header.accessControlAllowHeaders))

/-- What the page gets to see of a result. -/
def readable (page : PageRequest) : Except E (Response B) → Option (Response B)
  | .ok response => if corsCheck page response.headers then some response else none
  | .error _ => none

/-! ## A whole fetch -/

/-- A fetch of the page from a server: the preflight `pre` if one is needed,
and then the request `act` unless it was not permitted. -/
inductive Fetch (server : Service W (Request A) F (Except E (Response B))) (page : PageRequest)
    (pre act : Request A) (w : W) : Option (Response B) → W → Prop
  | simple {out : Except E (Response B)} {w' : W} (hneeds : page.needsPreflight = false)
      (hact : server.Returns act w out w') : Fetch server page pre act w (readable page out) w'
  | refused {out : Except E (Response B)} {w' : W} (hneeds : page.needsPreflight = true)
      (hpre : server.Returns pre w out w')
      (hfails : ∀ response, out = .ok response → preflightPasses page response = false) :
      Fetch server page pre act w none w'
  | permitted {response : Response B} {out : Except E (Response B)} {w₁ w' : W}
      (hneeds : page.needsPreflight = true) (hpre : server.Returns pre w (.ok response) w₁)
      (hpasses : preflightPasses page response = true) (hact : server.Returns act w₁ out w') :
      Fetch server page pre act w (readable page out) w'

end Browser

end HyperCors
