/-
HyperCors.Decision — what the middleware decides about a request.

The future of `Cors` takes its decision poll by poll, in two arms. Here
the decision is stated in one piece, as functions of the configuration
and the request head: who is denied, which requests are forwarded, which
headers are put on the response. `CorsTheorems` shows that the future
computes this and nothing else.

`emitted_names_sublist` says that the emitted headers stand in one fixed
order, each name at most once; the bound of the header buffer and the
absence of duplicates both follow from it.
-/
import HyperCors.Cors
import HyperCors.MergeTheorems

namespace HyperCors

/-! ## Named pairs -/

/-- The pair carries the name `n`, if it is there at all. -/
def Named (n : HeaderName) (p : Option Pair) : Prop := ∀ q ∈ p, q.1 = n

theorem named_map (n : HeaderName) (v : Option HeaderValue) :
    Named n (v.map fun v => (n, v)) := by
  intro q hq
  obtain ⟨w, _, rfl⟩ := Option.map_eq_some_iff.mp hq
  rfl

theorem Named.of_mem {n : HeaderName} {p : Option Pair} (h : Named n p) {q : Pair}
    (hq : q ∈ p.toList) : q.1 = n := h q (Option.mem_toList.mp hq)

theorem Named.sublist {n : HeaderName} {p : Option Pair} (h : Named n p) :
    List.Sublist (p.toList.map Prod.fst) [n] := by
  cases p with
  | none => exact List.nil_sublist _
  | some q => rw [← h q rfl]; exact List.Sublist.refl _

theorem Named.length_le (p : Option Pair) : p.toList.length ≤ 1 := by
  cases p <;> simp

theorem named_vary (vary : Vary) : Named header.vary vary.toHeader :=
  named_map header.vary vary.value

/-- The names that stand behind the verdict, in the order of `computeInto`. -/
def grantNames (isPreflight : Bool) : List HeaderName :=
  header.accessControlAllowCredentials ::
    if isPreflight then [header.accessControlAllowMethods, header.accessControlAllowHeaders,
      header.accessControlMaxAge]
    else [header.accessControlExposeHeaders]

theorem mem_of_mem_grantNames {isPreflight : Bool} {n : HeaderName}
    (h : n ∈ grantNames isPreflight) :
    n ∈ [header.accessControlAllowCredentials, header.accessControlAllowMethods,
      header.accessControlAllowHeaders, header.accessControlMaxAge,
      header.accessControlExposeHeaders] := by
  have hsub : grantNames isPreflight ⊆ [header.accessControlAllowCredentials,
      header.accessControlAllowMethods, header.accessControlAllowHeaders,
      header.accessControlMaxAge, header.accessControlExposeHeaders] := by
    cases isPreflight <;> decide
  exact hsub h

/-- All names the middleware puts on a response, in order. -/
def corsNames (isPreflight : Bool) : List HeaderName :=
  header.vary :: header.accessControlAllowOrigin :: grantNames isPreflight

theorem nodup_corsNames (isPreflight : Bool) : (corsNames isPreflight).Nodup := by
  cases isPreflight <;> decide

theorem length_corsNames_le (isPreflight : Bool) : (corsNames isPreflight).length ≤ capacity := by
  cases isPreflight <;> decide

section Decision

variable [HttpCrate]

/-- The value of `Origin` that the middleware reads. -/
def Parts.origin (parts : Parts) : Option HeaderValue := parts.headers.get header.origin

/-! ## The headers of an allowed request -/

/-- The pairs that `computeInto` pushes, in its order. -/
def LazyHeaders.pairs (self : LazyHeaders) (parts : Parts) (origin : Option HeaderValue)
    (isPreflight : Bool) : List Pair :=
  (self.allowCredentials.toHeader origin parts).toList ++
    if isPreflight then
      (self.allowMethods.toHeader parts).toList ++ (self.allowHeaders.toHeader parts).toList ++
        (self.maxAge.toHeader origin parts).toList
    else (self.exposeHeaders.toHeader parts).toList

namespace CorsBuilder

variable (self : CorsBuilder) (parts : Parts)

def lazyHeaders : LazyHeaders where
  allowCredentials := self.allowCredentials
  allowMethods := self.allowMethods
  allowHeaders := self.allowHeaders
  exposeHeaders := self.exposeHeaders
  maxAge := self.maxAge

/-! ## The decision -/

/-- The origin verdict on the request: the pair to emit if it is allowed. -/
def verdict : Option Pair := self.allowOrigin.verdict parts.origin parts

/-- The request carries an origin, and the policy does not allow it. -/
def denies : Bool := (self.verdict parts).isNone && parts.origin.isSome

/-- A preflight that the middleware answers itself. -/
def shortCircuits : Bool := isPreflightRequest parts && !self.deliverPreflight

/-- A WebSocket handshake that is refused to a denied origin. -/
def guardsUpgrade : Bool :=
  isWebsocketUpgradeRequest parts && !self.deliverNonAllowedOriginWebsocketUpgrade

/-- The request is answered with the rejection status. -/
def rejects : Bool :=
  self.denies parts &&
    (!self.deliverNonAllowedOrigin ||
      (self.guardsUpgrade parts && !self.shortCircuits parts))

/-- The request reaches the inner service. -/
def forwards : Bool := !self.shortCircuits parts && !self.rejects parts

/-- The headers behind the verdict are computed. The arms differ on a
request without an origin that the policy does not allow. -/
def grants : Bool :=
  if self.shortCircuits parts then !self.denies parts else (self.verdict parts).isSome

/-- The headers that depend on the verdict. -/
def decided : List Pair :=
  (self.verdict parts).toList ++
    if self.grants parts then
      self.lazyHeaders.pairs parts parts.origin (isPreflightRequest parts)
    else []

/-- The headers the middleware puts on the response. -/
def emitted : List Pair := self.vary.toHeader.toList ++ self.decided parts

/-- The status of a response the middleware makes itself. -/
def answerStatus : StatusCode := if self.rejects parts then self.rejectionStatus else .ok

end CorsBuilder

/-- A response with further headers merged into its own. -/
def Response.merged {B : Type} (self : Response B) (l : List Pair) : Response B :=
  { self with headers := self.headers.merge l }

/-- The response the middleware makes itself. -/
def CorsBuilder.answer {B : Type} [Inhabited B] (self : CorsBuilder) (parts : Parts) :
    Response B :=
  Response.merged { Response.new default with status := self.answerStatus parts }
    (self.emitted parts)

/-! ## The names of the emitted headers -/

theorem named_verdict (policy : AllowOrigin) (origin : Option HeaderValue) (parts : Parts) :
    Named header.accessControlAllowOrigin (policy.verdict origin parts) :=
  fun _ h => AllowOrigin.verdict_name h

theorem named_allowCredentials (knob : AllowCredentials) (origin : Option HeaderValue)
    (parts : Parts) :
    Named header.accessControlAllowCredentials (knob.toHeader origin parts) := by
  intro q hq
  rw [AllowCredentials.toHeader_eq] at hq
  split at hq
  · rw [← Option.some.inj hq]
  · cases hq

theorem named_allowMethods (knob : AllowMethods) (parts : Parts) :
    Named header.accessControlAllowMethods (knob.toHeader parts) := named_map _ _

theorem named_allowHeaders (knob : AllowHeaders) (parts : Parts) :
    Named header.accessControlAllowHeaders (knob.toHeader parts) := named_map _ _

theorem named_exposeHeaders (knob : ExposeHeaders) (parts : Parts) :
    Named header.accessControlExposeHeaders (knob.toHeader parts) := by
  cases knob
  exact named_map _ _

theorem named_maxAge (knob : MaxAge) (origin : Option HeaderValue) (parts : Parts) :
    Named header.accessControlMaxAge (knob.toHeader origin parts) := by
  obtain ⟨⟨value⟩⟩ := knob
  exact named_map _ value

theorem LazyHeaders.pairs_names_sublist (self : LazyHeaders) (parts : Parts)
    (origin : Option HeaderValue) (isPreflight : Bool) :
    List.Sublist ((self.pairs parts origin isPreflight).map Prod.fst) (grantNames isPreflight) := by
  have hcred := (named_allowCredentials self.allowCredentials origin parts).sublist
  cases isPreflight with
  | false =>
    have hexpose := (named_exposeHeaders self.exposeHeaders parts).sublist
    simpa [pairs, grantNames] using hcred.append hexpose
  | true =>
    have hmethods := (named_allowMethods self.allowMethods parts).sublist
    have hheaders := (named_allowHeaders self.allowHeaders parts).sublist
    have hage := (named_maxAge self.maxAge origin parts).sublist
    simpa [pairs, grantNames] using hcred.append (hmethods.append (hheaders.append hage))

namespace CorsBuilder

variable (self : CorsBuilder) (parts : Parts)

theorem decided_names_sublist :
    List.Sublist ((self.decided parts).map Prod.fst)
      (header.accessControlAllowOrigin :: grantNames (isPreflightRequest parts)) := by
  have hverdict := (named_verdict self.allowOrigin parts.origin parts).sublist
  have hgrants : List.Sublist
      ((if self.grants parts then
        self.lazyHeaders.pairs parts parts.origin (isPreflightRequest parts) else []).map Prod.fst)
      (grantNames (isPreflightRequest parts)) := by
    split
    · exact LazyHeaders.pairs_names_sublist _ _ _ _
    · exact List.nil_sublist _
  simpa [decided, verdict] using hverdict.append hgrants

/-- Every header is emitted at most once, in one fixed order. -/
theorem emitted_names_sublist :
    List.Sublist ((self.emitted parts).map Prod.fst) (corsNames (isPreflightRequest parts)) := by
  have hvary := (named_vary self.vary).sublist
  simpa [emitted, corsNames] using hvary.append (self.decided_names_sublist parts)

theorem nodup_emitted_names : ((self.emitted parts).map Prod.fst).Nodup :=
  (self.emitted_names_sublist parts).nodup (nodup_corsNames _)

/-- The emitted headers fit into the header buffer. -/
theorem length_emitted_le : (self.emitted parts).length ≤ capacity := by
  have h := (self.emitted_names_sublist parts).length_le
  rw [List.length_map] at h
  exact h.trans (length_corsNames_le _)

/-- The decision adds no `Vary`. -/
theorem decided_ne_vary {self : CorsBuilder} {parts : Parts} {p : Pair}
    (h : p ∈ self.decided parts) : p.1 ≠ header.vary := by
  have hmem := (self.decided_names_sublist parts).subset (List.mem_map_of_mem h)
  intro hvary
  rw [hvary] at hmem
  have hnodup := nodup_corsNames (isPreflightRequest parts)
  exact (List.nodup_cons.mp hnodup).1 hmem

theorem varyValues_emitted : varyValues (self.emitted parts) = self.vary.value.toList := by
  have hdecided : ((self.decided parts).filter fun p => p.1 = header.vary) = [] :=
    List.filter_eq_nil_iff.mpr fun p hp => by simpa using decided_ne_vary hp
  rw [varyValues, emitted, List.filter_append, hdecided, Vary.toHeader]
  cases self.vary.value <;> simp

/-! ## Denied requests -/

theorem denies_of_rejects {self : CorsBuilder} {parts : Parts} (h : self.rejects parts = true) :
    self.denies parts = true := by
  simp only [rejects, Bool.and_eq_true] at h
  exact h.1

theorem verdict_of_denies {self : CorsBuilder} {parts : Parts} (h : self.denies parts = true) :
    self.verdict parts = none := by
  simp only [denies, Bool.and_eq_true, Option.isNone_iff_eq_none] at h
  exact h.1

/-- A denied request is granted nothing. -/
theorem grants_of_denies {self : CorsBuilder} {parts : Parts} (h : self.denies parts = true) :
    self.grants parts = false := by
  unfold grants
  split
  · simp [h]
  · simp [verdict_of_denies h]

/-- What is emitted on a denied request. -/
theorem emitted_of_denies {self : CorsBuilder} {parts : Parts} (h : self.denies parts = true) :
    self.emitted parts = self.vary.toHeader.toList := by
  simp [emitted, decided, verdict_of_denies h, grants_of_denies h]

/-! ## The configuration of the built middleware

Bringing `vary` up to date changes no decision. -/

section UpdateVary

variable (self : CorsBuilder) (parts : Parts)

@[simp] theorem verdict_updateVary : self.updateVary.verdict parts = self.verdict parts := by
  rw [updateVary_eq]; rfl

@[simp] theorem denies_updateVary : self.updateVary.denies parts = self.denies parts := by
  rw [updateVary_eq]; rfl

@[simp] theorem shortCircuits_updateVary :
    self.updateVary.shortCircuits parts = self.shortCircuits parts := by
  rw [updateVary_eq]; rfl

@[simp] theorem rejects_updateVary : self.updateVary.rejects parts = self.rejects parts := by
  rw [updateVary_eq]; rfl

@[simp] theorem forwards_updateVary : self.updateVary.forwards parts = self.forwards parts := by
  rw [updateVary_eq]; rfl

@[simp] theorem grants_updateVary : self.updateVary.grants parts = self.grants parts := by
  rw [updateVary_eq]; rfl

@[simp] theorem decided_updateVary : self.updateVary.decided parts = self.decided parts := by
  rw [updateVary_eq]; rfl

@[simp] theorem allowOrigin_updateVary : self.updateVary.allowOrigin = self.allowOrigin := by
  rw [updateVary_eq]

@[simp] theorem allowCredentials_updateVary :
    self.updateVary.allowCredentials = self.allowCredentials := by
  rw [updateVary_eq]

@[simp] theorem lazyHeaders_updateVary : self.updateVary.lazyHeaders = self.lazyHeaders := by
  rw [updateVary_eq]; rfl

@[simp] theorem answerStatus_updateVary :
    self.updateVary.answerStatus parts = self.answerStatus parts := by
  rw [updateVary_eq]; rfl

end UpdateVary

end CorsBuilder

end Decision

end HyperCors
