/-
HyperCors.Credentials — when `Access-Control-Allow-Credentials` is put on
a response.

`credentials_without_origin_iff` settles the requests without an origin.
`starred_with_credentials` says what is left of the rule that credentials
and a wildcard do not go together: the configuration check compares
constants with the literal `*`, and only if credentials are granted
unconditionally. So the exceptions are the literal `*` under a predicate,
the values echoed from the request, and constants that hold `*` beside
something else.
-/
import HyperCors.OriginPolicy

namespace HyperCors

open Polling

section Credentials

variable [HttpCrate] {A : Type}

/-! ## Which knob a header comes from -/

namespace CorsBuilder

/-- A pair that stands behind the verdict was made by one of the knobs. -/
theorem mem_pairs_cases {cfg : CorsBuilder} {parts : Parts} {isPreflight : Bool} {p : Pair}
    (h : p ∈ cfg.lazyHeaders.pairs parts parts.origin isPreflight) :
    cfg.allowCredentials.toHeader parts.origin parts = some p ∨
      cfg.allowMethods.toHeader parts = some p ∨ cfg.allowHeaders.toHeader parts = some p ∨
      cfg.maxAge.toHeader parts.origin parts = some p ∨
      cfg.exposeHeaders.toHeader parts = some p := by
  rcases List.mem_append.mp h with h | h
  · exact Or.inl (Option.mem_toList.mp h)
  · refine Or.inr ?_
    cases isPreflight with
    | false =>
      simp only [Bool.false_eq_true, if_false] at h
      exact Or.inr (Or.inr (Or.inr (Option.mem_toList.mp h)))
    | true =>
      simp only [if_true, List.mem_append] at h
      rcases h with (h | h) | h
      · exact Or.inl (Option.mem_toList.mp h)
      · exact Or.inr (Or.inl (Option.mem_toList.mp h))
      · exact Or.inr (Or.inr (Or.inl (Option.mem_toList.mp h)))

/-- A decided pair is the verdict, or stands behind it. -/
theorem mem_decided_cases {cfg : CorsBuilder} {parts : Parts} {p : Pair}
    (h : p ∈ cfg.decided parts) :
    cfg.verdict parts = some p ∨ (cfg.grants parts = true ∧
      p ∈ cfg.lazyHeaders.pairs parts parts.origin (isPreflightRequest parts)) := by
  simp only [decided, List.mem_append, Option.mem_toList] at h
  cases hgrants : cfg.grants parts with
  | false => simpa [hgrants] using h
  | true => simpa [hgrants] using h

/-- An emitted pair with another name than `Vary` was decided. -/
theorem mem_decided_of_mem_emitted {cfg : CorsBuilder} {parts : Parts} {p : Pair}
    (h : p ∈ cfg.emitted parts) (hname : p.1 ≠ header.vary) : p ∈ cfg.decided parts := by
  rcases List.mem_append.mp h with h | h
  · exact absurd ((named_vary _).of_mem h) hname
  · exact h

/-- Credentials are emitted exactly if the headers behind the verdict are,
and the knob allows them. -/
theorem credentials_mem_emitted_iff (cfg : CorsBuilder) (parts : Parts) :
    (∃ p ∈ cfg.emitted parts, p.1 = header.accessControlAllowCredentials) ↔
      cfg.grants parts = true ∧ cfg.allowCredentials.allows parts.origin parts = true := by
  constructor
  · intro hcred
    obtain ⟨p, hp, hname⟩ := hcred
    -- no other knob emits this name
    have hp' := mem_decided_of_mem_emitted hp (by rw [hname]; decide)
    rcases mem_decided_cases hp' with h | ⟨hgrants, h⟩
    · exact absurd (named_verdict _ _ _ p h ▸ hname) (by decide)
    · refine ⟨hgrants, ?_⟩
      rcases mem_pairs_cases h with h | h | h | h | h
      · rw [AllowCredentials.toHeader_eq] at h
        split at h
        · assumption
        · cases h
      · exact absurd (named_allowMethods _ _ p h ▸ hname) (by decide)
      · exact absurd (named_allowHeaders _ _ p h ▸ hname) (by decide)
      · exact absurd (named_maxAge _ _ _ p h ▸ hname) (by decide)
      · exact absurd (named_exposeHeaders _ _ p h ▸ hname) (by decide)
  · intro hcred
    obtain ⟨hgrants, hallows⟩ := hcred
    refine ⟨(header.accessControlAllowCredentials, allowCredentialsTrue), ?_, rfl⟩
    simp [emitted, decided, hgrants, LazyHeaders.pairs, lazyHeaders,
      AllowCredentials.toHeader_eq, hallows]

end CorsBuilder

/-! ## Requests without an origin -/

/-- Credentials are not put on any response to the request. -/
def NeverGrantsCredentials (B E : Type) [Inhabited B] (b : CorsBuilder) (req : Request A) : Prop :=
  ∀ (W F : Type) (svc : Inner W A B E F) (cors : Cors (Inner W A B E F)),
    b.tryBuild svc = .ok cors → ∀ w response fut w',
      cors.service.Runs req w (.ok response) fut w' →
        ∀ p ∈ fut.headers.iter, p.1 ≠ header.accessControlAllowCredentials

variable {B E : Type} [Inhabited B]

theorem neverGrantsCredentials_iff {b : CorsBuilder} (haccept : b.validate = .ok ())
    {req : Request A} :
    NeverGrantsCredentials B E b req ↔
      ¬ (b.grants req.parts = true ∧
        b.allowCredentials.allows req.parts.origin req.parts = true) := by
  have hiff := b.updateVary.credentials_mem_emitted_iff req.parts
  simp only [CorsBuilder.grants_updateVary, CorsBuilder.allowCredentials_updateVary] at hiff
  rw [← hiff]
  constructor
  · intro h hcred
    obtain ⟨p, hp, hname⟩ := hcred
    obtain ⟨response, fut, s, hrun⟩ := exists_ok_run B E b.updateVary 0 req ((), [])
    have hiter := Cors.iter_of_runs hrun
    exact h _ _ _ _ (CorsBuilder.tryBuild_of_validate haccept) _ _ _ _ hrun p (hiter ▸ hp) hname
  · intro h W F svc cors hbuild w response fut w' hrun p hp hname
    obtain ⟨_, rfl⟩ := CorsBuilder.tryBuild_eq_ok hbuild
    rw [Cors.iter_of_runs hrun] at hp
    exact h ⟨p, hp, hname⟩

/-- Without an origin only the unconditional knob allows credentials. -/
theorem AllowCredentials.allows_none_iff {knob : AllowCredentials} {parts : Parts} :
    knob.allows none parts = true ↔ knob = .yes := by
  cases knob <;> simp [allows]

/-- Without an origin only a constant policy allows the request. -/
theorem AllowOrigin.isSome_verdict_none_iff {policy : AllowOrigin} {parts : Parts} :
    (policy.verdict none parts).isSome = true ↔ ∃ v, policy.inner = .const v := by
  unfold verdict
  cases policy.inner <;> simp

theorem CorsBuilder.grants_of_no_origin {b : CorsBuilder} {parts : Parts}
    (h : parts.origin = none) :
    b.grants parts = true ↔ (∃ v, b.allowOrigin.inner = .const v) ∨
      (isPreflightRequest parts = true ∧ b.deliverPreflight = false) := by
  have hdenies : b.denies parts = false := by simp [denies, h]
  have hverdict : (b.verdict parts).isSome = true ↔ ∃ v, b.allowOrigin.inner = .const v := by
    rw [verdict, h]
    exact AllowOrigin.isSome_verdict_none_iff
  have hshort : b.shortCircuits parts = true ↔
      isPreflightRequest parts = true ∧ b.deliverPreflight = false := by
    simp [shortCircuits]
  rw [grants, hdenies, ← hverdict, ← hshort]
  cases b.shortCircuits parts <;> simp

/-- Without an origin credentials are granted after all if and only if they
are granted unconditionally, and the policy is a constant or the preflight
is short-circuited. -/
theorem credentials_without_origin_iff (b : CorsBuilder) (haccept : b.validate = .ok ())
    (req : Request A) (horigin : req.parts.origin = none) :
    NeverGrantsCredentials B E b req ↔
      ¬ (b.allowCredentials = .yes ∧
        ((∃ v, b.allowOrigin.inner = .const v) ∨
          (isPreflightRequest req.parts = true ∧ b.deliverPreflight = false))) := by
  rw [neverGrantsCredentials_iff haccept, horigin, AllowCredentials.allows_none_iff,
    CorsBuilder.grants_of_no_origin horigin, and_comm]

/-! ## Credentials together with a wildcard -/

/-- Credentials are not put on a response together with a starred value. -/
def NeverStarsCredentials (B E : Type) [Inhabited B] (b : CorsBuilder) (req : Request A) : Prop :=
  ∀ (W F : Type) (svc : Inner W A B E F) (cors : Cors (Inner W A B E F)),
    b.tryBuild svc = .ok cors → ∀ w response fut w',
      cors.service.Runs req w (.ok response) fut w' →
        ¬ ((header.accessControlAllowCredentials, allowCredentialsTrue) ∈ fut.headers.iter ∧
          ∃ p ∈ fut.headers.iter, p.1 ∈ [header.accessControlAllowOrigin,
            header.accessControlAllowMethods, header.accessControlAllowHeaders,
            header.accessControlExposeHeaders] ∧ Starred p.2)

theorem not_neverStarsCredentials {b : CorsBuilder} (haccept : b.validate = .ok ())
    {req : Request A}
    (hcred : (header.accessControlAllowCredentials, allowCredentialsTrue) ∈
      b.updateVary.emitted req.parts)
    (hstar : ∃ p ∈ b.updateVary.emitted req.parts, p.1 ∈ [header.accessControlAllowOrigin,
      header.accessControlAllowMethods, header.accessControlAllowHeaders,
      header.accessControlExposeHeaders] ∧ Starred p.2) :
    ¬ NeverStarsCredentials B E b req := by
  intro h
  obtain ⟨response, fut, s, hrun⟩ := exists_ok_run B E b.updateVary 0 req ((), [])
  have hnot := h _ _ _ _ (CorsBuilder.tryBuild_of_validate haccept) _ _ _ _ hrun
  rw [Cors.iter_of_runs hrun] at hnot
  exact hnot ⟨hcred, hstar⟩

/-- The knob of the header is the constant `*`. -/
def LiteralStar (b : CorsBuilder) (n : HeaderName) : Prop :=
  (n = header.accessControlAllowOrigin ∧ b.allowOrigin.inner = .const wildcard) ∨
  (n = header.accessControlAllowMethods ∧ b.allowMethods = .const (some wildcard)) ∨
  (n = header.accessControlAllowHeaders ∧ b.allowHeaders = .const (some wildcard)) ∨
  (n = header.accessControlExposeHeaders ∧ b.exposeHeaders = .const (some wildcard))

/-- The value echoes a `*` of the request. -/
def Echoes (b : CorsBuilder) (parts : Parts) (n : HeaderName) (v : HeaderValue) : Prop :=
  (n = header.accessControlAllowOrigin ∧ parts.origin = some v ∧
    ((∃ f, b.allowOrigin.inner = .predicate f) ∨
      ∃ f, b.allowOrigin.inner = .asyncPredicate f)) ∨
  (n = header.accessControlAllowMethods ∧ b.allowMethods = .mirrorRequest ∧
    parts.headers.get header.accessControlRequestMethod = some v) ∨
  (n = header.accessControlAllowHeaders ∧ b.allowHeaders = .mirrorRequest ∧
    ∃ raw, parts.headers.get header.accessControlRequestHeaders = some raw ∧ Starred raw)

/-- A configured constant, or an entry of the configured list, is starred
without being the literal `*`. -/
def Configures (b : CorsBuilder) (n : HeaderName) : Prop :=
  ∃ v, v ≠ wildcard ∧ Starred v ∧
    ((n = header.accessControlAllowOrigin ∧
      (b.allowOrigin.inner = .const v ∨ ∃ l, b.allowOrigin.inner = .list l ∧ v ∈ l)) ∨
    (n = header.accessControlAllowMethods ∧ b.allowMethods = .const (some v)) ∨
    (n = header.accessControlAllowHeaders ∧ b.allowHeaders = .const (some v)) ∨
    (n = header.accessControlExposeHeaders ∧ b.exposeHeaders = .const (some v)))

/-- No knob of an accepted configuration is the constant `*`, if credentials
are granted unconditionally. -/
theorem not_literalStar_of_yes {b : CorsBuilder} (haccept : b.validate = .ok ())
    (hyes : b.allowCredentials = .yes) (n : HeaderName) : ¬ LiteralStar b n := by
  obtain ⟨horigin, hmethods, hheaders, hexpose⟩ :=
    CorsBuilder.validate_eq_ok_iff.mp haccept (by rw [hyes]; rfl)
  rintro (⟨_, h⟩ | ⟨_, h⟩ | ⟨_, h⟩ | ⟨_, h⟩)
  · exact absurd (AllowOrigin.isWildcard_iff.mpr h) (by simp [horigin])
  · exact absurd (AllowMethods.isWildcard_iff.mpr h) (by simp [hmethods])
  · exact absurd (AllowHeaders.isWildcard_iff.mpr h) (by simp [hheaders])
  · exact absurd (ExposeHeaders.isWildcard_iff.mpr h) (by simp [hexpose])

/-- What made a decided pair with a starred value. -/
theorem source_of_starred {b : CorsBuilder} {parts : Parts} {p : Pair} (hp : p ∈ b.decided parts)
    (hname : p.1 ∈ [header.accessControlAllowOrigin, header.accessControlAllowMethods,
      header.accessControlAllowHeaders, header.accessControlExposeHeaders])
    (hstar : Starred p.2) :
    LiteralStar b p.1 ∨ Echoes b parts p.1 p.2 ∨ Configures b p.1 := by
  rcases CorsBuilder.mem_decided_cases hp with h | ⟨_, h⟩
  · have hn := named_verdict _ _ _ p h
    rcases AllowOrigin.source h with hconst | ⟨ho, hallows, hother⟩
    · by_cases hliteral : p.2 = wildcard
      · exact Or.inl (Or.inl ⟨hn, hliteral ▸ hconst⟩)
      · exact Or.inr (Or.inr ⟨p.2, hliteral, hstar, Or.inl ⟨hn, Or.inl hconst⟩⟩)
    · cases hinner : b.allowOrigin.inner with
      | const v => exact absurd hinner (hother v)
      | list l =>
        have hmatch : originListMatches l p.2 = true := by
          simpa [AllowOrigin.allows, hinner] using hallows
        obtain ⟨a, ha, hstarred⟩ := exists_starred_of_originListMatches hmatch hstar
        have hne : a ≠ wildcard := fun e => b.allowOrigin.list_ne_wildcard l hinner (e ▸ ha)
        exact Or.inr (Or.inr ⟨a, hne, hstarred, Or.inl ⟨hn, Or.inr ⟨l, hinner, ha⟩⟩⟩)
      | predicate f => exact Or.inr (Or.inl (Or.inl ⟨hn, ho, Or.inl ⟨f, hinner⟩⟩))
      | asyncPredicate f => exact Or.inr (Or.inl (Or.inl ⟨hn, ho, Or.inr ⟨f, hinner⟩⟩))
  · rcases CorsBuilder.mem_pairs_cases h with h | h | h | h | h
    · rw [named_allowCredentials _ _ _ p h] at hname
      exact absurd hname (by decide)
    · have hn := named_allowMethods _ _ p h
      rcases AllowMethods.source h with hconst | ⟨hmirror, hget⟩
      · by_cases hliteral : p.2 = wildcard
        · exact Or.inl (Or.inr (Or.inl ⟨hn, hliteral ▸ hconst⟩))
        · exact Or.inr (Or.inr ⟨p.2, hliteral, hstar, Or.inr (Or.inl ⟨hn, hconst⟩)⟩)
      · exact Or.inr (Or.inl (Or.inr (Or.inl ⟨hn, hmirror, hget⟩)))
    · have hn := named_allowHeaders _ _ p h
      rcases AllowHeaders.source h with hconst | ⟨hmirror, raw, hget, hraw⟩
      · by_cases hliteral : p.2 = wildcard
        · exact Or.inl (Or.inr (Or.inr (Or.inl ⟨hn, hliteral ▸ hconst⟩)))
        · exact Or.inr (Or.inr ⟨p.2, hliteral, hstar, Or.inr (Or.inr (Or.inl ⟨hn, hconst⟩))⟩)
      · have hstarred := starred_of_mirrorSanitized hraw hstar
        exact Or.inr (Or.inl (Or.inr (Or.inr ⟨hn, hmirror, raw, hget, hstarred⟩)))
    · rw [named_maxAge _ _ _ p h] at hname
      exact absurd hname (by decide)
    · have hn := named_exposeHeaders _ _ p h
      have hconst := ExposeHeaders.source h
      by_cases hliteral : p.2 = wildcard
      · exact Or.inl (Or.inr (Or.inr (Or.inr ⟨hn, hliteral ▸ hconst⟩)))
      · exact Or.inr (Or.inr ⟨p.2, hliteral, hstar, Or.inr (Or.inr (Or.inr ⟨hn, hconst⟩))⟩)

/-- If an accepted middleware puts credentials on a response together with a
starred value, then the knob of the header is the literal `*` and the
credentials are decided by a predicate, or the star is echoed from the
request, or a value configured for the header holds it beside something
else. -/
theorem starred_with_credentials {W F : Type} (b : CorsBuilder) (svc : Inner W A B E F)
    (cors : Cors (Inner W A B E F)) (hbuild : b.tryBuild svc = .ok cors) (req : Request A)
    (w : W) (response : Response B) (fut : CorsFuture W A B E F) (w' : W)
    (hrun : cors.service.Runs req w (.ok response) fut w')
    (hcred : (header.accessControlAllowCredentials, allowCredentialsTrue) ∈ fut.headers.iter)
    (p : Pair) (hp : p ∈ fut.headers.iter)
    (hname : p.1 ∈ [header.accessControlAllowOrigin, header.accessControlAllowMethods,
      header.accessControlAllowHeaders, header.accessControlExposeHeaders])
    (hstar : Starred p.2) :
    ((∃ f, b.allowCredentials = .predicate f) ∧ LiteralStar b p.1) ∨
      Echoes b req.parts p.1 p.2 ∨ Configures b p.1 := by
  obtain ⟨haccept, rfl⟩ := CorsBuilder.tryBuild_eq_ok hbuild
  rw [Cors.iter_of_runs hrun] at hcred hp
  have hdecided : p ∈ b.decided req.parts := by
    rw [← CorsBuilder.decided_updateVary]
    refine CorsBuilder.mem_decided_of_mem_emitted hp ?_
    intro hvary
    rw [hvary] at hname
    exact absurd hname (by decide)
  rcases source_of_starred hdecided hname hstar with hliteral | hsource
  · refine Or.inl ⟨?_, hliteral⟩
    -- the check at configuration time leaves the predicates
    have hallows := ((b.updateVary.credentials_mem_emitted_iff req.parts).mp ⟨_, hcred, rfl⟩).2
    rw [CorsBuilder.allowCredentials_updateVary] at hallows
    cases hknob : b.allowCredentials with
    | no => simp [hknob, AllowCredentials.allows] at hallows
    | predicate f => exact ⟨f, rfl⟩
    | yes => exact absurd hliteral (not_literalStar_of_yes haccept hknob p.1)
  · exact Or.inr hsource

end Credentials

/-! ## Concrete configurations -/

/-- Credentials for one listed origin. -/
def credentialedConfig : CorsBuilder :=
  (CorsBuilder.new.setAllowOrigin
    ⟨.list [originA], fun _ e => OriginInner.list.inj e ▸ by decide⟩).setAllowCredentials .yes

/-- The same, with a predicate that agrees to everything. -/
def predicateConfig : CorsBuilder :=
  credentialedConfig.setAllowCredentials (.predicate fun _ _ => true)

/-- A preflight for `method` from the listed origin. -/
def preflightHead (method : HeaderValue) (fields : List Pair) : Parts :=
  headWith .options
    ([(header.origin, originA), (header.accessControlRequestMethod, method)] ++ fields)

/-- A preflight without an origin. -/
def originlessPreflight : Request Unit :=
  ⟨headWith .options [(header.accessControlRequestMethod, methodToValue .get)], ()⟩

/-- A preflight without an origin is granted credentials. -/
theorem credentials_granted_without_origin :
    credentialedConfig.validate = .ok () ∧ originlessPreflight.parts.origin = none ∧
      ¬ NeverGrantsCredentials Unit Empty credentialedConfig originlessPreflight := by
  refine ⟨rfl, rfl, ?_⟩
  rw [neverGrantsCredentials_iff rfl, not_not]
  decide

/-- The same configuration grants no credentials to a `GET` without an
origin. -/
theorem credentials_not_granted_get :
    NeverGrantsCredentials Unit Empty credentialedConfig plainGet := by
  rw [credentials_without_origin_iff credentialedConfig rfl plainGet rfl]
  rintro ⟨_, ⟨v, hv⟩ | ⟨hpre, _⟩⟩
  · cases hv
  · revert hpre
    decide

/-- A value with a `*` beside another element. -/
def starredValue : HeaderValue := .fromStatic "*,x"

/-- Accepted configurations with requests that get credentials and a star:
echoed from the origin, from the requested method and from the requested
headers; configured, beside something else, as the origin, in the list of
origins, among the methods, the headers and the exposed headers; and any
origin, method, header and exposed header, with a predicate for the
credentials. -/
def starredCases : List (CorsBuilder × Parts) :=
  [(credentialedConfig.setAllowOrigin .mirrorRequest, headWith .get [(header.origin, wildcard)]),
   (credentialedConfig.setAllowOrigin (.asyncPredicate fun _ _ => ⟨1, true⟩),
    headWith .get [(header.origin, wildcard)]),
   (credentialedConfig, preflightHead wildcard []),
   (credentialedConfig, preflightHead (methodToValue .get)
    [(header.accessControlRequestHeaders, starredValue)]),
   (credentialedConfig.setAllowOrigin ⟨.const starredValue, by simp⟩,
    headWith .get [(header.origin, originA)]),
   (credentialedConfig.setAllowOrigin
    ⟨.list [starredValue], fun _ e => OriginInner.list.inj e ▸ by decide⟩,
    headWith .get [(header.origin, starredValue)]),
   (credentialedConfig.setAllowMethods (.list [.fromStatic "*", .get]),
    preflightHead (methodToValue .get) []),
   (credentialedConfig.setAllowHeaders (.list [.fromStatic "*", header.origin]),
    preflightHead (methodToValue .get) []),
   (credentialedConfig.setExposeHeaders (.list [.fromStatic "*", header.origin]),
    headWith .get [(header.origin, originA)]),
   ((CorsBuilder.new.setAllowOrigin .any).setAllowCredentials (.predicate fun _ _ => true),
    headWith .get [(header.origin, originA)]),
   (predicateConfig.setAllowMethods .any, preflightHead (methodToValue .get) []),
   (predicateConfig.setAllowHeaders .any, preflightHead (methodToValue .get) []),
   (predicateConfig.setExposeHeaders .any, headWith .get [(header.origin, originA)])]

/-- Credentials and a star together, once for each exception. -/
theorem starred_with_credentials_cases :
    starredCases.length = 13 ∧ ∀ c ∈ starredCases, c.1.validate = .ok () ∧
      ¬ NeverStarsCredentials Unit Empty c.1 (⟨c.2, ()⟩ : Request Unit) := by
  have hcases : ∀ c ∈ starredCases, c.1.validate = .ok () ∧
      (header.accessControlAllowCredentials, allowCredentialsTrue) ∈ c.1.updateVary.emitted c.2 ∧
      ∃ p ∈ c.1.updateVary.emitted c.2, p.1 ∈ [header.accessControlAllowOrigin,
        header.accessControlAllowMethods, header.accessControlAllowHeaders,
        header.accessControlExposeHeaders] ∧ Starred p.2 := by
    decide
  refine ⟨rfl, ?_⟩
  intro c hc
  obtain ⟨haccept, hcred, hstar⟩ := hcases c hc
  exact ⟨haccept, not_neverStarsCredentials haccept hcred hstar⟩

/-- A starred method that the request asks for is accounted for. -/
theorem starred_method_accounted :
    ((∃ f, credentialedConfig.allowCredentials = .predicate f) ∧
        LiteralStar credentialedConfig header.accessControlAllowMethods) ∨
      Echoes credentialedConfig (preflightHead wildcard []) header.accessControlAllowMethods
        wildcard ∨
      Configures credentialedConfig header.accessControlAllowMethods := by
  obtain ⟨response, fut, s, hrun⟩ := exists_ok_run Unit Empty credentialedConfig.updateVary 0
    ⟨preflightHead wildcard [], ()⟩ ((), [])
  have hiter := Cors.iter_of_runs hrun
  exact starred_with_credentials credentialedConfig _ _ rfl _ _ response fut s hrun
    (by rw [hiter]; decide) (header.accessControlAllowMethods, wildcard) (by rw [hiter]; decide)
    (by decide) (by decide)

end HyperCors
