/-
HyperCors.CacheVary — what a shared cache may rely on.

`vary_complete` counts the tokens of the final `Vary`: on every path each
token is listed as often as the inner response lists it, and the tokens
it does not list as often as the configuration does. `derived_vary_sound`
relates two runs: requests that agree on the headers named in a derived
`Vary` get the same headers from the middleware.
-/
import HyperCors.CorsTheorems
import HyperCors.KnobTheorems

namespace HyperCors

open Polling

/-! ## The tokens of a configured `Vary` -/

theorem clean_asStr (n : HeaderName) : TokenList.Clean comma isAsciiWhitespace n.asStr :=
  TokenList.Clean.of_forall n.asStr_ne_nil fun _ hb =>
    (isTokenByte_visible (n.isTokenByte_of_mem hb)).2

/-- A joined value lists the names it was joined from. -/
theorem listedTokens_joinNames (names : List HeaderName) :
    listedTokens (joinNames names).toList = names.map HeaderName.asStr := by
  cases names with
  | nil => rfl
  | cons first rest =>
    have htokens : commaTokens (commaSpaceBytes first rest) =
        (first :: rest).map HeaderName.asStr := by
      rw [commaSpaceBytes_eq]
      refine TokenList.tokens_intercalate isPad_space ?_
      intro t ht
      obtain ⟨n, _, rfl⟩ := List.mem_map.mp ht
      exact clean_asStr n
    simp [joinNames, listedTokens, htokens]

/-- Merging at most one value, counted. -/
theorem countToken_mergeVary_toList (vs : List HeaderValue) (v : Option HeaderValue) (t : Bytes) :
    countToken t (listedTokens (mergeVary vs v.toList)) =
      if 0 < countToken t (listedTokens vs) then countToken t (listedTokens vs)
      else countToken t (listedTokens v.toList) := by
  cases v with
  | none =>
    split
    · rfl
    · rename_i h
      simpa [listedTokens, countToken] using h
  | some v =>
    have hv : listedTokens (some v).toList = commaTokens v.bytes := by simp [listedTokens]
    rw [Option.toList_some, countToken_mergeVary, ← hv, Option.toList_some]

/-- Merging lists the tokens of the value, and no others. -/
theorem listed_mergeVary_iff {vs : List HeaderValue} {v : Option HeaderValue} {t : Bytes} :
    listed (mergeVary vs v.toList) t = true ↔ listed vs t = true ∨ listed v.toList t = true := by
  rw [← countToken_pos_iff, countToken_mergeVary_toList, ← countToken_pos_iff,
    ← countToken_pos_iff]
  split <;> simp [*]

theorem countToken_pos_of_mem {names : List HeaderName} {n : HeaderName} (h : n ∈ names) :
    0 < countToken n.asStr (names.map HeaderName.asStr) := by
  rw [countToken, List.countP_pos_iff]
  exact ⟨n.asStr, List.mem_map_of_mem h, eqIgnoreAsciiCase_self n.asStr⟩

section Vary

variable [HttpCrate] {W A B E F : Type} [Inhabited B]

/-! ## `Vary` on every path -/

/-- The final `Vary` values, whatever the path. -/
theorem getAll_vary_of_returns {svc : Inner W A B E F} {cfg : CorsBuilder} {req : Request A}
    {w : W} {response : Response B} {w' : W} {log : List (Request A)}
    (h : (Cors.service ⟨svc.logged, cfg⟩).Returns req (w, []) (.ok response) (w', log)) :
    ∃ innerVary : List HeaderValue,
      ((log = [] ∧ innerVary = []) ∨ (log = [req] ∧ ∃ inner,
        svc.Returns req w (.ok inner) w' ∧ innerVary = inner.headers.getAll header.vary)) ∧
      response.headers.getAll header.vary = mergeVary innerVary cfg.vary.value.toList := by
  obtain ⟨base, rfl, hbase⟩ := Cors.ok_returns_cases h
  refine ⟨base.headers.getAll header.vary, ?_, ?_⟩
  · rcases hbase with ⟨_, hinner⟩ | ⟨_, hnew, hw⟩
    · obtain ⟨hreturns, hlog⟩ := Service.logged_returns_iff.mp hinner
      exact Or.inr ⟨by simpa using hlog, base, hreturns, rfl⟩
    · simp only [Prod.mk.injEq] at hw
      exact Or.inl ⟨hw.2, by rw [hnew, HeaderMap.getAll_new]⟩
  · rw [Response.merged, getAll_merge_vary, CorsBuilder.varyValues_emitted]

/-- The final `Vary` lists each token as often as the inner response, or if
that does not list it, as often as the configuration. A synthetic response
counts as an inner response without `Vary`. -/
theorem vary_complete (b : CorsBuilder) (svc : Inner W A B E F)
    (cors : Cors (Inner (W × List (Request A)) A B E F))
    (hbuild : b.tryBuild svc.logged = .ok cors) (req : Request A) (w : W)
    (response : Response B) (w' : W) (log : List (Request A))
    (hreturns : cors.service.Returns req (w, []) (.ok response) (w', log)) :
    (∃ names, cors.config.vary = .list names) ∧
    (∀ names, cors.config.vary = .list names →
      ∃ innerVary : List HeaderValue,
        ((log = [] ∧ innerVary = []) ∨ (log = [req] ∧ ∃ inner,
          svc.Returns req w (.ok inner) w' ∧ innerVary = inner.headers.getAll header.vary)) ∧
        ∀ t, countToken t (listedTokens (response.headers.getAll header.vary)) =
          if 0 < countToken t (listedTokens innerVary) then countToken t (listedTokens innerVary)
          else countToken t (names.map HeaderName.asStr)) ∧
    (b.varyPinned = false →
      listed (response.headers.getAll header.vary) header.origin.asStr = true ∧
      (b.allowMethods = .mirrorRequest →
        listed (response.headers.getAll header.vary)
          header.accessControlRequestMethod.asStr = true) ∧
      (b.allowHeaders = .mirrorRequest →
        listed (response.headers.getAll header.vary)
          header.accessControlRequestHeaders.asStr = true)) := by
  obtain ⟨_, rfl⟩ := CorsBuilder.tryBuild_eq_ok hbuild
  obtain ⟨innerVary, hinner, hfinal⟩ := getAll_vary_of_returns hreturns
  have hcount : ∀ names, b.updateVary.vary = .list names → ∀ t,
      countToken t (listedTokens (response.headers.getAll header.vary)) =
        if 0 < countToken t (listedTokens innerVary) then countToken t (listedTokens innerVary)
        else countToken t (names.map HeaderName.asStr) := by
    intro names hnames t
    rw [hfinal, hnames, countToken_mergeVary_toList]
    simp only [Vary.list, listedTokens_joinNames]
  refine ⟨?_, ?_, ?_⟩
  · obtain ⟨names, hjoined⟩ := b.updateVary.vary.joined
    exact ⟨names, Vary.ext hjoined⟩
  · intro names hnames
    exact ⟨innerVary, hinner, hcount names hnames⟩
  · intro hpinned
    have hlisted : ∀ n ∈ b.derivedVaryNames,
        listed (response.headers.getAll header.vary) n.asStr = true := by
      intro n hn
      rw [← countToken_pos_iff, hcount _ (CorsBuilder.updateVary_vary hpinned)]
      split
      · assumption
      · exact countToken_pos_of_mem hn
    refine ⟨?_, ?_, ?_⟩
    · exact hlisted _ (CorsBuilder.mem_derivedVaryNames.mpr (Or.inl rfl))
    · intro hmethods
      refine hlisted _ (CorsBuilder.mem_derivedVaryNames.mpr (Or.inr (Or.inl ⟨rfl, ?_⟩)))
      rw [hmethods]
      rfl
    · intro hheaders
      refine hlisted _ (CorsBuilder.mem_derivedVaryNames.mpr (Or.inr (Or.inr ⟨rfl, ?_⟩)))
      rw [hheaders]
      rfl

end Vary

/-- Over a response that lists `Accept` and `ORIGIN` the default configuration
adds the two other names, and no second `Origin`. -/
theorem vary_complete_cookie :
    ∃ response s, (Cors.service ⟨cookieService.logged, CorsBuilder.new.updateVary⟩).Returns
        plainGet ((), []) (.ok response) s ∧
      (∀ t ∈ ascii "accept" :: Vary.defaultHeaderNames.map HeaderName.asStr,
        countToken t (listedTokens (response.headers.getAll header.vary)) = 1) ∧
      ∀ n ∈ Vary.defaultHeaderNames,
        listed (response.headers.getAll header.vary) n.asStr = true := by
  have hreturns : (Cors.service ⟨cookieService.logged, CorsBuilder.new.updateVary⟩).Returns
      plainGet ((), []) (.ok _) ((), [plainGet]) :=
    returns_suspending (by decide) _
  obtain ⟨_, hcount, hlisted⟩ := vary_complete CorsBuilder.new cookieService _ rfl plainGet () _
    () [plainGet] hreturns
  obtain ⟨horigin, hmethods, hheaders⟩ := hlisted rfl
  refine ⟨_, _, hreturns, ?_, ?_⟩
  · obtain ⟨innerVary, hinner, hcount⟩ := hcount _ (CorsBuilder.updateVary_vary rfl)
    obtain ⟨hnil, _⟩ | ⟨_, inner, hinner, rfl⟩ := hinner
    · cases hnil
    · obtain rfl := Except.ok.inj (eq_of_cookieService hinner)
      intro t ht
      rw [hcount]
      revert t
      decide
  · simp only [Vary.defaultHeaderNames, List.forall_mem_cons]
    exact ⟨horigin, hmethods rfl, hheaders rfl, by simp⟩

/-! ## Two runs -/

section TwoRuns

variable [HttpCrate] {W A B E F : Type}

/-- The policy looks at nothing but the origin. -/
def AllowOrigin.DependsOnOrigin (policy : AllowOrigin) : Prop :=
  match policy.inner with
  | .const _ => True
  | .list _ => True
  | .predicate f => ∀ o p p', f o p = f o p'
  | .asyncPredicate f => ∀ o p p', (f o p).value = (f o p').value

/-- The knob looks at nothing but the origin. -/
def AllowCredentials.DependsOnOrigin : AllowCredentials → Prop
  | .yes => True
  | .no => True
  | .predicate f => ∀ o p p', f o p = f o p'

theorem AllowOrigin.DependsOnOrigin.verdict_eq {policy : AllowOrigin} (h : policy.DependsOnOrigin)
    (origin : Option HeaderValue) (p p' : Parts) :
    policy.verdict origin p = policy.verdict origin p' := by
  unfold verdict
  cases hinner : policy.inner with
  | const v => rfl
  | list l => simp only [allows, hinner]
  | predicate f =>
    simp only [DependsOnOrigin, hinner] at h
    simp only [allows, hinner, fun o => h o p p']
  | asyncPredicate f =>
    simp only [DependsOnOrigin, hinner] at h
    simp only [allows, hinner, fun o => h o p p']

theorem AllowCredentials.DependsOnOrigin.toHeader_eq {knob : AllowCredentials}
    (h : knob.DependsOnOrigin) (origin : Option HeaderValue) (p p' : Parts) :
    knob.toHeader origin p = knob.toHeader origin p' := by
  cases knob with
  | yes => rfl
  | no => rfl
  | predicate f =>
    cases origin with
    | none => rfl
    | some o => simp only [AllowCredentials.toHeader, h o p p']

theorem AllowMethods.toHeader_congr {knob : AllowMethods} {p p' : Parts}
    (h : knob.variesWithRequestMethod = true →
      p.headers.getAll header.accessControlRequestMethod =
        p'.headers.getAll header.accessControlRequestMethod) :
    knob.toHeader p = knob.toHeader p' := by
  cases knob with
  | const value => rfl
  | mirrorRequest => simp only [toHeader, HeaderMap.get, h rfl]

theorem AllowHeaders.toHeader_congr {knob : AllowHeaders} {p p' : Parts}
    (h : knob.variesWithRequestHeaders = true →
      p.headers.getAll header.accessControlRequestHeaders =
        p'.headers.getAll header.accessControlRequestHeaders) :
    knob.toHeader p = knob.toHeader p' := by
  cases knob with
  | const value => rfl
  | mirrorRequest => simp only [toHeader, HeaderMap.get, h rfl]

/-- What is decided depends on the kind of the request and on the headers a
derived `Vary` names. -/
theorem CorsBuilder.decided_congr {b : CorsBuilder} (horigin : b.allowOrigin.DependsOnOrigin)
    (hcred : b.allowCredentials.DependsOnOrigin) {p p' : Parts}
    (hkind : isPreflightRequest p = isPreflightRequest p')
    (hagree : ∀ n ∈ b.derivedVaryNames, p.headers.getAll n = p'.headers.getAll n) :
    b.decided p = b.decided p' := by
  have ho : p.origin = p'.origin := by
    rw [Parts.origin, Parts.origin, HeaderMap.get, HeaderMap.get,
      hagree _ (mem_derivedVaryNames.mpr (Or.inl rfl))]
  have hverdict : b.verdict p = b.verdict p' := by
    rw [verdict, verdict, ho, horigin.verdict_eq _ p p']
  have hgrants : b.grants p = b.grants p' := by
    simp only [grants, shortCircuits, denies, hverdict, hkind, ho]
    rfl
  have hmethods : b.allowMethods.toHeader p = b.allowMethods.toHeader p' :=
    AllowMethods.toHeader_congr fun h =>
      hagree _ (mem_derivedVaryNames.mpr (Or.inr (Or.inl ⟨rfl, h⟩)))
  have hheaders : b.allowHeaders.toHeader p = b.allowHeaders.toHeader p' :=
    AllowHeaders.toHeader_congr fun h =>
      hagree _ (mem_derivedVaryNames.mpr (Or.inr (Or.inr ⟨rfl, h⟩)))
  have hpairs : b.lazyHeaders.pairs p p.origin (isPreflightRequest p) =
      b.lazyHeaders.pairs p' p'.origin (isPreflightRequest p') := by
    simp only [LazyHeaders.pairs, lazyHeaders, ho, hkind, hcred.toHeader_eq _ p p', hmethods,
      hheaders]
    rfl
  rw [decided, decided, hverdict, hgrants, hpairs]

/-- **A derived `Vary` is sound for caches.** Two requests of one kind that
agree on the headers it names get the same headers, in the same order. -/
theorem derived_vary_sound [Inhabited B] (b : CorsBuilder) (hpinned : b.varyPinned = false)
    (horigin : b.allowOrigin.DependsOnOrigin) (hcred : b.allowCredentials.DependsOnOrigin)
    (svc : Inner W A B E F) (cors : Cors (Inner W A B E F)) (hbuild : b.tryBuild svc = .ok cors)
    (req₁ req₂ : Request A)
    (hkind : isPreflightRequest req₁.parts = isPreflightRequest req₂.parts)
    (hagree : ∀ n ∈ b.derivedVaryNames,
      req₁.parts.headers.getAll n = req₂.parts.headers.getAll n) :
    cors.config.vary = .list b.derivedVaryNames ∧
    ∀ w₁ out₁ fut₁ w₁' w₂ out₂ fut₂ w₂', cors.service.Runs req₁ w₁ out₁ fut₁ w₁' →
      cors.service.Runs req₂ w₂ out₂ fut₂ w₂' → fut₁.headers.iter = fut₂.headers.iter := by
  obtain ⟨_, rfl⟩ := CorsBuilder.tryBuild_eq_ok hbuild
  refine ⟨CorsBuilder.updateVary_vary hpinned, ?_⟩
  intro w₁ out₁ fut₁ w₁' w₂ out₂ fut₂ w₂' hrun₁ hrun₂
  rw [Cors.iter_of_runs hrun₁, Cors.iter_of_runs hrun₂]
  rw [CorsBuilder.emitted, CorsBuilder.emitted, CorsBuilder.decided_updateVary,
    CorsBuilder.decided_updateVary, CorsBuilder.decided_congr horigin hcred hkind hagree]

end TwoRuns

/-- A `GET` and a `POST` elsewhere, both from one origin. -/
theorem derived_vary_sound_default :
    ∃ out₁ fut₁ s₁ out₂ fut₂ s₂,
      (Cors.service ⟨emptyService.logged, CorsBuilder.new.updateVary⟩).Runs foreignGet ((), [])
        out₁ fut₁ s₁ ∧
      (Cors.service ⟨emptyService.logged, CorsBuilder.new.updateVary⟩).Runs
        { foreignGet with parts := { foreignGet.parts with
            method := .fromStatic "POST", uri := ascii "/b" } } ((), []) out₂ fut₂ s₂ ∧
      fut₁.headers.iter = fut₂.headers.iter := by
  obtain ⟨r₁, fut₁, s₁, hrun₁⟩ :=
    exists_ok_run Unit Empty CorsBuilder.new.updateVary 1 foreignGet ((), [])
  obtain ⟨r₂, fut₂, s₂, hrun₂⟩ := exists_ok_run Unit Empty CorsBuilder.new.updateVary 1
    { foreignGet with parts := { foreignGet.parts with
        method := .fromStatic "POST", uri := ascii "/b" } } ((), [])
  have hsound := (derived_vary_sound CorsBuilder.new rfl trivial trivial emptyService.logged _ rfl
    _ _ (by decide) (by decide)).2 _ _ _ _ _ _ _ _ hrun₁ hrun₂
  exact ⟨_, fut₁, s₁, _, fut₂, s₂, hrun₁, hrun₂, hsound⟩

end HyperCors
