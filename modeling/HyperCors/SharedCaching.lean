/-
HyperCors.SharedCaching — the middleware behind a shared cache.

`Vary` is written for caches: it names the request headers that a response
depends on. Here the middleware is put behind a cache that honours `Vary`,
in any run of it.

* `shared_cache_sound` — if `Vary` is derived, or pinned to a list that
  covers the derived one, every response handed out carries the headers
  that the middleware decides on for the very request it answers, so a page
  reads exactly what the policy lets it read;
* `pinned_vary_mixes_origins` — if `Vary` is pinned without `Origin`, there
  is a run in which a page gets the response for another origin.
-/
import HyperCors.FetchTheorems
import HyperCors.Lib.SharedCache

namespace HyperCors

open Polling SharedCache

/-! ## The rules of a cache -/

section Rules

variable [HttpCrate] {A B E : Type}

/-- A response may be stored, unless it was given to `OPTIONS` or varies
with everything. -/
structure MayStore (req : Request A) (out : Except E (Response B)) : Prop where
  method : req.parts.method ≠ .options
  ok : ∃ response, out = .ok response ∧
    listed (response.headers.getAll header.vary) (ascii "*") = false

/-- The second request is for the same resource, and has the same values of
every header that the stored response names. -/
structure MayReuse (first : Request A) (out : Except E (Response B)) (second : Request A) :
    Prop where
  method : second.parts.method = first.parts.method
  uri : second.parts.uri = first.parts.uri
  selecting : ∀ response, out = .ok response → ∀ n : HeaderName,
    listed (response.headers.getAll header.vary) n.asStr = true →
      second.parts.headers.getAll n = first.parts.headers.getAll n

/-- A cache that honours `Vary`. -/
def varyRules : Rules (Request A) (Except E (Response B)) := ⟨MayStore, MayReuse⟩

end Rules

section SharedCaching

variable [HttpCrate] {W A B E F : Type}

/-! ## What `Vary` covers -/

/-- Every header that decides is named in the configured `Vary`. -/
def CorsBuilder.VaryCovers (b : CorsBuilder) : Prop :=
  b.varyPinned = false ∨ ∃ names, b.vary = .list names ∧ ∀ n ∈ b.derivedVaryNames, n ∈ names

omit [HttpCrate] in
theorem listed_joinNames {names : List HeaderName} {n : HeaderName} (h : n ∈ names) :
    listed (joinNames names).toList n.asStr = true := by
  refine listed_of_mem ?_
  rw [listedTokens_joinNames]
  exact List.mem_map_of_mem h

/-- The built configuration lists the derived names. -/
theorem CorsBuilder.VaryCovers.listed {b : CorsBuilder} (h : b.VaryCovers) {n : HeaderName}
    (hn : n ∈ b.derivedVaryNames) : listed b.updateVary.vary.value.toList n.asStr = true := by
  rcases h with hpinned | ⟨names, hvary, hsub⟩
  · rw [updateVary_vary hpinned]
    exact listed_joinNames hn
  · cases hpinned : b.varyPinned with
    | false =>
      rw [updateVary_vary hpinned]
      exact listed_joinNames hn
    | true =>
      rw [updateVary_of_pinned hpinned, hvary]
      exact listed_joinNames (hsub n hn)

/-- A response of the middleware names what decides. -/
theorem CorsBuilder.VaryCovers.listed_merged {b : CorsBuilder} (h : b.VaryCovers)
    {n : HeaderName} (hn : n ∈ b.derivedVaryNames) (base : Response B) (parts : Parts) :
    HyperCors.listed ((base.merged (b.updateVary.emitted parts)).headers.getAll header.vary)
      n.asStr = true := by
  rw [Response.merged, getAll_merge_vary, varyValues_emitted]
  exact listed_mergeVary_iff.mpr (Or.inr (h.listed hn))

/-! ## Sound caching -/

/-- Where the response comes from: the inner service has given `base` for
some request, or it is empty, and the headers decided for `req` are merged
into it. -/
def Decides (svc : Inner W A B E F) (cfg : CorsBuilder) (req : Request A)
    (response : Response B) : Prop :=
  ∃ base : Response B, response = base.merged (cfg.emitted req.parts) ∧
    ((∃ req₀ w w', svc.Returns req₀ w (.ok base) w') ∨ base.headers = .new)

variable [Inhabited B]

theorem decides_of_returns {svc : Inner W A B E F} {cfg : CorsBuilder} {req : Request A} {w w' : W}
    {response : Response B}
    (h : (Cors.service ⟨svc, cfg⟩).Returns req w (.ok response) w') :
    Decides svc cfg req response := by
  obtain ⟨base, hbase, hcases⟩ := Cors.ok_returns_cases h
  refine ⟨base, hbase, ?_⟩
  rcases hcases with ⟨_, hinner⟩ | ⟨_, hnew, _⟩
  · exact Or.inl ⟨req, w, w', hinner⟩
  · exact Or.inr hnew

omit [Inhabited B] in
/-- A request that shares a response is decided like the one it was given
for. -/
theorem Decides.reuse {b : CorsBuilder} (hvary : b.VaryCovers)
    (horigin : b.allowOrigin.DependsOnOrigin) (hcred : b.allowCredentials.DependsOnOrigin)
    {svc : Inner W A B E F} {first second : Request A} {response : Response B}
    (h : Decides svc b.updateVary first response)
    (hstore : MayStore first (.ok response : Except E (Response B)))
    (hreuse : MayReuse first (.ok response : Except E (Response B)) second) :
    Decides svc b.updateVary second response := by
  obtain ⟨base, rfl, hbase⟩ := h
  -- neither request is a preflight, as the method is stored
  have hnot : ∀ parts : Parts, parts.method ≠ .options → isPreflightRequest parts = false := by
    intro parts hmethod
    simp [isPreflightRequest, hmethod]
  have hkind : isPreflightRequest first.parts = isPreflightRequest second.parts := by
    rw [hnot _ hstore.method, hnot _ (hreuse.method ▸ hstore.method)]
  have hagree : ∀ n ∈ b.derivedVaryNames,
      first.parts.headers.getAll n = second.parts.headers.getAll n := by
    intro n hn
    exact (hreuse.selecting _ rfl n (hvary.listed_merged hn base first.parts)).symm
  have hemitted : b.updateVary.emitted first.parts = b.updateVary.emitted second.parts := by
    rw [CorsBuilder.emitted, CorsBuilder.emitted, CorsBuilder.decided_updateVary,
      CorsBuilder.decided_updateVary, CorsBuilder.decided_congr horigin hcred hkind hagree]
  exact ⟨base, by rw [hemitted], hbase⟩

/-- Every response handed out by the cache is decided for its request. -/
theorem decides_of_mem {b : CorsBuilder} (hvary : b.VaryCovers)
    (horigin : b.allowOrigin.DependsOnOrigin) (hcred : b.allowCredentials.DependsOnOrigin)
    {svc : Inner W A B E F} {others : W → W → Prop} {w : W}
    {xs : List (Request A × Except E (Response B))}
    {c : Cache W (Request A) (Except E (Response B))}
    (hrun : Run (Cors.service ⟨svc, b.updateVary⟩).Returns others varyRules (.empty w) xs c)
    {req : Request A} {response : Response B} (hmem : (req, .ok response) ∈ xs) :
    Decides svc b.updateVary req response := by
  have hall := hrun.forall_exchanges
    (P := fun req out => ∀ response, out = .ok response → Decides svc b.updateVary req response)
    ?_ ?_
  · exact hall _ hmem response rfl
  · intro req w out w' hreturns response hout
    subst hout
    exact decides_of_returns hreturns
  · intro first out second hdecides hstore hreuse response hout
    subst hout
    exact (hdecides response rfl).reuse hvary horigin hcred hstore hreuse

/-- **Caching is sound.** A shared cache that honours `Vary` stands in front
of the middleware, and others use the service as they like. If `Vary` is
derived, or pinned to a list that covers the derived one, then in every run
each response handed out carries the headers decided for the very request
it answers; and over an inner service that leaves the grants to the
middleware, a page reads it exactly if the policy lets it. -/
theorem shared_cache_sound (b : CorsBuilder) (hvary : b.VaryCovers)
    (horigin : b.allowOrigin.DependsOnOrigin) (hcred : b.allowCredentials.DependsOnOrigin)
    (svc : Inner W A B E F) (cors : Cors (Inner W A B E F)) (hbuild : b.tryBuild svc = .ok cors)
    (others : W → W → Prop) (w : W) (xs : List (Request A × Except E (Response B)))
    (c : Cache W (Request A) (Except E (Response B)))
    (hrun : Run cors.service.Returns others varyRules (.empty w) xs c)
    (req : Request A) (response : Response B) (hmem : (req, .ok response) ∈ xs) :
    Decides svc cors.config req response ∧
    ((∀ req₀ w₀ inner w₁, svc.Returns req₀ w₀ (.ok inner) w₁ →
      inner.headers.getAll header.accessControlAllowOrigin = [] ∧
        inner.headers.getAll header.accessControlAllowCredentials = []) →
      ∀ page : PageRequest, req.parts.headers.getAll header.origin = [page.origin] →
        (corsCheck page response.headers = true ↔ b.LetsRead page req.parts)) := by
  obtain ⟨_, rfl⟩ := CorsBuilder.tryBuild_eq_ok hbuild
  have hdecides := decides_of_mem hvary horigin hcred hrun hmem
  refine ⟨hdecides, ?_⟩
  intro hplain page hpage
  obtain ⟨base, rfl, hbase⟩ := hdecides
  have hnone : base.headers.getAll header.accessControlAllowOrigin = [] ∧
      base.headers.getAll header.accessControlAllowCredentials = [] := by
    rcases hbase with ⟨req₀, w₀, w₁, hinner⟩ | hnew
    · exact hplain req₀ w₀ base w₁ hinner
    · rw [hnew]
      exact ⟨HeaderMap.getAll_new _, HeaderMap.getAll_new _⟩
  rw [← CorsBuilder.letsRead_updateVary]
  exact corsCheck_merged_iff b.updateVary (origin_of_getAll hpage) hnone.1 hnone.2

/-! ## Pinning `Vary` without `Origin` -/

omit [Inhabited B] in
/-- The `Vary` of a response whose inner one has none lists the pinned names. -/
theorem listed_vary_of_pinned {b : CorsBuilder} (hpinned : b.varyPinned = true)
    {names : List HeaderName} (hnames : b.vary = .list names) {base : Response B}
    (hnovary : base.headers.getAll header.vary = []) (parts : Parts) (n : HeaderName) :
    listed ((base.merged (b.updateVary.emitted parts)).headers.getAll header.vary) n.asStr = true ↔
      n ∈ names := by
  have htokens : listedTokens b.vary.value.toList = names.map HeaderName.asStr := by
    rw [hnames]
    exact listedTokens_joinNames names
  rw [Response.merged, getAll_merge_vary, hnovary, CorsBuilder.varyValues_emitted,
    CorsBuilder.updateVary_of_pinned hpinned, ← countToken_pos_iff, countToken_mergeVary_toList,
    htokens]
  simp [listedTokens, countToken, List.countP_pos_iff, eqIgnoreAsciiCase_asStr_iff]

omit [Inhabited B] in
/-- The verdict on a page that may read names its origin. -/
theorem verdict_of_reflects {b : CorsBuilder} (hreflects : ∀ v, b.allowOrigin.inner ≠ .const v)
    {page : PageRequest} {parts : Parts} (hread : b.LetsRead page parts)
    (horigin : parts.headers.getAll header.origin = [page.origin]) :
    b.verdict parts = some (header.accessControlAllowOrigin, page.origin) := by
  obtain ⟨p, hp, _⟩ := AllowOrigin.grants_iff.mp hread.origin
  rw [CorsBuilder.verdict, origin_of_getAll horigin, hp]
  exact congrArg some (Prod.ext (AllowOrigin.verdict_name hp)
    (AllowOrigin.eq_of_verdict hreflects hp))

/-- **A `Vary` without `Origin` mixes origins.** Let a policy reflect the
origin, let `Vary` be pinned to names without `Origin` (and without `*`),
and let the policy grant two pages their requests, which are not `OPTIONS`
and differ in nothing but the origin. Let the inner service answer the
first one with a response that has no `Vary`. Then the middleware itself
gives the second page only responses it may read, but in some run of a
cache the second page is handed the response of the first one, and may not
read it. -/
theorem pinned_vary_mixes_origins (b : CorsBuilder) (names : List HeaderName)
    (hpinned : b.varyPinned = true) (hnames : b.vary = .list names)
    (hmissing : header.origin ∉ names) (hstar : .fromStatic "*" ∉ names)
    (hreflects : ∀ v, b.allowOrigin.inner ≠ .const v) (svc : Inner W A B E F)
    (cors : Cors (Inner W A B E F)) (hbuild : b.tryBuild svc = .ok cors) (others : W → W → Prop)
    (page₁ page₂ : PageRequest) (hne : page₁.origin ≠ page₂.origin) (act₁ act₂ : Request A)
    (hact₁ : Performs page₁ act₁.parts) (hact₂ : Performs page₂ act₂.parts)
    (hread₁ : b.LetsRead page₁ act₁.parts) (hread₂ : b.LetsRead page₂ act₂.parts)
    (hmethod : act₁.parts.method ≠ .options) (hsame : act₂.parts.method = act₁.parts.method)
    (huri : act₂.parts.uri = act₁.parts.uri)
    (hfields : ∀ n, n ≠ header.origin →
      act₂.parts.headers.getAll n = act₁.parts.headers.getAll n)
    (w : W) (inner : Response B) (w' : W) (hinner : svc.Returns act₁ w (.ok inner) w')
    (hnovary : inner.headers.getAll header.vary = []) :
    (∀ w₁ response w₂, cors.service.Returns act₂ w₁ (.ok response) w₂ →
      corsCheck page₂ response.headers = true) ∧
    ∃ response c, Run cors.service.Returns others varyRules (.empty w)
        [(act₁, .ok response), (act₂, .ok response)] c ∧
      corsCheck page₂ response.headers = false := by
  obtain ⟨_, rfl⟩ := CorsBuilder.tryBuild_eq_ok hbuild
  refine ⟨?_, ?_⟩
  · intro w₁ response w₂ hreturns
    exact (CorsBuilder.letsRead_updateVary.mpr hread₂).corsCheck_of_returns hact₂.origin hreturns
  · have hforwards : b.updateVary.forwards act₁.parts = true := by
      rw [CorsBuilder.forwards_updateVary]
      exact hread₁.forwards hact₁
    have hreturns : (Cors.service ⟨svc, b.updateVary⟩).Returns act₁ w
        (.ok (inner.merged (b.updateVary.emitted act₁.parts))) w' :=
      (Cors.returns_forwarded_iff hforwards).mpr ⟨.ok inner, hinner, rfl⟩
    have hlisted := listed_vary_of_pinned hpinned hnames hnovary act₁.parts
    -- the response may be stored, and names no header that tells the requests apart
    have hstore : varyRules.storable act₁
        (.ok (inner.merged (b.updateVary.emitted act₁.parts)) : Except E (Response B)) := by
      refine ⟨hmethod, _, rfl, ?_⟩
      rw [Bool.eq_false_iff]
      intro hall
      exact hstar ((hlisted _).mp hall)
    have hreuse : varyRules.reusable act₁
        (.ok (inner.merged (b.updateVary.emitted act₁.parts)) : Except E (Response B)) act₂ := by
      refine ⟨hsame, huri, ?_⟩
      intro response hresponse n hn
      rw [← Except.ok.inj hresponse, hlisted] at hn
      refine hfields n ?_
      rintro rfl
      exact hmissing hn
    refine ⟨_, _, .serve (.fill hreturns hstore)
      (.serve (.hit (List.mem_cons_self ..) hstore hreuse) (.refl _)), ?_⟩
    -- the stored response is meant for the first origin
    have hverdict := verdict_of_reflects hreflects hread₁ hact₁.origin
    have hvalue : (inner.headers.merge (b.updateVary.emitted act₁.parts)).getAll
        header.accessControlAllowOrigin = [page₁.origin] := by
      rw [getAll_merge_of_ne _ _ (by decide), CorsBuilder.filter_emitted_allowOrigin,
        CorsBuilder.verdict_updateVary, hverdict]
      rfl
    have hother : ¬ page₁.origin = wildcard := page₁.ne_wildcard
    simp [corsCheck, Response.merged, hvalue, hother, hne]

end SharedCaching

/-! ## Two pages -/

/-- A page of the listed origin reads without credentials. -/
def listedPage : PageRequest :=
  { putPage with method := .get, unsafeNames := [], credentials := false }

def listedGet : Request Unit := ⟨headWith .get [(header.origin, originA)], ()⟩

/-- Both origins are listed. -/
def bothConfig : CorsBuilder :=
  CorsBuilder.new.setAllowOrigin
    ⟨.list [originA, originB], fun _ e => OriginInner.list.inj e ▸ by decide⟩

theorem letsRead_both {page : PageRequest} {parts : Parts} (b : CorsBuilder)
    (hpolicy : b.allowOrigin = bothConfig.allowOrigin) (hcred : page.credentials = false)
    (h : page.origin ∈ [originA, originB]) : b.LetsRead page parts := by
  refine ⟨?_, by simp [hcred]⟩
  rw [hpolicy]
  exact (AllowOrigin.grants_list_iff rfl).mpr h

/-- A page gets its own response again, from the cache. -/
theorem shared_cache_sound_twice :
    ∃ response c, Run (Cors.service ⟨emptyService, bothConfig.updateVary⟩).Returns
        (fun _ _ => False) varyRules (.empty ())
        [(listedGet, .ok response), (listedGet, .ok response)] c ∧
      corsCheck listedPage response.headers = true := by
  have hreturns : (Cors.service ⟨emptyService, bothConfig.updateVary⟩).Returns listedGet ()
      (.ok (Response.merged (.new default) (bothConfig.updateVary.emitted listedGet.parts))) () :=
    (Cors.returns_forwarded_iff (by decide)).mpr
      ⟨.ok (.new default), Service.ofFn_returns_iff.mpr ⟨rfl, rfl⟩, rfl⟩
  have hstore : varyRules.storable listedGet (.ok (Response.merged (.new default)
      (bothConfig.updateVary.emitted listedGet.parts)) : Except Empty (Response Unit)) :=
    ⟨by decide, _, rfl, by decide⟩
  have hrun : Run (Cors.service ⟨emptyService, bothConfig.updateVary⟩).Returns (fun _ _ => False)
      varyRules (.empty ()) [(listedGet, .ok _), (listedGet, .ok _)] _ :=
    .serve (.fill hreturns hstore)
      (.serve (.hit (List.mem_cons_self ..) hstore ⟨rfl, rfl, fun _ _ _ _ => rfl⟩) (.refl _))
  have hsound := shared_cache_sound bothConfig (Or.inl rfl) trivial trivial emptyService _ rfl _ _
    _ _ hrun listedGet _ (List.mem_cons_self ..)
  exact ⟨_, _, hrun, (hsound.2 emptyService_plain listedPage rfl).mpr
    (letsRead_both bothConfig rfl rfl (by decide))⟩

theorem getAll_headWith_origin {o : HeaderValue} {n : HeaderName} (hn : n ≠ header.origin) :
    HeaderMap.getAll (headWith .get [(header.origin, o)]).headers n = [] := by
  have hne : ¬ header.origin = n := fun e => hn e.symm
  show (List.filter (fun f : Pair => f.1 = n) [(header.origin, o)]).map Prod.snd = []
  simp [hne]

theorem performs_listedGet : Performs listedPage listedGet.parts :=
  ⟨rfl, by decide, getAll_headWith_origin (by decide)⟩

theorem performs_foreignGet : Performs foreignPage foreignGet.parts :=
  ⟨rfl, by decide, getAll_headWith_origin (by decide)⟩

/-- No header is named. -/
def unvaryingConfig : CorsBuilder := bothConfig.setVary (.list [])

theorem pinned_vary_mixes_origins_empty :
    ∃ response c, Run (Cors.service ⟨emptyService, unvaryingConfig.updateVary⟩).Returns
        (fun _ _ => False) varyRules (.empty ())
        [(listedGet, .ok response), (foreignGet, .ok response)] c ∧
      corsCheck foreignPage response.headers = false := by
  have hreflects : ∀ v, unvaryingConfig.allowOrigin.inner ≠ .const v := by
    intro v h
    cases h
  have hfields : ∀ n, n ≠ header.origin →
      foreignGet.parts.headers.getAll n = listedGet.parts.headers.getAll n := by
    intro n hn
    exact (getAll_headWith_origin hn).trans (getAll_headWith_origin hn).symm
  have hinner : emptyService.Returns listedGet () (.ok (.new default)) () :=
    Service.ofFn_returns_iff.mpr ⟨rfl, rfl⟩
  exact (pinned_vary_mixes_origins unvaryingConfig [] rfl rfl List.not_mem_nil List.not_mem_nil
    hreflects emptyService ⟨emptyService, unvaryingConfig.updateVary⟩ rfl (fun _ _ => False)
    listedPage foreignPage (by decide) listedGet foreignGet performs_listedGet performs_foreignGet
    (letsRead_both unvaryingConfig rfl rfl (by decide))
    (letsRead_both unvaryingConfig rfl rfl (by decide)) (by decide) (by decide) (by decide) hfields
    () (.new default) () hinner (HeaderMap.getAll_new _)).2

end HyperCors
