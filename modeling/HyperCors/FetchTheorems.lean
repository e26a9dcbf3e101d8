/-
HyperCors.FetchTheorems — what a configuration means to a page.

* `response_readable_iff` — a page reads a response exactly if the policy
  grants its origin, and its credentials if it sent any;
* `preflight_passes_iff` — a browser takes the answer to a preflight for a
  permission exactly if the knobs cover origin, credentials, method and
  header fields;
* `fetch_protects` — so a request that needs a permission reaches the
  inner service only with one, and its preflight never does;
* `fetch_succeeds`, `preflight_promise_kept` — and a permitted request gets
  through, and its response to the page;
* `configured_preflight_passes_iff` — what configured lists permit, in
  terms of the lists.
-/
import HyperCors.Fetch
import HyperCors.Credentials
import HyperCors.Emitted

namespace HyperCors

open Polling

section FetchTheorems

variable [HttpCrate] {W A B E F : Type}

/-! ## What a configuration grants -/

/-- The origin policy lets the page read. -/
def AllowOrigin.Grants (self : AllowOrigin) (page : PageRequest) (parts : Parts) : Prop :=
  match self.inner with
  | .const v => v = page.origin ∨ (page.credentials = false ∧ v = wildcard)
  | _ => self.allows page.origin parts = true

/-- The page may read the response to a request with this head. -/
structure CorsBuilder.LetsRead (cfg : CorsBuilder) (page : PageRequest) (parts : Parts) :
    Prop where
  origin : cfg.allowOrigin.Grants page parts
  credentials : page.credentials = true →
    cfg.allowCredentials.allows (some page.origin) parts = true

omit [HttpCrate] in
/-- The methods that a preflight for `m` is told. -/
def AllowMethods.advertised : AllowMethods → Method → List Bytes
  | .const none, _ => []
  | .const (some v), _ => commaTokens v.bytes
  | .mirrorRequest, m => [m.asStr]

omit [HttpCrate] in
/-- The names that a preflight for `names` is told. -/
def AllowHeaders.advertised : AllowHeaders → List HeaderName → List Bytes
  | .const none, _ => []
  | .const (some v), _ => commaTokens v.bytes
  | .mirrorRequest, names => names.map HeaderName.asStr

/-- The page may send the request. -/
structure CorsBuilder.Permits (cfg : CorsBuilder) (page : PageRequest) (parts : Parts) : Prop
    extends cfg.LetsRead page parts where
  method : page.methodAllowed (cfg.allowMethods.advertised page.method) = true
  headers : page.headersAllowed (cfg.allowHeaders.advertised page.unsafeNames) = true

/-! ## The check of a response -/

/-- The check on the headers of a verdict. -/
theorem corsCheck_iff {page : PageRequest} {headers : HeaderMap} {verdict : Option Pair}
    {allowed : Bool}
    (horigin : headers.getAll header.accessControlAllowOrigin = (verdict.map Prod.snd).toList)
    (hcred : verdict.isSome = true → headers.getAll header.accessControlAllowCredentials =
      if allowed then [allowCredentialsTrue] else []) :
    corsCheck page headers = true ↔ ∃ p, verdict = some p ∧
      (p.2 = page.origin ∨ (page.credentials = false ∧ p.2 = wildcard)) ∧
      (page.credentials = true → allowed = true) := by
  unfold corsCheck
  rw [horigin]
  cases verdict with
  | none => simp
  | some p =>
    rw [hcred rfl]
    cases page.credentials <;> cases allowed <;> by_cases h : p.2 = wildcard <;>
      simp [h, page.ne_wildcard.symm]

/-- A verdict that the page may read is a grant of the policy. -/
theorem AllowOrigin.grants_iff {self : AllowOrigin} {page : PageRequest} {parts : Parts} :
    self.Grants page parts ↔ ∃ p, self.verdict (some page.origin) parts = some p ∧
      (p.2 = page.origin ∨ (page.credentials = false ∧ p.2 = wildcard)) := by
  unfold Grants verdict
  cases hinner : self.inner with
  | const v => simp
  | list l => simp [page.ne_wildcard]
  | predicate f => simp [page.ne_wildcard]
  | asyncPredicate f => simp [page.ne_wildcard]

/-- A page that may read is granted so, whatever the response carries: the
middleware overwrites other grants. -/
theorem CorsBuilder.LetsRead.corsCheck_merged {cfg : CorsBuilder} {page : PageRequest}
    {parts : Parts} (h : cfg.LetsRead page parts) (horigin : parts.origin = some page.origin)
    (m : HeaderMap) : corsCheck page (m.merge (cfg.emitted parts)) = true := by
  obtain ⟨p, hp, hread⟩ := AllowOrigin.grants_iff.mp h.origin
  have hverdict : cfg.verdict parts = some p := by rw [verdict, horigin, hp]
  have hvalue : (m.merge (cfg.emitted parts)).getAll header.accessControlAllowOrigin = [p.2] := by
    rw [getAll_merge_of_ne m _ (by decide), cfg.filter_emitted_allowOrigin, hverdict]
    rfl
  cases hcredentials : page.credentials with
  | false =>
    rcases hread with hread | ⟨_, hread⟩ <;>
      simp [corsCheck, hvalue, hcredentials, hread, page.ne_wildcard]
  | true =>
    have hcreds : (m.merge (cfg.emitted parts)).getAll header.accessControlAllowCredentials =
        [allowCredentialsTrue] := by
      rw [getAll_merge_of_ne m _ (by decide), cfg.filter_emitted_allowCredentials,
        if_pos (grants_of_verdict (by rw [hverdict]; rfl)), AllowCredentials.toHeader_eq, horigin,
        if_pos (h.credentials hcredentials)]
      rfl
    have horiginValue : p.2 = page.origin := by simpa [hcredentials] using hread
    simp [corsCheck, hvalue, hcreds, hcredentials, horiginValue]

/-- The check of a response that carries no grant of its own. -/
theorem corsCheck_merged_iff (cfg : CorsBuilder) {page : PageRequest} {parts : Parts}
    (horigin : parts.origin = some page.origin) {m : HeaderMap}
    (hallow : m.getAll header.accessControlAllowOrigin = [])
    (hcred : m.getAll header.accessControlAllowCredentials = []) :
    corsCheck page (m.merge (cfg.emitted parts)) = true ↔ cfg.LetsRead page parts := by
  have hvalues : (m.merge (cfg.emitted parts)).getAll header.accessControlAllowOrigin =
      ((cfg.verdict parts).map Prod.snd).toList :=
    getAll_merge_of_filter (by decide) (cfg.filter_emitted_allowOrigin parts) hallow
  have hcreds : (cfg.verdict parts).isSome = true →
      (m.merge (cfg.emitted parts)).getAll header.accessControlAllowCredentials =
        if cfg.allowCredentials.allows (some page.origin) parts then [allowCredentialsTrue]
        else [] := by
    intro hverdict
    have hfilter := cfg.filter_emitted_allowCredentials parts
    rw [if_pos (CorsBuilder.grants_of_verdict hverdict), AllowCredentials.toHeader_eq,
      horigin] at hfilter
    rw [getAll_merge_of_filter (by decide) hfilter hcred]
    split <;> rfl
  constructor
  · intro hcheck
    rw [corsCheck_iff hvalues hcreds, CorsBuilder.verdict, horigin] at hcheck
    obtain ⟨p, hp, hread, hcredentials⟩ := hcheck
    exact ⟨AllowOrigin.grants_iff.mpr ⟨p, hp, hread⟩, hcredentials⟩
  · intro h
    exact h.corsCheck_merged horigin m

theorem CorsBuilder.letsRead_updateVary {b : CorsBuilder} {page : PageRequest} {parts : Parts} :
    b.updateVary.LetsRead page parts ↔ b.LetsRead page parts := by
  rw [updateVary_eq]
  exact ⟨fun h => ⟨h.origin, h.credentials⟩, fun h => ⟨h.origin, h.credentials⟩⟩

theorem CorsBuilder.permits_updateVary {b : CorsBuilder} {page : PageRequest} {parts : Parts} :
    b.updateVary.Permits page parts ↔ b.Permits page parts := by
  rw [updateVary_eq]
  exact ⟨fun h => ⟨⟨h.origin, h.credentials⟩, h.method, h.headers⟩,
    fun h => ⟨⟨h.origin, h.credentials⟩, h.method, h.headers⟩⟩

theorem CorsBuilder.deliverPreflight_updateVary (b : CorsBuilder) :
    b.updateVary.deliverPreflight = b.deliverPreflight := by
  rw [updateVary_eq]

theorem origin_of_getAll {parts : Parts} {o : HeaderValue}
    (h : parts.headers.getAll header.origin = [o]) : parts.origin = some o := by
  rw [Parts.origin, HeaderMap.get, h]
  rfl

variable [Inhabited B]

/-- What a call returns is readable by the page or not, over an inner
service that leaves the grants to the middleware. -/
theorem corsCheck_of_returns {cors : Cors (Inner W A B E F)} {page : PageRequest}
    {req : Request A} (horigin : req.parts.headers.getAll header.origin = [page.origin]) {w : W}
    (hplain : ∀ inner w', cors.inner.Returns req w (.ok inner) w' →
      inner.headers.getAll header.accessControlAllowOrigin = [] ∧
        inner.headers.getAll header.accessControlAllowCredentials = [])
    {response : Response B} {w' : W} (h : cors.service.Returns req w (.ok response) w') :
    corsCheck page response.headers = true ↔ cors.config.LetsRead page req.parts := by
  obtain ⟨base, rfl, hbase⟩ := Cors.ok_returns_cases h
  have hnone : base.headers.getAll header.accessControlAllowOrigin = [] ∧
      base.headers.getAll header.accessControlAllowCredentials = [] := by
    rcases hbase with ⟨_, hinner⟩ | ⟨_, hnew, _⟩
    · exact hplain base w' hinner
    · rw [hnew]
      exact ⟨HeaderMap.getAll_new _, HeaderMap.getAll_new _⟩
  exact corsCheck_merged_iff cors.config (origin_of_getAll horigin) hnone.1 hnone.2

/-- A page that the policy lets read may read whatever a call returns. -/
theorem CorsBuilder.LetsRead.corsCheck_of_returns {cors : Cors (Inner W A B E F)}
    {page : PageRequest} {req : Request A} (h : cors.config.LetsRead page req.parts)
    (horigin : req.parts.headers.getAll header.origin = [page.origin]) {w : W}
    {response : Response B} {w' : W} (hreturns : cors.service.Returns req w (.ok response) w') :
    corsCheck page response.headers = true := by
  obtain ⟨base, rfl, _⟩ := Cors.ok_returns_cases hreturns
  exact h.corsCheck_merged (origin_of_getAll horigin) base.headers

/-- **Who may read.** A page may read the response to its request exactly if
the policy grants its origin, and if the credentials knob allows the
credentials it sent. The inner service leaves the grants to the
middleware. -/
theorem response_readable_iff (b : CorsBuilder) (svc : Inner W A B E F)
    (cors : Cors (Inner W A B E F)) (hbuild : b.tryBuild svc = .ok cors) (page : PageRequest)
    (req : Request A) (horigin : req.parts.headers.getAll header.origin = [page.origin]) (w : W)
    (hplain : ∀ inner w', svc.Returns req w (.ok inner) w' →
      inner.headers.getAll header.accessControlAllowOrigin = [] ∧
        inner.headers.getAll header.accessControlAllowCredentials = [])
    (response : Response B) (w' : W) (hreturns : cors.service.Returns req w (.ok response) w') :
    corsCheck page response.headers = true ↔ b.LetsRead page req.parts := by
  obtain ⟨_, rfl⟩ := CorsBuilder.tryBuild_eq_ok hbuild
  rw [← CorsBuilder.letsRead_updateVary]
  exact corsCheck_of_returns horigin hplain hreturns

/-! ## The answer to a preflight -/

/-- A preflight of a browser is one to the middleware. -/
theorem Announces.isPreflightRequest {page : PageRequest} {parts : Parts}
    (h : Announces page parts) : isPreflightRequest parts = true := by
  simp [HyperCors.isPreflightRequest, h.method, HeaderMap.containsKey, h.requestMethod]

/-- The methods told to a preflight. -/
theorem Announces.listedTokens_allowMethods {page : PageRequest} {parts : Parts}
    (h : Announces page parts) (knob : AllowMethods) :
    listedTokens ((knob.toHeader parts).map Prod.snd).toList = knob.advertised page.method := by
  cases knob with
  | const value =>
    cases value with
    | none => rfl
    | some v => simp [AllowMethods.toHeader, AllowMethods.advertised, listedTokens]
  | mirrorRequest =>
    have hget : parts.headers.get header.accessControlRequestMethod =
        some (methodToValue page.method) := by
      rw [HeaderMap.get, h.requestMethod]
      rfl
    have hbytes : (methodToValue page.method).bytes = page.method.asStr :=
      HeaderValue.bytes_expectBytes _ _
    have hvalid : isValidToken (methodToValue page.method).bytes = true := by
      rw [hbytes]
      exact page.method.valid
    have htokens : commaTokens (methodToValue page.method).bytes = [page.method.asStr] := by
      rw [hbytes]
      exact (clean_of_isValidToken page.method.valid).tokens_eq
    simp [AllowMethods.toHeader, AllowMethods.advertised, hget, hvalid, listedTokens, htokens]

omit [HttpCrate] [Inhabited B] in
theorem isValidToken_asStr (n : HeaderName) : isValidToken n.asStr = true := by
  simp only [isValidToken, Bool.and_eq_true, Bool.not_eq_true', List.isEmpty_eq_false_iff,
    List.all_eq_true]
  exact ⟨n.asStr_ne_nil, fun b hb => n.isTokenByte_of_mem hb⟩

/-- The names told to a preflight. -/
theorem Announces.listedTokens_allowHeaders {page : PageRequest} {parts : Parts}
    (h : Announces page parts) (knob : AllowHeaders) :
    listedTokens ((knob.toHeader parts).map Prod.snd).toList =
      knob.advertised page.unsafeNames := by
  cases knob with
  | const value =>
    cases value with
    | none => rfl
    | some v => simp [AllowHeaders.toHeader, AllowHeaders.advertised, listedTokens]
  | mirrorRequest =>
    have hget : parts.headers.get header.accessControlRequestHeaders =
        separatedByCommas (page.unsafeNames.map HeaderName.toValue) := by
      rw [HeaderMap.get, h.requestHeaders]
      exact Option.head?_toList
    cases hraw : separatedByCommas (page.unsafeNames.map HeaderName.toValue) with
    | none =>
      rw [separatedByCommas_eq_none_iff, List.map_eq_nil_iff] at hraw
      simp [AllowHeaders.toHeader, AllowHeaders.advertised, hget, hraw, separatedByCommas,
        listedTokens]
    | some raw =>
      have htokens : commaTokens raw.bytes = page.unsafeNames.map HeaderName.asStr := by
        rw [bytes_of_separatedByCommas hraw, map_bytes_toValue]
        refine TokenList.tokens_intercalate isPad_nil ?_
        intro t ht
        obtain ⟨n, _, rfl⟩ := List.mem_map.mp ht
        exact clean_asStr n
      have hvalid : validTokens raw = page.unsafeNames.map HeaderName.asStr := by
        rw [validTokens, htokens, List.filter_eq_self]
        intro t ht
        obtain ⟨n, _, rfl⟩ := List.mem_map.mp ht
        exact isValidToken_asStr n
      have hne : page.unsafeNames ≠ [] := by
        intro hnil
        rw [hnil] at hraw
        cases hraw
      obtain ⟨v, hv, hbytes⟩ : ∃ v, mirrorSanitized raw = some v ∧ _ := by
        have hspec := mirrorSanitized_spec raw
        rwa [if_neg (by simpa [hvalid] using hne)] at hspec
      simp [AllowHeaders.toHeader, AllowHeaders.advertised, hget, hraw, hv, listedTokens,
        commaTokens_mirrorSanitized hv, hvalid]

/-- The answer to a preflight of a page that may read: the status is 200, and
methods and names are told as advertised. -/
theorem answer_of_letsRead {cfg : CorsBuilder} {page : PageRequest} {parts : Parts}
    (hann : Announces page parts) (hread : cfg.LetsRead page parts) :
    (cfg.answer (B := B) parts).status = .ok ∧
      listedTokens ((cfg.answer (B := B) parts).headers.getAll
        header.accessControlAllowMethods) = cfg.allowMethods.advertised page.method ∧
      listedTokens ((cfg.answer (B := B) parts).headers.getAll
        header.accessControlAllowHeaders) = cfg.allowHeaders.advertised page.unsafeNames := by
  have hverdict : (cfg.verdict parts).isSome = true := by
    obtain ⟨p, hp, _⟩ := AllowOrigin.grants_iff.mp hread.origin
    rw [CorsBuilder.verdict, origin_of_getAll hann.origin, hp]
    rfl
  have hgrants := CorsBuilder.grants_of_verdict hverdict
  have hrejects : cfg.rejects parts = false := by
    simp [CorsBuilder.rejects, CorsBuilder.denies, Option.isNone_eq_false_iff.mpr hverdict]
  have hmethods := cfg.filter_emitted_allowMethods hann.isPreflightRequest
  have hheaders := cfg.filter_emitted_allowHeaders hann.isPreflightRequest
  rw [if_pos hgrants] at hmethods hheaders
  refine ⟨?_, ?_, ?_⟩
  · simp [CorsBuilder.answer, Response.merged, CorsBuilder.answerStatus, hrejects]
  · rw [← hann.listedTokens_allowMethods]
    exact congrArg listedTokens
      (getAll_merge_of_filter (by decide) hmethods (HeaderMap.getAll_new _))
  · rw [← hann.listedTokens_allowHeaders]
    exact congrArg listedTokens
      (getAll_merge_of_filter (by decide) hheaders (HeaderMap.getAll_new _))

/-- The answer passes exactly if the request is permitted. -/
theorem preflightPasses_answer_iff {cfg : CorsBuilder} {page : PageRequest} {parts : Parts}
    (hann : Announces page parts) :
    preflightPasses page (cfg.answer (B := B) parts) = true ↔ cfg.Permits page parts := by
  have hread : corsCheck page (cfg.answer (B := B) parts).headers = true ↔ _ :=
    corsCheck_merged_iff cfg (origin_of_getAll hann.origin) (HeaderMap.getAll_new _)
      (HeaderMap.getAll_new _)
  simp only [preflightPasses, Bool.and_eq_true, hread]
  constructor
  · intro hpasses
    obtain ⟨⟨⟨_, hread⟩, hmethod⟩, hheaders⟩ := hpasses
    obtain ⟨_, hmethods, hnames⟩ := answer_of_letsRead (B := B) hann hread
    rw [hmethods] at hmethod
    rw [hnames] at hheaders
    exact ⟨hread, hmethod, hheaders⟩
  · intro hpermits
    obtain ⟨hstatus, hmethods, hnames⟩ := answer_of_letsRead (B := B) hann hpermits.toLetsRead
    rw [hmethods, hnames, hstatus]
    exact ⟨⟨⟨by decide, hpermits.toLetsRead⟩, hpermits.method⟩, hpermits.headers⟩

/-- The answer to a preflight, and that the inner service is spared. -/
theorem preflight_returns_iff {cfg : CorsBuilder} {svc : Inner W A B E F}
    (hshort : cfg.deliverPreflight = false) {page : PageRequest} {req : Request A}
    (hann : Announces page req.parts) {w : W} {out : Except E (Response B)} {w' : W} :
    (Cors.service ⟨svc, cfg⟩).Returns req w out w' ↔
      out = .ok (cfg.answer req.parts) ∧ w' = w := by
  apply Cors.returns_answered_iff
  simp [CorsBuilder.forwards, CorsBuilder.shortCircuits, hann.isPreflightRequest, hshort]

/-- Every answer to a preflight of a browser passes exactly if the
configuration permits the request. -/
theorem passes_iff_of_returns {b : CorsBuilder} {svc : Inner W A B E F}
    (hshort : b.deliverPreflight = false) {page : PageRequest} {req : Request A}
    (hann : Announces page req.parts) {w : W} {response : Response B} {w' : W}
    (h : (Cors.service ⟨svc, b.updateVary⟩).Returns req w (.ok response) w') :
    preflightPasses page response = true ↔ b.Permits page req.parts := by
  have hshort' : b.updateVary.deliverPreflight = false :=
    b.deliverPreflight_updateVary.trans hshort
  obtain ⟨hanswer, _⟩ := (preflight_returns_iff hshort' hann).mp h
  obtain rfl := Except.ok.inj hanswer
  rw [preflightPasses_answer_iff hann, CorsBuilder.permits_updateVary]

/-- **What a preflight permits.** A browser takes the answer of the
short-circuiting middleware for a permission exactly if the configuration
permits the request: the origin and the credentials as for reading, the
method and every header field by the knobs. -/
theorem preflight_passes_iff (b : CorsBuilder) (svc : Inner W A B E F)
    (cors : Cors (Inner W A B E F)) (hbuild : b.tryBuild svc = .ok cors)
    (hshort : b.deliverPreflight = false) (page : PageRequest) (req : Request A)
    (hann : Announces page req.parts) (w : W) (response : Response B) (w' : W)
    (hreturns : cors.service.Returns req w (.ok response) w') :
    preflightPasses page response = true ↔ b.Permits page req.parts := by
  obtain ⟨_, rfl⟩ := CorsBuilder.tryBuild_eq_ok hbuild
  exact passes_iff_of_returns hshort hann hreturns

/-! ## Whole fetches -/

/-- What a forwarded or answered request leaves in the record. -/
theorem record_of_returns {cfg : CorsBuilder} {svc : Inner W A B E F} {req : Request A}
    {s s' : W × List (Request A)} {out : Except E (Response B)}
    (h : (Cors.service ⟨svc.logged, cfg⟩).Returns req s out s') :
    s'.2 = s.2 ++ if cfg.forwards req.parts then [req] else [] := by
  cases hforwards : cfg.forwards req.parts with
  | false =>
    obtain ⟨_, rfl⟩ := (Cors.returns_answered_iff hforwards).mp h
    simp
  | true =>
    obtain ⟨o, hinner, _⟩ := (Cors.returns_forwarded_iff hforwards).mp h
    simp [(Service.logged_returns_iff.mp hinner).2]

/-- **The inner service is protected.** Let the middleware answer preflights
itself. In every fetch of a request that needs a permission, the inner
service is called once, with the request, if the configuration permits it
and forwards it; otherwise it is not called at all. The preflight never
reaches it. And a page that gets to see a response may read it, if the
inner service leaves the grants to the middleware. -/
theorem fetch_protects (b : CorsBuilder) (svc : Inner W A B E F)
    (cors : Cors (Inner (W × List (Request A)) A B E F))
    (hbuild : b.tryBuild svc.logged = .ok cors) (page : PageRequest) (pre act : Request A)
    (hpre : Announces page pre.parts) (hact : Performs page act.parts) (w : W)
    (out : Option (Response B)) (w' : W) (log : List (Request A))
    (hfetch : Fetch cors.service page pre act (w, []) out (w', log)) :
    (b.deliverPreflight = false → page.needsPreflight = true →
      (b.Permits page pre.parts → log = if b.forwards act.parts then [act] else []) ∧
      (¬ b.Permits page pre.parts → log = [] ∧ out = none)) ∧
    ((∀ w₁ inner w₂, svc.Returns act w₁ (.ok inner) w₂ →
      inner.headers.getAll header.accessControlAllowOrigin = [] ∧
        inner.headers.getAll header.accessControlAllowCredentials = []) →
      out.isSome = true → b.LetsRead page act.parts) := by
  obtain ⟨_, rfl⟩ := CorsBuilder.tryBuild_eq_ok hbuild
  refine ⟨?_, ?_⟩
  · intro hshort hneeds
    have hshort' : b.updateVary.deliverPreflight = false :=
      b.deliverPreflight_updateVary.trans hshort
    cases hfetch with
    | simple hsimple _ =>
      rw [hneeds] at hsimple
      cases hsimple
    | @refused result _ _ hreturns hfails =>
      obtain ⟨hanswer, hsame⟩ := (preflight_returns_iff hshort' hpre).mp hreturns
      have hlog : log = [] := congrArg Prod.snd hsame
      subst hanswer
      have hdenied : ¬ b.Permits page pre.parts := by
        rw [← passes_iff_of_returns hshort hpre hreturns, hfails _ rfl]
        exact Bool.false_ne_true
      exact ⟨fun hpermits => absurd hpermits hdenied, fun _ => ⟨hlog, rfl⟩⟩
    | permitted _ hreturns hpassed hreturns' =>
      have hpermits := (passes_iff_of_returns hshort hpre hreturns).mp hpassed
      obtain ⟨_, rfl⟩ := (preflight_returns_iff hshort' hpre).mp hreturns
      refine ⟨?_, fun hdenied => absurd hpermits hdenied⟩
      intro _
      simpa using record_of_returns hreturns'
  · intro hplain hsome
    -- the page has seen the result of the request itself
    have hreads : ∀ s (result : Except E (Response B)) s',
        (Cors.service ⟨svc.logged, b.updateVary⟩).Returns act s result s' →
          (readable page result).isSome = true → b.LetsRead page act.parts := by
      intro s result s' hreturns hsome
      cases result with
      | error e => cases hsome
      | ok response =>
        rw [← CorsBuilder.letsRead_updateVary]
        refine (corsCheck_of_returns hact.origin ?_ hreturns).mp ?_
        · intro inner s₂ hinner
          exact hplain _ _ _ (Service.logged_returns_iff.mp hinner).1
        · by_contra hcheck
          simp [readable, hcheck] at hsome
    cases hfetch with
    | simple _ hreturns => exact hreads _ _ _ hreturns hsome
    | refused _ _ _ => cases hsome
    | permitted _ _ _ hreturns' => exact hreads _ _ _ hreturns' hsome

/-- What may be read is forwarded. -/
theorem CorsBuilder.LetsRead.forwards {cfg : CorsBuilder} {page : PageRequest} {parts : Parts}
    (hact : Performs page parts) (h : cfg.LetsRead page parts) : cfg.forwards parts = true := by
  obtain ⟨p, hp, _⟩ := AllowOrigin.grants_iff.mp h.origin
  have hverdict : cfg.verdict parts = some p := by
    rw [CorsBuilder.verdict, origin_of_getAll hact.origin, hp]
  have hpre : HyperCors.isPreflightRequest parts = false := by
    simp [HyperCors.isPreflightRequest, HeaderMap.containsKey, hact.requestMethod]
  simp [CorsBuilder.forwards, shortCircuits, rejects, denies, hpre, hverdict]

/-- **A permitted request succeeds.** Let the middleware answer preflights
itself. If the configuration permits the request and lets the page read,
then every response of the inner service reaches the page, with the headers
of the middleware merged in. -/
theorem fetch_succeeds (b : CorsBuilder) (svc : Inner W A B E F)
    (cors : Cors (Inner (W × List (Request A)) A B E F))
    (hbuild : b.tryBuild svc.logged = .ok cors) (hshort : b.deliverPreflight = false)
    (page : PageRequest) (pre act : Request A) (hpre : Announces page pre.parts)
    (hact : Performs page act.parts) (hpermits : b.Permits page pre.parts)
    (hread : b.LetsRead page act.parts) (w : W) (inner : Response B) (w' : W)
    (hinner : svc.Returns act w (.ok inner) w') :
    Fetch cors.service page pre act (w, [])
      (some (inner.merged (cors.config.emitted act.parts))) (w', [act]) := by
  obtain ⟨_, rfl⟩ := CorsBuilder.tryBuild_eq_ok hbuild
  have hshort' : b.updateVary.deliverPreflight = false :=
    b.deliverPreflight_updateVary.trans hshort
  have hforwards : b.updateVary.forwards act.parts = true := by
    rw [CorsBuilder.forwards_updateVary]
    exact hread.forwards hact
  have hreturns : (Cors.service ⟨svc.logged, b.updateVary⟩).Returns act (w, [])
      (.ok (inner.merged (b.updateVary.emitted act.parts))) (w', [act]) :=
    (Cors.returns_forwarded_iff hforwards).mpr
      ⟨.ok inner, Service.logged_returns_iff.mpr ⟨hinner, rfl⟩, rfl⟩
  have hcheck : corsCheck page (inner.merged (b.updateVary.emitted act.parts)).headers = true :=
    (CorsBuilder.letsRead_updateVary.mpr hread).corsCheck_merged (origin_of_getAll hact.origin) _
  have hseen : readable page (Except.ok (inner.merged (b.updateVary.emitted act.parts)) :
      Except E (Response B)) = some (inner.merged (b.updateVary.emitted act.parts)) := if_pos hcheck
  cases hneeds : page.needsPreflight with
  | false =>
    rw [← hseen]
    exact .simple hneeds hreturns
  | true =>
    rw [← hseen]
    have hanswer : (Cors.service ⟨svc.logged, b.updateVary⟩).Returns pre (w, [])
        (.ok (b.updateVary.answer pre.parts)) (w, []) :=
      (preflight_returns_iff hshort' hpre).mpr ⟨rfl, rfl⟩
    exact .permitted hneeds hanswer ((passes_iff_of_returns hshort hpre hanswer).mpr hpermits)
      hreturns

/-! ## Kept promises

Predicates see the whole head, so a preflight and the request it announces
may be judged apart. Policies that look at the origin alone judge both
alike. -/

theorem AllowCredentials.DependsOnOrigin.allows_eq {knob : AllowCredentials}
    (h : knob.DependsOnOrigin) (origin : Option HeaderValue) (p p' : Parts) :
    knob.allows origin p = knob.allows origin p' := by
  cases knob with
  | yes => rfl
  | no => rfl
  | predicate f =>
    cases origin with
    | none => rfl
    | some o => exact h o p p'

/-- Whoever may read the response to one request may read that to another. -/
theorem CorsBuilder.LetsRead.congr {cfg : CorsBuilder} (horigin : cfg.allowOrigin.DependsOnOrigin)
    (hcred : cfg.allowCredentials.DependsOnOrigin) {page : PageRequest} {p : Parts}
    (h : cfg.LetsRead page p) (p' : Parts) : cfg.LetsRead page p' := by
  refine ⟨?_, ?_⟩
  · rw [AllowOrigin.grants_iff, horigin.verdict_eq (some page.origin) p' p]
    exact AllowOrigin.grants_iff.mp h.origin
  · intro hc
    rw [hcred.allows_eq _ p' p]
    exact h.credentials hc

/-- **Promises are kept.** Under policies that look at nothing but the
origin, let a browser take the answer to a preflight for a permission. Then
the preflight has touched nothing, the inner service is called with the
request itself, once, and whatever it responds the page may read. -/
theorem preflight_promise_kept (b : CorsBuilder) (horigin : b.allowOrigin.DependsOnOrigin)
    (hcred : b.allowCredentials.DependsOnOrigin) (svc : Inner W A B E F)
    (cors : Cors (Inner (W × List (Request A)) A B E F))
    (hbuild : b.tryBuild svc.logged = .ok cors) (hshort : b.deliverPreflight = false)
    (page : PageRequest) (pre act : Request A) (hpre : Announces page pre.parts)
    (hact : Performs page act.parts) (s s₁ : W × List (Request A)) (response : Response B)
    (hanswer : cors.service.Returns pre s (.ok response) s₁)
    (hpasses : preflightPasses page response = true) :
    s₁ = s ∧ ∀ out s₂, cors.service.Returns act s₁ out s₂ →
      s₂.2 = s₁.2 ++ [act] ∧
      ∀ response', out = .ok response' → corsCheck page response'.headers = true := by
  obtain ⟨_, rfl⟩ := CorsBuilder.tryBuild_eq_ok hbuild
  have hshort' : b.updateVary.deliverPreflight = false :=
    b.deliverPreflight_updateVary.trans hshort
  have hpermits := (passes_iff_of_returns hshort hpre hanswer).mp hpasses
  have hread := hpermits.toLetsRead.congr horigin hcred act.parts
  refine ⟨((preflight_returns_iff hshort' hpre).mp hanswer).2, ?_⟩
  intro out s₂ hreturns
  refine ⟨?_, ?_⟩
  · have hforwards : b.updateVary.forwards act.parts = true := by
      rw [CorsBuilder.forwards_updateVary]
      exact hread.forwards hact
    have hrecord := record_of_returns hreturns
    rwa [hforwards] at hrecord
  · intro response' hout
    subst hout
    exact (CorsBuilder.letsRead_updateVary.mpr hread).corsCheck_of_returns hact.origin hreturns

/-! ## Configured lists -/

section Lists

omit [HttpCrate] [Inhabited B]

theorem AllowMethods.advertised_list (methods : List Method) (m : Method) :
    (list methods).advertised m = methods.map Method.asStr := by
  unfold list
  cases hvalue : separatedByCommas (methods.map methodToValue) with
  | none =>
    rw [separatedByCommas_eq_none_iff, List.map_eq_nil_iff] at hvalue
    rw [hvalue]
    rfl
  | some v =>
    rw [advertised, bytes_of_separatedByCommas hvalue, map_bytes_methodToValue]
    refine TokenList.tokens_intercalate isPad_nil ?_
    intro t ht
    obtain ⟨m, _, rfl⟩ := List.mem_map.mp ht
    exact clean_of_isValidToken m.valid

theorem AllowHeaders.advertised_list (headers names : List HeaderName) :
    (list headers).advertised names = headers.map HeaderName.asStr := by
  unfold list
  cases hvalue : separatedByCommas (headers.map HeaderName.toValue) with
  | none =>
    rw [separatedByCommas_eq_none_iff, List.map_eq_nil_iff] at hvalue
    rw [hvalue]
    rfl
  | some v =>
    rw [advertised, bytes_of_separatedByCommas hvalue, map_bytes_toValue]
    refine TokenList.tokens_intercalate isPad_nil ?_
    intro t ht
    obtain ⟨n, _, rfl⟩ := List.mem_map.mp ht
    exact clean_asStr n

/-- Header names are in lower case, so they are equal or differ in more than
case. -/
theorem eqIgnoreAsciiCase_asStr_iff {n m : HeaderName} :
    eqIgnoreAsciiCase n.asStr m.asStr = true ↔ n = m := by
  have hlower : ∀ k : HeaderName, k.asStr.map toAsciiLowercase = k.asStr := by
    intro k
    have hvalid := k.valid
    simp only [Bool.and_eq_true, List.all_eq_true, beq_iff_eq] at hvalid
    conv => rhs; rw [← List.map_id k.asStr]
    exact List.map_congr_left fun b hb => (hvalid.2 b hb).2
  rw [eqIgnoreAsciiCase, hlower, hlower, beq_iff_eq, HeaderName.asStr_injective.eq_iff]

/-- The method is safe, listed, or covered by `*`. -/
theorem PageRequest.methodAllowed_list_iff (page : PageRequest) (methods : List Method) :
    page.methodAllowed ((AllowMethods.list methods).advertised page.method) = true ↔
      page.method ∈ safeMethods ∨ page.method ∈ methods ∨
        (page.credentials = false ∧ ∃ m ∈ methods, m.asStr = ascii "*") := by
  rw [AllowMethods.advertised_list, methodAllowed]
  simp [Method.asStr_injective.eq_iff, or_assoc]

/-- Every field is listed, or covered by `*`. -/
theorem PageRequest.headersAllowed_list_iff (page : PageRequest) (headers : List HeaderName) :
    page.headersAllowed ((AllowHeaders.list headers).advertised page.unsafeNames) = true ↔
      ∀ n ∈ page.unsafeNames, n ∈ headers ∨ (page.credentials = false ∧ n ≠ authorization ∧
        ∃ m ∈ headers, m.asStr = ascii "*") := by
  rw [AllowHeaders.advertised_list, headersAllowed]
  simp [eqIgnoreAsciiCase_asStr_iff, and_assoc]

/-- Mirroring covers everything. -/
theorem PageRequest.allowed_mirrorRequest (page : PageRequest) :
    page.methodAllowed (AllowMethods.mirrorRequest.advertised page.method) = true ∧
      page.headersAllowed (AllowHeaders.mirrorRequest.advertised page.unsafeNames) = true := by
  refine ⟨by simp [methodAllowed, AllowMethods.advertised], ?_⟩
  simp only [headersAllowed, AllowHeaders.advertised, List.all_eq_true]
  intro n hn
  have hself : (page.unsafeNames.map HeaderName.asStr).any
      (fun t => eqIgnoreAsciiCase t n.asStr) = true :=
    List.any_eq_true.mpr
      ⟨n.asStr, List.mem_map_of_mem hn, eqIgnoreAsciiCase_asStr_iff.mpr rfl⟩
  simp [hself]

end Lists

/-- The origin of a page is listed or not. -/
theorem AllowOrigin.grants_list_iff {allowed : List HeaderValue} {policy : AllowOrigin}
    (hpolicy : AllowOrigin.list allowed = .ok policy) {page : PageRequest} {parts : Parts} :
    policy.Grants page parts ↔ page.origin ∈ allowed := by
  have htokens : originTokens page.origin = [page.origin.bytes] := page.clean.tokens_eq
  have hinner := AllowOrigin.inner_of_list hpolicy
  simp only [Grants, allows, hinner, originListMatches_iff, htokens, List.mem_singleton, forall_eq,
    ne_eq, List.cons_ne_self, not_false_eq_true, and_true]
  constructor
  · intro h
    obtain ⟨a, ha, hbytes⟩ := h
    exact HeaderValue.ext hbytes ▸ ha
  · intro h
    exact ⟨page.origin, h, rfl⟩

/-- **Configured lists mean what they say.** Under an allow-list of origins,
a preflight is passed exactly if the origin is listed, the credentials are
allowed, and method and fields are listed too; only a request without
credentials can make use of a listed `*`. Mirroring knobs pass every
method and every field. -/
theorem configured_preflight_passes_iff (b : CorsBuilder) (hshort : b.deliverPreflight = false)
    (allowed : List HeaderValue) (policy : AllowOrigin)
    (hpolicy : AllowOrigin.list allowed = .ok policy) (page : PageRequest) (req : Request A)
    (hann : Announces page req.parts) (svc : Inner W A B E F) (w : W) :
    (∀ methods headers cors,
      (((b.setAllowOrigin policy).setAllowMethods (.list methods)).setAllowHeaders
        (.list headers)).tryBuild svc = .ok cors →
      ∀ response w', cors.service.Returns req w (.ok response) w' →
        (preflightPasses page response = true ↔
          page.origin ∈ allowed ∧
          (page.credentials = true →
            b.allowCredentials.allows (some page.origin) req.parts = true) ∧
          (page.method ∈ PageRequest.safeMethods ∨ page.method ∈ methods ∨
            (page.credentials = false ∧ ∃ m ∈ methods, m.asStr = ascii "*")) ∧
          ∀ n ∈ page.unsafeNames, n ∈ headers ∨
            (page.credentials = false ∧ n ≠ PageRequest.authorization ∧
              ∃ m ∈ headers, m.asStr = ascii "*"))) ∧
    ∀ cors, (((b.setAllowOrigin policy).setAllowMethods .mirrorRequest).setAllowHeaders
        .mirrorRequest).tryBuild svc = .ok cors →
      ∀ response w', cors.service.Returns req w (.ok response) w' →
        (preflightPasses page response = true ↔
          page.origin ∈ allowed ∧
          (page.credentials = true →
            b.allowCredentials.allows (some page.origin) req.parts = true)) := by
  refine ⟨?_, ?_⟩
  · intro methods headers cors hbuild response w' hreturns
    obtain ⟨_, rfl⟩ := CorsBuilder.tryBuild_eq_ok hbuild
    have hshort' : (((b.setAllowOrigin policy).setAllowMethods (.list methods)).setAllowHeaders
        (.list headers)).deliverPreflight = false := hshort
    rw [passes_iff_of_returns hshort' hann hreturns]
    constructor
    · intro h
      exact ⟨(AllowOrigin.grants_list_iff hpolicy).mp h.origin, h.credentials,
        (page.methodAllowed_list_iff methods).mp h.method,
        (page.headersAllowed_list_iff headers).mp h.headers⟩
    · intro h
      obtain ⟨horigin, hcred, hmethod, hheaders⟩ := h
      exact ⟨⟨(AllowOrigin.grants_list_iff hpolicy).mpr horigin, hcred⟩,
        (page.methodAllowed_list_iff methods).mpr hmethod,
        (page.headersAllowed_list_iff headers).mpr hheaders⟩
  · intro cors hbuild response w' hreturns
    obtain ⟨_, rfl⟩ := CorsBuilder.tryBuild_eq_ok hbuild
    have hshort' : (((b.setAllowOrigin policy).setAllowMethods .mirrorRequest).setAllowHeaders
        .mirrorRequest).deliverPreflight = false := hshort
    rw [passes_iff_of_returns hshort' hann hreturns]
    constructor
    · intro h
      exact ⟨(AllowOrigin.grants_list_iff hpolicy).mp h.origin, h.credentials⟩
    · intro h
      obtain ⟨hmethod, hheaders⟩ := page.allowed_mirrorRequest
      exact ⟨⟨(AllowOrigin.grants_list_iff hpolicy).mpr h.1, h.2⟩, hmethod, hheaders⟩

end FetchTheorems

/-! ## A `PUT` with credentials -/

def put : Method := .fromStatic "PUT"

/-- A page of the listed origin sends a `PUT` with its credentials. -/
def putPage : PageRequest where
  origin := originA
  method := put
  unsafeNames := [PageRequest.authorization]
  credentials := true
  clean := ⟨by decide, by decide, by decide⟩
  ne_wildcard := by decide

/-- A page of another origin reads without credentials. -/
def foreignPage : PageRequest where
  origin := originB
  method := .get
  unsafeNames := []
  credentials := false
  clean := ⟨by decide, by decide, by decide⟩
  ne_wildcard := by decide

def putPreflight : Request Unit :=
  ⟨preflightHead (methodToValue put)
    [(header.accessControlRequestHeaders, PageRequest.authorization.toValue)], ()⟩

def putRequest : Request Unit := ⟨headWith put [(header.origin, originA)], ()⟩

theorem announces_put : Announces putPage putPreflight.parts :=
  ⟨rfl, by decide, by decide, by decide⟩

theorem performs_put : Performs putPage putRequest.parts := ⟨rfl, by decide, by decide⟩

theorem listed_put : AllowOrigin.list [originA] = .ok credentialedConfig.allowOrigin := rfl

theorem letsRead_put {parts : Parts} : credentialedConfig.LetsRead putPage parts :=
  ⟨(AllowOrigin.grants_list_iff listed_put).mpr (by decide), fun _ => rfl⟩

theorem permits_put : credentialedConfig.Permits putPage putPreflight.parts :=
  ⟨letsRead_put, by decide, by decide⟩

/-- The empty service leaves the grants to the middleware. -/
theorem getAll_of_emptyService {req : Request Unit} {w w' : Unit} {response : Response Unit}
    (h : emptyService.Returns req w (.ok response) w') (name : HeaderName) :
    response.headers.getAll name = [] :=
  getAll_of_plainService (Service.logged_returns_iff.mpr
    (show emptyService.Returns req (w, []).1 (.ok response) (w', [req]).1 ∧ _ from ⟨h, rfl⟩)) name

theorem emptyService_plain (req : Request Unit) (w : Unit) (inner : Response Unit) (w' : Unit)
    (h : emptyService.Returns req w (.ok inner) w') :
    inner.headers.getAll header.accessControlAllowOrigin = [] ∧
      inner.headers.getAll header.accessControlAllowCredentials = [] :=
  ⟨getAll_of_emptyService h _, getAll_of_emptyService h _⟩

theorem response_readable_put :
    ∃ response w', (Cors.service ⟨emptyService, credentialedConfig.updateVary⟩).Returns putRequest
        () (.ok response) w' ∧
      corsCheck putPage response.headers = true := by
  obtain ⟨response, w', hreturns⟩ : ∃ response w',
      (Cors.service ⟨emptyService, credentialedConfig.updateVary⟩).Returns putRequest ()
        (.ok response) w' := by
    refine ⟨_, (), (Cors.returns_forwarded_iff (by decide)).mpr
      ⟨.ok (.new default), Service.ofFn_returns_iff.mpr ⟨rfl, rfl⟩, rfl⟩⟩
  have hiff := response_readable_iff credentialedConfig emptyService _ rfl putPage putRequest
    performs_put.origin () (emptyService_plain putRequest ()) response w' hreturns
  exact ⟨response, w', hreturns, hiff.mpr letsRead_put⟩

theorem preflight_passes_put :
    preflightPasses putPage (credentialedConfig.updateVary.answer (B := Unit) putPreflight.parts) =
      true :=
  (preflight_passes_iff credentialedConfig emptyService _ rfl rfl putPage putPreflight
    announces_put () _ () ((preflight_returns_iff rfl announces_put).mpr ⟨rfl, rfl⟩)).mpr
      permits_put

theorem fetch_succeeds_put :
    ∃ out, Fetch (Cors.service ⟨emptyService.logged, credentialedConfig.updateVary⟩) putPage
      putPreflight putRequest ((), []) (some out) ((), [putRequest]) :=
  ⟨_, fetch_succeeds credentialedConfig emptyService _ rfl rfl putPage putPreflight putRequest
    announces_put performs_put permits_put letsRead_put () (.new default) ()
    (Service.ofFn_returns_iff.mpr ⟨rfl, rfl⟩)⟩

theorem fetch_protects_put :
    ∃ response log, Fetch (Cors.service ⟨emptyService.logged, credentialedConfig.updateVary⟩)
        putPage putPreflight putRequest ((), []) (some response) ((), log) ∧
      (credentialedConfig.Permits putPage putPreflight.parts →
        log = if credentialedConfig.forwards putRequest.parts then [putRequest] else []) ∧
      credentialedConfig.LetsRead putPage putRequest.parts := by
  have hreturns : (Cors.service ⟨emptyService.logged, credentialedConfig.updateVary⟩).Returns
      putRequest ((), []) _ ((), [putRequest]) :=
    returns_suspending (by decide) _
  have hfetch : Fetch (Cors.service ⟨emptyService.logged, credentialedConfig.updateVary⟩) putPage
      putPreflight putRequest ((), []) _ ((), [putRequest]) :=
    .permitted rfl ((preflight_returns_iff rfl announces_put).mpr ⟨rfl, rfl⟩)
      ((preflightPasses_answer_iff announces_put).mpr permits_put) hreturns
  have hprotects := fetch_protects credentialedConfig emptyService _ rfl putPage putPreflight
    putRequest announces_put performs_put () _ () _ hfetch
  exact ⟨_, _, hfetch, (hprotects.1 rfl rfl).1,
    hprotects.2 (emptyService_plain putRequest) rfl⟩

theorem preflight_promise_kept_put :
    ∃ out, (Cors.service ⟨emptyService.logged, credentialedConfig.updateVary⟩).Returns putRequest
        ((), []) out ((), [putRequest]) ∧
      ∀ response, out = .ok response → corsCheck putPage response.headers = true := by
  have hreturns : (Cors.service ⟨emptyService.logged, credentialedConfig.updateVary⟩).Returns
      putRequest ((), []) _ ((), [putRequest]) :=
    returns_suspending (by decide) _
  obtain ⟨_, hkept⟩ := preflight_promise_kept credentialedConfig trivial trivial emptyService _ rfl
    rfl putPage putPreflight putRequest announces_put performs_put ((), []) ((), []) _
    ((preflight_returns_iff rfl announces_put).mpr ⟨rfl, rfl⟩)
    ((preflightPasses_answer_iff announces_put).mpr permits_put)
  exact ⟨_, hreturns, (hkept _ _ hreturns).2⟩

theorem configured_preflight_passes_put :
    preflightPasses putPage (credentialedConfig.updateVary.answer (B := Unit) putPreflight.parts) =
      true := by
  have hmirror := (configured_preflight_passes_iff credentialedConfig rfl [originA] _ listed_put
    putPage putPreflight announces_put emptyService ()).2 _ rfl
  exact (hmirror _ () ((preflight_returns_iff rfl announces_put).mpr ⟨rfl, rfl⟩)).mpr
    ⟨by decide, fun _ => rfl⟩

end HyperCors
