/-
HyperCors.Stacked — the middleware around the middleware, with different
configurations.

`Cors` is a service around a service, so it can be put around itself, a
policy for one part of an application inside the policy for all of it.
`stack` is a service in any number of layers, the outermost first.

* `stack_response` — the service is called once, if every layer forwards;
  of every header but `Vary` the outermost layer that emits it has its
  way, and the `Vary` of all layers that saw the request are joined;
* `stack_readable_iff` — so a page may read with the origin grant of one
  layer and the credentials grant of another one.
-/
import HyperCors.FetchTheorems

namespace HyperCors

open Polling

section Stacked

variable [HttpCrate] {W A B E F : Type}

/-! ## Layers -/

/-- The layers that get to see a request: an outer one passes it on or
answers it. -/
def reached (parts : Parts) : List CorsBuilder → List CorsBuilder
  | [] => []
  | cfg :: rest => cfg :: if cfg.forwards parts then reached parts rest else []

/-- The headers of the layers merged into a response, innermost first. -/
def layered (parts : Parts) (cfgs : List CorsBuilder) (base : Response B) : Response B :=
  cfgs.foldr (fun cfg response => response.merged (cfg.emitted parts)) base

/-- The value that a configuration emits under a name. -/
def CorsBuilder.emittedValue (cfg : CorsBuilder) (parts : Parts) (n : HeaderName) :
    Option HeaderValue :=
  ((cfg.emitted parts).filter fun p => p.1 = n).getLast?.map Prod.snd

variable {parts : Parts} {cfgs : List CorsBuilder}

theorem layered_cons (cfg : CorsBuilder) (base : Response B) :
    layered parts (cfg :: cfgs) base = (layered parts cfgs base).merged (cfg.emitted parts) := rfl

theorem reached_of_forwards (h : cfgs.all (·.forwards parts) = true) :
    reached parts cfgs = cfgs := by
  induction cfgs with
  | nil => rfl
  | cons cfg rest ih =>
    rw [List.all_cons, Bool.and_eq_true] at h
    rw [reached, if_pos h.1, ih h.2]

/-- The layers leave everything but the headers alone. -/
theorem status_layered (base : Response B) :
    (layered parts cfgs base).status = base.status ∧
      (layered parts cfgs base).body = base.body := by
  induction cfgs with
  | nil => exact ⟨rfl, rfl⟩
  | cons cfg rest ih => exact ih

/-- The outermost layer that emits a header has its way. -/
theorem getAll_layered {n : HeaderName} (hn : n ≠ header.vary) (base : Response B) :
    (layered parts cfgs base).headers.getAll n =
      match cfgs.findSome? (·.emittedValue parts n) with
      | some v => [v]
      | none => base.headers.getAll n := by
  induction cfgs with
  | nil => rfl
  | cons cfg rest ih =>
    rw [layered_cons, Response.merged, getAll_merge_of_ne _ _ hn, ih, List.findSome?_cons,
      CorsBuilder.emittedValue]
    cases ((cfg.emitted parts).filter fun p => p.1 = n).getLast? <;> rfl

/-- The `Vary` of every layer is kept. -/
theorem listed_layered (base : Response B) (t : Bytes) :
    listed ((layered parts cfgs base).headers.getAll header.vary) t = true ↔
      listed (base.headers.getAll header.vary) t = true ∨
        ∃ cfg ∈ cfgs, listed cfg.vary.value.toList t = true := by
  induction cfgs with
  | nil => simp [layered]
  | cons cfg rest ih =>
    rw [layered_cons, Response.merged, getAll_merge_vary, CorsBuilder.varyValues_emitted,
      listed_mergeVary_iff, ih]
    simp only [List.mem_cons, exists_eq_or_imp]
    exact or_right_comm.trans or_assoc

/-! ## The service behind the layers -/

variable [Inhabited B]

/-- A service in layers, the outermost first, with the type of its futures. -/
def stack (svc : Inner W A B E F) : List CorsBuilder → (G : Type) × Inner W A B E G
  | [] => ⟨F, svc⟩
  | cfg :: rest => ⟨_, Cors.service ⟨(stack svc rest).2, cfg⟩⟩

/-- The outermost layer forwards: it merges its headers into what the others
return. -/
theorem stack_cons_returns_forwarded_iff {svc : Inner W A B E F} {cfg : CorsBuilder}
    {req : Request A} {w w' : W} {out : Except E (Response B)}
    (h : cfg.forwards req.parts = true) :
    (stack svc (cfg :: cfgs)).2.Returns req w out w' ↔
      ∃ o, (stack svc cfgs).2.Returns req w o w' ∧
        out = o.map fun response => response.merged (cfg.emitted req.parts) :=
  Cors.returns_forwarded_iff h

/-- The outermost layer answers. -/
theorem stack_cons_returns_answered_iff {svc : Inner W A B E F} {cfg : CorsBuilder}
    {req : Request A} {w w' : W} {out : Except E (Response B)}
    (h : cfg.forwards req.parts = false) :
    (stack svc (cfg :: cfgs)).2.Returns req w out w' ↔
      out = .ok (cfg.answer req.parts) ∧ w' = w :=
  Cors.returns_answered_iff h

/-- The status of the layer that answers. -/
def answeredStatus (parts : Parts) : List CorsBuilder → StatusCode
  | [] => .ok
  | cfg :: rest => if cfg.forwards parts then answeredStatus parts rest else cfg.answerStatus parts

/-- If every layer forwards, the service is called, and all layers merge
their headers. -/
theorem stack_returns_forwarded_iff {svc : Inner W A B E F} {req : Request A} {w w' : W}
    {out : Except E (Response B)} (h : cfgs.all (·.forwards req.parts) = true) :
    (stack svc cfgs).2.Returns req w out w' ↔
      ∃ o, svc.Returns req w o w' ∧ out = o.map (layered req.parts cfgs) := by
  induction cfgs generalizing out with
  | nil =>
    have hid : ∀ o : Except E (Response B), o.map (layered req.parts []) = o := by
      intro o
      cases o <;> rfl
    simp only [hid, exists_eq_right']
    rfl
  | cons cfg rest ih =>
    rw [List.all_cons, Bool.and_eq_true] at h
    simp only [stack_cons_returns_forwarded_iff h.1, ih h.2]
    constructor
    · intro hreturns
      obtain ⟨_, ⟨o, ho, rfl⟩, rfl⟩ := hreturns
      exact ⟨o, ho, by cases o <;> rfl⟩
    · intro hreturns
      obtain ⟨o, ho, rfl⟩ := hreturns
      exact ⟨_, ⟨o, ho, rfl⟩, by cases o <;> rfl⟩

/-- If some layer does not forward, the outermost such layer answers, and the
layers outside of it merge their headers. -/
theorem stack_returns_answered_iff {svc : Inner W A B E F} {req : Request A} {w w' : W}
    {out : Except E (Response B)} (h : cfgs.all (·.forwards req.parts) = false) :
    (stack svc cfgs).2.Returns req w out w' ↔
      out = .ok (layered req.parts (reached req.parts cfgs)
        { Response.new default with status := answeredStatus req.parts cfgs }) ∧ w' = w := by
  induction cfgs generalizing out with
  | nil => cases h
  | cons cfg rest ih =>
    cases hforwards : cfg.forwards req.parts with
    | false =>
      simp only [stack_cons_returns_answered_iff hforwards, reached, answeredStatus, hforwards]
      rfl
    | true =>
      rw [List.all_cons, hforwards, Bool.true_and] at h
      simp only [stack_cons_returns_forwarded_iff hforwards, ih h, reached, answeredStatus,
        hforwards, if_true]
      constructor
      · intro hreturns
        obtain ⟨_, ⟨rfl, hw⟩, rfl⟩ := hreturns
        exact ⟨rfl, hw⟩
      · intro hreturns
        obtain ⟨rfl, hw⟩ := hreturns
        exact ⟨_, ⟨rfl, hw⟩, rfl⟩

/-- A response is that of the service, or an empty one, with the headers of
the layers it came through. -/
theorem stack_ok_returns_cases {svc : Inner W A B E F} {req : Request A} {w w' : W}
    {response : Response B} (h : (stack svc cfgs).2.Returns req w (.ok response) w') :
    ∃ base : Response B, response = layered req.parts (reached req.parts cfgs) base ∧
      ((cfgs.all (·.forwards req.parts) = true ∧ svc.Returns req w (.ok base) w') ∨
        (cfgs.all (·.forwards req.parts) = false ∧ base = { Response.new default with
          status := answeredStatus req.parts cfgs } ∧ w' = w)) := by
  cases hall : cfgs.all (·.forwards req.parts) with
  | false =>
    obtain ⟨hout, hw⟩ := (stack_returns_answered_iff hall).mp h
    exact ⟨_, Except.ok.inj hout, Or.inr ⟨rfl, rfl, hw⟩⟩
  | true =>
    obtain ⟨o, ho, hout⟩ := (stack_returns_forwarded_iff hall).mp h
    cases o with
    | error e => cases hout
    | ok base =>
      rw [reached_of_forwards hall]
      exact ⟨base, Except.ok.inj hout, Or.inl ⟨rfl, ho⟩⟩

/-- **What a stack of layers does.** The service is called once, with the
request, if every layer forwards it, and otherwise not at all. Status and
body are those of the service, or of the layer that answers. Every header
but `Vary` has the value of the outermost layer that emits it, or is left
as it was; and `Vary` lists what the response listed and what the layers
list that saw the request. -/
theorem stack_response (svc : Inner W A B E F) (cfgs : List CorsBuilder) (req : Request A)
    (s s' : W × List (Request A)) (out : Except E (Response B))
    (hreturns : (stack svc.logged cfgs).2.Returns req s out s') :
    (s'.2 = s.2 ++ if cfgs.all (·.forwards req.parts) then [req] else []) ∧
    ∀ response, out = .ok response → ∃ base : Response B,
      ((cfgs.all (·.forwards req.parts) = true ∧ svc.Returns req s.1 (.ok base) s'.1) ∨
        (cfgs.all (·.forwards req.parts) = false ∧ base = { Response.new default with
          status := answeredStatus req.parts cfgs })) ∧
      response.status = base.status ∧ response.body = base.body ∧
      (∀ n, n ≠ header.vary → response.headers.getAll n =
        match (reached req.parts cfgs).findSome? (·.emittedValue req.parts n) with
        | some v => [v]
        | none => base.headers.getAll n) ∧
      ∀ t, listed (response.headers.getAll header.vary) t = true ↔
        listed (base.headers.getAll header.vary) t = true ∨
          ∃ cfg ∈ reached req.parts cfgs, listed cfg.vary.value.toList t = true := by
  refine ⟨?_, ?_⟩
  · cases hall : cfgs.all (·.forwards req.parts) with
    | false =>
      obtain ⟨_, rfl⟩ := (stack_returns_answered_iff hall).mp hreturns
      simp
    | true =>
      obtain ⟨o, ho, _⟩ := (stack_returns_forwarded_iff hall).mp hreturns
      exact (Service.logged_returns_iff.mp ho).2
  · intro response hresponse
    subst hresponse
    obtain ⟨base, rfl, hbase⟩ := stack_ok_returns_cases hreturns
    refine ⟨base, ?_, (status_layered base).1, (status_layered base).2,
      fun n hn => getAll_layered hn base, listed_layered base⟩
    rcases hbase with ⟨hall, ho⟩ | ⟨hall, hnew, _⟩
    · exact Or.inl ⟨hall, (Service.logged_returns_iff.mp ho).1⟩
    · exact Or.inr ⟨hall, hnew⟩

/-! ## Reading through layers -/

section Search

omit [HttpCrate] [Inhabited B]

variable {α β : Type}

theorem findSome?_eq_bind_find? (f : α → Option β) (l : List α) :
    l.findSome? f = (l.find? fun a => (f a).isSome).bind f := by
  induction l with
  | nil => rfl
  | cons a l ih =>
    rw [List.findSome?_cons, List.find?_cons, ih]
    cases h : f a <;> simp [h]

theorem findSome?_ite (p : α → Bool) (b : β) (l : List α) :
    l.findSome? (fun a => if p a then some b else none) = if l.any p then some b else none := by
  induction l with
  | nil => rfl
  | cons a l ih =>
    rw [List.findSome?_cons, List.any_cons, ih]
    cases p a <;> rfl

end Search

/-- The layer allows the origin and the credentials of a request. -/
def CorsBuilder.sendsCredentials (cfg : CorsBuilder) (page : PageRequest) (parts : Parts) : Bool :=
  (cfg.verdict parts).isSome && cfg.allowCredentials.allows (some page.origin) parts

omit [Inhabited B] in
theorem CorsBuilder.emittedValue_allowOrigin (cfg : CorsBuilder) (parts : Parts) :
    cfg.emittedValue parts header.accessControlAllowOrigin = (cfg.verdict parts).map Prod.snd := by
  rw [emittedValue, filter_emitted_allowOrigin]
  cases cfg.verdict parts <;> rfl

omit [Inhabited B] in
theorem CorsBuilder.emittedValue_allowCredentials (cfg : CorsBuilder) {page : PageRequest}
    (horigin : parts.origin = some page.origin) :
    cfg.emittedValue parts header.accessControlAllowCredentials =
      if cfg.sendsCredentials page parts then some allowCredentialsTrue else none := by
  have hgrants : cfg.grants parts = (cfg.verdict parts).isSome := by
    unfold grants denies
    rw [horigin]
    cases (cfg.verdict parts) <;> simp
  rw [emittedValue, filter_emitted_allowCredentials, hgrants, AllowCredentials.toHeader_eq,
    horigin, sendsCredentials]
  cases (cfg.verdict parts).isSome with
  | false => rfl
  | true =>
    cases cfg.allowCredentials.allows (some page.origin) parts <;> rfl

omit [Inhabited B] in
/-- The check of a response that came through layers and carries no grant of
its own. -/
theorem corsCheck_layered_iff {page : PageRequest} (horigin : parts.origin = some page.origin)
    {base : Response B} (hallow : base.headers.getAll header.accessControlAllowOrigin = [])
    (hcred : base.headers.getAll header.accessControlAllowCredentials = []) :
    corsCheck page (layered parts cfgs base).headers = true ↔
      (∃ cfg, (cfgs.find? fun cfg => (cfg.verdict parts).isSome) = some cfg ∧
        cfg.allowOrigin.Grants page parts) ∧
      (page.credentials = true → ∃ cfg ∈ cfgs, cfg.sendsCredentials page parts = true) := by
  have hvalues : (layered parts cfgs base).headers.getAll header.accessControlAllowOrigin =
      ((cfgs.findSome? (·.verdict parts)).map Prod.snd).toList := by
    rw [getAll_layered (by decide), hallow, List.map_findSome?]
    simp only [CorsBuilder.emittedValue_allowOrigin, Function.comp_def]
    cases cfgs.findSome? fun cfg => (cfg.verdict parts).map Prod.snd <;> rfl
  have hcreds : (layered parts cfgs base).headers.getAll header.accessControlAllowCredentials =
      if cfgs.any (·.sendsCredentials page parts) then [allowCredentialsTrue] else [] := by
    rw [getAll_layered (by decide), hcred]
    simp only [CorsBuilder.emittedValue_allowCredentials _ horigin, findSome?_ite]
    cases cfgs.any (·.sendsCredentials page parts) <;> rfl
  rw [corsCheck_iff hvalues fun _ => hcreds, findSome?_eq_bind_find?]
  have hverdict : ∀ cfg : CorsBuilder, cfg.verdict parts =
      cfg.allowOrigin.verdict (some page.origin) parts := by
    intro cfg
    rw [CorsBuilder.verdict, horigin]
  constructor
  · intro h
    obtain ⟨p, hp, hread, hcredentials⟩ := h
    obtain ⟨cfg, hfind, hcfg⟩ := Option.bind_eq_some_iff.mp hp
    rw [hverdict] at hcfg
    exact ⟨⟨cfg, hfind, AllowOrigin.grants_iff.mpr ⟨p, hcfg, hread⟩⟩,
      fun hc => List.any_eq_true.mp (hcredentials hc)⟩
  · intro h
    obtain ⟨⟨cfg, hfind, hgrants⟩, hcredentials⟩ := h
    obtain ⟨p, hp, hread⟩ := AllowOrigin.grants_iff.mp hgrants
    rw [← hverdict] at hp
    exact ⟨p, Option.bind_eq_some_iff.mpr ⟨cfg, hfind, hp⟩, hread,
      fun hc => List.any_eq_true.mpr (hcredentials hc)⟩

/-- A layer that is no constant and sends credentials lets the page read. -/
theorem CorsBuilder.letsRead_of_sendsCredentials {cfg : CorsBuilder} {page : PageRequest}
    (horigin : parts.origin = some page.origin) (hconst : ∀ v, cfg.allowOrigin.inner ≠ .const v)
    (h : cfg.sendsCredentials page parts = true) : cfg.LetsRead page parts := by
  rw [sendsCredentials, Bool.and_eq_true, verdict, horigin] at h
  obtain ⟨p, hp⟩ := Option.isSome_iff_exists.mp h.1
  refine ⟨AllowOrigin.grants_iff.mpr ⟨p, hp, Or.inl ?_⟩, fun _ => h.2⟩
  exact AllowOrigin.eq_of_verdict hconst hp

/-- **Reading through layers.** Over a service that leaves the grants to the
middleware, a page may read a response exactly if the outermost layer that
allows its origin means it, and if it sent credentials, some layer, maybe
another one, sends the permission for them. So if the layers that name one
origin to everybody never allow credentials, a page reads nothing that no
single layer lets it read. -/
theorem stack_readable_iff (svc : Inner W A B E F) (cfgs : List CorsBuilder) (page : PageRequest)
    (req : Request A) (horigin : req.parts.headers.getAll header.origin = [page.origin]) (w : W)
    (hplain : ∀ inner w', svc.Returns req w (.ok inner) w' →
      inner.headers.getAll header.accessControlAllowOrigin = [] ∧
        inner.headers.getAll header.accessControlAllowCredentials = [])
    (response : Response B) (w' : W)
    (hreturns : (stack svc cfgs).2.Returns req w (.ok response) w') :
    (corsCheck page response.headers = true ↔
      (∃ cfg, ((reached req.parts cfgs).find? fun cfg => (cfg.verdict req.parts).isSome) =
        some cfg ∧ cfg.allowOrigin.Grants page req.parts) ∧
      (page.credentials = true →
        ∃ cfg ∈ reached req.parts cfgs, cfg.sendsCredentials page req.parts = true)) ∧
    (corsCheck page response.headers = true →
      (∀ cfg ∈ reached req.parts cfgs, ∀ v, cfg.allowOrigin.inner = .const v →
        cfg.allowCredentials.allows (some page.origin) req.parts = false) →
      ∃ cfg ∈ reached req.parts cfgs, cfg.LetsRead page req.parts) := by
  have hsome := origin_of_getAll horigin
  obtain ⟨base, rfl, hbase⟩ := stack_ok_returns_cases hreturns
  have hnone : base.headers.getAll header.accessControlAllowOrigin = [] ∧
      base.headers.getAll header.accessControlAllowCredentials = [] := by
    rcases hbase with ⟨_, hinner⟩ | ⟨_, rfl, _⟩
    · exact hplain base w' hinner
    · exact ⟨HeaderMap.getAll_new _, HeaderMap.getAll_new _⟩
  refine ⟨corsCheck_layered_iff hsome hnone.1 hnone.2, ?_⟩
  intro hread hconst
  obtain ⟨⟨cfg, hfind, hgrants⟩, hcredentials⟩ :=
    (corsCheck_layered_iff hsome hnone.1 hnone.2).mp hread
  cases hc : page.credentials with
  | false => exact ⟨cfg, List.mem_of_find?_eq_some hfind, hgrants, by simp [hc]⟩
  | true =>
    obtain ⟨cfg', hmem, hsends⟩ := hcredentials hc
    refine ⟨cfg', hmem, CorsBuilder.letsRead_of_sendsCredentials hsome ?_ hsends⟩
    intro v hinner
    rw [CorsBuilder.sendsCredentials, hconst cfg' hmem v hinner] at hsends
    simp at hsends

end Stacked

/-! ## A reflecting layer around a fixed origin -/

/-- Every origin is allowed, without credentials. -/
def reflectingConfig : CorsBuilder := CorsBuilder.new.setAllowOrigin (.predicate fun _ _ => true)

/-- One fixed origin, with credentials. -/
def fixedConfig : CorsBuilder := exactConfig.setAllowCredentials .yes

/-- A page of another origin sends its credentials. -/
def otherPage : PageRequest := { foreignPage with credentials := true }

/-- The origin is the one of the outer layer. -/
theorem stack_response_two :
    ∃ response s', (stack emptyService.logged [reflectingConfig, fixedConfig]).2.Returns foreignGet
        ((), []) (.ok response) s' ∧
      s'.2 = [foreignGet] ∧
      response.headers.getAll header.accessControlAllowOrigin = [originB] := by
  obtain ⟨response, s', hreturns⟩ : ∃ response s',
      (stack emptyService.logged [reflectingConfig, fixedConfig]).2.Returns foreignGet ((), [])
        (.ok response) s' :=
    ⟨_, ((), [foreignGet]), (stack_returns_forwarded_iff (by decide)).mpr ⟨.ok (.new default),
      Service.logged_returns_iff.mpr ⟨Service.ofFn_returns_iff.mpr ⟨rfl, rfl⟩, rfl⟩, rfl⟩⟩
  obtain ⟨hlog, hresponse⟩ := stack_response emptyService [reflectingConfig, fixedConfig]
    foreignGet ((), []) s' (.ok response) hreturns
  obtain ⟨_, _, _, _, hvalues, _⟩ := hresponse response rfl
  have hforwards : [reflectingConfig, fixedConfig].all (·.forwards foreignGet.parts) = true := by
    decide
  rw [hforwards] at hlog
  refine ⟨response, s', hreturns, hlog, ?_⟩
  rw [hvalues _ (by decide), reached_of_forwards hforwards, List.findSome?_cons,
    reflectingConfig.emittedValue_allowOrigin]
  rfl

/-- Neither layer lets the page read, and both together do. -/
theorem stack_readable_mixed :
    (∀ cfg ∈ [reflectingConfig, fixedConfig], ¬ cfg.LetsRead otherPage foreignGet.parts) ∧
    ∃ response w', (stack emptyService [reflectingConfig, fixedConfig]).2.Returns foreignGet ()
        (.ok response) w' ∧
      corsCheck otherPage response.headers = true := by
  refine ⟨?_, ?_⟩
  · intro cfg hcfg hread
    rcases List.mem_pair.mp hcfg with rfl | rfl
    · exact absurd (hread.credentials rfl) (by decide)
    · rcases hread.origin with horigin | ⟨hcred, _⟩
      · exact absurd horigin (by decide)
      · cases hcred
  · obtain ⟨response, hreturns⟩ : ∃ response,
        (stack emptyService [reflectingConfig, fixedConfig]).2.Returns foreignGet ()
          (.ok response) () :=
      ⟨_, (stack_returns_forwarded_iff (by decide)).mpr ⟨.ok (.new default),
        Service.ofFn_returns_iff.mpr ⟨rfl, rfl⟩, rfl⟩⟩
    have hiff := (stack_readable_iff emptyService [reflectingConfig, fixedConfig] otherPage
      foreignGet rfl () (emptyService_plain foreignGet ()) response () hreturns).1
    refine ⟨response, (), hreturns, hiff.mpr ⟨⟨reflectingConfig, rfl, ?_⟩, fun _ => ?_⟩⟩
    · exact AllowOrigin.grants_iff.mpr ⟨_, rfl, Or.inl rfl⟩
    · exact ⟨fixedConfig, by rw [reached_of_forwards (by decide)]; simp, by decide⟩

end HyperCors
