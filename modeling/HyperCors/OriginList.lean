/-
HyperCors.OriginList — the allow-list of origins, on one `Origin` line and
on several.

`list_accepts_grammar` is the language the list accepts: values with at
least one token, all of which it holds. The middleware reads the first
`Origin` line of a request and no other, so a foreign token on a later
line goes unseen; `repeated_origin_disallowed_iff` says exactly when the
requests with foreign tokens are turned away nevertheless.
-/
import HyperCors.Credentials

namespace HyperCors

open Polling

/-! ## The grammar of a list -/

/-- The value has a token, and every token is an entry of the list. -/
def AllowsTokens (allowed : List HeaderValue) (origin : HeaderValue) : Prop :=
  originTokens origin ≠ [] ∧ ∀ t ∈ originTokens origin, ∃ a ∈ allowed, a.bytes = t

theorem originListMatches_iff_allowsTokens {allowed : List HeaderValue} {origin : HeaderValue} :
    originListMatches allowed origin = true ↔ AllowsTokens allowed origin := by
  rw [originListMatches_iff]
  exact and_comm

/-- What is not allowed has no token, or a foreign one. -/
theorem not_allowsTokens_iff {allowed : List HeaderValue} {origin : HeaderValue} :
    ¬ AllowsTokens allowed origin ↔
      originTokens origin = [] ∨ ∃ t ∈ originTokens origin, ∀ a ∈ allowed, a.bytes ≠ t := by
  unfold AllowsTokens
  by_cases h : originTokens origin = []
  · simp [h]
  · simp [h]

theorem AllowsTokens.mono {allowed allowed' : List HeaderValue} {origin : HeaderValue}
    (h : AllowsTokens allowed origin) (hsub : ∀ a ∈ allowed, a ∈ allowed') :
    AllowsTokens allowed' origin := by
  refine ⟨h.1, ?_⟩
  intro t ht
  obtain ⟨a, ha, heq⟩ := h.2 t ht
  exact ⟨a, hsub a ha, heq⟩

theorem allowsTokens_congr {allowed allowed' : List HeaderValue} {origin : HeaderValue}
    (h : ∀ a, a ∈ allowed' ↔ a ∈ allowed) :
    AllowsTokens allowed' origin ↔ AllowsTokens allowed origin :=
  ⟨fun hallows => hallows.mono fun a => (h a).mp, fun hallows => hallows.mono fun a => (h a).mpr⟩

theorem allowsTokens_congr_tokens {allowed : List HeaderValue} {origin origin' : HeaderValue}
    (h : ∀ t, t ∈ originTokens origin' ↔ t ∈ originTokens origin) :
    AllowsTokens allowed origin' ↔ AllowsTokens allowed origin := by
  have hnil : originTokens origin' = [] ↔ originTokens origin = [] := by
    simp only [List.eq_nil_iff_forall_not_mem, h]
  simp only [AllowsTokens, ne_eq, hnil, h]

section OriginList

variable [HttpCrate]

/-! ## The answer of a list -/

/-- The future of the policy, polled to its end, answers `res`. -/
def AllowOrigin.Answers (self : AllowOrigin) (origin : Option HeaderValue) (parts : Parts)
    (res : Option Pair) : Prop :=
  ∃ fut, Completes AllowOriginFuture.poll (self.toFuture origin parts) res fut

/-- A policy has one answer, its verdict. -/
theorem AllowOrigin.answers_iff {self : AllowOrigin} {origin : Option HeaderValue} {parts : Parts}
    {res : Option Pair} : self.Answers origin parts res ↔ res = self.verdict origin parts := by
  obtain ⟨fut, hfut⟩ := (self.toFuture_yields origin parts).completes
  constructor
  · intro h
    obtain ⟨fut', hfut'⟩ := h
    exact (hfut'.unique hfut).1
  · intro h
    exact ⟨fut, h ▸ hfut⟩

/-- The verdict of a list on a value: allowed values are echoed. -/
theorem verdict_of_list {allowed : List HeaderValue} {policy : AllowOrigin}
    (hpolicy : AllowOrigin.list allowed = .ok policy) (origin : HeaderValue) (parts : Parts) :
    (AllowsTokens allowed origin →
      policy.verdict (some origin) parts = some (header.accessControlAllowOrigin, origin)) ∧
    (¬ AllowsTokens allowed origin → policy.verdict (some origin) parts = none) := by
  have hinner := AllowOrigin.inner_of_list hpolicy
  rw [← originListMatches_iff_allowsTokens]
  constructor
  · intro h
    simp [AllowOrigin.verdict, AllowOrigin.allows, hinner, h]
  · intro h
    simp [AllowOrigin.verdict, AllowOrigin.allows, hinner, h]

theorem answers_of_list {allowed : List HeaderValue} {policy : AllowOrigin}
    (hpolicy : AllowOrigin.list allowed = .ok policy) {origin : HeaderValue} {parts : Parts}
    {res : Option Pair} :
    policy.Answers (some origin) parts res ↔
      (AllowsTokens allowed origin ∧ res = some (header.accessControlAllowOrigin, origin)) ∨
        (¬ AllowsTokens allowed origin ∧ res = none) := by
  obtain ⟨hallowed, hdenied⟩ := verdict_of_list hpolicy origin parts
  rw [AllowOrigin.answers_iff]
  by_cases h : AllowsTokens allowed origin
  · simp [h, hallowed h]
  · simp [h, hdenied h]

/-- **The allow-list accepts exactly its grammar**, and echoes what it
accepts. So one foreign token is enough for a denial; the answer depends
on the set of entries and on the set of tokens only; and a longer list
never denies what a shorter one allows. -/
theorem list_accepts_grammar (allowed : List HeaderValue) (policy : AllowOrigin)
    (hpolicy : AllowOrigin.list allowed = .ok policy) (origin : HeaderValue) (parts : Parts) :
    (∀ res, policy.Answers (some origin) parts res ↔
      (AllowsTokens allowed origin ∧ res = some (header.accessControlAllowOrigin, origin)) ∨
        (¬ AllowsTokens allowed origin ∧ res = none)) ∧
    (∀ t ∈ originTokens origin, (∀ a ∈ allowed, a.bytes ≠ t) →
      policy.Answers (some origin) parts none) ∧
    (∀ origin', (∀ t, t ∈ originTokens origin' ↔ t ∈ originTokens origin) →
      (policy.Answers (some origin') parts none ↔ policy.Answers (some origin) parts none)) ∧
    ∀ allowed' policy', AllowOrigin.list allowed' = .ok policy' →
      ((∀ a, a ∈ allowed' ↔ a ∈ allowed) → ∀ res,
        (policy'.Answers (some origin) parts res ↔ policy.Answers (some origin) parts res)) ∧
      ((∀ a ∈ allowed, a ∈ allowed') →
        policy.Answers (some origin) parts (some (header.accessControlAllowOrigin, origin)) →
        policy'.Answers (some origin) parts (some (header.accessControlAllowOrigin, origin))) := by
  refine ⟨?_, ?_, ?_, ?_⟩
  · intro res
    exact answers_of_list hpolicy
  · intro t ht hforeign
    rw [answers_of_list hpolicy]
    exact Or.inr ⟨not_allowsTokens_iff.mpr (Or.inr ⟨t, ht, hforeign⟩), rfl⟩
  · intro origin' htokens
    rw [answers_of_list hpolicy, answers_of_list hpolicy, allowsTokens_congr_tokens htokens]
    simp
  · intro allowed' policy' hpolicy'
    refine ⟨?_, ?_⟩
    · intro hsame res
      rw [answers_of_list hpolicy, answers_of_list hpolicy', allowsTokens_congr hsame]
    · intro hsub
      rw [answers_of_list hpolicy, answers_of_list hpolicy']
      simp only [reduceCtorEq, and_true, and_false, or_false]
      intro hallows
      exact hallows.mono hsub

/-! ## Repeated `Origin` lines -/

/-- The request is treated as disallowed: no allowed origin is put on a
response, and where the flags ask for a rejection the inner service is not
called. -/
def TreatsAsDisallowed {A : Type} (B E : Type) [Inhabited B] (b : CorsBuilder) (req : Request A) :
    Prop :=
  ∀ (W F : Type) (svc : Inner W A B E F) (cors : Cors (Inner (W × List (Request A)) A B E F)),
    b.tryBuild svc.logged = .ok cors → ∀ w : W,
    (∀ response fut s, cors.service.Runs req (w, []) (.ok response) fut s →
      ∀ p ∈ fut.headers.iter, p.1 ≠ header.accessControlAllowOrigin) ∧
    (b.deliverNonAllowedOrigin = false ∨
        (isWebsocketUpgradeRequest req.parts = true ∧
          b.deliverNonAllowedOriginWebsocketUpgrade = false ∧
          (isPreflightRequest req.parts = false ∨ b.deliverPreflight = true)) →
      ∀ fut w' log, cors.service.States req (w, []) fut (w', log) → log = [])

/-- Some token of some `Origin` line is foreign to the list. -/
def HasForeignToken (allowed : List HeaderValue) (parts : Parts) : Prop :=
  ∃ line ∈ parts.headers.getAll header.origin, ∃ t ∈ originTokens line, ∀ a ∈ allowed, a.bytes ≠ t

section Repeated

variable {A B E : Type} [Inhabited B]

/-- A denied request is treated as disallowed. -/
theorem treatsAsDisallowed_of_denies {b : CorsBuilder} {req : Request A}
    (h : b.denies req.parts = true) : TreatsAsDisallowed B E b req := by
  intro W F svc cors hbuild w
  obtain ⟨_, rfl⟩ := CorsBuilder.tryBuild_eq_ok hbuild
  have hdenies : b.updateVary.denies req.parts = true := by simpa using h
  refine ⟨?_, ?_⟩
  · intro response fut s hrun p hp
    rw [Cors.name_of_denies hrun hdenies hp]
    decide
  · intro hreject fut w' log hstate
    have hforwards := CorsBuilder.forwards_of_rejects (CorsBuilder.rejects_of_denies h hreject)
    by_contra hlog
    have hcalled := Cors.forwards_of_called hstate hlog
    rw [CorsBuilder.forwards_updateVary, hforwards] at hcalled
    cases hcalled

/-- An allowed origin is put on some response. -/
theorem verdict_eq_none_of_treatsAsDisallowed {b : CorsBuilder} (haccept : b.validate = .ok ())
    {req : Request A} (h : TreatsAsDisallowed B E b req) : b.verdict req.parts = none := by
  obtain ⟨response, fut, s, hrun⟩ := exists_ok_run B E b.updateVary 0 req ((), [])
  have hnone := (h _ _ _ _ (CorsBuilder.tryBuild_of_validate haccept) ()).1 response fut s hrun
  rw [Cors.iter_of_runs hrun] at hnone
  rw [Option.eq_none_iff_forall_ne_some]
  intro p hp
  refine hnone p ?_ (AllowOrigin.verdict_name hp)
  simp [CorsBuilder.emitted, CorsBuilder.decided, hp]

/-- A request with an `Origin` line is treated as disallowed exactly if the
list does not allow the tokens of the first one. -/
theorem treatsAsDisallowed_iff {b : CorsBuilder} {allowed : List HeaderValue}
    (hpolicy : AllowOrigin.list allowed = .ok b.allowOrigin) (haccept : b.validate = .ok ())
    {req : Request A} {first : HeaderValue} (hfirst : req.parts.origin = some first) :
    TreatsAsDisallowed B E b req ↔ ¬ AllowsTokens allowed first := by
  obtain ⟨hallowed, hdenied⟩ := verdict_of_list hpolicy first req.parts
  rw [← hfirst] at hallowed hdenied
  constructor
  · intro h hallows
    have hnone := verdict_eq_none_of_treatsAsDisallowed haccept h
    rw [CorsBuilder.verdict, hallowed hallows] at hnone
    cases hnone
  · intro h
    have hverdict : b.verdict req.parts = none := hdenied h
    refine treatsAsDisallowed_of_denies ?_
    simp [CorsBuilder.denies, hverdict, hfirst]

/-- **When foreign tokens are turned away.** The requests with a foreign
token on some `Origin` line are treated as disallowed exactly if there is
none, or the first line has one itself, or no token at all. -/
theorem repeated_origin_disallowed_iff (b : CorsBuilder) (allowed : List HeaderValue)
    (hpolicy : AllowOrigin.list allowed = .ok b.allowOrigin) (haccept : b.validate = .ok ())
    (req : Request A) :
    (HasForeignToken allowed req.parts → TreatsAsDisallowed B E b req) ↔
      (∀ line ∈ req.parts.headers.getAll header.origin, ∀ t ∈ originTokens line,
        ∃ a ∈ allowed, a.bytes = t) ∨
      ∃ first, (req.parts.headers.getAll header.origin).head? = some first ∧
        (originTokens first = [] ∨ ∃ t ∈ originTokens first, ∀ a ∈ allowed, a.bytes ≠ t) := by
  have hforeign : ¬ HasForeignToken allowed req.parts ↔
      ∀ line ∈ req.parts.headers.getAll header.origin, ∀ t ∈ originTokens line,
        ∃ a ∈ allowed, a.bytes = t := by
    simp [HasForeignToken]
  rw [imp_iff_not_or, hforeign]
  refine or_congr_right' ?_
  intro hsome
  have hline : HasForeignToken allowed req.parts := not_not.mp (hforeign.not.mpr hsome)
  obtain ⟨line, hmem, _⟩ := hline
  obtain ⟨first, hfirst⟩ := Option.ne_none_iff_exists'.mp
    (List.head?_eq_none_iff.not.mpr (List.ne_nil_of_mem hmem))
  rw [treatsAsDisallowed_iff hpolicy haccept hfirst, not_allowsTokens_iff, hfirst]
  simp

end Repeated

end OriginList

/-- A listed origin is echoed, a foreign one denied. -/
theorem list_accepts_grammar_single :
    credentialedConfig.allowOrigin.Answers (some originA) plainGet.parts
        (some (header.accessControlAllowOrigin, originA)) ∧
      credentialedConfig.allowOrigin.Answers (some originB) plainGet.parts none := by
  refine ⟨?_, ?_⟩
  · have hgrammar := list_accepts_grammar [originA] credentialedConfig.allowOrigin rfl originA
      plainGet.parts
    refine (hgrammar.1 _).mpr (Or.inl ⟨?_, rfl⟩)
    rw [← originListMatches_iff_allowsTokens]
    decide
  · have hgrammar := list_accepts_grammar [originA] credentialedConfig.allowOrigin rfl originB
      plainGet.parts
    exact hgrammar.2.1 originB.bytes (by decide) (by decide)

/-- A `GET` with a listed origin on its first `Origin` line and a foreign one
on the second. -/
def repeatedGet : Request Unit :=
  ⟨headWith .get [(header.origin, originA), (header.origin, originB)], ()⟩

/-- A foreign origin on the only line is turned away. -/
theorem repeated_origin_disallowed_foreign :
    HasForeignToken [originA] foreignGet.parts ∧
      TreatsAsDisallowed Unit Empty (credentialedConfig.setDeliverNonAllowedOrigin false)
        foreignGet := by
  have hforeign : ∃ t ∈ originTokens originB, ∀ a ∈ [originA], a.bytes ≠ t :=
    ⟨originB.bytes, by decide, by decide⟩
  have hdisallowed := (repeated_origin_disallowed_iff (B := Unit) (E := Empty)
    (credentialedConfig.setDeliverNonAllowedOrigin false) [originA] rfl rfl foreignGet).mpr
      (Or.inr ⟨originB, rfl, Or.inr hforeign⟩)
  have hline : HasForeignToken [originA] foreignGet.parts := ⟨originB, by decide, hforeign⟩
  exact ⟨hline, hdisallowed hline⟩

/-- On the second line it is not: the list allows the first one. -/
theorem repeated_origin_smuggled :
    AllowOrigin.list [originA] =
        .ok (credentialedConfig.setDeliverNonAllowedOrigin false).allowOrigin ∧
      (credentialedConfig.setDeliverNonAllowedOrigin false).validate = .ok () ∧
      HasForeignToken [originA] repeatedGet.parts ∧
      ¬ TreatsAsDisallowed Unit Empty (credentialedConfig.setDeliverNonAllowedOrigin false)
        repeatedGet := by
  refine ⟨rfl, rfl, ⟨originB, by decide, originB.bytes, by decide, by decide⟩, ?_⟩
  have hlist : AllowOrigin.list [originA] =
      .ok (credentialedConfig.setDeliverNonAllowedOrigin false).allowOrigin := rfl
  have hfirst : repeatedGet.parts.origin = some originA := rfl
  rw [treatsAsDisallowed_iff hlist rfl hfirst, not_not, ← originListMatches_iff_allowsTokens]
  decide

end HyperCors
