/-
HyperCors.OriginPolicy — what the kind of the origin policy does, and
does not, change about a run.

An asynchronous predicate runs like the synchronous one with the same
answers (`async_runs_like_sync`): the number of suspensions is not
observable. A single fixed origin, on the other hand, does not run like
the list of that one origin. Its verdict allows every request, so a
foreign origin is refused only where nothing depends on the verdict
(`exact_refuses_iff`), while the list refuses it (`list_refuses`).
-/
import HyperCors.Gatekeeping
import HyperCors.KnobTheorems

namespace HyperCors

open Polling

section OriginPolicy

variable [HttpCrate]

/-! ## Policies with the same verdict -/

namespace CorsBuilder

theorem updateVary_setAllowOrigin (self : CorsBuilder) (policy : AllowOrigin) :
    (self.setAllowOrigin policy).updateVary = self.updateVary.setAllowOrigin policy := by
  cases hpinned : self.varyPinned with
  | true => simp [updateVary, setAllowOrigin, hpinned]
  | false =>
    simp only [updateVary, setAllowOrigin, hpinned]
    rfl

/-- A decision sees the verdict of the policy and nothing else of it. -/
theorem decision_congr (self : CorsBuilder) {parts : Parts} {p q : AllowOrigin}
    (h : p.verdict parts.origin parts = q.verdict parts.origin parts) :
    (self.setAllowOrigin p).forwards parts = (self.setAllowOrigin q).forwards parts ∧
      (self.setAllowOrigin p).emitted parts = (self.setAllowOrigin q).emitted parts ∧
      (self.setAllowOrigin p).answerStatus parts = (self.setAllowOrigin q).answerStatus parts := by
  have hverdict : (self.setAllowOrigin p).verdict parts = (self.setAllowOrigin q).verdict parts := h
  have hdenies : (self.setAllowOrigin p).denies parts = (self.setAllowOrigin q).denies parts := by
    rw [denies, denies, hverdict]
  have hrejects :
      (self.setAllowOrigin p).rejects parts = (self.setAllowOrigin q).rejects parts := by
    rw [rejects, rejects, hdenies]
    rfl
  have hgrants : (self.setAllowOrigin p).grants parts = (self.setAllowOrigin q).grants parts := by
    rw [grants, grants, hdenies, hverdict]
    rfl
  refine ⟨?_, ?_, ?_⟩
  · rw [forwards, forwards, hrejects]
    rfl
  · rw [emitted, emitted, decided, decided, hverdict, hgrants]
    rfl
  · rw [answerStatus, answerStatus, hrejects]
    rfl

end CorsBuilder

/-! ## Asynchronous predicates -/

variable {W A B E : Type}

theorem verdict_asyncPredicate (m : Nat) (f : HeaderValue → Parts → Bool)
    (origin : Option HeaderValue) (parts : Parts) :
    (AllowOrigin.asyncPredicate fun o p => ⟨m, f o p⟩).verdict origin parts =
      (AllowOrigin.predicate f).verdict origin parts := rfl

/-- An asynchronous predicate that suspends `m` times over an inner future
that suspends `n` times, and a synchronous predicate with the same answers
over an inner future that is ready: both runs end, with one result, the
same calls and the same merged headers. -/
theorem async_runs_like_sync [Inhabited B] (b : CorsBuilder) (f : HeaderValue → Parts → Bool)
    (m n : Nat) (answer : Request A → W → Except E (Response B) × W)
    (async sync : Cors (Inner (W × List (Request A)) A B E (Async (Except E (Response B)))))
    (hasync : (b.setAllowOrigin (.asyncPredicate fun o p => ⟨m, f o p⟩)).tryBuild
      (suspending n answer).logged = .ok async)
    (hsync : (b.setAllowOrigin (.predicate f)).tryBuild (suspending 0 answer).logged = .ok sync)
    (req : Request A) (w : W × List (Request A)) :
    (∃ out w', ∀ out' w'',
      (async.service.Returns req w out' w'' ↔ out' = out ∧ w'' = w') ∧
        (sync.service.Returns req w out' w'' ↔ out' = out ∧ w'' = w')) ∧
    ∀ out₁ fut₁ w₁ out₂ fut₂ w₂, async.service.Runs req w out₁ fut₁ w₁ →
      sync.service.Runs req w out₂ fut₂ w₂ → fut₁.headers.iter = fut₂.headers.iter := by
  obtain ⟨_, rfl⟩ := CorsBuilder.tryBuild_eq_ok hasync
  obtain ⟨_, rfl⟩ := CorsBuilder.tryBuild_eq_ok hsync
  have hverdict := verdict_asyncPredicate m f req.parts.origin req.parts
  obtain ⟨hforwards, hemitted, hanswer⟩ :=
    CorsBuilder.decision_congr b.updateVary hverdict
  rw [← CorsBuilder.updateVary_setAllowOrigin, ← CorsBuilder.updateVary_setAllowOrigin]
    at hforwards hemitted hanswer
  refine ⟨?_, ?_⟩
  · simp only [returns_suspending_iff, hforwards, hemitted, CorsBuilder.answer, hanswer]
    split
    · exact ⟨_, _, fun _ _ => ⟨Iff.rfl, Iff.rfl⟩⟩
    · exact ⟨_, _, fun _ _ => ⟨Iff.rfl, Iff.rfl⟩⟩
  · intro out₁ fut₁ w₁ out₂ fut₂ w₂ hrun₁ hrun₂
    rw [Cors.iter_of_runs hrun₁, Cors.iter_of_runs hrun₂]
    exact hemitted

end OriginPolicy

/-- Two suspensions of the predicate and three of the inner future, against
none: both runs return the same response. -/
theorem async_runs_like_sync_mirror :
    ∃ out w',
      (Cors.service (B := Unit) (E := Empty) ⟨(plainService 3).logged,
        (CorsBuilder.new.setAllowOrigin (.asyncPredicate fun _ _ => ⟨2, true⟩)).updateVary⟩).Returns
        foreignGet ((), []) out w' ∧
      (Cors.service ⟨(plainService 0).logged,
        (CorsBuilder.new.setAllowOrigin (.predicate fun _ _ => true)).updateVary⟩).Returns
        foreignGet ((), []) out w' := by
  obtain ⟨⟨out, w', hreturns⟩, _⟩ := async_runs_like_sync CorsBuilder.new (fun _ _ => true) 2 3
    (fun (_ : Request Unit) (w : Unit) => ((.ok (.new default) : Except Empty (Response Unit)), w))
    _ _ rfl rfl foreignGet ((), [])
  exact ⟨out, w', (hreturns out w').1.mpr ⟨rfl, rfl⟩, (hreturns out w').2.mpr ⟨rfl, rfl⟩⟩

/-! ## A single fixed origin -/

section ExactOrigin

variable [HttpCrate] {A : Type}

/-- The request is turned away as a disallowed one: rejected without a call
wherever the flags ask for it, and granted nothing on any path. -/
def Refuses (B E : Type) [Inhabited B] (b : CorsBuilder) (req : Request A) : Prop :=
  ∀ (W F : Type) (svc : Inner W A B E F) (cors : Cors (Inner (W × List (Request A)) A B E F)),
    b.tryBuild svc.logged = .ok cors → ∀ w : W,
    (b.deliverNonAllowedOrigin = false ∨
        (isWebsocketUpgradeRequest req.parts = true ∧
          b.deliverNonAllowedOriginWebsocketUpgrade = false ∧
          (isPreflightRequest req.parts = false ∨ b.deliverPreflight = true)) →
      ∃ response fut w', cors.service.Runs req (w, []) (.ok response) fut (w', []) ∧
        response.status = b.rejectionStatus) ∧
    ∀ response fut s, cors.service.Runs req (w, []) (.ok response) fut s →
      ∀ p ∈ fut.headers.iter, p.1 ∉ [header.accessControlAllowCredentials,
        header.accessControlAllowMethods, header.accessControlAllowHeaders,
        header.accessControlMaxAge, header.accessControlExposeHeaders]

variable {B E : Type} [Inhabited B]

/-- A denied request is turned away. -/
theorem refuses_of_denies {b : CorsBuilder} {req : Request A} (h : b.denies req.parts = true) :
    Refuses B E b req := by
  intro W F svc cors hbuild w
  obtain ⟨_, rfl⟩ := CorsBuilder.tryBuild_eq_ok hbuild
  have hdenies : b.updateVary.denies req.parts = true := by simpa using h
  refine ⟨?_, ?_⟩
  · intro hreject
    have hrejects := CorsBuilder.rejects_of_denies h hreject
    have hforwards : b.updateVary.forwards req.parts = false := by
      simpa using CorsBuilder.forwards_of_rejects hrejects
    obtain ⟨done, hdone⟩ := Cors.exists_settled b.updateVary req.parts
    refine ⟨_, _, w, (Cors.runs_answered_iff hforwards).mpr ⟨rfl, rfl, done, hdone, rfl⟩, ?_⟩
    show b.updateVary.answerStatus req.parts = _
    rw [CorsBuilder.answerStatus_updateVary, CorsBuilder.answerStatus, if_pos hrejects]
  · intro response fut s hrun p hp
    rw [Cors.name_of_denies hrun hdenies hp]
    decide

/-- A list refuses every origin that has a token it does not hold, or none
at all. -/
theorem list_refuses {b : CorsBuilder} {o value : HeaderValue} {policy : AllowOrigin}
    (hpolicy : AllowOrigin.list [o] = .ok policy) {req : Request A}
    (horigin : req.parts.origin = some value)
    (hforeign : ¬ ∀ t, t ∈ originTokens value ↔ t = o.bytes) :
    Refuses B E (b.setAllowOrigin policy) req := by
  refine refuses_of_denies ?_
  have hinner := AllowOrigin.inner_of_list hpolicy
  have hmatch : originListMatches [o] value = false := by
    rw [← Bool.not_eq_true, originListMatches_iff]
    intro hmatches
    obtain ⟨hall, hsome⟩ := hmatches
    have honly : ∀ t ∈ originTokens value, t = o.bytes := by
      intro t ht
      obtain ⟨a, ha, rfl⟩ := hall t ht
      rw [List.mem_singleton.mp ha]
    obtain ⟨t, ht⟩ := List.exists_mem_of_ne_nil _ hsome
    exact hforeign fun u => ⟨honly u, fun hu => hu ▸ honly t ht ▸ ht⟩
  have hverdict : (b.setAllowOrigin policy).verdict req.parts = none := by
    simp [CorsBuilder.verdict, CorsBuilder.setAllowOrigin, AllowOrigin.verdict,
      AllowOrigin.allows, hinner, horigin, hmatch]
  simp [CorsBuilder.denies, hverdict, horigin]

namespace CorsBuilder

variable {b : CorsBuilder} {parts : Parts} {o : HeaderValue}

theorem verdict_of_const (h : b.allowOrigin.inner = .const o) :
    b.verdict parts = some (header.accessControlAllowOrigin, o) := by
  simp [verdict, AllowOrigin.verdict, h]

/-- A constant policy denies nobody. -/
theorem rejects_of_const (h : b.allowOrigin.inner = .const o) : b.rejects parts = false := by
  simp [rejects, denies, verdict_of_const h]

theorem forwards_of_const (h : b.allowOrigin.inner = .const o) (parts : Parts) :
    b.forwards parts = !b.shortCircuits parts := by
  simp [forwards, rejects_of_const h]

theorem emitted_of_const (h : b.allowOrigin.inner = .const o) :
    b.emitted parts = b.vary.toHeader.toList ++ (header.accessControlAllowOrigin, o) ::
      b.lazyHeaders.pairs parts parts.origin (isPreflightRequest parts) := by
  have hgrants : b.grants parts = true := by simp [grants, denies, verdict_of_const h]
  simp [emitted, decided, hgrants, verdict_of_const h]

/-- Under a constant policy nothing but `Vary` and the origin is emitted
exactly if the other knobs are silent. -/
theorem emits_no_grant_iff_of_const (h : b.allowOrigin.inner = .const o) :
    (∀ p ∈ b.emitted parts, p.1 ∉ [header.accessControlAllowCredentials,
        header.accessControlAllowMethods, header.accessControlAllowHeaders,
        header.accessControlMaxAge, header.accessControlExposeHeaders]) ↔
      b.lazyHeaders.Silent parts parts.origin (isPreflightRequest parts) := by
  rw [emitted_of_const h, ← LazyHeaders.pairs_eq_nil_iff]
  constructor
  · intro hnone
    rw [List.eq_nil_iff_forall_not_mem]
    intro p hp
    have hname := (LazyHeaders.pairs_names_sublist _ _ _ _).subset (List.mem_map_of_mem hp)
    exact hnone p (by simp [hp]) (mem_of_mem_grantNames hname)
  · intro hnil p hp
    rw [hnil, List.mem_append, List.mem_singleton] at hp
    rcases hp with hp | rfl
    · rw [(named_vary _).of_mem hp]
      decide
    · show header.accessControlAllowOrigin ∉ _
      decide

end CorsBuilder

/-- Under a constant policy the inner service is spared only by a
short-circuited preflight, whose status is 200. -/
theorem uncalled_iff_of_const {W F : Type} {svc : Inner W A B E F} {cfg : CorsBuilder}
    {o : HeaderValue} (hconst : cfg.allowOrigin.inner = .const o) {req : Request A} {w : W}
    (status : StatusCode) :
    (∃ response fut w', (Cors.service ⟨svc.logged, cfg⟩).Runs req (w, []) (.ok response) fut
        (w', []) ∧ response.status = status) ↔
      cfg.shortCircuits req.parts = true ∧ status = .ok := by
  have hstatus : cfg.answerStatus req.parts = .ok := by
    simp [CorsBuilder.answerStatus, CorsBuilder.rejects_of_const hconst]
  have hforwards := CorsBuilder.forwards_of_const hconst req.parts
  constructor
  · intro hspared
    obtain ⟨response, fut, w', hrun, rfl⟩ := hspared
    cases hshort : cfg.shortCircuits req.parts with
    | false =>
      obtain ⟨out, inner, hinner, _⟩ :=
        (Cors.runs_forwarded_iff (by simp [hforwards, hshort])).mp hrun
      have hlog := (Service.logged_returns_iff.mp ⟨inner, hinner⟩).2
      simp at hlog
    | true =>
      obtain ⟨hresponse, _⟩ := (Cors.runs_answered_iff (by simp [hforwards, hshort])).mp hrun
      rw [Except.ok.injEq] at hresponse
      exact ⟨rfl, by rw [hresponse]; exact hstatus⟩
  · intro hspared
    obtain ⟨hshort, rfl⟩ := hspared
    obtain ⟨done, hdone⟩ := Cors.exists_settled cfg req.parts
    exact ⟨_, _, w, (Cors.runs_answered_iff (by simp [hforwards, hshort])).mpr
      ⟨rfl, rfl, done, hdone, rfl⟩, hstatus⟩

/-- Under a constant policy, when a request is turned away. -/
theorem refuses_iff_of_const {b : CorsBuilder} {o : HeaderValue}
    (hconst : b.allowOrigin.inner = .const o) (haccept : b.validate = .ok ()) {req : Request A} :
    Refuses B E b req ↔
      (b.deliverNonAllowedOrigin = true ∨
        (isPreflightRequest req.parts = true ∧ b.deliverPreflight = false ∧
          b.rejectionStatus = .ok)) ∧
      (isWebsocketUpgradeRequest req.parts = false ∨
        b.deliverNonAllowedOriginWebsocketUpgrade = true ∨
        (isPreflightRequest req.parts = true ∧ b.deliverPreflight = false)) ∧
      b.lazyHeaders.Silent req.parts req.parts.origin (isPreflightRequest req.parts) := by
  have hconst' : b.updateVary.allowOrigin.inner = .const o := by
    rw [CorsBuilder.updateVary_eq]
    exact hconst
  have hshort : b.shortCircuits req.parts = true ↔
      isPreflightRequest req.parts = true ∧ b.deliverPreflight = false := by
    simp [CorsBuilder.shortCircuits]
  constructor
  · intro h
    obtain ⟨hreject, hgrant⟩ := h Unit _ (plainService 0) _
      (CorsBuilder.tryBuild_of_validate haccept) ()
    simp only [uncalled_iff_of_const hconst', CorsBuilder.shortCircuits_updateVary, hshort]
      at hreject
    refine ⟨?_, ?_, ?_⟩
    · cases hdeliver : b.deliverNonAllowedOrigin with
      | true => exact Or.inl rfl
      | false =>
        obtain ⟨⟨hpre, hdp⟩, hstatus⟩ := hreject (Or.inl hdeliver)
        exact Or.inr ⟨hpre, hdp, hstatus⟩
    · by_contra hguard
      simp only [not_or, Bool.not_eq_false, Bool.not_eq_true, ← hshort] at hguard
      obtain ⟨hws, hexempt, hlong⟩ := hguard
      have hforward : isPreflightRequest req.parts = false ∨ b.deliverPreflight = true := by
        simpa only [CorsBuilder.shortCircuits, Bool.and_eq_false_iff, Bool.not_eq_false']
          using hlong
      have hanswered := hshort.mpr (hreject (Or.inr ⟨hws, hexempt, hforward⟩)).1
      simp [hlong] at hanswered
    · obtain ⟨response, fut, s, hrun⟩ := exists_ok_run B E b.updateVary 0 req ((), [])
      have hsilent := hgrant response fut s hrun
      rw [Cors.iter_of_runs hrun, CorsBuilder.emits_no_grant_iff_of_const hconst',
        CorsBuilder.lazyHeaders_updateVary] at hsilent
      exact hsilent
  · rintro ⟨hdeliver, hupgrade, hsilent⟩ W F svc cors hbuild w
    obtain ⟨_, rfl⟩ := CorsBuilder.tryBuild_eq_ok hbuild
    refine ⟨?_, ?_⟩
    · intro hdemand
      rw [uncalled_iff_of_const hconst', CorsBuilder.shortCircuits_updateVary, hshort]
      rcases hdemand with hreject | ⟨hws, hexempt, hlong⟩
      · simpa [hreject, and_assoc] using hdeliver
      · exfalso
        rcases hupgrade with h | h | ⟨hpre, hdp⟩ <;> simp_all
    · intro response fut s hrun
      rw [Cors.iter_of_runs hrun, CorsBuilder.emits_no_grant_iff_of_const hconst',
        CorsBuilder.lazyHeaders_updateVary]
      exact hsilent

/-- A middleware with a single fixed origin refuses a request exactly if
nothing is to be refused: no flag asks for a rejection (or the rejection
status is the status of a granted preflight), and no other header is
configured for it. -/
theorem exact_refuses_iff (b : CorsBuilder) (o : HeaderValue)
    (hpolicy : AllowOrigin.exact o = .ok b.allowOrigin) (haccept : b.validate = .ok ())
    (req : Request A) :
    Refuses B E b req ↔
      (b.deliverNonAllowedOrigin = true ∨
        (isPreflightRequest req.parts = true ∧ b.deliverPreflight = false ∧
          b.rejectionStatus = .ok)) ∧
      (isWebsocketUpgradeRequest req.parts = false ∨
        b.deliverNonAllowedOriginWebsocketUpgrade = true ∨
        (isPreflightRequest req.parts = true ∧ b.deliverPreflight = false)) ∧
      b.lazyHeaders.Silent req.parts req.parts.origin (isPreflightRequest req.parts) := by
  refine refuses_iff_of_const (o := o) ?_ haccept
  unfold AllowOrigin.exact at hpolicy
  split at hpolicy
  · cases hpolicy
  · rw [← Except.ok.inj hpolicy]

end ExactOrigin

/-- A single fixed origin. -/
def exactConfig : CorsBuilder := CorsBuilder.new.setAllowOrigin ⟨.const originA, by simp⟩

/-- Where foreign origins are delivered and no further header is configured,
nothing is missing. -/
theorem exact_refuses_delivered : Refuses Unit Empty exactConfig foreignGet :=
  (exact_refuses_iff exactConfig originA rfl rfl foreignGet).mpr
    ⟨Or.inl rfl, Or.inl (by decide), rfl, by rw [if_neg (by decide)]; rfl⟩

/-- A foreign origin is not refused by a middleware that is to reject it. -/
theorem exact_not_refuses_foreign :
    AllowOrigin.exact originA = .ok (exactConfig.setDeliverNonAllowedOrigin false).allowOrigin ∧
      (exactConfig.setDeliverNonAllowedOrigin false).validate = .ok () ∧
      originA.bytes.any isAsciiWhitespace = false ∧
      foreignGet.parts.origin = some originB ∧
      ¬ (∀ t, t ∈ originTokens originB ↔ t = originA.bytes) ∧
      ¬ Refuses Unit Empty (exactConfig.setDeliverNonAllowedOrigin false) foreignGet := by
  refine ⟨rfl, rfl, by decide, by decide, ?_, ?_⟩
  · intro h
    have hmem : originB.bytes ∈ originTokens originB := by decide
    have heq := (h _).mp hmem
    revert heq
    decide
  · rw [refuses_iff_of_const (o := originA) rfl rfl]
    rintro ⟨h | ⟨h, _⟩, _⟩
    · revert h
      decide
    · revert h
      decide

end HyperCors
