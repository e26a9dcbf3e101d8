/-
HyperCors.PreflightArms — the two ways of answering a preflight.

A preflight is answered by the short-circuiting arm or, with
`deliver_preflight`, by the inner service through the forwarding arm.
`arms_agree_iff` says on which requests the two put the same headers on
the response. They part ways on a preflight without an origin: the one
arm computes the headers behind the verdict unless the origin is denied,
the other only if it is allowed.
-/
import HyperCors.Credentials

namespace HyperCors

open Polling

/-- `Vary` and the `Access-Control-` headers. -/
def IsCorsName (n : HeaderName) : Prop :=
  n = header.vary ∨ (ascii "access-control-").isPrefixOf n.asStr = true

theorem isCorsName_of_mem_corsNames (isPreflight : Bool) {n : HeaderName}
    (h : n ∈ corsNames isPreflight) : IsCorsName n := by
  have hall : ∀ n ∈ corsNames isPreflight,
      n = header.vary ∨ (ascii "access-control-").isPrefixOf n.asStr = true := by
    cases isPreflight <;> decide
  exact hall n h

section PreflightArms

variable [HttpCrate] {A : Type}

namespace CorsBuilder

theorem updateVary_setDeliverPreflight (self : CorsBuilder) (deliver : Bool) :
    (self.setDeliverPreflight deliver).updateVary =
      self.updateVary.setDeliverPreflight deliver := by
  cases hpinned : self.varyPinned with
  | true => simp [updateVary, setDeliverPreflight, hpinned]
  | false =>
    simp only [updateVary, setDeliverPreflight, hpinned]
    rfl

/-- What the two arms emit on a preflight. -/
theorem emitted_setDeliverPreflight (self : CorsBuilder) {parts : Parts}
    (hpre : isPreflightRequest parts = true) (deliver : Bool) :
    (self.setDeliverPreflight deliver).emitted parts =
      self.vary.toHeader.toList ++ ((self.verdict parts).toList ++
        if (if deliver then (self.verdict parts).isSome else !self.denies parts) then
          self.lazyHeaders.pairs parts parts.origin true else []) := by
  have hgrants : (self.setDeliverPreflight deliver).grants parts =
      if deliver then (self.verdict parts).isSome else !self.denies parts := by
    cases deliver <;> simp only [grants, shortCircuits, hpre] <;> rfl
  rw [emitted, decided, hgrants, hpre]
  rfl

/-- With an origin, under a constant policy, and where the knobs are silent,
the arms emit the same. -/
theorem emitted_arms_eq (self : CorsBuilder) {parts : Parts}
    (hpre : isPreflightRequest parts = true)
    (h : parts.origin.isSome = true ∨ (∃ v, self.allowOrigin.inner = .const v) ∨
      self.lazyHeaders.Silent parts none true) :
    (self.setDeliverPreflight false).emitted parts =
      (self.setDeliverPreflight true).emitted parts := by
  rw [self.emitted_setDeliverPreflight hpre, self.emitted_setDeliverPreflight hpre]
  cases horigin : parts.origin with
  | some o => simp [denies, horigin]
  | none =>
    rcases h with h | ⟨v, hv⟩ | hsilent
    · simp [horigin] at h
    · simp [denies, verdict_of_const hv]
    · simp [LazyHeaders.pairs_eq_nil_iff.mpr hsilent]

/-- Without an origin, and unless the policy is a constant, only the
short-circuiting arm emits more than `Vary`. -/
theorem emitted_arms_of_no_origin (self : CorsBuilder) {parts : Parts}
    (hpre : isPreflightRequest parts = true) (horigin : parts.origin = none)
    (hpolicy : ¬ ∃ v, self.allowOrigin.inner = .const v) :
    (self.setDeliverPreflight false).emitted parts =
        self.vary.toHeader.toList ++ self.lazyHeaders.pairs parts none true ∧
      (self.setDeliverPreflight true).emitted parts = self.vary.toHeader.toList := by
  have hverdict : self.verdict parts = none := by
    rw [verdict, horigin, ← Option.not_isSome_iff_eq_none, AllowOrigin.isSome_verdict_none_iff]
    exact hpolicy
  rw [self.emitted_setDeliverPreflight hpre, self.emitted_setDeliverPreflight hpre]
  simp [hverdict, denies, horigin]

end CorsBuilder

/-- The middleware puts the same headers on the response to the preflight
whether it answers itself or has it delivered, over every inner service
that sets none of them. -/
def ArmsAgree (B E : Type) [Inhabited B] (b : CorsBuilder) (req : Request A) : Prop :=
  ∀ (W F : Type) (svc : Inner W A B E F) (short deliv : Cors (Inner W A B E F)),
    (b.setDeliverPreflight false).tryBuild svc = .ok short →
    (b.setDeliverPreflight true).tryBuild svc = .ok deliv → ∀ w : W,
    (∀ response w', svc.Returns req w (.ok response) w' →
      ∀ n, IsCorsName n → response.headers.getAll n = []) →
    ∀ r₁ w₁ r₂ w₂, short.service.Returns req w (.ok r₁) w₁ →
      deliv.service.Returns req w (.ok r₂) w₂ →
      ∀ n, IsCorsName n → r₁.headers.getAll n = r₂.headers.getAll n

variable {B E : Type} [Inhabited B]

/-- A response without CORS headers ends up with the emitted ones. -/
theorem getAll_of_returns {W F : Type} {cors : Cors (Inner W A B E F)} {req : Request A} {w : W}
    (hplain : ∀ response w', cors.inner.Returns req w (.ok response) w' →
      ∀ n, IsCorsName n → response.headers.getAll n = [])
    {response : Response B} {w' : W} (h : cors.service.Returns req w (.ok response) w')
    {n : HeaderName} (hn : IsCorsName n) :
    response.headers.getAll n =
      (HeaderMap.merge .new (cors.config.emitted req.parts)).getAll n := by
  obtain ⟨base, rfl, hbase⟩ := Cors.ok_returns_cases h
  have hnil : base.headers.getAll n = [] := by
    rcases hbase with ⟨_, hinner⟩ | ⟨_, hnew, _⟩
    · exact hplain base w' hinner n hn
    · rw [hnew, HeaderMap.getAll_new]
  exact getAll_merge_congr (by rw [hnil, HeaderMap.getAll_new]) _

theorem tryBuild_setDeliverPreflight {b : CorsBuilder} (haccept : b.validate = .ok ())
    (deliver : Bool) {S : Type} (svc : S) :
    (b.setDeliverPreflight deliver).tryBuild svc =
      .ok ⟨svc, b.updateVary.setDeliverPreflight deliver⟩ := by
  rw [← CorsBuilder.updateVary_setDeliverPreflight]
  exact CorsBuilder.tryBuild_of_validate haccept

/-- Where only the short-circuiting arm emits a header, the arms do not
agree: over a service with plain responses the header is there or not. -/
theorem not_armsAgree {b : CorsBuilder} (haccept : b.validate = .ok ()) {req : Request A}
    (hpre : isPreflightRequest req.parts = true) (horigin : req.parts.origin = none)
    (hpolicy : ¬ ∃ v, b.allowOrigin.inner = .const v)
    (hsilent : ¬ b.lazyHeaders.Silent req.parts none true) : ¬ ArmsAgree B E b req := by
  intro h
  rw [← LazyHeaders.pairs_eq_nil_iff] at hsilent
  obtain ⟨p, hp⟩ := List.exists_mem_of_ne_nil _ hsilent
  obtain ⟨hshort, hdeliv⟩ := b.updateVary.emitted_arms_of_no_origin hpre horigin
    (by simpa using hpolicy)
  rw [CorsBuilder.lazyHeaders_updateVary] at hshort
  -- both arms answer over a service with plain responses
  obtain ⟨r₁, fut₁, s₁, hrun₁⟩ :=
    exists_ok_run B E (b.updateVary.setDeliverPreflight false) 0 req ((), [])
  obtain ⟨r₂, fut₂, s₂, hrun₂⟩ :=
    exists_ok_run B E (b.updateVary.setDeliverPreflight true) 0 req ((), [])
  have hplain : ∀ response w', (plainService (B := B) (E := E) 0).logged.Returns req ((), [])
      (.ok response) w' → ∀ n, IsCorsName n → response.headers.getAll n = [] :=
    fun response w' hreturns n _ => getAll_of_plainService hreturns n
  -- the header `p` tells them apart
  have hname := (LazyHeaders.pairs_names_sublist _ _ _ _).subset (List.mem_map_of_mem hp)
  have hvary : p.1 ≠ header.vary := by
    intro e
    rw [e] at hname
    exact absurd hname (by decide)
  have hcors : IsCorsName p.1 := isCorsName_of_mem_corsNames true
    (List.mem_cons_of_mem _ (List.mem_cons_of_mem _ hname))
  have hagree := h _ _ _ _ _ (tryBuild_setDeliverPreflight haccept false _)
    (tryBuild_setDeliverPreflight haccept true _) _ hplain r₁ s₁ r₂ s₂
    ⟨fut₁, hrun₁⟩ ⟨fut₂, hrun₂⟩ p.1 hcors
  rw [getAll_of_returns hplain ⟨fut₁, hrun₁⟩ hcors, getAll_of_returns hplain ⟨fut₂, hrun₂⟩ hcors,
    hdeliv, getAll_merge_vary_only hvary, HeaderMap.getAll_new] at hagree
  have hmem : (p.1, p.2) ∈ (b.updateVary.setDeliverPreflight false).emitted req.parts := by
    rw [hshort]
    exact List.mem_append_right _ hp
  rw [getAll_merge_of_mem _ hvary (CorsBuilder.nodup_emitted_names _ _) hmem] at hagree
  cases hagree

/-- The two arms agree on a preflight if and only if it carries an origin,
or the policy is a constant, or the other knobs are silent. -/
theorem arms_agree_iff (b : CorsBuilder) (haccept : b.validate = .ok ()) (req : Request A)
    (hpre : isPreflightRequest req.parts = true) :
    ArmsAgree B E b req ↔
      req.parts.origin.isSome = true ∨ (∃ v, b.allowOrigin.inner = .const v) ∨
        b.lazyHeaders.Silent req.parts none true := by
  constructor
  · intro h
    by_contra hnot
    simp only [not_or, Bool.not_eq_true, Option.isSome_eq_false_iff,
      Option.isNone_iff_eq_none] at hnot
    exact not_armsAgree haccept hpre hnot.1 hnot.2.1 hnot.2.2 h
  · intro h W F svc short deliv hshort hdeliv w hplain r₁ w₁ r₂ w₂ hr₁ hr₂ n hn
    rw [tryBuild_setDeliverPreflight haccept, Except.ok.injEq] at hshort hdeliv
    subst hshort hdeliv
    rw [getAll_of_returns hplain hr₁ hn, getAll_of_returns hplain hr₂ hn]
    rw [b.updateVary.emitted_arms_eq hpre (by simpa using h)]

end PreflightArms

/-- With an origin the arms of the default configuration agree. -/
theorem arms_agree_default :
    ArmsAgree Unit Empty CorsBuilder.new
      (⟨preflightHead (methodToValue .get) [], ()⟩ : Request Unit) :=
  (arms_agree_iff CorsBuilder.new rfl _ (by decide)).mpr (Or.inl rfl)

/-- Without one they do not: only the short-circuiting arm allows the
method. -/
theorem arms_disagree_default :
    CorsBuilder.new.validate = .ok () ∧ isPreflightRequest originlessPreflight.parts = true ∧
      ¬ ArmsAgree Unit Empty CorsBuilder.new originlessPreflight := by
  refine ⟨rfl, by decide, not_armsAgree rfl (by decide) rfl ?_ ?_⟩
  · rintro ⟨v, hv⟩
    cases hv
  · rw [← LazyHeaders.pairs_eq_nil_iff]
    decide

end HyperCors
