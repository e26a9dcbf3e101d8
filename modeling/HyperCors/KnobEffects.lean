/-
HyperCors.KnobEffects — which knobs a request can tell apart.

Two configurations are `Indistinguishable` on a request if over every
inner service they return the same, in every world and at every schedule.

* `indistinguishable_iff` — that is so exactly if they take the same
  decision: whether to forward, which headers to emit, and the status of
  an own answer. The decision of `Decision` says no more than can be
  observed;
* `inert_knobs` — so a knob that is not asked about a request does not
  matter to it: what a preflight is told to any other request, the
  exposed headers to a preflight, the rejection flags to an allowed
  origin, and every grant to a denied one.
-/
import HyperCors.CorsTheorems
import HyperCors.Emitted

namespace HyperCors

open Polling

/-! ## Lists of named pairs -/

/-- A list whose names stand in a given order, each at most once, is put
together from its parts. -/
theorem eq_flatMap_filter {l : List Pair} {names : List HeaderName} (hnodup : names.Nodup)
    (hsub : (l.map Prod.fst).Sublist names) :
    l = names.flatMap fun n => l.filter fun p => p.1 = n := by
  induction names generalizing l with
  | nil =>
    rw [List.sublist_nil, List.map_eq_nil_iff] at hsub
    rw [hsub]
    rfl
  | cons n names ih =>
    obtain ⟨hn, hnodup⟩ := List.nodup_cons.mp hnodup
    have hrest : ∀ l' : List Pair, (l'.map Prod.fst).Sublist names →
        (l'.filter fun p => p.1 = n) = [] ∧
          l' = names.flatMap fun m => l'.filter fun p => p.1 = m := by
      intro l' hl'
      refine ⟨List.filter_eq_nil_iff.mpr ?_, ih hnodup hl'⟩
      intro p hp
      have hmem := hl'.subset (List.mem_map_of_mem hp)
      have hne : p.1 ≠ n := fun e => hn (e ▸ hmem)
      simpa using hne
    cases l with
    | nil => simp
    | cons p l =>
      rw [List.map_cons] at hsub
      cases hsub with
      | cons _ hsub =>
        obtain ⟨hnil, heq⟩ := hrest (p :: l) hsub
        rw [List.flatMap_cons, hnil, List.nil_append]
        exact heq
      | cons_cons _ hsub =>
        obtain ⟨hnil, heq⟩ := hrest l hsub
        have htail : (names.flatMap fun m => (p :: l).filter fun q => q.1 = m) =
            names.flatMap fun m => l.filter fun q => q.1 = m := by
          refine List.flatMap_congr ?_
          intro m hm
          have hne : p.1 ≠ m := fun e => hn (e ▸ hm)
          simp [hne]
        rw [List.flatMap_cons, htail, ← heq]
        simp [hnil]

/-- A name that stands in a list at most once has at most one pair. -/
theorem filter_eq_toList_getLast? {l : List Pair} (hnodup : (l.map Prod.fst).Nodup)
    (n : HeaderName) :
    (l.filter fun p => p.1 = n) = (l.filter fun p => p.1 = n).getLast?.toList := by
  have hsub := (List.filter_sublist (p := fun p : Pair => decide (p.1 = n)) (l := l)).map Prod.fst
  have hnodup' := hsub.nodup hnodup
  have hnames : ∀ p ∈ l.filter fun p => p.1 = n, p.1 = n := by
    intro p hp
    simpa using (List.mem_filter.mp hp).2
  generalize (l.filter fun p => p.1 = n) = part at hnodup' hnames
  match part with
  | [] => rfl
  | [p] => rfl
  | p :: q :: rest =>
    have heq : p.1 = q.1 := (hnames p (by simp)).trans (hnames q (by simp)).symm
    simp [heq] at hnodup'

section KnobEffects

variable [HttpCrate] {A : Type}

/-! ## What a response shows -/

theorem CorsBuilder.filter_emitted_vary (self : CorsBuilder) (parts : Parts) :
    ((self.emitted parts).filter fun q => q.1 = header.vary) = self.vary.toHeader.toList := by
  rw [filter_emitted]
  simp +decide

/-- An otherwise empty response shows the emitted headers, name by name. -/
theorem CorsBuilder.filter_emitted_of_getAll {cfg cfg' : CorsBuilder} {parts : Parts}
    (h : ∀ n, (HeaderMap.new.merge (cfg.emitted parts)).getAll n =
      (HeaderMap.new.merge (cfg'.emitted parts)).getAll n) (n : HeaderName) :
    ((cfg.emitted parts).filter fun p => p.1 = n) =
      (cfg'.emitted parts).filter fun p => p.1 = n := by
  have hvalues := h n
  by_cases hn : n = header.vary
  · subst hn
    have hvary : ∀ v : Option HeaderValue, mergeVary [] v.toList = v.toList := by
      intro v
      cases v <;> rfl
    rw [getAll_merge_vary, getAll_merge_vary, HeaderMap.getAll_new, varyValues_emitted,
      varyValues_emitted, hvary, hvary] at hvalues
    rw [filter_emitted_vary, filter_emitted_vary, Vary.toHeader, Vary.toHeader,
      ← Option.head?_toList (o := cfg.vary.value), hvalues, Option.head?_toList]
  · rw [getAll_merge_of_ne _ _ hn, getAll_merge_of_ne _ _ hn, HeaderMap.getAll_new] at hvalues
    rw [filter_eq_toList_getLast? (cfg.nodup_emitted_names parts),
      filter_eq_toList_getLast? (cfg'.nodup_emitted_names parts)]
    have hname : ∀ (l : List Pair) (p : Pair), (l.filter fun p => p.1 = n).getLast? = some p →
        p = (n, p.2) := by
      intro l p hp
      have hmem := (List.mem_filter.mp (List.mem_of_getLast? hp)).2
      exact Prod.ext (by simpa using hmem) rfl
    cases hl : ((cfg.emitted parts).filter fun p => p.1 = n).getLast? with
    | none =>
      cases hl' : ((cfg'.emitted parts).filter fun p => p.1 = n).getLast? with
      | none => rfl
      | some p' => simp [hl, hl'] at hvalues
    | some p =>
      cases hl' : ((cfg'.emitted parts).filter fun p => p.1 = n).getLast? with
      | none => simp [hl, hl'] at hvalues
      | some p' =>
        simp only [hl, hl', List.cons.injEq, and_true] at hvalues
        rw [hname _ p hl, hname _ p' hl', hvalues]

theorem CorsBuilder.emitted_of_getAll {cfg cfg' : CorsBuilder} {parts : Parts}
    (h : ∀ n, (HeaderMap.new.merge (cfg.emitted parts)).getAll n =
      (HeaderMap.new.merge (cfg'.emitted parts)).getAll n) :
    cfg.emitted parts = cfg'.emitted parts := by
  rw [eq_flatMap_filter (nodup_corsNames _) (cfg.emitted_names_sublist parts),
    eq_flatMap_filter (nodup_corsNames _) (cfg'.emitted_names_sublist parts)]
  simp only [filter_emitted_of_getAll h]

/-! ## Behaviour and decision -/

/-- Over every inner service both configurations return the same. -/
def Indistinguishable (B : Type) [Inhabited B] (cfg cfg' : CorsBuilder) (req : Request A) : Prop :=
  ∀ (W E F : Type) (svc : Inner W A B E F) (w : W) (out : Except E (Response B)) (w' : W),
    (Cors.service ⟨svc, cfg⟩).Returns req w out w' ↔ (Cors.service ⟨svc, cfg'⟩).Returns req w out w'

/-- Both configurations decide alike. -/
structure SameDecision (cfg cfg' : CorsBuilder) (parts : Parts) : Prop where
  forwards : cfg.forwards parts = cfg'.forwards parts
  emitted : cfg.emitted parts = cfg'.emitted parts
  status : cfg.forwards parts = false → cfg.answerStatus parts = cfg'.answerStatus parts

variable {B : Type} [Inhabited B]

theorem SameDecision.indistinguishable {cfg cfg' : CorsBuilder} {req : Request A}
    (h : SameDecision cfg cfg' req.parts) : Indistinguishable B cfg cfg' req := by
  intro W E F svc w out w'
  cases hforwards : cfg.forwards req.parts with
  | false =>
    have hanswer : cfg.answer (B := B) req.parts = cfg'.answer req.parts := by
      rw [CorsBuilder.answer, CorsBuilder.answer, h.status hforwards, h.emitted]
    have hforwards' : cfg'.forwards req.parts = false := h.forwards ▸ hforwards
    have hiff : (Cors.service ⟨svc, cfg⟩).Returns req w out w' ↔ _ :=
      Cors.returns_answered_iff hforwards
    have hiff' : (Cors.service ⟨svc, cfg'⟩).Returns req w out w' ↔ _ :=
      Cors.returns_answered_iff hforwards'
    rw [hiff, hiff', hanswer]
  | true =>
    have hforwards' : cfg'.forwards req.parts = true := h.forwards ▸ hforwards
    have hiff : (Cors.service ⟨svc, cfg⟩).Returns req w out w' ↔ _ :=
      Cors.returns_forwarded_iff hforwards
    have hiff' : (Cors.service ⟨svc, cfg'⟩).Returns req w out w' ↔ _ :=
      Cors.returns_forwarded_iff hforwards'
    rw [hiff, hiff', h.emitted]

/-- What is returned over the recorded service that answers with an empty
response, and what is recorded. -/
theorem Indistinguishable.plain {cfg cfg' : CorsBuilder} {req : Request A}
    (h : Indistinguishable B cfg cfg' req) {response : Response B} {log : List (Request A)} :
    (if cfg.forwards req.parts then
        response = (Response.new default).merged (cfg.emitted req.parts) ∧ log = [req]
      else response = cfg.answer req.parts ∧ log = []) ↔
    if cfg'.forwards req.parts then
      response = (Response.new default).merged (cfg'.emitted req.parts) ∧ log = [req]
    else response = cfg'.answer req.parts ∧ log = [] := by
  have hreturns := h (Unit × List (Request A)) Empty _ (plainService 0).logged ((), [])
    (.ok response) ((), log)
  simp only [plainService, returns_suspending_iff, Except.map, Except.ok.injEq, Prod.mk.injEq,
    List.nil_append, true_and] at hreturns
  exact hreturns

/-- Configurations that decide differently are told apart by that service. -/
theorem Indistinguishable.sameDecision {cfg cfg' : CorsBuilder} {req : Request A}
    (h : Indistinguishable B cfg cfg' req) : SameDecision cfg cfg' req.parts := by
  cases hforwards : cfg.forwards req.parts with
  | false =>
    have hplain := h.plain.mp (by rw [hforwards]; exact ⟨rfl, rfl⟩)
    cases hforwards' : cfg'.forwards req.parts with
    | true => simp [hforwards'] at hplain
    | false =>
      simp only [hforwards', Bool.false_eq_true, if_false, and_true] at hplain
      refine ⟨hforwards.trans hforwards'.symm, CorsBuilder.emitted_of_getAll ?_, fun _ => ?_⟩
      · intro n
        exact congrArg (fun response => response.headers.getAll n) hplain
      · exact congrArg Response.status hplain
  | true =>
    have hplain := h.plain.mp (by rw [hforwards]; exact ⟨rfl, rfl⟩)
    cases hforwards' : cfg'.forwards req.parts with
    | false => simp [hforwards'] at hplain
    | true =>
      simp only [hforwards', if_true, and_true] at hplain
      refine ⟨hforwards.trans hforwards'.symm, CorsBuilder.emitted_of_getAll ?_, fun hfalse => ?_⟩
      · intro n
        exact congrArg (fun response => response.headers.getAll n) hplain
      · rw [hforwards] at hfalse
        cases hfalse

/-- **Behaviour is decision.** Two configurations return the same over every
inner service exactly if they forward alike, emit the same headers in the
same order, and answer with the same status where they answer. -/
theorem indistinguishable_iff (cfg cfg' : CorsBuilder) (req : Request A) :
    Indistinguishable B cfg cfg' req ↔ SameDecision cfg cfg' req.parts :=
  ⟨Indistinguishable.sameDecision, SameDecision.indistinguishable⟩

/-! ## Inert knobs -/

/-- The configurations agree on the verdict and on `Vary`, and on every other
knob that is asked about a request with this head. -/
structure AgreeWhereAsked (cfg cfg' : CorsBuilder) (parts : Parts) : Prop where
  verdict : cfg.verdict parts = cfg'.verdict parts
  vary : cfg.vary = cfg'.vary
  deliverPreflight : isPreflightRequest parts = true →
    cfg.deliverPreflight = cfg'.deliverPreflight
  deliverDenied : cfg.denies parts = true →
    cfg.deliverNonAllowedOrigin = cfg'.deliverNonAllowedOrigin
  deliverUpgrade : cfg.denies parts = true → isWebsocketUpgradeRequest parts = true →
    cfg.deliverNonAllowedOriginWebsocketUpgrade = cfg'.deliverNonAllowedOriginWebsocketUpgrade
  rejectionStatus : cfg.rejects parts = true → cfg.rejectionStatus = cfg'.rejectionStatus
  allowCredentials : cfg.grants parts = true → cfg.allowCredentials = cfg'.allowCredentials
  preflight : cfg.grants parts = true → isPreflightRequest parts = true →
    cfg.allowMethods = cfg'.allowMethods ∧ cfg.allowHeaders = cfg'.allowHeaders ∧
      cfg.maxAge = cfg'.maxAge
  simple : cfg.grants parts = true → isPreflightRequest parts = false →
    cfg.exposeHeaders = cfg'.exposeHeaders

namespace AgreeWhereAsked

variable {cfg cfg' : CorsBuilder} {parts : Parts}

omit [Inhabited B]

theorem denies (h : AgreeWhereAsked cfg cfg' parts) : cfg.denies parts = cfg'.denies parts := by
  rw [CorsBuilder.denies, CorsBuilder.denies, h.verdict]

theorem shortCircuits (h : AgreeWhereAsked cfg cfg' parts) :
    cfg.shortCircuits parts = cfg'.shortCircuits parts := by
  unfold CorsBuilder.shortCircuits
  cases hpre : isPreflightRequest parts with
  | false => rfl
  | true => rw [h.deliverPreflight hpre]

theorem rejects (h : AgreeWhereAsked cfg cfg' parts) : cfg.rejects parts = cfg'.rejects parts := by
  have hdenies := h.denies
  unfold CorsBuilder.rejects CorsBuilder.guardsUpgrade
  rw [← hdenies, ← h.shortCircuits]
  cases hd : cfg.denies parts with
  | false => rfl
  | true =>
    rw [h.deliverDenied hd]
    cases hw : isWebsocketUpgradeRequest parts with
    | false => rfl
    | true => rw [h.deliverUpgrade hd hw]

theorem grants (h : AgreeWhereAsked cfg cfg' parts) : cfg.grants parts = cfg'.grants parts := by
  rw [CorsBuilder.grants, CorsBuilder.grants, h.shortCircuits, h.denies, h.verdict]

theorem emitted (h : AgreeWhereAsked cfg cfg' parts) : cfg.emitted parts = cfg'.emitted parts := by
  unfold CorsBuilder.emitted CorsBuilder.decided
  rw [← h.vary, ← h.verdict, ← h.grants]
  cases hg : cfg.grants parts with
  | false => rfl
  | true =>
    simp only [if_true, LazyHeaders.pairs, CorsBuilder.lazyHeaders, h.allowCredentials hg]
    cases hpre : isPreflightRequest parts with
    | false =>
      rw [h.simple hg hpre]
      rfl
    | true =>
      obtain ⟨hmethods, hheaders, hage⟩ := h.preflight hg hpre
      rw [hmethods, hheaders, hage]
      rfl

theorem sameDecision (h : AgreeWhereAsked cfg cfg' parts) : SameDecision cfg cfg' parts := by
  refine ⟨?_, h.emitted, ?_⟩
  · rw [CorsBuilder.forwards, CorsBuilder.forwards, h.shortCircuits, h.rejects]
  · intro _
    rw [CorsBuilder.answerStatus, CorsBuilder.answerStatus, ← h.rejects]
    cases hr : cfg.rejects parts with
    | false => rfl
    | true => rw [h.rejectionStatus hr]

end AgreeWhereAsked

/-- **Inert knobs.** A knob that is not asked about a request does not
matter to it. Only a preflight asks whether preflights are delivered, and
only a granted one for methods, headers and age; only a granted other
request asks for the exposed headers; only a denied origin asks whether
its requests are delivered, a denied handshake also for the exemption of
upgrades, and a rejected request for the status. -/
theorem inert_knobs (cfg cfg' : CorsBuilder) (req : Request A)
    (h : AgreeWhereAsked cfg cfg' req.parts) : Indistinguishable B cfg cfg' req :=
  h.sameDecision.indistinguishable

end KnobEffects

/-- A `GET` does not ask what preflights are told, nor how denied requests are
answered, as no origin is denied. -/
theorem inert_knobs_get :
    Indistinguishable Unit CorsBuilder.new
      (((CorsBuilder.new.setMaxAge ⟨600⟩).setDeliverPreflight true).setRejectionStatus .ok)
      foreignGet :=
  inert_knobs _ _ foreignGet
    { verdict := rfl
      vary := rfl
      deliverPreflight := fun h => absurd h (by decide)
      deliverDenied := fun _ => rfl
      deliverUpgrade := fun _ _ => rfl
      rejectionStatus := fun h => absurd h (by decide)
      allowCredentials := fun _ => rfl
      preflight := fun _ h => absurd h (by decide)
      simple := fun _ _ => rfl }

end HyperCors
