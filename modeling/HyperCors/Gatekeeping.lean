/-
HyperCors.Gatekeeping — when the inner service is called, and what a
denied origin gets to see.

`inner_called_iff_forwarded` is the safety of the whole future: the inner
service is called at most once, with the request as it came in, after the
verdict, and exactly when the flags say so. `denied_learns_nothing` is
the frame condition of a denied request: whatever the arm and the exit,
nothing but `Vary` is added.

The recorded service `svc.logged` keeps the requests it was called with.
-/
import HyperCors.CorsTheorems

namespace HyperCors

open Polling

section Gatekeeping

variable [HttpCrate] {W A B E F : Type}

/-- The origin verdict is in: the origin future has answered, and the
forwarding arm has recorded that. -/
def CorsFuture.VerdictKnown (cfg : CorsBuilder) (parts : Parts) : CorsFuture W A B E F → Prop
  | .forward st => st.allowOriginComplete = true ∧ Cors.Settled cfg parts st.allowOriginFuture
  | .preflight st => Cors.Settled cfg parts st.allowOriginFuture

/-- The request is neither answered as a preflight nor rejected. -/
theorem CorsBuilder.forwards_iff (b : CorsBuilder) (parts : Parts) :
    b.forwards parts = true ↔
      (isPreflightRequest parts = false ∨ b.deliverPreflight = true) ∧
        ¬ (b.verdict parts = none ∧ parts.origin.isSome = true ∧
          (b.deliverNonAllowedOrigin = false ∨
            (isWebsocketUpgradeRequest parts = true ∧
              b.deliverNonAllowedOriginWebsocketUpgrade = false))) := by
  unfold forwards rejects denies guardsUpgrade shortCircuits
  cases isPreflightRequest parts <;> cases b.deliverPreflight <;> cases b.verdict parts <;>
    cases parts.origin.isSome <;> cases b.deliverNonAllowedOrigin <;>
    cases isWebsocketUpgradeRequest parts <;>
    cases b.deliverNonAllowedOriginWebsocketUpgrade <;> simp

/-- A denied request is rejected by the general flag, or as a WebSocket
handshake that is not short-circuited. -/
theorem CorsBuilder.rejects_iff_of_denies {b : CorsBuilder} {parts : Parts}
    (h : b.denies parts = true) :
    b.rejects parts = true ↔
      b.deliverNonAllowedOrigin = false ∨
        ((isPreflightRequest parts = false ∨ b.deliverPreflight = true) ∧
          isWebsocketUpgradeRequest parts = true ∧
          b.deliverNonAllowedOriginWebsocketUpgrade = false) := by
  unfold rejects guardsUpgrade shortCircuits
  rw [h]
  cases isPreflightRequest parts <;> cases b.deliverPreflight <;>
    cases b.deliverNonAllowedOrigin <;> cases isWebsocketUpgradeRequest parts <;>
    cases b.deliverNonAllowedOriginWebsocketUpgrade <;> simp

theorem CorsBuilder.forwards_of_rejects {b : CorsBuilder} {parts : Parts}
    (h : b.rejects parts = true) : b.forwards parts = false := by
  simp [forwards, h]

/-- A denied request is rejected where a flag asks for it. -/
theorem CorsBuilder.rejects_of_denies {b : CorsBuilder} {parts : Parts}
    (h : b.denies parts = true)
    (hflags : b.deliverNonAllowedOrigin = false ∨
      (isWebsocketUpgradeRequest parts = true ∧
        b.deliverNonAllowedOriginWebsocketUpgrade = false ∧
        (isPreflightRequest parts = false ∨ b.deliverPreflight = true))) :
    b.rejects parts = true := by
  rw [rejects_iff_of_denies h]
  rcases hflags with hflag | ⟨hws, hflag, hpre⟩
  · exact Or.inl hflag
  · exact Or.inr ⟨hpre, hws, hflag⟩

variable [Inhabited B]

/-- In every state of every run the inner service has been called at most
once, and not before the verdict. At the end it has been called with the
request if and only if the request is forwarded. -/
theorem inner_called_iff_forwarded (b : CorsBuilder) (svc : Inner W A B E F)
    (cors : Cors (Inner (W × List (Request A)) A B E F))
    (hbuild : b.tryBuild svc.logged = .ok cors) (req : Request A) (w : W) :
    (∀ fut w' log, cors.service.States req (w, []) fut (w', log) →
      log.length ≤ 1 ∧ (log ≠ [] → fut.VerdictKnown cors.config req.parts)) ∧
    (∀ out fut w' log, cors.service.Runs req (w, []) out fut (w', log) →
      log =
        if (isPreflightRequest req.parts = false ∨ b.deliverPreflight = true) ∧
            ¬ (b.verdict req.parts = none ∧ req.parts.origin.isSome = true ∧
              (b.deliverNonAllowedOrigin = false ∨
                (isWebsocketUpgradeRequest req.parts = true ∧
                  b.deliverNonAllowedOriginWebsocketUpgrade = false)))
        then [req] else []) := by
  obtain ⟨_, rfl⟩ := CorsBuilder.tryBuild_eq_ok hbuild
  refine ⟨?_, ?_⟩
  · intro fut w' log hstate
    rcases Cors.states_cases hstate with ⟨_, _, _, hw⟩ | ⟨_, _, _, hw⟩ |
      ⟨_, done, inner, hdone, rfl, hinner⟩
    · simp only [Prod.mk.injEq] at hw
      simp [hw.2]
    · simp only [Prod.mk.injEq] at hw
      simp [hw.2]
    · have hlog : log = [req] := by simpa using Service.logged_states hinner
      exact ⟨by simp [hlog], fun _ => ⟨rfl, hdone⟩⟩
  · intro out fut w' log hrun
    simp only [← CorsBuilder.forwards_iff]
    cases hforwards : b.forwards req.parts with
    | false =>
      obtain ⟨_, hw, _⟩ := (Cors.runs_answered_iff (by simpa using hforwards)).mp hrun
      simp only [Prod.mk.injEq] at hw
      simpa using hw.2
    | true =>
      obtain ⟨o, inner, hinner, _⟩ := (Cors.runs_forwarded_iff (by simpa using hforwards)).mp hrun
      simpa using (Service.logged_returns_iff.mp ⟨inner, hinner⟩).2

end Gatekeeping

/-- Under the default configuration a plain `GET` reaches the inner service,
once. -/
theorem inner_called_default :
    ∃ out fut, (Cors.service ⟨emptyService.logged, CorsBuilder.new.updateVary⟩).Runs plainGet
      ((), []) out fut ((), [plainGet]) := by
  obtain ⟨response, fut, ⟨_, log⟩, hrun⟩ :=
    exists_ok_run Unit Empty CorsBuilder.new.updateVary 1 plainGet ((), [])
  have hlog := (inner_called_iff_forwarded CorsBuilder.new _ _ rfl _ _).2 _ _ _ _ hrun
  rw [if_pos (by decide)] at hlog
  subst hlog
  exact ⟨_, fut, hrun⟩

section Denied

variable [HttpCrate] {W A B E F : Type} [Inhabited B]

/-! ## Denied origins -/

/-- Merging `Vary` touches no other header. -/
theorem getAll_merge_vary_only {cfg : CorsBuilder} {m : HeaderMap} {n : HeaderName}
    (hn : n ≠ header.vary) : (m.merge cfg.vary.toHeader.toList).getAll n = m.getAll n := by
  apply getAll_merge_of_not_mem
  intro hmem
  obtain ⟨p, hp, rfl⟩ := List.mem_map.mp hmem
  exact hn ((named_vary cfg.vary).of_mem hp)

/-- The answer to a denied request: the status, the default body, and no
header but `Vary`. -/
theorem CorsBuilder.answer_of_denies {cfg : CorsBuilder} {parts : Parts}
    (h : cfg.denies parts = true) :
    (cfg.answer (B := B) parts).status = cfg.answerStatus parts ∧
      (cfg.answer (B := B) parts).body = default ∧
      ∀ n, n ≠ header.vary → (cfg.answer (B := B) parts).headers.getAll n = [] := by
  refine ⟨rfl, rfl, ?_⟩
  intro n hn
  have hheaders : (cfg.answer (B := B) parts).headers =
      HeaderMap.merge .new cfg.vary.toHeader.toList := by
    rw [answer, emitted_of_denies h]
    rfl
  rw [hheaders, getAll_merge_vary_only hn, HeaderMap.getAll_new]

/-- A denied request is told nothing but `Vary`: forwarded, it gets the
inner response with its other headers as they are; else it gets an answer
with no other header. -/
theorem denied_learns_nothing (b : CorsBuilder) (svc : Inner W A B E F)
    (cors : Cors (Inner W A B E F)) (hbuild : b.tryBuild svc = .ok cors) (req : Request A)
    (horigin : req.parts.origin.isSome = true) (hdenied : b.verdict req.parts = none) (w : W) :
    (∀ out fut w', cors.service.Runs req w out fut w' →
      ∀ p ∈ fut.headers.iter, p.1 = header.vary) ∧
    ((isPreflightRequest req.parts = false ∨ b.deliverPreflight = true) →
      b.deliverNonAllowedOrigin = true →
      (isWebsocketUpgradeRequest req.parts = false ∨
        b.deliverNonAllowedOriginWebsocketUpgrade = true) →
      ∃ add : Response B → Response B,
        (∀ response, (add response).status = response.status ∧
          (add response).body = response.body ∧
          ∀ n, n ≠ header.vary →
            (add response).headers.getAll n = response.headers.getAll n) ∧
        ∀ out w', cors.service.Returns req w out w' ↔
          ∃ inner, svc.Returns req w inner w' ∧ out = inner.map add) ∧
    ((b.deliverNonAllowedOrigin = false ∨
      ((isPreflightRequest req.parts = false ∨ b.deliverPreflight = true) ∧
        isWebsocketUpgradeRequest req.parts = true ∧
        b.deliverNonAllowedOriginWebsocketUpgrade = false)) →
      ∃ response : Response B,
        (∀ out w', cors.service.Returns req w out w' ↔ out = .ok response ∧ w' = w) ∧
        response.status = b.rejectionStatus ∧ response.body = default ∧
        ∀ n, n ≠ header.vary → response.headers.getAll n = []) ∧
    (isPreflightRequest req.parts = true → b.deliverPreflight = false →
      b.deliverNonAllowedOrigin = true →
      ∃ response : Response B,
        (∀ out w', cors.service.Returns req w out w' ↔ out = .ok response ∧ w' = w) ∧
        response.status = .ok ∧ response.body = default ∧
        ∀ n, n ≠ header.vary → response.headers.getAll n = []) := by
  obtain ⟨_, rfl⟩ := CorsBuilder.tryBuild_eq_ok hbuild
  have hdenies : b.denies req.parts = true := by simp [CorsBuilder.denies, hdenied, horigin]
  have hdenies' : b.updateVary.denies req.parts = true := by simpa using hdenies
  have hemitted := CorsBuilder.emitted_of_denies hdenies'
  obtain ⟨hstatus, hbody, hnames⟩ := CorsBuilder.answer_of_denies (B := B) hdenies'
  refine ⟨?_, ?_, ?_, ?_⟩
  · intro out fut w' hrun p hp
    exact Cors.name_of_denies hrun hdenies' hp
  · intro hpre hdeliver hws
    have hforwards : b.updateVary.forwards req.parts = true := by
      rw [CorsBuilder.forwards_updateVary, CorsBuilder.forwards_iff]
      refine ⟨hpre, ?_⟩
      intro hdeny
      obtain ⟨_, _, h | ⟨h, h'⟩⟩ := hdeny <;> simp_all
    refine ⟨fun response => response.merged b.updateVary.vary.toHeader.toList, ?_, ?_⟩
    · intro response
      exact ⟨rfl, rfl, fun n hn => getAll_merge_vary_only hn⟩
    · intro out w'
      rw [Cors.returns_forwarded_iff hforwards, hemitted]
  · intro hreject
    have hrejects : b.updateVary.rejects req.parts = true := by
      rw [CorsBuilder.rejects_updateVary, CorsBuilder.rejects_iff_of_denies hdenies]
      exact hreject
    refine ⟨b.updateVary.answer req.parts, ?_, ?_, hbody, hnames⟩
    · intro out w'
      exact Cors.returns_answered_iff (CorsBuilder.forwards_of_rejects hrejects)
    · rw [hstatus, CorsBuilder.answerStatus, if_pos hrejects, CorsBuilder.updateVary_eq]
  · intro hpre hshort hdeliver
    have hrejects : b.rejects req.parts = false := by
      rw [← Bool.not_eq_true, CorsBuilder.rejects_iff_of_denies hdenies]
      simp [hpre, hshort, hdeliver]
    have hforwards : b.updateVary.forwards req.parts = false := by
      rw [CorsBuilder.forwards_updateVary]
      simp [CorsBuilder.forwards, CorsBuilder.shortCircuits, hpre, hshort]
    refine ⟨b.updateVary.answer req.parts, ?_, ?_, hbody, hnames⟩
    · intro out w'
      exact Cors.returns_answered_iff hforwards
    · simp [hstatus, CorsBuilder.answerStatus, hrejects]

end Denied

/-- A cross-origin `GET` to a middleware that allows no origin and rejects. -/
theorem denied_rejected_strict :
    ∃ response : Response Unit,
      (Cors.service ⟨emptyService,
        (CorsBuilder.new.setDeliverNonAllowedOrigin false).updateVary⟩).Returns foreignGet ()
        (.ok response) () ∧
      response.status = .badRequest ∧ response.body = () ∧
      ∀ n, n ≠ header.vary → response.headers.getAll n = [] := by
  obtain ⟨_, _, hrejected, _⟩ := denied_learns_nothing
    (CorsBuilder.new.setDeliverNonAllowedOrigin false) emptyService _ rfl foreignGet
    (by decide) (by decide) ()
  obtain ⟨response, hreturns, hrest⟩ := hrejected (Or.inl rfl)
  exact ⟨response, (hreturns _ _).mpr ⟨rfl, rfl⟩, hrest⟩

end HyperCors
