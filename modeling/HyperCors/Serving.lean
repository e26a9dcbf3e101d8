/-
HyperCors.Serving — what a run does to the response of the inner service,
and why it does not panic.

`forwarded_transparent` is the frame condition of a forwarded request: an
error is passed on, a response keeps everything but the headers the
middleware emits, and its `Vary` is only added to. `serving_never_panics`
says that the middleware adds no panic of its own: the header buffer has
room for every push, and the inner future is there when it is polled.
-/
import HyperCors.CorsTheorems

namespace HyperCors

open Polling

section Transparency

variable [HttpCrate] {W A B E F : Type}

/-! ## Forwarded requests -/

/-- A response that carries the emitted headers `l` on top of the inner
one, and is the inner one in every other respect. -/
structure Response.Carries (self inner : Response B) (l : List Pair) : Prop where
  status : self.status = inner.status
  version : self.version = inner.version
  extensions : self.extensions = inner.extensions
  body : self.body = inner.body
  kept : ∀ n, n ∉ l.map Prod.fst → self.headers.getAll n = inner.headers.getAll n
  emitted : ∀ p ∈ l, p.1 ≠ header.vary → self.headers.getAll p.1 = [p.2]
  vary : ∃ added : List HeaderValue, added.length ≤ 1 ∧
    self.headers.getAll header.vary = inner.headers.getAll header.vary ++ added

/-- The inner result is passed on: an error as it is, a response with the
emitted headers `l`. -/
def PassesOn (l : List Pair) : Except E (Response B) → Except E (Response B) → Prop
  | .error e, out => out = .error e
  | .ok inner, out => ∃ response, out = .ok response ∧ response.Carries inner l

theorem merged_carries (cfg : CorsBuilder) (parts : Parts) (inner : Response B) :
    (inner.merged (cfg.emitted parts)).Carries inner (cfg.emitted parts) where
  status := rfl
  version := rfl
  extensions := rfl
  body := rfl
  kept n hn := getAll_merge_of_not_mem inner.headers hn
  emitted p hp hvary :=
    getAll_merge_of_mem inner.headers hvary (cfg.nodup_emitted_names parts) hp
  vary := by
    obtain ⟨added, hlen, hadded⟩ :=
      exists_mergeVary_toList (inner.headers.getAll header.vary) cfg.vary.value
    refine ⟨added, hlen, ?_⟩
    rw [Response.merged, getAll_merge_vary, CorsBuilder.varyValues_emitted, hadded]

theorem passesOn_map_merged (cfg : CorsBuilder) (parts : Parts) (inner : Except E (Response B)) :
    PassesOn (cfg.emitted parts) inner
      (inner.map fun response => response.merged (cfg.emitted parts)) := by
  cases inner with
  | error e => rfl
  | ok response => exact ⟨_, rfl, merged_carries cfg parts response⟩

variable [Inhabited B]

/-- **A forwarded request is passed through.** Once the inner service has
been called, the call returns with every result of the inner service, and
each result it returns is an inner one, passed on with the emitted
headers. -/
theorem forwarded_transparent (b : CorsBuilder) (svc : Inner W A B E F)
    (cors : Cors (Inner (W × List (Request A)) A B E F))
    (hbuild : b.tryBuild svc.logged = .ok cors) (req : Request A) (w : W)
    (fut : CorsFuture (W × List (Request A)) A B E F) (w' : W) (log : List (Request A))
    (hstate : cors.service.States req (w, []) fut (w', log)) (hcalled : log ≠ []) :
    (∀ inner w₁, svc.Returns req w inner w₁ →
      ∃ out fut₁, cors.service.Runs req (w, []) out fut₁ (w₁, [req])) ∧
    ∀ out fut₁ w₁ log₁, cors.service.Runs req (w, []) out fut₁ (w₁, log₁) →
      ∃ inner, svc.Returns req w inner w₁ ∧ PassesOn fut₁.headers.iter inner out := by
  obtain ⟨_, rfl⟩ := CorsBuilder.tryBuild_eq_ok hbuild
  have hforwards := Cors.forwards_of_called hstate hcalled
  refine ⟨?_, ?_⟩
  · intro inner w₁ hinner
    have hreturns : (Cors.service ⟨svc.logged, b.updateVary⟩).Returns req (w, []) _ (w₁, [req]) :=
      (Cors.returns_forwarded_iff hforwards).mpr
        ⟨inner, Service.logged_returns_iff.mpr ⟨hinner, rfl⟩, rfl⟩
    obtain ⟨fut₁, hrun⟩ := hreturns
    exact ⟨_, fut₁, hrun⟩
  · intro out fut₁ w₁ log₁ hrun
    have hiter := Cors.iter_of_runs hrun
    obtain ⟨inner, hinner, rfl⟩ := (Cors.returns_forwarded_iff hforwards).mp ⟨fut₁, hrun⟩
    refine ⟨inner, (Service.logged_returns_iff.mp hinner).1, ?_⟩
    rw [hiter]
    exact passesOn_map_merged b.updateVary req.parts inner

end Transparency

/-- An allowed cross-origin `GET`: the cookies are kept, the grant is
overwritten, and the `Vary` is added to. -/
theorem forwarded_transparent_cookie :
    ∃ response fut s, (Cors.service ⟨cookieService.logged,
        (CorsBuilder.new.setAllowOrigin .mirrorRequest).updateVary⟩).Runs foreignGet ((), [])
        (.ok response) fut s ∧
      response.headers.getAll setCookie = [.fromStatic "a=1", .fromStatic "b=2"] ∧
      response.headers.getAll header.accessControlAllowOrigin = [originB] ∧
      ∃ added, response.headers.getAll header.vary = .fromStatic "Accept, ORIGIN" :: added := by
  have hreturns : (Cors.service ⟨cookieService.logged,
      (CorsBuilder.new.setAllowOrigin .mirrorRequest).updateVary⟩).Returns foreignGet ((), [])
      (.ok _) ((), [foreignGet]) :=
    returns_suspending (by decide) _
  obtain ⟨fut, hrun⟩ := hreturns
  have hiter := Cors.iter_of_runs hrun
  obtain ⟨inner, hinner, hpassed⟩ := (forwarded_transparent
    (CorsBuilder.new.setAllowOrigin .mirrorRequest) cookieService _ rfl foreignGet () fut ()
    [foreignGet] hrun.states (by simp)).2 _ _ _ _ hrun
  obtain rfl := eq_of_cookieService hinner
  obtain ⟨response, hresponse, ⟨_, _, _, _, hkept, hemitted, added, _, hvary⟩⟩ := hpassed
  rw [hresponse] at hrun
  refine ⟨response, fut, _, hrun, ?_, ?_, added, hvary⟩
  · exact hkept setCookie (by rw [hiter]; decide)
  · exact hemitted (header.accessControlAllowOrigin, originB) (by rw [hiter]; decide) (by decide)

section Safety

variable [HttpCrate] {W A B E F : Type} [Inhabited B]

/-! ## No panics -/

theorem filled_emitted (cfg : CorsBuilder) (parts : Parts) :
    (HeaderBuf.ofList (cfg.emitted parts)).Filled :=
  HeaderBuf.filled_ofList (cfg.length_emitted_le parts)

theorem filled_vary (cfg : CorsBuilder) : (HeaderBuf.ofList cfg.vary.toHeader.toList).Filled :=
  HeaderBuf.filled_ofList (Nat.le_of_lt (length_vary_lt cfg))

namespace Cors

variable {cors : Cors (Inner W A B E F)} {req : Request A}

/-- In every state the buffer is filled up to its length. -/
theorem filled_of_states {w : W} {fut : CorsFuture W A B E F} {w' : W}
    (h : cors.service.States req w fut w') : fut.headers.Filled := by
  rcases states_cases h with ⟨af, _, rfl, _⟩ | ⟨done, _, rfl, _⟩ | ⟨_, done, inner, _, rfl, _⟩
  · unfold CorsFuture.waiting
    split <;> exact filled_vary cors.config
  · unfold CorsFuture.answered
    split <;> exact filled_emitted cors.config req.parts
  · exact filled_emitted cors.config req.parts

/-- Past the decision the forwarding arm holds the inner future. -/
theorem isSome_inner_of_complete {w : W} {st : Forward W A B E F} {w' : W}
    (h : cors.service.Suspended req w (.forward st) w')
    (hcomplete : st.allowOriginComplete = true) : st.inner.isSome = true := by
  have hphase := phase_of_suspended h
  generalize hs : (CorsFuture.forward st, w') = s at hphase
  cases hphase with
  | waiting fut hfut =>
    rw [Prod.mk.injEq] at hs
    have hst := hs.1
    unfold CorsFuture.waiting at hst
    split at hst
    · cases hst
    · rw [CorsFuture.forward.inj hst] at hcomplete
      cases hcomplete
  | running hforwards done hdone start s hcall hs' =>
    simp only [CorsFuture.running, Prod.mk.injEq, CorsFuture.forward.injEq] at hs
    rw [hs.1]
    rfl

/-- A poll in a phase panics only if the inner service does. -/
theorem Phase.poll_ok {w : W} {s : CorsFuture W A B E F × W} (h : Phase cors req w s)
    (hsafe : cors.inner.Safe req w) : ∃ r, CorsFuture.poll cors.inner.poll s = .ok r := by
  cases h with
  | waiting fut hfut =>
    rcases (yields_of_reaches hfut).cases with ⟨fut', hfut', _⟩ | ⟨done, hdone, _⟩
    · exact ⟨_, CorsFuture.suspends_waiting hfut' w⟩
    · cases hforwards : cors.config.forwards req.parts with
      | false => exact ⟨_, CorsFuture.finishes_waiting hforwards hdone w⟩
      | true =>
        -- the inner service is called, and its future polled at once
        obtain ⟨start, hcall⟩ := hsafe.call
        obtain ⟨r, hr⟩ := hsafe.poll start.1 start.2 ⟨start, hcall, Relation.ReflTransGen.refl⟩
        rw [CorsFuture.poll_waiting_forwards cors.inner.poll hforwards hdone w, hcall]
        exact ⟨_, (CorsFuture.running_mirrors done start).trans (congrArg _ hr)⟩
  | running hforwards done hdone start t hcall ht =>
    obtain ⟨r, hr⟩ := hsafe.poll t.1 t.2 ⟨start, hcall, ht⟩
    exact ⟨_, (CorsFuture.running_mirrors done t).trans (congrArg _ hr)⟩

end Cors

/-- **The middleware never panics while serving**, if the inner service does
not: the call and every poll up to the first `ready` succeed. In every
state the header buffer holds at most its capacity, with every slot in use
filled; and whenever the forwarding arm is past the decision and still
runs, the inner future is present. -/
theorem serving_never_panics (b : CorsBuilder) (svc : Inner W A B E F)
    (cors : Cors (Inner W A B E F)) (hbuild : b.tryBuild svc = .ok cors) (req : Request A) (w : W)
    (hsafe : svc.Safe req w) :
    cors.service.Safe req w ∧
    (∀ fut w', cors.service.States req w fut w' → fut.headers.Filled) ∧
    ∀ st w', cors.service.Suspended req w (.forward st) w' → st.allowOriginComplete = true →
      st.inner.isSome = true := by
  obtain ⟨_, rfl⟩ := CorsBuilder.tryBuild_eq_ok hbuild
  refine ⟨⟨⟨_, Cors.call_eq _ req w⟩, ?_⟩, ?_, ?_⟩
  · intro fut w' hsuspended
    exact (Cors.phase_of_suspended hsuspended).poll_ok hsafe
  · intro fut w' hstate
    exact Cors.filled_of_states hstate
  · intro st w' hsuspended hcomplete
    exact Cors.isSome_inner_of_complete hsuspended hcomplete

end Safety

/-- Two suspensions of the inner future under the default configuration. -/
theorem serving_never_panics_default :
    (Cors.service (B := Unit) (E := Empty) ⟨plainService 2, CorsBuilder.new.updateVary⟩).Safe
      plainGet () :=
  (serving_never_panics CorsBuilder.new (plainService 2) _ rfl plainGet ()
    (Service.ofFn_safe _ plainGet ())).1

end HyperCors
