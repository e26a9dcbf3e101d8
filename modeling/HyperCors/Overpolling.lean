/-
HyperCors.Overpolling — a future that is polled on after its answer.

No caller should do that, but the middleware guards the application, so
what it does then matters too. `Repolled` lists the states that are left
behind by any number of polls, whatever they answered, and
`Repolled.poll` says that a poll leads from one of them to the next.
`overpolling_fails_closed` reads the safety off: the inner service is
still called at most once and for a forwarded request only, and a denied
origin is never told more than before. Asked again, a rejection panics,
and a denied preflight repeats its answer.
-/
import HyperCors.CorsTheorems

namespace HyperCors

open Polling

/-! ## A spent origin future -/

/-- The origin future has answered. -/
def AllowOriginFuture.Spent (self : AllowOriginFuture) : Prop :=
  self.state = .ready none ∨ self.state = .pending .done

/-- The answer leaves the origin future spent. -/
theorem AllowOriginFuture.Yields.spent {self fut : AllowOriginFuture} {v o : Option Pair}
    (h : self.Yields v) (hlast : Finishes AllowOriginFuture.poll self o fut) : fut.Spent := by
  obtain ⟨hasOrigin, state⟩ := self
  rcases h with rfl | ⟨n, rfl⟩
  · cases hlast
    exact Or.inl rfl
  · cases n with
    | zero =>
      cases hlast
      exact Or.inr rfl
    | succ n => cases hlast

/-- Polled again, a spent origin future panics or answers `none`. -/
theorem AllowOriginFuture.Spent.poll {self fut : AllowOriginFuture} {res : Poll (Option Pair)}
    (h : self.Spent) (hpoll : self.poll = .ok (res, fut)) : res = .ready none ∧ fut.Spent := by
  obtain ⟨hasOrigin, state⟩ := self
  rcases h with rfl | rfl
  · cases hpoll
    exact ⟨rfl, Or.inl rfl⟩
  · cases hpoll

section Overpolling

variable [HttpCrate] {W A B E F : Type}

/-! ## The states past the end -/

/-- To a denied preflight the arm stands after its answer as it stood
before. -/
theorem Preflight.answered_of_denies {cfg : CorsBuilder} {parts : Parts}
    (h : cfg.denies parts = true) (fut : AllowOriginFuture) :
    Preflight.answered cfg parts fut = Preflight.waiting cfg parts fut := by
  simp only [answered, CorsBuilder.emitted_of_denies h, waiting]

/-- Polled again after a rejection, the forwarding arm panics. -/
theorem CorsFuture.poll_rejected [Inhabited B] (cors : Cors (Inner W A B E F)) (req : Request A)
    (pollF : Machine (F × W) (Except E (Response B))) (fut : AllowOriginFuture) (w : W) :
    CorsFuture.poll pollF (.forward (Forward.rejected cors req fut), w) =
      .error ⟨"polled after completion"⟩ := rfl

/-- The states left behind by any number of polls, with the requests that
have reached the inner service. -/
inductive Repolled (cors : Cors (Inner (W × List (Request A)) A B E F)) (req : Request A) (w : W) :
    CorsFuture (W × List (Request A)) A B E F × W × List (Request A) → Prop
  | waiting (fut : AllowOriginFuture) (hfut : fut.Yields (cors.config.verdict req.parts)) :
      Repolled cors req w (CorsFuture.waiting cors req fut, w, [])
  | preflight (hshort : cors.config.shortCircuits req.parts = true) (st : Preflight)
      (hst : cors.config.denies req.parts = true →
        ∃ fut, fut.Spent ∧ st = Preflight.answered cors.config req.parts fut) :
      Repolled cors req w (.preflight st, w, [])
  | rejected (hrejects : cors.config.rejects req.parts = true) (fut : AllowOriginFuture) :
      Repolled cors req w (.forward (Forward.rejected cors req fut), w, [])
  | running (hforwards : cors.config.forwards req.parts = true) (done : AllowOriginFuture)
      (inner : F) (w' : W) :
      Repolled cors req w (CorsFuture.running cors req done (inner, w', [req]))

variable {cors : Cors (Inner (W × List (Request A)) A B E F)} {req : Request A} {w : W}

/-- In each of them the inner service has been called at most once, and for
a forwarded request only. -/
theorem Repolled.log_cases {fut : CorsFuture (W × List (Request A)) A B E F} {w' : W}
    {log : List (Request A)} (h : Repolled cors req w (fut, w', log)) :
    (log = [] ∧ w' = w) ∨ (log = [req] ∧ cors.config.forwards req.parts = true) := by
  cases h with
  | waiting _ _ => exact Or.inl ⟨rfl, rfl⟩
  | preflight _ _ _ => exact Or.inl ⟨rfl, rfl⟩
  | rejected _ _ => exact Or.inl ⟨rfl, rfl⟩
  | running hforwards _ _ _ => exact Or.inr ⟨rfl, hforwards⟩

/-- In each of them the header buffer of a denied request holds `Vary` and
nothing else. -/
theorem Repolled.name_of_denies
    {s : CorsFuture (W × List (Request A)) A B E F × W × List (Request A)}
    (h : Repolled cors req w s) (hdenies : cors.config.denies req.parts = true) {p : Pair}
    (hp : p ∈ s.1.headers.iter) : p.1 = header.vary := by
  have hemitted := CorsBuilder.emitted_of_denies hdenies
  have hheaders : s.1.headers = .ofList (cors.config.emitted req.parts) := by
    cases h with
    | waiting fut _ =>
      rw [hemitted]
      unfold CorsFuture.waiting
      split <;> rfl
    | preflight _ st hst =>
      obtain ⟨fut, _, rfl⟩ := hst hdenies
      rfl
    | rejected _ fut => rfl
    | running _ done inner w' => rfl
  rw [hheaders, iter_emitted, hemitted] at hp
  exact (named_vary _).of_mem hp

/-! ## One more poll -/

variable [Inhabited B] {svc : Inner W A B E F}

/-- The short-circuiting arm never touches the world. -/
theorem CorsFuture.of_poll_preflight {pollF : Machine (F × W) (Except E (Response B))}
    {st : Preflight} {s : W} {res : Poll (Except E (Response B))} {t : CorsFuture W A B E F × W}
    (hpoll : CorsFuture.poll pollF (.preflight st, s) = .ok (res, t)) :
    ∃ st', Preflight.poll (st, s) = .ok (res, st', s) ∧ t = (.preflight st', s) := by
  have hworld : ∀ r, Preflight.poll (B := B) (E := E) (st, s) = .ok r → r.2.2 = s := by
    intro r hr
    simp only [Preflight.poll, bind, Except.bind] at hr
    split at hr
    · cases hr
    · split at hr
      · cases hr
        rfl
      · split at hr
        · cases hr
        · cases hr
          rfl
  simp only [CorsFuture.poll] at hpoll
  cases hstep : Preflight.poll (B := B) (E := E) (st, s) with
  | error p =>
    rw [hstep] at hpoll
    cases hpoll
  | ok r =>
    obtain ⟨res', st', s'⟩ := r
    obtain rfl : s' = s := hworld _ hstep
    rw [hstep] at hpoll
    cases hpoll
    exact ⟨st', rfl, rfl⟩

/-- A denied preflight gets its answer again. -/
theorem Preflight.poll_answered {cfg : CorsBuilder} {parts : Parts}
    (hshort : cfg.shortCircuits parts = true) (hdenies : cfg.denies parts = true)
    {fut : AllowOriginFuture} (hspent : fut.Spent) {s : W} {res : Poll (Except E (Response B))}
    {t : Preflight × W} (hpoll : Preflight.poll (answered cfg parts fut, s) = .ok (res, t)) :
    res = .ready (.ok (cfg.answer parts)) ∧
      ∃ fut', fut'.Spent ∧ t = (answered cfg parts fut', s) := by
  cases hfut : fut.poll with
  | error p => simp [Preflight.poll, answered, waiting, hfut, bind, Except.bind] at hpoll
  | ok r =>
    obtain ⟨res', fut'⟩ := r
    obtain ⟨rfl, hspent'⟩ := hspent.poll hfut
    have hsettle := settle_waiting (B := B) hshort fut'
    rw [CorsBuilder.verdict_of_denies hdenies] at hsettle
    rw [answered_of_denies hdenies, Preflight.poll_waiting_ready hfut, hsettle] at hpoll
    cases hpoll
    exact ⟨rfl, fut', hspent', rfl⟩

/-- A poll of the running future is one of the inner future, and leaves the
record alone. -/
theorem Repolled.of_running (hinner : cors.inner = svc.logged)
    (hforwards : cors.config.forwards req.parts = true) {done : AllowOriginFuture} {inner : F}
    {w' : W} {res : Poll (Except E (Response B))}
    {t : CorsFuture (W × List (Request A)) A B E F × W × List (Request A)}
    (hpoll : CorsFuture.poll cors.inner.poll
      (CorsFuture.running cors req done (inner, w', [req])) = .ok (res, t)) :
    Repolled cors req w t := by
  obtain ⟨r, ⟨inner', w'', log⟩, hstep, _, rfl⟩ :=
    (CorsFuture.running_mirrors done).of_poll hpoll
  rw [hinner] at hstep
  obtain rfl : log = [req] := Service.log_of_logged_poll hstep
  exact .running hforwards done inner' w''

/-- A poll leads from one of the states to another. -/
theorem Repolled.poll (hinner : cors.inner = svc.logged)
    {s t : CorsFuture (W × List (Request A)) A B E F × W × List (Request A)}
    {res : Poll (Except E (Response B))} (h : Repolled cors req w s)
    (hpoll : CorsFuture.poll cors.inner.poll s = .ok (res, t)) : Repolled cors req w t := by
  cases h with
  | waiting fut hfut =>
    rcases hfut.cases with ⟨fut', hsuspends, hfut', _⟩ | ⟨done, hdone, _⟩
    · have hnext : Suspends (CorsFuture.poll cors.inner.poll)
          (CorsFuture.waiting cors req fut, w, []) _ := CorsFuture.suspends_waiting hsuspends _
      cases hnext.symm.trans hpoll
      exact .waiting fut' hfut'
    · cases hforwards : cors.config.forwards req.parts with
      | false =>
        have hlast : Finishes (CorsFuture.poll cors.inner.poll) _ _ _ :=
          CorsFuture.finishes_waiting hforwards hdone (w, [])
        cases hlast.symm.trans hpoll
        unfold CorsFuture.answered
        split
        · exact .preflight ‹_› _ fun _ => ⟨done, hfut.spent hdone, rfl⟩
        · rename_i hshort
          refine .rejected ?_ done
          simpa [CorsBuilder.forwards, hshort] using hforwards
      | true =>
        rw [CorsFuture.poll_waiting_forwards cors.inner.poll hforwards hdone] at hpoll
        cases hcall : svc.call req w with
        | error p => simp [hinner, Service.logged, hcall, Except.map, Except.bind] at hpoll
        | ok start =>
          have hlogged : cors.inner.call req (w, []) = .ok (start.1, start.2, [req]) := by
            simp [hinner, Service.logged, hcall, Except.map]
          rw [hlogged] at hpoll
          exact .of_running hinner hforwards hpoll
  | preflight hshort st hst =>
    obtain ⟨st', hstep, rfl⟩ := CorsFuture.of_poll_preflight hpoll
    refine .preflight hshort st' ?_
    intro hdenies
    obtain ⟨fut, hspent, rfl⟩ := hst hdenies
    obtain ⟨_, fut', hspent', ht⟩ := Preflight.poll_answered hshort hdenies hspent hstep
    exact ⟨fut', hspent', congrArg Prod.fst ht⟩
  | rejected hrejects fut =>
    rw [CorsFuture.poll_rejected] at hpoll
    cases hpoll
  | running hforwards done inner w' => exact .of_running hinner hforwards hpoll

/-! ## Any number of polls -/

/-- Every state that polling leaves behind is one of them. -/
theorem Cors.repolled_of_overpolled (hinner : cors.inner = svc.logged)
    {fut : CorsFuture (W × List (Request A)) A B E F} {s : W × List (Request A)}
    (h : cors.service.Overpolled req (w, []) fut s) : Repolled cors req w (fut, s) := by
  obtain ⟨start, hcall, hpolled⟩ := h
  have hstart : start = _ := (Except.ok.inj ((cors.call_eq req (w, [])).symm.trans hcall)).symm
  refine hpolled.invariant ?_ fun _ _ _ ht hpoll => ht.poll hinner hpoll
  rw [hstart]
  exact .waiting _ (cors.config.originFuture_yields req.parts)

/-- Whatever poll answers a denied request that is not forwarded, the answer
is the same. The forwarding arm answers a rejection once, the
short-circuiting arm answers again and again. -/
theorem Repolled.answer_of_denies
    {s t : CorsFuture (W × List (Request A)) A B E F × W × List (Request A)}
    {out : Except E (Response B)} (h : Repolled cors req w s)
    (hdenies : cors.config.denies req.parts = true)
    (hforwards : cors.config.forwards req.parts = false)
    (hanswer : Finishes (CorsFuture.poll cors.inner.poll) s out t) :
    out = .ok (cors.config.answer req.parts) ∧
      (cors.config.shortCircuits req.parts = false →
        CorsFuture.poll cors.inner.poll t = .error ⟨"polled after completion"⟩) := by
  cases h with
  | waiting fut hfut =>
    rcases hfut.cases with ⟨fut', hsuspends, _⟩ | ⟨done, hdone, _⟩
    · exact absurd hanswer (CorsFuture.suspends_waiting hsuspends _).not_finishes
    · have hlast : Finishes (CorsFuture.poll cors.inner.poll) _ _ _ :=
        CorsFuture.finishes_waiting hforwards hdone (w, [])
      cases hlast.symm.trans hanswer
      refine ⟨rfl, ?_⟩
      intro hshort
      simp only [CorsFuture.answered, hshort, Bool.false_eq_true, if_false]
      exact CorsFuture.poll_rejected ..
  | preflight hshort st hst =>
    obtain ⟨fut, hspent, rfl⟩ := hst hdenies
    obtain ⟨st', hstep, _⟩ := CorsFuture.of_poll_preflight hanswer
    obtain ⟨hout, _⟩ := Preflight.poll_answered hshort hdenies hspent hstep
    cases hout
    exact ⟨rfl, fun hshort' => absurd hshort (by simp [hshort'])⟩
  | rejected _ fut => cases hanswer
  | running hforwards' _ _ _ => exact absurd hforwards' (by simp [hforwards])

/-- **Over-polling fails closed.** However often the future of a call is
polled, also after its answer: the inner service is called at most once, and
only for a forwarded request; else the world stays as it is. A denied request
never gets another header than `Vary`, and without forwarding every poll that
answers gives the one answer; after a rejection by the forwarding arm there
is no second. -/
theorem overpolling_fails_closed (b : CorsBuilder) (svc : Inner W A B E F)
    (cors : Cors (Inner (W × List (Request A)) A B E F))
    (hbuild : b.tryBuild svc.logged = .ok cors) (req : Request A) (w : W)
    (fut : CorsFuture (W × List (Request A)) A B E F) (w' : W) (log : List (Request A))
    (hpolled : cors.service.Overpolled req (w, []) fut (w', log)) :
    ((log = [] ∧ w' = w) ∨ (log = [req] ∧ b.forwards req.parts = true)) ∧
    (b.denies req.parts = true → ∀ p ∈ fut.headers.iter, p.1 = header.vary) ∧
    (b.denies req.parts = true → b.forwards req.parts = false → ∀ out s,
      Finishes cors.service.poll (fut, w', log) out s →
        out = .ok (cors.config.answer req.parts) ∧
          (b.shortCircuits req.parts = false →
            cors.service.poll s = .error ⟨"polled after completion"⟩)) := by
  obtain ⟨_, rfl⟩ := CorsBuilder.tryBuild_eq_ok hbuild
  have hstate := Cors.repolled_of_overpolled rfl hpolled
  refine ⟨?_, ?_, ?_⟩
  · simpa using hstate.log_cases
  · intro hdenies p hp
    exact hstate.name_of_denies (by simpa using hdenies) hp
  · intro hdenies hforwards out s hanswer
    obtain ⟨hout, honce⟩ := hstate.answer_of_denies (by simpa using hdenies)
      (by simpa using hforwards) hanswer
    exact ⟨hout, fun hshort => honce (by simpa using hshort)⟩

end Overpolling

/-! ## A denied preflight, polled twice -/

/-- The default middleware, which allows no origin, over a recorded service. -/
def closedCors : Cors (Inner (Unit × List (Request Unit)) Unit Unit Empty
    (Async (Except Empty (Response Unit)))) :=
  ⟨emptyService.logged, CorsBuilder.new.updateVary⟩

def foreignPreflight : Request Unit :=
  ⟨headWith .options [(header.origin, originB),
    (header.accessControlRequestMethod, methodToValue .get)], ()⟩

/-- Polled on after the end of its run, the preflight is answered again, as
it was before. -/
theorem overpolling_repeats :
    ∃ out fut s, closedCors.service.Runs foreignPreflight ((), []) out fut ((), []) ∧
      Finishes closedCors.service.poll (fut, (), []) out s := by
  have hspent : Finishes AllowOriginFuture.poll ⟨true, .ready none⟩
      (closedCors.config.verdict foreignPreflight.parts) ⟨true, .ready none⟩ := rfl
  have hrun : closedCors.service.Runs foreignPreflight ((), []) _ _ ((), []) :=
    (Cors.runs_answered_iff (by decide)).mpr
      ⟨rfl, rfl, _, (completes_of_finishes hspent).mpr ⟨rfl, rfl⟩, rfl⟩
  have hstands : CorsFuture.answered closedCors foreignPreflight ⟨true, .ready none⟩ =
      CorsFuture.waiting closedCors foreignPreflight ⟨true, .ready none⟩ :=
    congrArg CorsFuture.preflight (Preflight.answered_of_denies (by decide) _)
  have hagain : ∃ out s, Finishes closedCors.service.poll
      (CorsFuture.answered closedCors foreignPreflight ⟨true, .ready none⟩, (), []) out s :=
    ⟨_, _, hstands ▸ CorsFuture.finishes_waiting (by decide) hspent ((), [])⟩
  obtain ⟨out, s, hagain⟩ := hagain
  obtain ⟨_, _, hanswer⟩ := overpolling_fails_closed CorsBuilder.new emptyService closedCors rfl
    foreignPreflight () _ _ _ hrun.states.overpolled
  obtain ⟨rfl, _⟩ := hanswer (by decide) (by decide) out s hagain
  exact ⟨_, _, s, hrun, hagain⟩

end HyperCors
