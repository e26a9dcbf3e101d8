/-
HyperCors.CorsTheorems — the future of `Cors` refines the decision.

The states a run goes through are written out (`Forward.waiting`,
`Forward.dispatched` and so on), and one lemma for each says what its
next poll does. From these:

* `Cors.reaches_phase` — the states of an unfinished run, for every
  number of suspensions of the origin future and of the inner future;
* `Cors.runs_forwarded_iff`, `Cors.runs_answered_iff` — the finished runs
  are those of the inner service, merged, or the one answer of the
  middleware;
* `Cors.iter_of_runs` — the header buffer at the end of a run holds
  `emitted`.
-/
import HyperCors.Decision

namespace HyperCors

open Polling

/-! ## The pieces of a poll -/

theorem pushVerdict_ofList {l : List Pair} {verdict : Option Pair} (h : l.length < capacity) :
    pushVerdict (.ofList l) verdict = .ok (verdict.isSome, .ofList (l ++ verdict.toList)) := by
  cases verdict with
  | none => simp [pushVerdict]
  | some pair => simp [pushVerdict, HeaderBuf.push_ofList h, Except.map]

section CorsTheorems

variable [HttpCrate] {W A B E F : Type}

/-- `computeInto` pushes its pairs, and never overflows a buffer with room
for four. -/
theorem LazyHeaders.computeInto_ofList (self : LazyHeaders) {l : List Pair} (parts : Parts)
    (origin : Option HeaderValue) (isPreflight : Bool) (h : l.length + 4 ≤ capacity) :
    self.computeInto (.ofList l) parts origin isPreflight =
      .ok (.ofList (l ++ self.pairs parts origin isPreflight)) := by
  have hcred := Named.length_le (self.allowCredentials.toHeader origin parts)
  have hmethods := Named.length_le (self.allowMethods.toHeader parts)
  have hheaders := Named.length_le (self.allowHeaders.toHeader parts)
  have hage := Named.length_le (self.maxAge.toHeader origin parts)
  have hexpose := Named.length_le (self.exposeHeaders.toHeader parts)
  unfold computeInto
  rw [HeaderBuf.pushOpt_ofList (by omega)]
  cases isPreflight with
  | false =>
    simp only [bind, Except.bind, Bool.false_eq_true, if_false]
    rw [HeaderBuf.pushOpt_ofList (by simp only [List.length_append]; omega)]
    simp [pairs]
  | true =>
    simp only [bind, Except.bind, if_true]
    rw [HeaderBuf.pushOpt_ofList (by simp only [List.length_append]; omega)]
    simp only
    rw [HeaderBuf.pushOpt_ofList (by simp only [List.length_append]; omega)]
    simp only
    rw [HeaderBuf.pushOpt_ofList (by simp only [List.length_append]; omega)]
    simp [pairs]

theorem length_vary_lt (cfg : CorsBuilder) : cfg.vary.toHeader.toList.length < capacity := by
  have hvary := Named.length_le cfg.vary.toHeader
  simp only [capacity]
  omega

theorem length_vary_verdict_le (cfg : CorsBuilder) (parts : Parts) :
    (cfg.vary.toHeader.toList ++ (cfg.verdict parts).toList).length + 4 ≤ capacity := by
  have hvary := Named.length_le cfg.vary.toHeader
  have hpair := Named.length_le (cfg.verdict parts)
  simp only [List.length_append, capacity]
  omega

theorem iter_emitted (cfg : CorsBuilder) (parts : Parts) :
    (HeaderBuf.ofList (cfg.emitted parts)).iter = cfg.emitted parts :=
  HeaderBuf.iter_ofList (cfg.length_emitted_le parts)

/-! ## The states of a run -/

/-- The origin future at the start of a run. -/
def CorsBuilder.originFuture (self : CorsBuilder) (parts : Parts) : AllowOriginFuture :=
  self.allowOrigin.toFuture parts.origin parts

theorem CorsBuilder.originFuture_yields (self : CorsBuilder) (parts : Parts) :
    (self.originFuture parts).Yields (self.verdict parts) :=
  self.allowOrigin.toFuture_yields parts.origin parts

variable (cors : Cors (Inner W A B E F)) (req : Request A)

/-- The forwarding arm until the verdict is in. -/
def Forward.waiting (fut : AllowOriginFuture) : Forward W A B E F where
  allowOriginFuture := fut
  allowOriginComplete := false
  service := some cors.inner
  body := some req.body
  inner := none
  headers := .ofList cors.config.vary.toHeader.toList
  lazy := some cors.config.lazyHeaders
  parts := some req.parts
  isPreflight := isPreflightRequest req.parts
  hasOrigin := req.parts.origin.isSome
  origin := req.parts.origin
  deliverNonAllowedOrigin := cors.config.deliverNonAllowedOrigin
  rejectionStatus := cors.config.rejectionStatus
  rejectWebsocketUpgrade := cors.config.guardsUpgrade req.parts

/-- The forwarding arm while the inner future runs. -/
def Forward.dispatched (fut : AllowOriginFuture) (inner : F) : Forward W A B E F :=
  { Forward.waiting cors req fut with
    allowOriginComplete := true
    service := none
    body := none
    inner := some inner
    headers := .ofList (cors.config.emitted req.parts)
    lazy := if cors.config.grants req.parts then none else some cors.config.lazyHeaders
    parts := none }

/-- The forwarding arm after a rejection. -/
def Forward.rejected (fut : AllowOriginFuture) : Forward W A B E F :=
  { Forward.waiting cors req fut with
    allowOriginComplete := true
    service := none
    body := none
    headers := .ofList (cors.config.emitted req.parts)
    parts := none }

/-- The short-circuiting arm until the verdict is in. -/
def Preflight.waiting (cfg : CorsBuilder) (parts : Parts) (fut : AllowOriginFuture) :
    Preflight where
  allowOriginFuture := fut
  headers := .ofList cfg.vary.toHeader.toList
  lazy := cfg.lazyHeaders
  parts := parts
  hasOrigin := parts.origin.isSome
  origin := parts.origin
  deliverNonAllowedOrigin := cfg.deliverNonAllowedOrigin
  rejectionStatus := cfg.rejectionStatus

/-- The short-circuiting arm after its answer. -/
def Preflight.answered (cfg : CorsBuilder) (parts : Parts) (fut : AllowOriginFuture) : Preflight :=
  { Preflight.waiting cfg parts fut with headers := .ofList (cfg.emitted parts) }

/-- The future while the origin future is `fut`. -/
def CorsFuture.waiting (fut : AllowOriginFuture) : CorsFuture W A B E F :=
  if cors.config.shortCircuits req.parts then
    .preflight (Preflight.waiting cors.config req.parts fut)
  else .forward (Forward.waiting cors req fut)

/-- The future after an answer of the middleware itself. -/
def CorsFuture.answered (fut : AllowOriginFuture) : CorsFuture W A B E F :=
  if cors.config.shortCircuits req.parts then
    .preflight (Preflight.answered cors.config req.parts fut)
  else .forward (Forward.rejected cors req fut)

/-- `call` hands out the waiting future, and leaves the world alone. -/
theorem Cors.call_eq (w : W) :
    cors.call req w =
      .ok (CorsFuture.waiting cors req (cors.config.originFuture req.parts), w) := by
  have hvary := Named.length_le cors.config.vary.toHeader
  have hpush : HeaderBuf.default.pushOpt cors.config.vary.toHeader =
      .ok (.ofList cors.config.vary.toHeader.toList) := by
    rw [HeaderBuf.default_eq_ofList, HeaderBuf.pushOpt_ofList (by simp [capacity]; omega)]
    simp
  unfold Cors.call
  simp only [hpush, bind, Except.bind, AllowOrigin.hasOrigin_toFuture]
  unfold CorsFuture.waiting CorsBuilder.shortCircuits
  split <;> rfl

/-! ## One poll of the forwarding arm -/

variable {cors req} {pollF : Machine (F × W) (Except E (Response B))}

namespace Forward

/-- The rejection test of the arm is the decision's. -/
theorem rejects_waiting (hshort : cors.config.shortCircuits req.parts = false)
    (fut : AllowOriginFuture) (headers : HeaderBuf) :
    rejects { waiting cors req fut with headers := headers, allowOriginComplete := true }
      (cors.config.verdict req.parts).isSome = cors.config.rejects req.parts := by
  simp only [rejects, waiting, CorsBuilder.rejects, CorsBuilder.denies, hshort, Option.not_isSome,
    Bool.not_false, Bool.and_true]

/-- With the inner service called, a poll is one of the inner future. -/
theorem pollInner_dispatched (fut : AllowOriginFuture) (inner : F) (w : W) :
    (dispatched cors req fut inner).pollInner pollF w = (pollF (inner, w)).map fun r =>
      (r.1.map (Except.map fun response => response.merged (cors.config.emitted req.parts)),
        dispatched cors req fut r.2.1, r.2.2) := by
  simp only [pollInner, dispatched, bind, Except.bind, mergeHeaders_eq, iter_emitted]
  cases pollF (inner, w) with
  | error p => rfl
  | ok r =>
    obtain ⟨res, inner', w'⟩ := r
    cases res with
    | pending => rfl
    | ready out => cases out <;> rfl

variable [Inhabited B]

theorem poll_waiting_pending {fut fut' : AllowOriginFuture}
    (h : Suspends AllowOriginFuture.poll fut fut') (w : W) :
    Forward.poll pollF (waiting cors req fut, w) = .ok (.pending, waiting cors req fut', w) := by
  have h' : fut.poll = .ok (.pending, fut') := h
  simp [Forward.poll, waiting, h', bind, Except.bind]

theorem poll_waiting_ready {fut fut' : AllowOriginFuture} {verdict : Option Pair}
    (h : Finishes AllowOriginFuture.poll fut verdict fut') (w : W) :
    Forward.poll pollF (waiting cors req fut, w) =
      (waiting cors req fut').settle pollF verdict w := by
  have h' : fut.poll = .ok (.ready verdict, fut') := h
  simp [Forward.poll, waiting, h', bind, Except.bind]

/-- A rejection is answered in one poll, and drops the request. -/
theorem settle_rejects (hshort : cors.config.shortCircuits req.parts = false)
    (hrejects : cors.config.rejects req.parts = true) (fut : AllowOriginFuture) (w : W) :
    (waiting cors req fut).settle pollF (cors.config.verdict req.parts) w =
      .ok (.ready (.ok (cors.config.answer req.parts)), rejected cors req fut, w) := by
  have hdenies := CorsBuilder.denies_of_rejects hrejects
  have hpush : pushVerdict (waiting cors req fut).headers (cors.config.verdict req.parts) =
      .ok ((cors.config.verdict req.parts).isSome, .ofList (cors.config.emitted req.parts)) := by
    rw [CorsBuilder.emitted_of_denies hdenies]
    rw [waiting, pushVerdict_ofList (length_vary_lt cors.config),
      CorsBuilder.verdict_of_denies hdenies]
    simp
  have hstatus : cors.config.answerStatus req.parts = cors.config.rejectionStatus :=
    if_pos hrejects
  simp only [settle, hpush, bind, Except.bind, rejects_waiting hshort, hrejects, if_true, reject,
    mergeHeaders_eq, iter_emitted]
  simp [waiting, rejected, CorsBuilder.answer, Response.merged, hstatus]

/-- A forwarded request is handed to the inner service, whose future is
polled at once. -/
theorem settle_forwards (hforwards : cors.config.forwards req.parts = true)
    (fut : AllowOriginFuture) (w : W) :
    (waiting cors req fut).settle pollF (cors.config.verdict req.parts) w =
      (cors.inner.call req w).bind fun s => (dispatched cors req fut s.1).pollInner pollF s.2 := by
  simp only [CorsBuilder.forwards, Bool.and_eq_true, Bool.not_eq_true'] at hforwards
  obtain ⟨hshort, hrejects⟩ := hforwards
  have hgrants : cors.config.grants req.parts = (cors.config.verdict req.parts).isSome := by
    simp [CorsBuilder.grants, hshort]
  have hpush : pushVerdict (waiting cors req fut).headers (cors.config.verdict req.parts) =
      .ok ((cors.config.verdict req.parts).isSome, .ofList (cors.config.vary.toHeader.toList ++
        (cors.config.verdict req.parts).toList)) := by
    rw [waiting, pushVerdict_ofList (length_vary_lt cors.config)]
  simp only [settle, hpush, bind, Except.bind, rejects_waiting hshort, hrejects,
    Bool.false_eq_true, if_false]
  cases hverdict : (cors.config.verdict req.parts).isSome with
  | false =>
    have hemitted : cors.config.emitted req.parts =
        cors.config.vary.toHeader.toList ++ (cors.config.verdict req.parts).toList := by
      simp [CorsBuilder.emitted, CorsBuilder.decided, hgrants, hverdict]
    simp only [Bool.false_eq_true, if_false, dispatch, waiting, dispatched, hemitted, hgrants,
      hverdict]
    cases cors.inner.call req w <;> rfl
  | true =>
    have hemitted : cors.config.emitted req.parts =
        cors.config.vary.toHeader.toList ++ (cors.config.verdict req.parts).toList ++
          cors.config.lazyHeaders.pairs req.parts req.parts.origin
            (isPreflightRequest req.parts) := by
      simp [CorsBuilder.emitted, CorsBuilder.decided, hgrants, hverdict]
    simp only [if_true, computeLazy, waiting,
      LazyHeaders.computeInto_ofList _ _ _ _ (length_vary_verdict_le cors.config req.parts), bind,
      Except.bind, dispatch, dispatched, hemitted, hgrants, hverdict]
    cases cors.inner.call req w <;> rfl

end Forward

variable [Inhabited B]

/-! ## One poll of the short-circuiting arm -/

namespace Preflight

variable {cfg : CorsBuilder} {parts : Parts}

theorem poll_waiting_pending {fut fut' : AllowOriginFuture}
    (h : Suspends AllowOriginFuture.poll fut fut') (w : W) :
    Preflight.poll (B := B) (E := E) (waiting cfg parts fut, w) =
      .ok (.pending, waiting cfg parts fut', w) := by
  have h' : fut.poll = .ok (.pending, fut') := h
  simp [Preflight.poll, waiting, h', bind, Except.bind]

theorem poll_waiting_ready {fut fut' : AllowOriginFuture} {verdict : Option Pair}
    (h : Finishes AllowOriginFuture.poll fut verdict fut') (w : W) :
    Preflight.poll (B := B) (E := E) (waiting cfg parts fut, w) =
      ((waiting cfg parts fut').settle verdict).map fun r => (.ready (.ok r.1), r.2, w) := by
  have h' : fut.poll = .ok (.ready verdict, fut') := h
  simp only [Preflight.poll, waiting, h', bind, Except.bind]
  cases settle (B := B) (waiting cfg parts fut') verdict <;> rfl

/-- The arm answers itself, whatever the verdict. -/
theorem settle_waiting (hshort : cfg.shortCircuits parts = true) (fut : AllowOriginFuture) :
    (waiting cfg parts fut).settle (cfg.verdict parts) =
      .ok (cfg.answer (B := B) parts, answered cfg parts fut) := by
  have hpush : pushVerdict (waiting cfg parts fut).headers (cfg.verdict parts) =
      .ok ((cfg.verdict parts).isSome,
        .ofList (cfg.vary.toHeader.toList ++ (cfg.verdict parts).toList)) := by
    rw [waiting, pushVerdict_ofList (length_vary_lt cfg)]
  have htest : (!(cfg.verdict parts).isSome && (waiting cfg parts fut).hasOrigin) =
      cfg.denies parts := by
    simp [waiting, CorsBuilder.denies]
  simp only [settle, hpush, bind, Except.bind, htest]
  cases hdenies : cfg.denies parts with
  | true =>
    have hemitted : cfg.vary.toHeader.toList ++ (cfg.verdict parts).toList =
        cfg.emitted parts := by
      rw [CorsBuilder.emitted_of_denies hdenies, CorsBuilder.verdict_of_denies hdenies]
      simp
    have hstatus : cfg.answerStatus parts =
        if !cfg.deliverNonAllowedOrigin then cfg.rejectionStatus else .ok := by
      simp [CorsBuilder.answerStatus, CorsBuilder.rejects, hdenies, hshort]
    simp only [if_true, hemitted, mergeHeaders_eq, iter_emitted]
    cases hdeliver : cfg.deliverNonAllowedOrigin <;>
      simp [hdeliver, waiting, answered, CorsBuilder.answer, Response.merged, hstatus,
        Response.new]
  | false =>
    have hpreflight : isPreflightRequest parts = true := by
      simp only [CorsBuilder.shortCircuits, Bool.and_eq_true] at hshort
      exact hshort.1
    have hemitted : cfg.vary.toHeader.toList ++ (cfg.verdict parts).toList ++
        cfg.lazyHeaders.pairs parts parts.origin true = cfg.emitted parts := by
      simp [CorsBuilder.emitted, CorsBuilder.decided, CorsBuilder.grants, hshort, hdenies,
        hpreflight]
    have hstatus : cfg.answerStatus parts = .ok := by
      simp [CorsBuilder.answerStatus, CorsBuilder.rejects, hdenies]
    simp only [Bool.false_eq_true, if_false, waiting,
      LazyHeaders.computeInto_ofList _ _ _ _ (length_vary_verdict_le cfg parts), hemitted,
      mergeHeaders_eq, iter_emitted]
    simp [waiting, answered, CorsBuilder.answer, Response.merged, hstatus, Response.new]

end Preflight

/-! ## One poll of the future -/

namespace CorsFuture

/-- The forwarding arm with the inner future `s.1`, in the world `s.2`. -/
def running (cors : Cors (Inner W A B E F)) (req : Request A) (fut : AllowOriginFuture)
    (s : F × W) : CorsFuture W A B E F × W :=
  (.forward (Forward.dispatched cors req fut s.1), s.2)

/-- While the origin future suspends, the future does. -/
theorem suspends_waiting {fut fut' : AllowOriginFuture}
    (h : Suspends AllowOriginFuture.poll fut fut') (w : W) :
    Suspends (CorsFuture.poll pollF) (waiting cors req fut, w) (waiting cors req fut', w) := by
  unfold Suspends waiting
  split
  · simp only [CorsFuture.poll, Preflight.poll_waiting_pending h w, Except.map]
  · simp only [CorsFuture.poll, Forward.poll_waiting_pending h w, Except.map]

/-- When the verdict is in, a request that is not forwarded is answered. -/
theorem finishes_waiting (hforwards : cors.config.forwards req.parts = false)
    {fut fut' : AllowOriginFuture}
    (h : Finishes AllowOriginFuture.poll fut (cors.config.verdict req.parts) fut') (w : W) :
    Finishes (CorsFuture.poll pollF) (waiting cors req fut, w)
      (.ok (cors.config.answer req.parts)) (answered cors req fut', w) := by
  unfold Finishes waiting answered
  cases hshort : cors.config.shortCircuits req.parts with
  | true =>
    simp only [if_true, CorsFuture.poll, Preflight.poll_waiting_ready h w,
      Preflight.settle_waiting hshort, Except.map]
  | false =>
    have hrejects : cors.config.rejects req.parts = true := by
      simpa [CorsBuilder.forwards, hshort] using hforwards
    simp only [Bool.false_eq_true, if_false, CorsFuture.poll, Forward.poll_waiting_ready h w,
      Forward.settle_rejects hshort hrejects, Except.map]

/-- When the verdict is in, a request that is forwarded reaches the inner
service, and the poll goes on as one of the running future. -/
theorem poll_waiting_forwards (pollF : Machine (F × W) (Except E (Response B)))
    (hforwards : cors.config.forwards req.parts = true) {fut fut' : AllowOriginFuture}
    (h : Finishes AllowOriginFuture.poll fut (cors.config.verdict req.parts) fut') (w : W) :
    CorsFuture.poll pollF (waiting cors req fut, w) =
      (cors.inner.call req w).bind fun s => CorsFuture.poll pollF (running cors req fut' s) := by
  have hshort : cors.config.shortCircuits req.parts = false := by
    simp only [CorsBuilder.forwards, Bool.and_eq_true, Bool.not_eq_true'] at hforwards
    exact hforwards.1
  simp only [waiting, hshort, Bool.false_eq_true, if_false, CorsFuture.poll,
    Forward.poll_waiting_ready h w, Forward.settle_forwards hforwards]
  cases cors.inner.call req w <;> rfl

/-- The running future mirrors the inner one, and merges the emitted headers
into its response. -/
theorem running_mirrors (fut : AllowOriginFuture) :
    Mirrors (CorsFuture.poll pollF) pollF (running cors req fut)
      (Except.map fun response => response.merged (cors.config.emitted req.parts)) := by
  intro s
  obtain ⟨inner, w⟩ := s
  have hpoll : Forward.poll pollF (Forward.dispatched cors req fut inner, w) =
      (Forward.dispatched cors req fut inner).pollInner pollF w := rfl
  simp only [running, CorsFuture.poll, hpoll, Forward.pollInner_dispatched]
  cases pollF (inner, w) <;> rfl

end CorsFuture

/-! ## Whole runs -/

namespace Cors

/-- The origin future has been polled to its end, and is left as `fut`. -/
def Settled (cfg : CorsBuilder) (parts : Parts) (fut : AllowOriginFuture) : Prop :=
  Completes AllowOriginFuture.poll (cfg.originFuture parts) (cfg.verdict parts) fut

theorem exists_settled (cfg : CorsBuilder) (parts : Parts) : ∃ fut, Settled cfg parts fut :=
  (cfg.originFuture_yields parts).completes

/-- The runs of one call, from the state in which the origin future is about
to answer. -/
theorem runs_iff_of_settled {w : W} {out : Except E (Response B)} {fut : CorsFuture W A B E F}
    {w' : W} {last : AllowOriginFuture}
    (h : Reaches AllowOriginFuture.poll (cors.config.originFuture req.parts) last) :
    cors.service.Runs req w out fut w' ↔
      Completes (CorsFuture.poll cors.inner.poll) (CorsFuture.waiting cors req last, w) out
        (fut, w') := by
  have hcall : cors.service.call req w = _ := cors.call_eq req w
  have hreach : Reaches (CorsFuture.poll cors.inner.poll)
      (CorsFuture.waiting cors req (cors.config.originFuture req.parts), w)
      (CorsFuture.waiting cors req last, w) :=
    Relation.ReflTransGen.lift (fun fut => (CorsFuture.waiting cors req fut, w))
      (fun _ _ hstep => CorsFuture.suspends_waiting hstep w) _ _ h
  simp only [Service.Runs, hcall, Except.ok.injEq, exists_eq_left']
  exact hreach.completes_iff

/-- A request that is not forwarded has one run, the world stays as it is. -/
theorem runs_answered_iff (hforwards : cors.config.forwards req.parts = false) {w : W}
    {out : Except E (Response B)} {fut : CorsFuture W A B E F} {w' : W} :
    cors.service.Runs req w out fut w' ↔
      out = .ok (cors.config.answer req.parts) ∧ w' = w ∧
        ∃ done, Settled cors.config req.parts done ∧ fut = CorsFuture.answered cors req done := by
  obtain ⟨done, hdone⟩ := exists_settled cors.config req.parts
  obtain ⟨last, hreach, hlast⟩ := hdone
  rw [runs_iff_of_settled hreach,
    completes_of_finishes (CorsFuture.finishes_waiting hforwards hlast w)]
  simp only [Prod.mk.injEq]
  constructor
  · intro hend
    obtain ⟨rfl, rfl, rfl⟩ := hend
    exact ⟨rfl, rfl, done, ⟨last, hreach, hlast⟩, rfl⟩
  · intro hend
    obtain ⟨rfl, rfl, done', hdone', rfl⟩ := hend
    rw [(Completes.unique hdone' ⟨last, hreach, hlast⟩).2]
    exact ⟨rfl, rfl, rfl⟩

/-- The runs of a forwarded request are those of the inner service, with
the emitted headers merged into the response. -/
theorem runs_forwarded_iff (hforwards : cors.config.forwards req.parts = true) {w : W}
    {out : Except E (Response B)} {fut : CorsFuture W A B E F} {w' : W} :
    cors.service.Runs req w out fut w' ↔
      ∃ o inner, cors.inner.Runs req w o inner w' ∧
        out = o.map (fun response => response.merged (cors.config.emitted req.parts)) ∧
        ∃ done, Settled cors.config req.parts done ∧
          fut = .forward (Forward.dispatched cors req done inner) := by
  obtain ⟨done, last, hreach, hlast⟩ := exists_settled cors.config req.parts
  have hpoll := CorsFuture.poll_waiting_forwards cors.inner.poll hforwards hlast w
  rw [runs_iff_of_settled hreach]
  unfold Service.Runs
  cases hcall : cors.inner.call req w with
  | error p =>
    rw [hcall] at hpoll
    refine iff_of_false (not_completes_of_error hpoll) ?_
    intro hrun
    obtain ⟨o, inner, ⟨s, hs, _⟩, _⟩ := hrun
    cases hs
  | ok s =>
    rw [hcall] at hpoll
    have hrunning : CorsFuture.poll cors.inner.poll (CorsFuture.waiting cors req last, w) =
        CorsFuture.poll cors.inner.poll (CorsFuture.running cors req done s) := hpoll
    rw [completes_congr hrunning, (CorsFuture.running_mirrors done).completes_iff]
    constructor
    · intro hrun
      obtain ⟨o, ⟨inner, wi⟩, hrun, rfl, hs⟩ := hrun
      simp only [CorsFuture.running, Prod.mk.injEq] at hs
      obtain ⟨rfl, rfl⟩ := hs
      exact ⟨o, inner, ⟨s, rfl, hrun⟩, rfl, done, ⟨last, hreach, hlast⟩, rfl⟩
    · intro hrun
      obtain ⟨o, inner, ⟨s', hs', hrun⟩, rfl, done', hdone', rfl⟩ := hrun
      rw [Except.ok.injEq] at hs'
      subst hs'
      rw [(Completes.unique hdone' ⟨last, hreach, hlast⟩).2]
      exact ⟨o, (inner, w'), hrun, rfl, rfl⟩

/-- At the end of a run the header buffer holds the emitted headers. -/
theorem iter_of_runs {w : W} {out : Except E (Response B)} {fut : CorsFuture W A B E F} {w' : W}
    (h : cors.service.Runs req w out fut w') :
    fut.headers.iter = cors.config.emitted req.parts := by
  cases hforwards : cors.config.forwards req.parts with
  | false =>
    obtain ⟨_, _, done, _, rfl⟩ := (runs_answered_iff hforwards).mp h
    unfold CorsFuture.answered
    split <;> exact iter_emitted cors.config req.parts
  | true =>
    obtain ⟨_, _, _, _, done, _, rfl⟩ := (runs_forwarded_iff hforwards).mp h
    exact iter_emitted cors.config req.parts

/-- A denied request gets nothing but `Vary`. -/
theorem name_of_denies {w : W} {out : Except E (Response B)} {fut : CorsFuture W A B E F} {w' : W}
    (h : cors.service.Runs req w out fut w') (hdenies : cors.config.denies req.parts = true)
    {p : Pair} (hp : p ∈ fut.headers.iter) : p.1 = header.vary := by
  rw [iter_of_runs h, CorsBuilder.emitted_of_denies hdenies] at hp
  exact (named_vary _).of_mem hp

/-- What a call returns that is not forwarded. -/
theorem returns_answered_iff (hforwards : cors.config.forwards req.parts = false) {w : W}
    {out : Except E (Response B)} {w' : W} :
    cors.service.Returns req w out w' ↔ out = .ok (cors.config.answer req.parts) ∧ w' = w := by
  simp only [Service.Returns, runs_answered_iff hforwards]
  constructor
  · intro hreturns
    obtain ⟨_, hout, hw, _⟩ := hreturns
    exact ⟨hout, hw⟩
  · intro hreturns
    obtain ⟨hout, hw⟩ := hreturns
    obtain ⟨done, hdone⟩ := exists_settled cors.config req.parts
    exact ⟨_, hout, hw, done, hdone, rfl⟩

/-- What a call returns that is forwarded. -/
theorem returns_forwarded_iff (hforwards : cors.config.forwards req.parts = true) {w : W}
    {out : Except E (Response B)} {w' : W} :
    cors.service.Returns req w out w' ↔ ∃ o, cors.inner.Returns req w o w' ∧
      out = o.map (fun response => response.merged (cors.config.emitted req.parts)) := by
  simp only [Service.Returns, runs_forwarded_iff hforwards]
  constructor
  · intro hreturns
    obtain ⟨_, o, inner, hrun, hout, _⟩ := hreturns
    exact ⟨o, ⟨inner, hrun⟩, hout⟩
  · intro hreturns
    obtain ⟨o, ⟨inner, hrun⟩, hout⟩ := hreturns
    obtain ⟨done, hdone⟩ := exists_settled cors.config req.parts
    exact ⟨_, o, inner, hrun, hout, done, hdone, rfl⟩

/-- A response is the inner one, or an empty one, with the emitted headers
merged into it. -/
theorem ok_returns_cases {w : W} {response : Response B} {w' : W}
    (h : cors.service.Returns req w (.ok response) w') :
    ∃ base : Response B, response = base.merged (cors.config.emitted req.parts) ∧
      ((cors.config.forwards req.parts = true ∧ cors.inner.Returns req w (.ok base) w') ∨
        (cors.config.forwards req.parts = false ∧ base.headers = .new ∧ w' = w)) := by
  cases hforwards : cors.config.forwards req.parts with
  | false =>
    obtain ⟨hresponse, hw⟩ := (returns_answered_iff hforwards).mp h
    rw [Except.ok.injEq] at hresponse
    exact ⟨_, hresponse, Or.inr ⟨rfl, rfl, hw⟩⟩
  | true =>
    obtain ⟨o, hinner, hout⟩ := (returns_forwarded_iff hforwards).mp h
    cases o with
    | error e => cases hout
    | ok base =>
      rw [Except.map, Except.ok.injEq] at hout
      exact ⟨base, hout, Or.inl ⟨rfl, hinner⟩⟩

/-! ## The states of an unfinished run -/

/-- The states between two polls: the origin future has not answered, or
the inner future runs. -/
inductive Phase (cors : Cors (Inner W A B E F)) (req : Request A) (w : W) :
    CorsFuture W A B E F × W → Prop
  | waiting (fut : AllowOriginFuture)
      (hfut : Reaches AllowOriginFuture.poll (cors.config.originFuture req.parts) fut) :
      Phase cors req w (CorsFuture.waiting cors req fut, w)
  | running (hforwards : cors.config.forwards req.parts = true) (done : AllowOriginFuture)
      (hdone : Settled cors.config req.parts done) (start s : F × W)
      (hcall : cors.inner.call req w = .ok start) (hs : Reaches cors.inner.poll start s) :
      Phase cors req w (CorsFuture.running cors req done s)

/-- The origin future keeps its verdict while it suspends. -/
theorem yields_of_reaches {cfg : CorsBuilder} {parts : Parts} {fut : AllowOriginFuture}
    (h : Reaches AllowOriginFuture.poll (cfg.originFuture parts) fut) :
    fut.Yields (cfg.verdict parts) := by
  refine h.invariant (I := fun t => t.Yields (cfg.verdict parts)) (cfg.originFuture_yields parts) ?_
  intro t t' ht hstep
  rcases ht.cases with ⟨u, hu, hyields, _⟩ | ⟨u, hu, _⟩
  · rw [hstep.unique hu]
    exact hyields
  · exact absurd hu hstep.not_finishes

/-- A suspending poll leads from phase to phase. -/
theorem Phase.suspends {w : W} {s s' : CorsFuture W A B E F × W} (h : Phase cors req w s)
    (hstep : Suspends (CorsFuture.poll cors.inner.poll) s s') : Phase cors req w s' := by
  cases h with
  | waiting fut hfut =>
    rcases (yields_of_reaches hfut).cases with ⟨fut', hfut', _⟩ | ⟨done, hdone, _⟩
    · rw [hstep.unique (CorsFuture.suspends_waiting hfut' w)]
      exact .waiting fut' (hfut.tail hfut')
    · cases hforwards : cors.config.forwards req.parts with
      | false => exact absurd (CorsFuture.finishes_waiting hforwards hdone w) hstep.not_finishes
      | true =>
        have hpoll := CorsFuture.poll_waiting_forwards cors.inner.poll hforwards hdone w
        have hstep' : CorsFuture.poll cors.inner.poll (CorsFuture.waiting cors req fut, w) =
            .ok (.pending, s') := hstep
        cases hcall : cors.inner.call req w with
        | error p =>
          rw [hpoll, hcall] at hstep'
          cases hstep'
        | ok start =>
          rw [hpoll, hcall] at hstep'
          obtain ⟨u, hu, rfl⟩ := (CorsFuture.running_mirrors done).suspends_iff.mp hstep'
          exact .running hforwards done ⟨fut, hfut, hdone⟩ start u hcall
            (Relation.ReflTransGen.single hu)
  | running hforwards done hdone start t hcall ht =>
    obtain ⟨u, hu, rfl⟩ := (CorsFuture.running_mirrors done).suspends_iff.mp hstep
    exact .running hforwards done hdone start u hcall (ht.tail hu)

/-- Every state of an unfinished run is in a phase. -/
theorem phase_of_reaches {w : W} {s : CorsFuture W A B E F × W}
    (h : Reaches (CorsFuture.poll cors.inner.poll)
      (CorsFuture.waiting cors req (cors.config.originFuture req.parts), w) s) :
    Phase cors req w s :=
  h.invariant (.waiting _ Relation.ReflTransGen.refl) fun _ _ ht hstep => ht.suspends hstep

/-- Between two polls a call is in one of its phases. -/
theorem phase_of_suspended {w : W} {fut : CorsFuture W A B E F} {w' : W}
    (h : cors.service.Suspended req w fut w') : Phase cors req w (fut, w') := by
  obtain ⟨s, hcall, hreach⟩ := h
  have hstart : s = _ := Except.ok.inj (hcall.symm.trans (cors.call_eq req w))
  subst hstart
  exact phase_of_reaches hreach

/-- The states of a call: the origin future has not answered, or the
middleware has answered itself, or the inner service has been called. -/
theorem states_cases {w : W} {fut : CorsFuture W A B E F} {w' : W}
    (h : cors.service.States req w fut w') :
    (∃ af, Reaches AllowOriginFuture.poll (cors.config.originFuture req.parts) af ∧
      fut = CorsFuture.waiting cors req af ∧ w' = w) ∨
    (∃ done, Settled cors.config req.parts done ∧
      fut = CorsFuture.answered cors req done ∧ w' = w) ∨
    (cors.config.forwards req.parts = true ∧ ∃ done inner, Settled cors.config req.parts done ∧
      fut = .forward (Forward.dispatched cors req done inner) ∧
      cors.inner.States req w inner w') := by
  obtain ⟨s, hcall, hvisit⟩ := h
  rcases hvisit with hreach | ⟨out, hrun⟩
  · have hphase := phase_of_suspended ⟨s, hcall, hreach⟩
    generalize hs : (fut, w') = t at hphase
    cases hphase with
    | waiting af haf =>
      simp only [Prod.mk.injEq] at hs
      exact Or.inl ⟨af, haf, hs⟩
    | running hforwards done hdone start u hinner hu =>
      simp only [CorsFuture.running, Prod.mk.injEq] at hs
      obtain ⟨rfl, rfl⟩ := hs
      exact Or.inr (Or.inr ⟨hforwards, done, u.1, hdone, rfl, start, hinner, Or.inl hu⟩)
  · have hruns : cors.service.Runs req w out fut w' := ⟨s, hcall, hrun⟩
    cases hforwards : cors.config.forwards req.parts with
    | false =>
      obtain ⟨_, hw, done, hdone, hfut⟩ := (runs_answered_iff hforwards).mp hruns
      exact Or.inr (Or.inl ⟨done, hdone, hfut, hw⟩)
    | true =>
      obtain ⟨o, inner, ⟨start, hinner, hinnerRun⟩, _, done, hdone, hfut⟩ :=
        (runs_forwarded_iff hforwards).mp hruns
      exact Or.inr (Or.inr ⟨rfl, done, inner, hdone, hfut, start, hinner, Or.inr ⟨o, hinnerRun⟩⟩)

/-- A request with which the inner service has been called is forwarded. -/
theorem forwards_of_called {svc : Inner W A B E F} {cfg : CorsBuilder} {w : W}
    {fut : CorsFuture (W × List (Request A)) A B E F} {w' : W} {log : List (Request A)}
    (h : (Cors.service ⟨svc.logged, cfg⟩).States req (w, []) fut (w', log)) (hlog : log ≠ []) :
    cfg.forwards req.parts = true := by
  rcases states_cases h with ⟨_, _, _, hw⟩ | ⟨_, _, _, hw⟩ | ⟨hforwards, _⟩
  · exact absurd (congrArg Prod.snd hw) hlog
  · exact absurd (congrArg Prod.snd hw) hlog
  · exact hforwards

end Cors

end CorsTheorems

/-! ## Deterministic inner services -/

section Deterministic

variable [HttpCrate] {W A B E : Type}

/-- The service that answers with `answer` after `n` suspensions. -/
def suspending (n : Nat) (answer : Request A → W → Except E (Response B) × W) :
    Inner W A B E (Async (Except E (Response B))) :=
  Service.ofFn fun req w => (⟨n, (answer req w).1⟩, (answer req w).2)

theorem suspending_logged_returns_iff {n : Nat}
    {answer : Request A → W → Except E (Response B) × W} {req : Request A}
    {w w' : W × List (Request A)} {out : Except E (Response B)} :
    (suspending n answer).logged.Returns req w out w' ↔
      out = (answer req w.1).1 ∧ w' = ((answer req w.1).2, w.2 ++ [req]) := by
  rw [Service.logged_returns_iff, suspending, Service.ofFn_returns_iff, and_assoc, Prod.ext_iff]

variable [Inhabited B]

/-- What the middleware returns over such a service: the number of
suspensions does not show. -/
theorem returns_suspending_iff {cfg : CorsBuilder} {n : Nat}
    {answer : Request A → W → Except E (Response B) × W} {req : Request A}
    {w w' : W × List (Request A)} {out : Except E (Response B)} :
    (Cors.service ⟨(suspending n answer).logged, cfg⟩).Returns req w out w' ↔
      if cfg.forwards req.parts then
        out = (answer req w.1).1.map (fun response => response.merged (cfg.emitted req.parts)) ∧
          w' = ((answer req w.1).2, w.2 ++ [req])
      else out = .ok (cfg.answer req.parts) ∧ w' = w := by
  split
  · rename_i hforwards
    rw [Cors.returns_forwarded_iff hforwards]
    simp only [suspending_logged_returns_iff]
    constructor
    · intro hreturns
      obtain ⟨o, ⟨rfl, hw⟩, hout⟩ := hreturns
      exact ⟨hout, hw⟩
    · intro hreturns
      obtain ⟨hout, hw⟩ := hreturns
      exact ⟨_, ⟨rfl, hw⟩, hout⟩
  · rename_i hforwards
    exact Cors.returns_answered_iff (by simpa using hforwards)

/-- A forwarded request gets the answer of the service, merged. -/
theorem returns_suspending {cfg : CorsBuilder} {n : Nat}
    {answer : Request A → W → Except E (Response B) × W} {req : Request A}
    (hforwards : cfg.forwards req.parts = true) (w : W × List (Request A)) :
    (Cors.service ⟨(suspending n answer).logged, cfg⟩).Returns req w
      ((answer req w.1).1.map fun response => response.merged (cfg.emitted req.parts))
      ((answer req w.1).2, w.2 ++ [req]) := by
  rw [returns_suspending_iff, if_pos hforwards]
  exact ⟨rfl, rfl⟩

/-- The service that answers every request with an empty response. -/
def plainService (n : Nat) : Inner W A B E (Async (Except E (Response B))) :=
  suspending n fun _ w => (.ok (.new default), w)

theorem getAll_of_plainService {n : Nat} {req : Request A} {w w' : W × List (Request A)}
    {response : Response B}
    (h : (plainService (E := E) n).logged.Returns req w (.ok response) w') (name : HeaderName) :
    response.headers.getAll name = [] := by
  rw [Except.ok.inj (suspending_logged_returns_iff.mp h).1]
  exact HeaderMap.getAll_new name

/-- Over such a service every call ends in a response. -/
theorem exists_ok_run (B E : Type) [Inhabited B] (cfg : CorsBuilder) (n : Nat) (req : Request A)
    (w : W × List (Request A)) :
    ∃ (response : Response B) (fut : CorsFuture _ A B E _) (s : W × List (Request A)),
      (Cors.service ⟨(plainService n).logged, cfg⟩).Runs req w (.ok response) fut s := by
  have hreturns : ∃ (response : Response B) (s : W × List (Request A)),
      (Cors.service (E := E) ⟨(plainService n).logged, cfg⟩).Returns req w (.ok response) s := by
    simp only [plainService, returns_suspending_iff]
    split <;> exact ⟨_, _, rfl, rfl⟩
  obtain ⟨response, s, fut, hrun⟩ := hreturns
  exact ⟨response, fut, s, hrun⟩

end Deterministic

/-! ## Requests over the list-backed crate -/

/-- A request head with the given method and header fields. -/
def headWith (method : Method) (fields : List Pair) : Parts where
  method := method
  uri := ascii "/"
  version := .http11
  headers := fields
  extensions := []

def emptyService : Inner Unit Unit Unit Empty (Async (Except Empty (Response Unit))) :=
  plainService 1

def originA : HeaderValue := .fromStatic "https://a.example"

def originB : HeaderValue := .fromStatic "https://b.example"

def plainGet : Request Unit := ⟨headWith .get [], ()⟩

def foreignGet : Request Unit := ⟨headWith .get [(header.origin, originB)], ()⟩

def setCookie : HeaderName := .fromStatic "set-cookie"

/-- A response with a `Vary`, two cookies and a grant of its own. -/
def cookieResponse : Response Unit :=
  { Response.new () with
    headers := [(header.vary, .fromStatic "Accept, ORIGIN"), (setCookie, .fromStatic "a=1"),
      (setCookie, .fromStatic "b=2"), (header.accessControlAllowOrigin, wildcard)] }

def cookieService : Inner Unit Unit Unit Empty (Async (Except Empty (Response Unit))) :=
  suspending 1 fun _ w => (.ok cookieResponse, w)

theorem eq_of_cookieService {req : Request Unit} {out : Except Empty (Response Unit)} {w w' : Unit}
    (h : cookieService.Returns req w out w') : out = .ok cookieResponse :=
  (Service.ofFn_returns_iff.mp h).1

end HyperCors
