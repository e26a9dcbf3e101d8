/-
HyperCors.Latency — what the middleware costs in polls, and whom it waits
for.

`poll_count` gives the number of suspensions of a whole call: those of the
origin policy, and for a forwarded request those of the inner service on
top. A synchronous policy suspends never, so it costs nothing.
`pending_passed_up` says that the future never suspends on its own
account: whenever its poll is pending, the future it holds has been polled
in it, is pending too, and is still held, so its waker has been left with
somebody who will use it.
-/
import HyperCors.CorsTheorems
import HyperCors.Lib.PollCount

namespace HyperCors

open Polling

section Latency

variable [HttpCrate] {W A B E F : Type}

/-! ## The origin policy -/

/-- How often the origin future suspends. -/
def AllowOrigin.pendings (self : AllowOrigin) (origin : Option HeaderValue) (parts : Parts) :
    Nat :=
  match self.inner, origin with
  | .asyncPredicate f, some o => (f o parts).pendings
  | _, _ => 0

omit [HttpCrate] in
/-- A pending origin future is its boxed future. -/
theorem AllowOriginFuture.pending_mirrors (hasOrigin : Bool) :
    Mirrors AllowOriginFuture.poll Async.poll (fun fut => ⟨hasOrigin, .pending fut⟩) id := by
  intro fut
  simp only [AllowOriginFuture.poll]
  cases Async.poll fut with
  | error p => rfl
  | ok r =>
    obtain ⟨res, fut'⟩ := r
    cases res <;> rfl

/-- The origin future answers its verdict after `pendings` suspensions. -/
theorem AllowOrigin.toFuture_completesIn (self : AllowOrigin) (origin : Option HeaderValue)
    (parts : Parts) :
    ∃ fut, CompletesIn AllowOriginFuture.poll (self.pendings origin parts)
      (self.toFuture origin parts) (self.verdict origin parts) fut := by
  have hready : ∀ v, ∃ fut, CompletesIn AllowOriginFuture.poll 0 ⟨origin.isSome, .ready v⟩ v fut :=
    fun v => ⟨_, _, rfl, rfl⟩
  cases hinner : self.inner with
  | const v =>
    simp only [pendings, toFuture, verdict, hinner]
    exact hready _
  | list l =>
    simp only [pendings, toFuture, verdict, allows, hinner]
    exact hready _
  | predicate f =>
    simp only [pendings, toFuture, verdict, allows, hinner]
    exact hready _
  | asyncPredicate f =>
    cases origin with
    | none =>
      simp only [pendings, toFuture, verdict, hinner]
      exact hready _
    | some o =>
      have hvalue : (if (f o parts).value then some (header.accessControlAllowOrigin, o)
          else none) = self.verdict (some o) parts := by
        simp only [verdict, allows, hinner, Option.filter_some]
        cases (f o parts).value <;> rfl
      simp only [pendings, toFuture, hinner, Async.start, Async.map_suspended, hvalue]
      exact ⟨_, (AllowOriginFuture.pending_mirrors _).completesIn_iff.mpr
        ⟨_, .done, Async.completesIn_suspended.mpr ⟨rfl, rfl, rfl⟩, rfl, rfl⟩⟩

/-- A synchronous policy does not suspend. -/
theorem AllowOrigin.pendings_eq_zero {self : AllowOrigin}
    (h : ∀ f, self.inner ≠ .asyncPredicate f) (origin : Option HeaderValue) (parts : Parts) :
    self.pendings origin parts = 0 := by
  unfold pendings
  split
  · rename_i f o hinner
    exact absurd hinner (h f)
  · rfl

/-! ## Whole calls -/

variable [Inhabited B] {cors : Cors (Inner W A B E F)} {req : Request A}

/-- The runs of one call, cut at the poll in which the verdict comes in. -/
theorem Cors.exists_verdict_poll (cors : Cors (Inner W A B E F)) (req : Request A) :
    ∃ last done, Finishes AllowOriginFuture.poll last (cors.config.verdict req.parts) done ∧
      ∀ n w out w', cors.service.ReturnsIn n req w out w' ↔
        ∃ k fut, n = cors.config.allowOrigin.pendings req.parts.origin req.parts + k ∧
          CompletesIn (CorsFuture.poll cors.inner.poll) k (CorsFuture.waiting cors req last, w)
            out (fut, w') := by
  obtain ⟨done, last, hreach, hlast⟩ :=
    cors.config.allowOrigin.toFuture_completesIn req.parts.origin req.parts
  refine ⟨last, done, hlast, ?_⟩
  intro n w out w'
  have hcall : cors.service.call req w = _ := cors.call_eq req w
  have hwaits : ReachesIn (CorsFuture.poll cors.inner.poll)
      (cors.config.allowOrigin.pendings req.parts.origin req.parts)
      (CorsFuture.waiting cors req (cors.config.originFuture req.parts), w)
      (CorsFuture.waiting cors req last, w) :=
    hreach.lift (fun fut => (CorsFuture.waiting cors req fut, w))
      fun _ _ hstep => CorsFuture.suspends_waiting hstep w
  simp only [Service.ReturnsIn, hcall, Except.ok.injEq, exists_and_left, exists_eq_left']
  constructor
  · intro hreturns
    obtain ⟨fut, hrun⟩ := hreturns
    obtain ⟨k, hn, hrun'⟩ := hwaits.completesIn_iff.mp hrun
    exact ⟨k, hn, fut, hrun'⟩
  · intro hreturns
    obtain ⟨k, hn, fut, hrun⟩ := hreturns
    exact ⟨fut, hwaits.completesIn_iff.mpr ⟨k, hn, hrun⟩⟩

/-- An answer of the middleware itself takes the polls of the policy. -/
theorem Cors.returnsIn_answered_iff (hforwards : cors.config.forwards req.parts = false) {n : Nat}
    {w : W} {out : Except E (Response B)} {w' : W} :
    cors.service.ReturnsIn n req w out w' ↔
      n = cors.config.allowOrigin.pendings req.parts.origin req.parts ∧
        out = .ok (cors.config.answer req.parts) ∧ w' = w := by
  obtain ⟨last, done, hlast, hcut⟩ := cors.exists_verdict_poll req
  rw [hcut]
  simp only [completesIn_of_finishes (CorsFuture.finishes_waiting hforwards hlast w),
    Prod.mk.injEq]
  constructor
  · intro hrun
    obtain ⟨k, fut, rfl, rfl, hout, _, hw⟩ := hrun
    exact ⟨rfl, hout, hw⟩
  · intro hrun
    obtain ⟨rfl, hout, hw⟩ := hrun
    exact ⟨0, _, rfl, rfl, hout, rfl, hw⟩

/-- A forwarded request takes the polls of the policy, then those of the
inner service. -/
theorem Cors.returnsIn_forwarded_iff (hforwards : cors.config.forwards req.parts = true) {n : Nat}
    {w : W} {out : Except E (Response B)} {w' : W} :
    cors.service.ReturnsIn n req w out w' ↔
      ∃ k inner, cors.inner.ReturnsIn k req w inner w' ∧
        n = cors.config.allowOrigin.pendings req.parts.origin req.parts + k ∧
        out = inner.map fun response => response.merged (cors.config.emitted req.parts) := by
  obtain ⟨last, done, hlast, hcut⟩ := cors.exists_verdict_poll req
  have hpoll := CorsFuture.poll_waiting_forwards cors.inner.poll hforwards hlast w
  rw [hcut]
  unfold Service.ReturnsIn
  cases hcall : cors.inner.call req w with
  | error p =>
    rw [hcall] at hpoll
    refine iff_of_false ?_ ?_
    · intro hrun
      obtain ⟨k, fut, _, hrun⟩ := hrun
      exact not_completes_of_error hpoll (completes_iff_exists.mpr ⟨k, hrun⟩)
    · intro hrun
      obtain ⟨_, _, ⟨s, _, hs, _⟩, _⟩ := hrun
      cases hs
  | ok s =>
    rw [hcall] at hpoll
    have hrunning : CorsFuture.poll cors.inner.poll (CorsFuture.waiting cors req last, w) =
        CorsFuture.poll cors.inner.poll (CorsFuture.running cors req done s) := hpoll
    simp only [completesIn_congr hrunning, (CorsFuture.running_mirrors done).completesIn_iff]
    constructor
    · intro hrun
      obtain ⟨k, fut, hn, o, ⟨inner, wi⟩, hinner, hout, hs⟩ := hrun
      obtain rfl : w' = wi := congrArg Prod.snd hs
      exact ⟨k, o, ⟨s, inner, rfl, hinner⟩, hn, hout⟩
    · intro hrun
      obtain ⟨k, o, ⟨s', inner, hs', hinner⟩, hn, hout⟩ := hrun
      obtain rfl := Except.ok.inj hs'
      exact ⟨k, _, hn, o, (inner, w'), hinner, hout, rfl⟩

/-- **The price in polls.** A call suspends as often as the origin policy
does, and on top as often as the inner service if the request is forwarded
to it; nothing else suspends. A synchronous policy suspends never. -/
theorem poll_count (b : CorsBuilder) (svc : Inner W A B E F) (cors : Cors (Inner W A B E F))
    (hbuild : b.tryBuild svc = .ok cors) (req : Request A) (w : W) :
    (∀ n out w', cors.service.ReturnsIn n req w out w' ↔
      if b.forwards req.parts then
        ∃ k inner, svc.ReturnsIn k req w inner w' ∧
          n = b.allowOrigin.pendings req.parts.origin req.parts + k ∧
          out = inner.map fun response => response.merged (cors.config.emitted req.parts)
      else n = b.allowOrigin.pendings req.parts.origin req.parts ∧
        out = .ok (cors.config.answer req.parts) ∧ w' = w) ∧
    ((∀ f, b.allowOrigin.inner ≠ .asyncPredicate f) →
      b.allowOrigin.pendings req.parts.origin req.parts = 0) := by
  obtain rfl := CorsBuilder.inner_of_tryBuild hbuild
  have hconfig := CorsBuilder.config_of_tryBuild hbuild
  have hforwards : b.forwards req.parts = cors.config.forwards req.parts := by
    rw [hconfig, CorsBuilder.forwards_updateVary]
  have hpolicy : b.allowOrigin = cors.config.allowOrigin := by
    rw [hconfig, CorsBuilder.allowOrigin_updateVary]
  rw [hforwards, hpolicy]
  refine ⟨?_, ?_⟩
  · intro n out w'
    split
    · exact Cors.returnsIn_forwarded_iff ‹_›
    · exact Cors.returnsIn_answered_iff (Bool.not_eq_true _ ▸ ‹_›)
  · intro hsync
    exact AllowOrigin.pendings_eq_zero hsync _ _

/-! ## Who is waited for -/

/-- The origin future held by the future. -/
def CorsFuture.originFuture : CorsFuture W A B E F → AllowOriginFuture
  | .forward st => st.allowOriginFuture
  | .preflight st => st.allowOriginFuture

/-- The inner future held by the future. -/
def CorsFuture.innerFuture : CorsFuture W A B E F → Option F
  | .forward st => st.inner
  | .preflight _ => none

/-- A pending poll from `s` to `s'` waits for somebody: the origin future or
the inner future is polled in it, is pending, and is held afterwards. -/
def Waits (svc : Inner W A B E F) (req : Request A) (s s' : CorsFuture W A B E F × W) : Prop :=
  (Suspends AllowOriginFuture.poll s.1.originFuture s'.1.originFuture ∧ s'.2 = s.2) ∨
  ∃ start inner', s'.1.innerFuture = some inner' ∧
    Suspends svc.poll start (inner', s'.2) ∧
    ((s.1.innerFuture = some start.1 ∧ start.2 = s.2) ∨
      (s.1.innerFuture = none ∧ svc.call req s.2 = .ok start))

omit [Inhabited B] in
theorem CorsFuture.originFuture_waiting (cors : Cors (Inner W A B E F)) (req : Request A)
    (af : AllowOriginFuture) : (CorsFuture.waiting cors req af).originFuture = af := by
  unfold CorsFuture.waiting
  split <;> rfl

omit [Inhabited B] in
theorem CorsFuture.innerFuture_waiting (cors : Cors (Inner W A B E F)) (req : Request A)
    (af : AllowOriginFuture) : (CorsFuture.waiting cors req af).innerFuture = none := by
  unfold CorsFuture.waiting
  split <;> rfl

/-- A pending poll of the running future waits for the inner future. -/
theorem Cors.waits_running {done : AllowOriginFuture} {start : F × W}
    {s' : CorsFuture W A B E F × W}
    (h : Suspends (CorsFuture.poll cors.inner.poll) (CorsFuture.running cors req done start) s') :
    ∃ inner', s'.1.innerFuture = some inner' ∧ Suspends cors.inner.poll start (inner', s'.2) := by
  obtain ⟨u, hu, rfl⟩ := (CorsFuture.running_mirrors done).suspends_iff.mp h
  exact ⟨u.1, rfl, hu⟩

/-- **No lost wake-up.** In no state of any run does a poll return pending
unless the future it waits for has been polled in it and is pending. -/
theorem pending_passed_up (b : CorsBuilder) (svc : Inner W A B E F) (cors : Cors (Inner W A B E F))
    (hbuild : b.tryBuild svc = .ok cors) (req : Request A) (w : W) (fut : CorsFuture W A B E F)
    (w' : W) (hsuspended : cors.service.Suspended req w fut w')
    (s' : CorsFuture W A B E F × W) (hpending : Suspends cors.service.poll (fut, w') s') :
    Waits svc req (fut, w') s' := by
  obtain rfl := CorsBuilder.inner_of_tryBuild hbuild
  have hphase := Cors.phase_of_suspended hsuspended
  generalize hs : (fut, w') = s at hphase hpending
  cases hphase with
  | waiting af haf =>
    rcases (Cors.yields_of_reaches haf).cases with ⟨af', hsuspends, _⟩ | ⟨done, hdone, _⟩
    · rw [hpending.unique (CorsFuture.suspends_waiting hsuspends w)]
      refine Or.inl ⟨?_, rfl⟩
      simpa [CorsFuture.originFuture_waiting] using hsuspends
    · cases hforwards : cors.config.forwards req.parts with
      | false =>
        exact absurd (CorsFuture.finishes_waiting hforwards hdone w) hpending.not_finishes
      | true =>
        have hpoll := CorsFuture.poll_waiting_forwards cors.inner.poll hforwards hdone w
        have hpending' : CorsFuture.poll cors.inner.poll (CorsFuture.waiting cors req af, w) =
            .ok (.pending, s') := hpending
        cases hcall : cors.inner.call req w with
        | error p =>
          rw [hpoll, hcall] at hpending'
          cases hpending'
        | ok start =>
          rw [hpoll, hcall] at hpending'
          obtain ⟨inner', hheld, hinner⟩ := Cors.waits_running hpending'
          exact Or.inr ⟨start, inner', hheld, hinner,
            Or.inr ⟨CorsFuture.innerFuture_waiting cors req af, hcall⟩⟩
  | running hforwards done hdone start t hcall ht =>
    obtain ⟨inner', hheld, hinner⟩ := Cors.waits_running hpending
    exact Or.inr ⟨t, inner', hheld, hinner, Or.inl ⟨rfl, rfl⟩⟩

end Latency

/-! ## A slow policy over a slow service -/

/-- Allows every origin, after two suspensions. -/
def slowPolicy : AllowOrigin := .asyncPredicate fun _ _ => ⟨2, true⟩

/-- Two suspensions of the policy and one of the inner service make three. -/
theorem poll_count_slow :
    ∃ out, (Cors.service ⟨emptyService, (CorsBuilder.new.setAllowOrigin slowPolicy).updateVary⟩
      ).ReturnsIn 3 foreignGet () out () := by
  have hcount := (poll_count (CorsBuilder.new.setAllowOrigin slowPolicy) emptyService _ rfl
    foreignGet ()).1 3
  have hforwards : (CorsBuilder.new.setAllowOrigin slowPolicy).forwards foreignGet.parts =
      true := by decide
  simp only [hforwards, if_true] at hcount
  exact ⟨_, (hcount _ ()).mpr ⟨1, _, Service.ofFn_returnsIn_iff.mpr ⟨rfl, rfl, rfl⟩, rfl, rfl⟩⟩

/-- The first poll of such a call waits for the policy. -/
theorem pending_passed_up_slow :
    ∃ fut s', Waits emptyService foreignGet (fut, ()) s' := by
  have hstart := Cors.call_eq
    ⟨emptyService, (CorsBuilder.new.setAllowOrigin slowPolicy).updateVary⟩ foreignGet ()
  have hfirst : Suspends AllowOriginFuture.poll
      ((CorsBuilder.new.setAllowOrigin slowPolicy).updateVary.originFuture foreignGet.parts)
      ⟨true, .pending (.suspended 1 (some (header.accessControlAllowOrigin, originB)))⟩ := rfl
  exact ⟨_, _, pending_passed_up (CorsBuilder.new.setAllowOrigin slowPolicy) emptyService _ rfl
    foreignGet () _ () ⟨_, hstart, Relation.ReflTransGen.refl⟩ _
    (CorsFuture.suspends_waiting hfirst ())⟩

end HyperCors
