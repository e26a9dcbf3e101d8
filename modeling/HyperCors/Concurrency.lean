/-
HyperCors.Concurrency — any number of requests in flight.

A server keeps one middleware and calls it for every request of every
connection, polls the futures in whatever order they are woken, and drops
those whose connection is gone, while the inner service shares its world
among all of them. `TaskSim` relates a call of the middleware to the call
of the inner service it stands for, if it has come to one. From
`step_simulated`, which answers every step of the middleware with steps of
the inner service:

* `pool_refines` — whatever the order of the steps, the inner service is
  in a state it reaches by itself, and the answers are its own, merged;
* `pool_calls_once` — it is called once for each forwarded request, in the
  order of the steps in which they come to be forwarded;
* `pool_never_panics`, `pool_progress` — no panic and no stuck future
  comes from the middleware.
-/
import HyperCors.CorsTheorems
import HyperCors.Lib.Executor

namespace HyperCors

open Polling

section Concurrency

variable [HttpCrate] {W A B E F : Type} [Inhabited B]

/-! ## What a poll does -/

section Polls

variable {cors : Cors (Inner W A B E F)} {req : Request A}

/-- A poll of the running future is one of the inner future. -/
theorem CorsFuture.poll_dispatched_cases {done : AllowOriginFuture} {inner : F} {w : W}
    {res : Poll (Except E (Response B))} {fut : CorsFuture W A B E F} {w' : W}
    (h : CorsFuture.poll cors.inner.poll (.forward (Forward.dispatched cors req done inner), w) =
      .ok (res, fut, w')) :
    ∃ res' inner', cors.inner.poll (inner, w) = .ok (res', inner', w') ∧
      res = res'.map (Except.map fun response =>
        response.merged (cors.config.emitted req.parts)) ∧
      fut = .forward (Forward.dispatched cors req done inner') := by
  have hmirror : CorsFuture.poll cors.inner.poll (CorsFuture.running cors req done (inner, w)) =
      _ := CorsFuture.running_mirrors done (inner, w)
  rw [CorsFuture.running, h] at hmirror
  cases hpoll : cors.inner.poll (inner, w) with
  | error p =>
    rw [hpoll] at hmirror
    cases hmirror
  | ok r =>
    obtain ⟨res', inner', w''⟩ := r
    rw [hpoll, Except.map, Except.ok.injEq] at hmirror
    simp only [CorsFuture.running, Prod.mk.injEq] at hmirror
    obtain ⟨rfl, rfl, rfl⟩ := hmirror
    exact ⟨res', inner', rfl, rfl, rfl⟩

/-- A poll of the waiting future: the origin future suspends, or the
middleware answers itself, or the inner service is called and its future
polled. -/
theorem CorsFuture.poll_waiting_cases {af : AllowOriginFuture}
    (haf : af.Yields (cors.config.verdict req.parts)) {w : W}
    {res : Poll (Except E (Response B))} {fut : CorsFuture W A B E F} {w' : W}
    (h : CorsFuture.poll cors.inner.poll (CorsFuture.waiting cors req af, w) =
      .ok (res, fut, w')) :
    (∃ af', af'.Yields (cors.config.verdict req.parts) ∧ res = .pending ∧ w' = w ∧
      fut = CorsFuture.waiting cors req af') ∨
    (cors.config.forwards req.parts = false ∧
      res = .ready (.ok (cors.config.answer req.parts)) ∧ w' = w) ∨
    (cors.config.forwards req.parts = true ∧ ∃ done start res' inner',
      cors.inner.call req w = .ok start ∧ cors.inner.poll start = .ok (res', inner', w') ∧
      res = res'.map (Except.map fun response =>
        response.merged (cors.config.emitted req.parts)) ∧
      fut = .forward (Forward.dispatched cors req done inner')) := by
  rcases haf.cases with ⟨af', hsuspends, hyields, _⟩ | ⟨done, hfinishes, _⟩
  · have hpending : CorsFuture.poll cors.inner.poll (CorsFuture.waiting cors req af, w) =
        .ok (.pending, CorsFuture.waiting cors req af', w) :=
      CorsFuture.suspends_waiting hsuspends w
    rw [hpending, Except.ok.injEq] at h
    simp only [Prod.mk.injEq] at h
    exact Or.inl ⟨af', hyields, h.1.symm, h.2.2.symm, h.2.1.symm⟩
  · right
    cases hforwards : cors.config.forwards req.parts with
    | false =>
      have hready : CorsFuture.poll cors.inner.poll (CorsFuture.waiting cors req af, w) =
          .ok (.ready (.ok (cors.config.answer req.parts)),
            CorsFuture.answered cors req done, w) :=
        CorsFuture.finishes_waiting hforwards hfinishes w
      rw [hready, Except.ok.injEq] at h
      simp only [Prod.mk.injEq] at h
      exact Or.inl ⟨rfl, h.1.symm, h.2.2.symm⟩
    | true =>
      rw [CorsFuture.poll_waiting_forwards cors.inner.poll hforwards hfinishes w] at h
      cases hcall : cors.inner.call req w with
      | error p =>
        rw [hcall] at h
        cases h
      | ok start =>
        rw [hcall] at h
        obtain ⟨res', inner', hpoll, hres, hfut⟩ := CorsFuture.poll_dispatched_cases h
        exact Or.inr ⟨rfl, done, start, res', inner', rfl, hpoll, hres, hfut⟩

end Polls

/-! ## The simulation -/

/-- A call of the middleware, and the call of the inner service it stands
for: none before the verdict is in, and none for a request that is not
forwarded. -/
inductive TaskSim (cors : Cors (Inner W A B E F)) :
    Option (Task (Request A) (CorsFuture W A B E F) (Except E (Response B))) →
      Option (Task (Request A) F (Except E (Response B))) → Prop
  | absent : TaskSim cors none none
  | waiting {req : Request A} {af : AllowOriginFuture}
      (haf : af.Yields (cors.config.verdict req.parts)) :
      TaskSim cors (some (.running req (CorsFuture.waiting cors req af))) none
  | serving {req : Request A} (hforwards : cors.config.forwards req.parts = true)
      (done : AllowOriginFuture) (inner : F) :
      TaskSim cors (some (.running req (.forward (Forward.dispatched cors req done inner))))
        (some (.running req inner))
  | answered {req : Request A} (hforwards : cors.config.forwards req.parts = false) :
      TaskSim cors (some (.finished req (.ok (cors.config.answer req.parts)))) none
  | returned {req : Request A} (hforwards : cors.config.forwards req.parts = true)
      (out : Except E (Response B)) :
      TaskSim cors
        (some (.finished req
          (out.map fun response => response.merged (cors.config.emitted req.parts))))
        (some (.finished req out))
  | droppedWaiting {req : Request A} {af : AllowOriginFuture}
      (haf : af.Yields (cors.config.verdict req.parts)) :
      TaskSim cors (some (.dropped req (CorsFuture.waiting cors req af))) none
  | droppedServing {req : Request A} (hforwards : cors.config.forwards req.parts = true)
      (done : AllowOriginFuture) (inner : F) :
      TaskSim cors (some (.dropped req (.forward (Forward.dispatched cors req done inner))))
        (some (.dropped req inner))

variable {Id : Type} [DecidableEq Id] {cors : Cors (Inner W A B E F)} {others : W → W → Prop}
  {s s' : Pool Id W (Request A) (CorsFuture W A B E F) (Except E (Response B))}
  {t : Pool Id W (Request A) F (Except E (Response B))}

/-- The inner pool after a poll of the inner future of `id`. -/
theorem polled_simulated (hsim : Pool.Sim (TaskSim cors) s t) {id : Id} {req : Request A}
    (hforwards : cors.config.forwards req.parts = true) {w : W} {inner inner' : F}
    {res : Poll (Except E (Response B))} {w' : W} (done : AllowOriginFuture)
    (hpoll : cors.inner.poll (inner, w) = .ok (res, inner', w'))
    (hreach : Relation.ReflTransGen (Pool.Step cors.inner others) t
      (t.set w id (.running req inner))) :
    (res = .pending → ∃ t', Relation.ReflTransGen (Pool.Step cors.inner others) t t' ∧
      Pool.Sim (TaskSim cors) (s.set w' id
        (.running req (.forward (Forward.dispatched cors req done inner')))) t') ∧
    ∀ out, res = .ready out → ∃ t', Relation.ReflTransGen (Pool.Step cors.inner others) t t' ∧
      Pool.Sim (TaskSim cors) (s.set w' id (.finished req
        (out.map fun response => response.merged (cors.config.emitted req.parts)))) t' := by
  have htask := Pool.set_tasks_self t w id (.running req inner)
  refine ⟨?_, ?_⟩
  · intro hres
    subst hres
    refine ⟨_, hreach.tail (.pending htask hpoll), ?_⟩
    rw [Pool.set_set]
    exact hsim.set w' id (.serving hforwards done inner')
  · intro out hres
    subst hres
    refine ⟨_, hreach.tail (.ready htask hpoll), ?_⟩
    rw [Pool.set_set]
    exact hsim.set w' id (.returned hforwards out)

/-- A poll of one call of the middleware, answered by the inner service. -/
theorem poll_simulated (hsim : Pool.Sim (TaskSim cors) s t) {id : Id} {req : Request A}
    {fut : CorsFuture W A B E F} (htask : s.tasks id = some (.running req fut))
    {res : Poll (Except E (Response B))} {fut' : CorsFuture W A B E F} {w : W}
    (hpoll : cors.service.poll (fut, s.world) = .ok (res, fut', w)) :
    (res = .pending → ∃ t', Relation.ReflTransGen (Pool.Step cors.inner others) t t' ∧
      Pool.Sim (TaskSim cors) (s.set w id (.running req fut')) t') ∧
    ∀ out, res = .ready out → ∃ t', Relation.ReflTransGen (Pool.Step cors.inner others) t t' ∧
      Pool.Sim (TaskSim cors) (s.set w id (.finished req out)) t' := by
  have hrel := hsim.tasks id
  rw [htask] at hrel
  generalize ht : t.tasks id = task at hrel
  cases hrel with
  | waiting haf =>
    rcases CorsFuture.poll_waiting_cases haf hpoll with
      ⟨af', haf', rfl, rfl, rfl⟩ | ⟨hforwards, rfl, rfl⟩ |
        ⟨hforwards, done, start, res', inner', hcall, hinner, rfl, rfl⟩
    · refine ⟨?_, ?_⟩
      · intro _
        refine ⟨t, Relation.ReflTransGen.refl, hsim.set_left id ?_⟩
        rw [ht]
        exact .waiting haf'
      · intro out hres
        cases hres
    · refine ⟨?_, ?_⟩
      · intro hres
        cases hres
      · intro out hres
        obtain rfl := Poll.ready.inj hres
        refine ⟨t, Relation.ReflTransGen.refl, hsim.set_left id ?_⟩
        rw [ht]
        exact .answered hforwards
    · -- the verdict is in: the inner service is called, and its future polled
      rw [← hsim.world] at hcall
      have hspawn : Relation.ReflTransGen (Pool.Step cors.inner others) t _ :=
        Relation.ReflTransGen.single (.spawn ht hcall)
      obtain ⟨hpending, hready⟩ := polled_simulated hsim hforwards done hinner hspawn
      refine ⟨?_, ?_⟩
      · intro hres
        cases res' with
        | pending => exact hpending rfl
        | ready out => cases hres
      · intro out hres
        cases res' with
        | pending => cases hres
        | ready out' =>
          obtain rfl := Poll.ready.inj hres
          exact hready out' rfl
  | serving hforwards done inner =>
    obtain ⟨res', inner', hinner, rfl, rfl⟩ := CorsFuture.poll_dispatched_cases hpoll
    have hstay : Relation.ReflTransGen (Pool.Step cors.inner others) t
        (t.set s.world id (.running req inner)) := by
      rw [← hsim.world, Pool.set_eq_self ht]
    obtain ⟨hpending, hready⟩ := polled_simulated hsim hforwards done hinner hstay
    refine ⟨?_, ?_⟩
    · intro hres
      cases res' with
      | pending => exact hpending rfl
      | ready out => cases hres
    · intro out hres
      cases res' with
      | pending => cases hres
      | ready out' =>
        obtain rfl := Poll.ready.inj hres
        exact hready out' rfl

/-- **One step.** Every step of the middleware is answered by steps of the
inner service: none while the verdict is open, a call and a poll when it
comes in, and one afterwards. -/
theorem step_simulated (hsim : Pool.Sim (TaskSim cors) s t)
    (hstep : Pool.Step cors.service others s s') :
    ∃ t', Relation.ReflTransGen (Pool.Step cors.inner others) t t' ∧
      Pool.Sim (TaskSim cors) s' t' := by
  cases hstep with
  | @spawn id req fut w hfree hcall =>
    have hstart : (fut, w) = _ := Except.ok.inj (hcall.symm.trans (cors.call_eq req s.world))
    obtain ⟨rfl, rfl⟩ := Prod.mk.inj hstart
    refine ⟨t, Relation.ReflTransGen.refl, hsim.set_left id ?_⟩
    have hrel := hsim.tasks id
    rw [hfree] at hrel
    generalize t.tasks id = task at hrel
    cases hrel
    exact .waiting (cors.config.originFuture_yields req.parts)
  | pending htask hpoll => exact (poll_simulated hsim htask hpoll).1 rfl
  | ready htask hpoll => exact (poll_simulated hsim htask hpoll).2 _ rfl
  | @drop id req fut htask =>
    have hrel := hsim.tasks id
    rw [htask] at hrel
    generalize ht : t.tasks id = task at hrel
    cases hrel with
    | waiting haf =>
      refine ⟨t, Relation.ReflTransGen.refl, hsim.set_left id ?_⟩
      rw [ht]
      exact .droppedWaiting haf
    | serving hforwards done inner =>
      refine ⟨_, Relation.ReflTransGen.single (.drop ht), ?_⟩
      rw [hsim.world]
      exact hsim.set s.world id (.droppedServing hforwards done inner)
  | @outside w hothers =>
    rw [← hsim.world] at hothers
    exact ⟨_, Relation.ReflTransGen.single (.outside hothers), hsim.outside w⟩

/-- A reachable pool of the middleware has its pool of the inner service. -/
theorem exists_simulated {w : W} (h : Pool.Reachable cors.service others w s) :
    ∃ t, Pool.Reachable cors.inner others w t ∧ Pool.Sim (TaskSim cors) s t :=
  h.simulation (Pool.Sim.empty .absent w) fun _ _ _ hsim hstep => step_simulated hsim hstep

/-- **Refinement.** In whatever order requests arrive, futures are polled
and connections go away, the world is one that the inner service reaches by
itself, and what a call has returned is the answer of the middleware or the
inner result with the emitted headers merged in. -/
theorem pool_refines (b : CorsBuilder) (svc : Inner W A B E F) (cors : Cors (Inner W A B E F))
    (hbuild : b.tryBuild svc = .ok cors) (w : W)
    (s : Pool Id W (Request A) (CorsFuture W A B E F) (Except E (Response B)))
    (h : Pool.Reachable cors.service others w s) :
    ∃ t, Pool.Reachable svc others w t ∧ t.world = s.world ∧
      ∀ id, TaskSim cors (s.tasks id) (t.tasks id) := by
  obtain rfl := CorsBuilder.inner_of_tryBuild hbuild
  obtain ⟨t, ht, hsim⟩ := exists_simulated h
  exact ⟨t, ht, hsim.world, hsim.tasks⟩

/-! ## Calls of the inner service -/

/-- The future holds an inner future. -/
def CorsFuture.dispatched : CorsFuture W A B E F → Bool
  | .forward st => st.inner.isSome
  | .preflight _ => false

/-- The call has come to a call of the inner service. -/
def Dispatched (cfg : CorsBuilder) :
    Task (Request A) (CorsFuture W A B E F) (Except E (Response B)) → Prop
  | .running _ fut => fut.dispatched = true
  | .finished req _ => cfg.forwards req.parts = true
  | .dropped _ fut => fut.dispatched = true

omit [Inhabited B] in
theorem CorsFuture.dispatched_waiting (cors : Cors (Inner W A B E F)) (req : Request A)
    (af : AllowOriginFuture) : (CorsFuture.waiting cors req af).dispatched = false := by
  unfold CorsFuture.waiting
  split <;> rfl

/-- The inner pool has the task of a dispatched call, and of no other. -/
theorem TaskSim.exists_iff {a : Option (Task (Request A) (CorsFuture W A B E F) _)}
    {b : Option (Task (Request A) F _)} (h : TaskSim cors a b) (req : Request A) :
    (∃ t, b = some t ∧ t.req = req) ↔
      ∃ t, a = some t ∧ t.req = req ∧ Dispatched cors.config t := by
  cases h with
  | absent => simp
  | waiting haf => simp [Dispatched, CorsFuture.dispatched_waiting]
  | serving hforwards done inner =>
    simp [Task.req, Dispatched, CorsFuture.dispatched, Forward.dispatched]
  | answered hforwards => simp [Dispatched, hforwards]
  | returned hforwards out => simp [Task.req, Dispatched, hforwards]
  | droppedWaiting haf => simp [Dispatched, CorsFuture.dispatched_waiting]
  | droppedServing hforwards done inner =>
    simp [Task.req, Dispatched, CorsFuture.dispatched, Forward.dispatched]

omit [DecidableEq Id] in
theorem holds_dispatched_iff (hsim : Pool.Sim (TaskSim cors) s t) (id : Id) (req : Request A) :
    s.Holds (Dispatched cors.config) id req ↔ ∃ task, t.tasks id = some task ∧ task.req = req :=
  ((hsim.tasks id).exists_iff req).symm

omit [DecidableEq Id] in
/-- A call has not been dispatched if the inner pool has no task for it. -/
theorem not_holds_dispatched_iff (hsim : Pool.Sim (TaskSim cors) s t) (id : Id) :
    (∀ req, ¬ s.Holds (Dispatched cors.config) id req) ↔ t.tasks id = none := by
  simp only [holds_dispatched_iff hsim]
  cases t.tasks id <;> simp

/-- A dispatched call is one of a forwarded request. -/
theorem TaskSim.forwards {a : Task (Request A) (CorsFuture W A B E F) _}
    {b : Option (Task (Request A) F _)} (h : TaskSim cors (some a) b)
    (hdispatched : Dispatched cors.config a) : cors.config.forwards a.req.parts = true := by
  cases h with
  | waiting haf => simp [Dispatched, CorsFuture.dispatched_waiting] at hdispatched
  | serving hforwards done inner => exact hforwards
  | answered hforwards => exact hdispatched
  | returned hforwards out => exact hforwards
  | droppedWaiting haf => simp [Dispatched, CorsFuture.dispatched_waiting] at hdispatched
  | droppedServing hforwards done inner => exact hforwards

/-- The inner service has been called for the dispatched requests, in the
order in which they were dispatched. -/
theorem exists_calls_of_history {svc : Inner W A B E F}
    {cors : Cors (Inner (W × List (Request A)) A B E F)} (hinner : cors.inner = svc.logged) {w : W}
    {s : Pool Id (W × List (Request A)) (Request A) _ _} {calls : List (Id × Request A)}
    (h : Pool.History cors.service (Pool.Unrecorded others) (Dispatched cors.config) (w, []) s
      calls) :
    ∃ t, Pool.Sim (TaskSim cors) s t ∧ Pool.Calls t calls := by
  induction h with
  | start =>
    exact ⟨.empty (w, []), Pool.Sim.empty .absent _, List.nodup_nil, rfl, by simp [Pool.empty]⟩
  | step _ hstep hone hnew ih =>
    obtain ⟨t, hsim, hcalls⟩ := ih
    obtain ⟨t', hsteps, hsim'⟩ := step_simulated hsim hstep
    rw [hinner] at hsteps
    obtain ⟨more, hmore⟩ := hcalls.steps hsteps
    -- the calls that the step adds are those that it dispatches
    simp only [holds_dispatched_iff hsim', not_holds_dispatched_iff hsim] at hnew
    obtain rfl := hcalls.eq_new hmore hone hnew
    exact ⟨t', hsim', hmore⟩

/-- **One call for each forwarded request.** Take any run to a pool, with the
requests it has dispatched in the order of the steps that dispatched them.
The inner service has been called with these, once each and in this order:
those that are past their verdict and forwarded, and no others. -/
theorem pool_calls_once (b : CorsBuilder) (svc : Inner W A B E F)
    (cors : Cors (Inner (W × List (Request A)) A B E F))
    (hbuild : b.tryBuild svc.logged = .ok cors) (w : W)
    (s : Pool Id (W × List (Request A)) (Request A) (CorsFuture (W × List (Request A)) A B E F)
      (Except E (Response B)))
    (h : Pool.Reachable cors.service (Pool.Unrecorded others) (w, []) s) :
    (∃ calls, Pool.History cors.service (Pool.Unrecorded others) (Dispatched cors.config) (w, []) s
      calls) ∧
    ∀ calls, Pool.History cors.service (Pool.Unrecorded others) (Dispatched cors.config) (w, []) s
        calls →
      s.world.2 = calls.map Prod.snd ∧ (calls.map Prod.fst).Nodup ∧
      (∀ id req, (id, req) ∈ calls ↔ s.Holds (Dispatched cors.config) id req) ∧
      ∀ id req, (id, req) ∈ calls → b.forwards req.parts = true := by
  refine ⟨h.exists_history _, ?_⟩
  intro calls hhistory
  obtain ⟨_, rfl⟩ := CorsBuilder.tryBuild_eq_ok hbuild
  obtain ⟨t, hsim, hcalls⟩ := exists_calls_of_history rfl hhistory
  have hmem : ∀ id req, (id, req) ∈ calls ↔ s.Holds (Dispatched b.updateVary) id req := by
    intro id req
    rw [hcalls.mem_iff]
    exact (holds_dispatched_iff hsim id req).symm
  refine ⟨?_, hcalls.nodup, hmem, ?_⟩
  · rw [← hsim.world, hcalls.record]
  · intro id req hcall
    obtain ⟨task, htask, rfl, hdispatched⟩ := (hmem id req).mp hcall
    have hrel := hsim.tasks id
    rw [htask] at hrel
    simpa using hrel.forwards hdispatched

/-! ## Safety and progress -/

/-- A call of the middleware that has come to a call of the inner service,
with the inner future in the counterpart. -/
theorem TaskSim.running_cases {req : Request A} {fut : CorsFuture W A B E F}
    {b : Option (Task (Request A) F (Except E (Response B)))}
    (h : TaskSim cors (some (.running req fut)) b) :
    (b = none ∧ ∃ af, af.Yields (cors.config.verdict req.parts) ∧
      fut = CorsFuture.waiting cors req af) ∨
    ∃ done inner, b = some (.running req inner) ∧
      fut = .forward (Forward.dispatched cors req done inner) := by
  cases h with
  | waiting haf => exact Or.inl ⟨rfl, _, haf, rfl⟩
  | serving hforwards done inner => exact Or.inr ⟨done, inner, rfl, rfl⟩

/-- **No panic under any interleaving**, if the inner service panics under
none of its own. The predicates of the configuration are total functions
here: that they do not panic is assumed. -/
theorem pool_never_panics (b : CorsBuilder) (svc : Inner W A B E F)
    (cors : Cors (Inner W A B E F)) (hbuild : b.tryBuild svc = .ok cors) (w : W)
    (hsafe : Pool.Safe Id svc others w) : Pool.Safe Id cors.service others w := by
  obtain rfl := CorsBuilder.inner_of_tryBuild hbuild
  refine ⟨?_, ?_⟩
  · intro s _ req
    exact ⟨_, Cors.call_eq _ req s.world⟩
  · intro s hs id req fut htask
    obtain ⟨t, ht, hsim⟩ := exists_simulated hs
    have hrel := hsim.tasks id
    rw [htask] at hrel
    rcases hrel.running_cases with ⟨hfree, af, haf, rfl⟩ | ⟨done, inner, hinner, rfl⟩
    · rcases haf.cases with ⟨af', hsuspends, _⟩ | ⟨done, hfinishes, _⟩
      · exact ⟨_, CorsFuture.suspends_waiting hsuspends s.world⟩
      · cases hforwards : cors.config.forwards req.parts with
        | false => exact ⟨_, CorsFuture.finishes_waiting hforwards hfinishes s.world⟩
        | true =>
          -- the inner service is called in the world of the counterpart
          obtain ⟨⟨inner, w'⟩, hcall⟩ := hsafe.call t ht req
          have hspawned := ht.tail (.spawn hfree hcall)
          obtain ⟨r, hpoll⟩ := hsafe.poll _ hspawned id req inner (Pool.set_tasks_self _ _ _ _)
          have hwaiting :=
            CorsFuture.poll_waiting_forwards cors.inner.poll hforwards hfinishes s.world
          rw [hsim.world] at hcall
          rw [hcall] at hwaiting
          exact ⟨_, hwaiting.trans
            ((CorsFuture.running_mirrors done (inner, w')).trans (congrArg _ hpoll))⟩
    · obtain ⟨r, hpoll⟩ := hsafe.poll t ht id req inner hinner
      rw [hsim.world] at hpoll
      exact ⟨_, (CorsFuture.running_mirrors done (inner, s.world)).trans (congrArg _ hpoll)⟩

/-- A free identifier can always be given to a further call. -/
theorem reachable_spawn {w : W} (h : Pool.Reachable cors.service others w s) (id : Id)
    (hfree : s.tasks id = none) (req : Request A) :
    Pool.Reachable cors.service others w (s.set s.world id
      (.running req (CorsFuture.waiting cors req (cors.config.originFuture req.parts)))) :=
  h.tail (.spawn hfree (cors.call_eq req s.world))

end Concurrency

/-! ## Three requests in flight -/

/-- The default middleware around the empty service, with its calls
recorded. -/
def recorded : Cors (Inner (Unit × List (Request Unit)) Unit Unit Empty
    (Async (Except Empty (Response Unit)))) :=
  ⟨emptyService.logged, CorsBuilder.new.updateVary⟩

/-- The future of `recorded` before its first poll. -/
def recordedWaiting (req : Request Unit) : CorsFuture (Unit × List (Request Unit)) Unit Unit Empty
    (Async (Except Empty (Response Unit))) :=
  CorsFuture.waiting recorded req (recorded.config.originFuture req.parts)

/-- The future of `recorded` after its first poll. -/
def recordedServing (req : Request Unit) : CorsFuture (Unit × List (Request Unit)) Unit Unit Empty
    (Async (Except Empty (Response Unit))) :=
  .forward (Forward.dispatched recorded req ⟨req.parts.origin.isSome, .ready none⟩
    (.suspended 0 (.ok (.new default))))

/-- The first poll calls the empty service, which suspends once. -/
theorem recorded_first (req : Request Unit)
    (hforwards : recorded.config.forwards req.parts = true) (log : List (Request Unit)) :
    Suspends recorded.service.poll (recordedWaiting req, (), log)
      (recordedServing req, (), log ++ [req]) := by
  have hready : Finishes AllowOriginFuture.poll (recorded.config.originFuture req.parts)
      (recorded.config.verdict req.parts) ⟨req.parts.origin.isSome, .ready none⟩ := rfl
  have hinner : Suspends recorded.inner.poll
      (Async.suspended 1 (.ok (.new default)), (), log ++ [req])
      (Async.suspended 0 (.ok (.new default)), (), log ++ [req]) := rfl
  exact (CorsFuture.poll_waiting_forwards recorded.inner.poll hforwards hready ((), log)).trans
    ((CorsFuture.running_mirrors _).suspends_iff.mpr ⟨_, hinner, rfl⟩)

/-- The second poll answers. -/
theorem recorded_second (req : Request Unit) (log : List (Request Unit)) :
    ∃ out fut, Finishes recorded.service.poll (recordedServing req, (), log) out
      (fut, (), log) := by
  have hinner : Finishes recorded.inner.poll (Async.suspended 0 (.ok (.new default)), (), log)
      (.ok (.new default)) (Async.done, (), log) := rfl
  exact ⟨_, _, (CorsFuture.running_mirrors _).finishes_iff.mpr ⟨_, _, hinner, rfl, rfl⟩⟩

/-- Three calls are made. The second one is forwarded first and polled to its
answer, the first one is forwarded then and dropped, and the third one
waits. -/
theorem exists_three :
    ∃ (s : Pool Nat _ _ _ _) (out : _),
      Pool.Reachable recorded.service (Pool.Unrecorded fun _ _ => True) ((), []) s ∧
      s.world.2 = [plainGet, foreignGet] ∧
      s.tasks 0 = some (.dropped foreignGet (recordedServing foreignGet)) ∧
      s.tasks 1 = some (.finished plainGet out) ∧
      s.tasks 2 = some (.running foreignGet (recordedWaiting foreignGet)) := by
  have hempty : Pool.Reachable recorded.service (Pool.Unrecorded fun _ _ => True) ((), [])
      (Pool.empty ((), []) : Pool Nat _ _ _ _) := Relation.ReflTransGen.refl
  have hcalls := reachable_spawn (reachable_spawn (reachable_spawn hempty 0 rfl foreignGet) 1 rfl
    plainGet) 2 rfl foreignGet
  obtain ⟨out, fut, hanswer⟩ := recorded_second plainGet [plainGet, foreignGet]
  have hfirst := hcalls.pending 1 rfl (recorded_first plainGet (by decide) [])
  have hsecond := hfirst.pending 0 rfl (recorded_first foreignGet (by decide) [plainGet])
  have hended := (hsecond.ready 1 rfl hanswer).drop 0 rfl
  exact ⟨_, out, hended, rfl, rfl, rfl, rfl⟩

theorem pool_refines_three :
    ∃ (s : Pool Nat _ _ _ _) (t : Pool Nat _ _ _ _) (dropped : _) (inner : _),
      Pool.Reachable recorded.service (Pool.Unrecorded fun _ _ => True) ((), []) s ∧
      Pool.Reachable emptyService.logged (Pool.Unrecorded fun _ _ => True) ((), []) t ∧
      t.world = s.world ∧ (∀ id, TaskSim recorded (s.tasks id) (t.tasks id)) ∧
      t.world.2 = [plainGet, foreignGet] ∧ t.tasks 0 = some dropped ∧
      t.tasks 1 = some (.finished plainGet inner) ∧ t.tasks 2 = none := by
  obtain ⟨s, out, hs, hrecord, hdropped, hfinished, hwaiting⟩ := exists_three
  obtain ⟨t, ht, hworld, htasks⟩ :=
    pool_refines CorsBuilder.new emptyService.logged recorded rfl ((), []) s hs
  have hzero := htasks 0
  have hone := htasks 1
  have htwo := htasks 2
  rw [hdropped] at hzero
  rw [hfinished] at hone
  rw [hwaiting] at htwo
  obtain ⟨dropped, hzero, _⟩ := (hzero.exists_iff foreignGet).mpr ⟨_, rfl, rfl, rfl⟩
  obtain ⟨inner, hone⟩ : ∃ inner, t.tasks 1 = some (.finished plainGet inner) := by
    generalize t.tasks 1 = task at hone
    cases hone with
    | answered hforwards => exact absurd hforwards (by decide)
    | returned _ inner => exact ⟨inner, rfl⟩
  have htwo : t.tasks 2 = none := by
    rcases htwo.running_cases with ⟨hnone, _⟩ | ⟨done, inner, _, hfut⟩
    · exact hnone
    · have hdispatched := congrArg CorsFuture.dispatched hfut
      rw [recordedWaiting, CorsFuture.dispatched_waiting] at hdispatched
      cases hdispatched
  exact ⟨s, t, dropped, inner, hs, ht, hworld, htasks, hworld ▸ hrecord, hzero, hone, htwo⟩

theorem pool_calls_once_three :
    ∃ s : Pool Nat _ _ _ _,
      Pool.Reachable recorded.service (Pool.Unrecorded fun _ _ => True) ((), []) s ∧
      Pool.History recorded.service (Pool.Unrecorded fun _ _ => True) (Dispatched recorded.config)
        ((), []) s [(1, plainGet), (0, foreignGet)] := by
  obtain ⟨s, out, hs, hrecord, hdropped, hfinished, _⟩ := exists_three
  obtain ⟨⟨calls, hhistory⟩, honce⟩ :=
    pool_calls_once CorsBuilder.new emptyService recorded rfl () s hs
  obtain ⟨hcalls, _, hmem, _⟩ := honce calls hhistory
  have hfirst : (1, plainGet) ∈ calls := (hmem 1 plainGet).mpr
    ⟨_, hfinished, rfl, show recorded.config.forwards plainGet.parts = true by decide⟩
  have hsecond : (0, foreignGet) ∈ calls := (hmem 0 foreignGet).mpr ⟨_, hdropped, rfl, rfl⟩
  have hne : plainGet ≠ foreignGet := by
    intro heq
    exact absurd (congrArg (fun req => req.parts.origin) heq) (by decide)
  -- the record gives the requests, the pool their identifiers
  rw [hrecord] at hcalls
  obtain ⟨⟨a, _⟩, rest, rfl, rfl, hrest⟩ := List.map_eq_cons_iff.mp hcalls.symm
  obtain ⟨⟨c, _⟩, rest', rfl, rfl, hrest'⟩ := List.map_eq_cons_iff.mp hrest
  obtain rfl := List.map_eq_nil_iff.mp hrest'
  have ha : 1 = a := by simpa [hne] using hfirst
  have hc : 0 = c := by simpa [hne.symm] using hsecond
  rw [← ha, ← hc] at hhistory
  exact ⟨s, hs, hhistory⟩

theorem pool_never_panics_default :
    Pool.Safe Nat (Cors.service ⟨emptyService, CorsBuilder.new.updateVary⟩) (fun _ _ => True) () :=
  pool_never_panics CorsBuilder.new emptyService _ rfl () (Pool.ofFn_pool_safe _ _ ())

end HyperCors
