/-
HyperCors.Lib.Executor — many calls of one service in flight at once.

A pool has one world and, for every identifier in use, a task: a call that
is in flight, answered, or dropped before its answer. A step starts a
call, polls one task, drops one, or lets somebody else act on the world,
and the steps come in any order. The rules are

* `Reachable.invariant` — what every step keeps holds in every reachable
  pool;
* `Reachable.simulation` — if every step of one pool is answered by steps
  of another one, then every reachable pool has a counterpart;
* `Sim.set`, `Sim.set_left` — counterparts that are related task by task
  stay so when one task moves;
* `Reachable.exists_history` — the tasks of a run that have come to satisfy
  a property can be listed in the order of the steps in which they did;
* `Calls.steps` — a recorded service has been called once for every task,
  and further steps only add to the record.

`Safe` says that no step of a reachable pool panics, `Live` that every
task in flight can be polled to its end. The service, the identifiers and
what others do to the world are parameters.
-/
import HyperCors.Lib.Polling
import Mathlib.Logic.Function.Basic

namespace Polling

/-- One call: in flight, answered, or dropped before its answer. -/
inductive Task (Req F Out : Type) where
  | running (req : Req) (fut : F)
  | finished (req : Req) (out : Out)
  | dropped (req : Req) (fut : F)

/-- The request a task was started with. -/
def Task.req {Req F Out : Type} : Task Req F Out → Req
  | .running req _ => req
  | .finished req _ => req
  | .dropped req _ => req

/-- The calls in flight over one world. -/
structure Pool (Id W Req F Out : Type) where
  world : W
  tasks : Id → Option (Task Req F Out)

namespace Pool

variable {Id W Req F Out : Type}

/-- No call has been made yet. -/
def empty (w : W) : Pool Id W Req F Out := ⟨w, fun _ => none⟩

variable [DecidableEq Id]

/-- The task `id` has moved to `t`, and the world to `w`. -/
def set (self : Pool Id W Req F Out) (w : W) (id : Id) (t : Task Req F Out) :
    Pool Id W Req F Out := ⟨w, Function.update self.tasks id (some t)⟩

@[simp] theorem set_world (self : Pool Id W Req F Out) (w : W) (id : Id) (t : Task Req F Out) :
    (self.set w id t).world = w := rfl

@[simp] theorem set_tasks_self (self : Pool Id W Req F Out) (w : W) (id : Id)
    (t : Task Req F Out) : (self.set w id t).tasks id = some t := by
  simp [set]

theorem set_tasks_of_ne (self : Pool Id W Req F Out) (w : W) {id id' : Id} (t : Task Req F Out)
    (h : id' ≠ id) : (self.set w id t).tasks id' = self.tasks id' := by
  simp [set, h]

theorem set_set (self : Pool Id W Req F Out) (w w' : W) (id : Id) (t t' : Task Req F Out) :
    (self.set w id t).set w' id t' = self.set w' id t' := by
  simp [set]

theorem set_eq_self {self : Pool Id W Req F Out} {id : Id} {t : Task Req F Out}
    (h : self.tasks id = some t) : self.set self.world id t = self := by
  rw [set, ← h, Function.update_eq_self]

/-! ## Steps -/

/-- One step of a pool, in which others act on the world as `others` allows. -/
inductive Step (svc : Service W Req F Out) (others : W → W → Prop) :
    Pool Id W Req F Out → Pool Id W Req F Out → Prop
  | spawn {s : Pool Id W Req F Out} {id : Id} {req : Req} {fut : F} {w : W}
      (hfree : s.tasks id = none) (hcall : svc.call req s.world = .ok (fut, w)) :
      Step svc others s (s.set w id (.running req fut))
  | pending {s : Pool Id W Req F Out} {id : Id} {req : Req} {fut fut' : F} {w : W}
      (htask : s.tasks id = some (.running req fut))
      (hpoll : Suspends svc.poll (fut, s.world) (fut', w)) :
      Step svc others s (s.set w id (.running req fut'))
  | ready {s : Pool Id W Req F Out} {id : Id} {req : Req} {fut fut' : F} {w : W} {out : Out}
      (htask : s.tasks id = some (.running req fut))
      (hpoll : Finishes svc.poll (fut, s.world) out (fut', w)) :
      Step svc others s (s.set w id (.finished req out))
  | drop {s : Pool Id W Req F Out} {id : Id} {req : Req} {fut : F}
      (htask : s.tasks id = some (.running req fut)) :
      Step svc others s (s.set s.world id (.dropped req fut))
  | outside {s : Pool Id W Req F Out} {w : W} (hothers : others s.world w) :
      Step svc others s { s with world := w }

/-- The pool is left behind by some steps from the start in the world `w`. -/
def Reachable (svc : Service W Req F Out) (others : W → W → Prop) (w : W)
    (s : Pool Id W Req F Out) : Prop :=
  Relation.ReflTransGen (Step svc others) (empty w) s

/-- No step of a reachable pool panics. -/
structure Safe (Id : Type) [DecidableEq Id] (svc : Service W Req F Out) (others : W → W → Prop)
    (w : W) : Prop where
  call : ∀ s : Pool Id W Req F Out, Reachable svc others w s →
    ∀ req, ∃ r, svc.call req s.world = .ok r
  poll : ∀ s : Pool Id W Req F Out, Reachable svc others w s →
    ∀ id req fut, s.tasks id = some (.running req fut) → ∃ r, svc.poll (fut, s.world) = .ok r

/-- Every task in flight can be polled to its end. -/
def Live (Id : Type) [DecidableEq Id] (svc : Service W Req F Out) (others : W → W → Prop)
    (w : W) : Prop :=
  ∀ s : Pool Id W Req F Out, Reachable svc others w s →
    ∀ id req fut, s.tasks id = some (.running req fut) →
      ∃ out t, Completes svc.poll (fut, s.world) out t

variable {svc : Service W Req F Out} {others : W → W → Prop} {w : W}

section Moves

variable {s : Pool Id W Req F Out} {w' : W} {req : Req} {fut fut' : F} {out : Out}

/-- The task `id` is polled, and suspends. -/
theorem Reachable.pending (h : Reachable svc others w s) (id : Id)
    (htask : s.tasks id = some (.running req fut))
    (hpoll : Suspends svc.poll (fut, s.world) (fut', w')) :
    Reachable svc others w (s.set w' id (.running req fut')) :=
  h.tail (.pending htask hpoll)

/-- The task `id` is polled, and answers. -/
theorem Reachable.ready (h : Reachable svc others w s) (id : Id)
    (htask : s.tasks id = some (.running req fut))
    (hpoll : Finishes svc.poll (fut, s.world) out (fut', w')) :
    Reachable svc others w (s.set w' id (.finished req out)) :=
  h.tail (.ready htask hpoll)

/-- The task `id` is dropped. -/
theorem Reachable.drop (h : Reachable svc others w s) (id : Id)
    (htask : s.tasks id = some (.running req fut)) :
    Reachable svc others w (s.set s.world id (.dropped req fut)) :=
  h.tail (.drop htask)

end Moves

/-- What holds at the start and is kept by every step holds of every
reachable pool. -/
theorem Reachable.invariant {I : Pool Id W Req F Out → Prop} {s : Pool Id W Req F Out}
    (h : Reachable svc others w s) (hstart : I (empty w))
    (hstep : ∀ t t', I t → Step svc others t t' → I t') : I s := by
  induction h with
  | refl => exact hstart
  | tail _ hlast ih => exact hstep _ _ ih hlast

/-- The invariant rule for single tasks: what a started task has and every
move of it keeps, each task of a reachable pool has. -/
theorem Reachable.tasks {P : Task Req F Out → Prop} {s : Pool Id W Req F Out}
    (h : Reachable svc others w s)
    (hspawn : ∀ req w fut w', svc.call req w = .ok (fut, w') → P (.running req fut))
    (hpending : ∀ req fut w fut' w', P (.running req fut) →
      Suspends svc.poll (fut, w) (fut', w') → P (.running req fut'))
    (hready : ∀ req fut w out fut' w', P (.running req fut) →
      Finishes svc.poll (fut, w) out (fut', w') → P (.finished req out))
    (hdrop : ∀ req fut, P (.running req fut) → P (.dropped req fut)) :
    ∀ id t, s.tasks id = some t → P t := by
  have hset : ∀ (s : Pool Id W Req F Out) (w : W) (id : Id) (t : Task Req F Out),
      (∀ id' t', s.tasks id' = some t' → P t') → P t →
        ∀ id' t', (s.set w id t).tasks id' = some t' → P t' := by
    intro s w id t hs ht id' t' htask
    by_cases hid : id' = id
    · subst hid
      rw [set_tasks_self, Option.some.injEq] at htask
      exact htask ▸ ht
    · rw [set_tasks_of_ne _ _ _ hid] at htask
      exact hs id' t' htask
  refine h.invariant (I := fun s => ∀ id t, s.tasks id = some t → P t) ?_ ?_
  · intro id t htask
    cases htask
  · intro s s' hs hstep
    cases hstep with
    | spawn hfree hcall => exact hset _ _ _ _ hs (hspawn _ _ _ _ hcall)
    | pending htask hpoll => exact hset _ _ _ _ hs (hpending _ _ _ _ _ (hs _ _ htask) hpoll)
    | ready htask hpoll => exact hset _ _ _ _ hs (hready _ _ _ _ _ _ (hs _ _ htask) hpoll)
    | drop htask => exact hset _ _ _ _ hs (hdrop _ _ (hs _ _ htask))
    | outside _ => exact hs

/-! ## Histories -/

/-- The task `id` is a call of `req`, and satisfies `P`. -/
def Holds (s : Pool Id W Req F Out) (P : Task Req F Out → Prop) (id : Id) (req : Req) : Prop :=
  ∃ t, s.tasks id = some t ∧ t.req = req ∧ P t

/-- A run to a pool, with the tasks that have come to satisfy `P` in the
order of the steps in which they did. -/
inductive History (svc : Service W Req F Out) (others : W → W → Prop)
    (P : Task Req F Out → Prop) (w : W) : Pool Id W Req F Out → List (Id × Req) → Prop
  | start : History svc others P w (empty w) []
  | step {s s' : Pool Id W Req F Out} {l new : List (Id × Req)}
      (hrun : History svc others P w s l) (hstep : Step svc others s s') (hone : new.length ≤ 1)
      (hnew : ∀ id req, (id, req) ∈ new ↔ s'.Holds P id req ∧ ∀ req', ¬ s.Holds P id req') :
      History svc others P w s' (l ++ new)

/-- If one task moves, no other comes to satisfy `P`. -/
theorem exists_new_set (P : Task Req F Out → Prop) (s : Pool Id W Req F Out) (w : W) (id : Id)
    (t : Task Req F Out) : ∃ new : List (Id × Req), new.length ≤ 1 ∧ ∀ id' req,
      (id', req) ∈ new ↔ (s.set w id t).Holds P id' req ∧ ∀ req', ¬ s.Holds P id' req' := by
  have hself : ∀ req, (s.set w id t).Holds P id req ↔ t.req = req ∧ P t := by
    intro req
    simp [Holds]
  have hother : ∀ id' req, id' ≠ id →
      ¬ ((s.set w id t).Holds P id' req ∧ ∀ req', ¬ s.Holds P id' req') := by
    intro id' req hid hcomes
    obtain ⟨hholds, hnot⟩ := hcomes
    simp only [Holds, set_tasks_of_ne _ _ _ hid] at hholds
    exact hnot req hholds
  by_cases hcomes : P t ∧ ∀ req', ¬ s.Holds P id req'
  · refine ⟨[(id, t.req)], Nat.le_refl 1, ?_⟩
    intro id' req
    by_cases hid : id' = id
    · subst hid
      simp [hself, hcomes, eq_comm]
    · simp [hid, hother id' req hid]
  · refine ⟨[], Nat.zero_le 1, ?_⟩
    intro id' req
    by_cases hid : id' = id
    · subst hid
      simp only [List.not_mem_nil, hself, false_iff]
      exact fun h => hcomes ⟨h.1.2, h.2⟩
    · simp [hother id' req hid]

/-- A step brings at most one task to satisfy `P`. -/
theorem Step.exists_new (P : Task Req F Out → Prop) {s s' : Pool Id W Req F Out}
    (h : Step svc others s s') : ∃ new : List (Id × Req), new.length ≤ 1 ∧ ∀ id req,
      (id, req) ∈ new ↔ s'.Holds P id req ∧ ∀ req', ¬ s.Holds P id req' := by
  cases h with
  | spawn _ _ => exact exists_new_set P _ _ _ _
  | pending _ _ => exact exists_new_set P _ _ _ _
  | ready _ _ => exact exists_new_set P _ _ _ _
  | drop _ => exact exists_new_set P _ _ _ _
  | outside _ =>
    refine ⟨[], Nat.zero_le _, ?_⟩
    intro id req
    simp only [List.not_mem_nil, false_iff, not_and, not_forall, not_not]
    exact fun hholds => ⟨req, hholds⟩

/-- Every reachable pool has a history. -/
theorem Reachable.exists_history (P : Task Req F Out → Prop) {s : Pool Id W Req F Out}
    (h : Reachable svc others w s) : ∃ l, History svc others P w s l := by
  induction h with
  | refl => exact ⟨[], .start⟩
  | tail _ hlast ih =>
    obtain ⟨l, hl⟩ := ih
    obtain ⟨new, hone, hnew⟩ := hlast.exists_new P
    exact ⟨l ++ new, hl.step hlast hone hnew⟩

/-! ## Simulation -/

section Simulation

variable {Req' F' Out' : Type} {svc' : Service W Req' F' Out'}

/-- If related pools stay related when one of them steps and the other one
answers with some steps, then every reachable pool is related to a
reachable one. -/
theorem Reachable.simulation {R : Pool Id W Req F Out → Pool Id W Req' F' Out' → Prop}
    (hstart : R (empty w) (empty w))
    (hstep : ∀ s t s', R s t → Step svc others s s' →
      ∃ t', Relation.ReflTransGen (Step svc' others) t t' ∧ R s' t')
    {s : Pool Id W Req F Out} (h : Reachable svc others w s) :
    ∃ t, Reachable svc' others w t ∧ R s t := by
  induction h with
  | refl => exact ⟨empty w, Relation.ReflTransGen.refl, hstart⟩
  | tail _ hlast ih =>
    obtain ⟨t, ht, hrel⟩ := ih
    obtain ⟨t', hsteps, hrel'⟩ := hstep _ _ _ hrel hlast
    exact ⟨t', ht.trans hsteps, hrel'⟩

/-- The same world, and tasks that are related one by one. -/
structure Sim (R : Option (Task Req F Out) → Option (Task Req' F' Out') → Prop)
    (s : Pool Id W Req F Out) (t : Pool Id W Req' F' Out') : Prop where
  world : t.world = s.world
  tasks : ∀ id, R (s.tasks id) (t.tasks id)

variable {R : Option (Task Req F Out) → Option (Task Req' F' Out') → Prop}
  {s : Pool Id W Req F Out} {t : Pool Id W Req' F' Out'}

omit [DecidableEq Id] in
theorem Sim.empty (h : R none none) (w : W) :
    Sim R (Pool.empty w : Pool Id W Req F Out) (Pool.empty w) := ⟨rfl, fun _ => h⟩

/-- One task moves on both sides. -/
theorem Sim.set (h : Sim R s t) (w : W) (id : Id) {a : Task Req F Out} {b : Task Req' F' Out'}
    (hab : R (some a) (some b)) : Sim R (s.set w id a) (t.set w id b) := by
  refine ⟨rfl, ?_⟩
  intro id'
  by_cases hid : id' = id
  · subst hid
    rw [set_tasks_self, set_tasks_self]
    exact hab
  · rw [set_tasks_of_ne _ _ _ hid, set_tasks_of_ne _ _ _ hid]
    exact h.tasks id'

/-- One task moves on the left, and the world stays. -/
theorem Sim.set_left (h : Sim R s t) (id : Id) {a : Task Req F Out}
    (ha : R (some a) (t.tasks id)) : Sim R (s.set s.world id a) t := by
  refine ⟨h.world, ?_⟩
  intro id'
  by_cases hid : id' = id
  · subst hid
    rw [set_tasks_self]
    exact ha
  · rw [set_tasks_of_ne _ _ _ hid]
    exact h.tasks id'

omit [DecidableEq Id] in
theorem Sim.outside (h : Sim R s t) (w : W) :
    Sim R { s with world := w } { t with world := w } := ⟨rfl, h.tasks⟩

end Simulation

/-! ## Recorded services -/

/-- Others act on a recorded world without touching the record. -/
def Unrecorded (others : W → W → Prop) (a b : W × List Req) : Prop :=
  others a.1 b.1 ∧ b.2 = a.2

/-- What a recorded pool has been called with: each task's request once, in
the order of the calls. -/
structure Calls (s : Pool Id (W × List Req) Req F Out) (calls : List (Id × Req)) : Prop where
  nodup : (calls.map Prod.fst).Nodup
  record : s.world.2 = calls.map Prod.snd
  mem_iff : ∀ id req, (id, req) ∈ calls ↔ ∃ t, s.tasks id = some t ∧ t.req = req

/-- A task that stays a call of the same request changes nothing. -/
theorem Calls.set {s : Pool Id (W × List Req) Req F Out} {calls : List (Id × Req)}
    (h : Calls s calls) {id : Id} {t t' : Task Req F Out} (htask : s.tasks id = some t)
    (hreq : t'.req = t.req) {w : W × List Req} (hw : w.2 = s.world.2) :
    Calls (s.set w id t') calls := by
  refine ⟨h.nodup, hw.trans h.record, ?_⟩
  intro id' req
  rw [h.mem_iff]
  by_cases hid : id' = id
  · subst hid
    simp [htask, hreq]
  · rw [set_tasks_of_ne _ _ _ hid]

/-- A new task is a new call. -/
theorem Calls.spawn {s : Pool Id (W × List Req) Req F Out} {calls : List (Id × Req)}
    (h : Calls s calls) {id : Id} (hfree : s.tasks id = none) (req : Req) (fut : F)
    {w : W × List Req} (hw : w.2 = s.world.2 ++ [req]) :
    Calls (s.set w id (.running req fut)) (calls ++ [(id, req)]) := by
  have hnew : ∀ req', (id, req') ∉ calls := by
    intro req' hmem
    obtain ⟨t, ht, _⟩ := (h.mem_iff id req').mp hmem
    rw [hfree] at ht
    cases ht
  refine ⟨?_, ?_, ?_⟩
  · rw [List.map_append, List.nodup_append]
    refine ⟨h.nodup, by simp, ?_⟩
    intro a ha b hb hab
    obtain ⟨⟨id', req'⟩, hmem, rfl⟩ := List.mem_map.mp ha
    simp only [List.map_cons, List.map_nil, List.mem_singleton] at hb
    subst hb
    subst hab
    exact hnew req' hmem
  · simp [hw, h.record]
  · intro id' req'
    rw [List.mem_append, List.mem_singleton, h.mem_iff]
    by_cases hid : id' = id
    · subst hid
      simp [hfree, Task.req, eq_comm]
    · simp [set_tasks_of_ne _ _ _ hid, hid]

/-- A step only adds to the record. -/
theorem Calls.step {s s' : Pool Id (W × List Req) Req F Out} {calls : List (Id × Req)}
    (h : Calls s calls) (hstep : Step svc.logged (Unrecorded others) s s') :
    ∃ more, Calls s' (calls ++ more) := by
  have hkeep : ∀ s' : Pool Id (W × List Req) Req F Out, Calls s' calls →
      ∃ more, Calls s' (calls ++ more) :=
    fun s' hs' => ⟨[], by rwa [List.append_nil]⟩
  cases hstep with
  | spawn hfree hcall =>
    refine ⟨_, h.spawn hfree _ _ ?_⟩
    unfold Service.logged at hcall
    simp only at hcall
    cases hinner : svc.call _ s.world.1 with
    | error p =>
      rw [hinner] at hcall
      cases hcall
    | ok r =>
      rw [hinner, Except.map, Except.ok.injEq] at hcall
      simp only [Prod.mk.injEq] at hcall
      rw [← hcall.2]
  | pending htask hpoll =>
    refine hkeep _ (h.set htask ?_ (Service.log_of_logged_poll hpoll))
    rfl
  | ready htask hpoll =>
    refine hkeep _ (h.set htask ?_ (Service.log_of_logged_poll hpoll))
    rfl
  | drop htask =>
    refine hkeep _ (h.set htask ?_ rfl)
    rfl
  | outside hothers =>
    exact hkeep _ ⟨h.nodup, hothers.2.trans h.record, h.mem_iff⟩

/-- So do several. -/
theorem Calls.steps {s s' : Pool Id (W × List Req) Req F Out} {calls : List (Id × Req)}
    (h : Calls s calls)
    (hsteps : Relation.ReflTransGen (Step svc.logged (Unrecorded others)) s s') :
    ∃ more, Calls s' (calls ++ more) := by
  induction hsteps with
  | refl => exact ⟨[], by rwa [List.append_nil]⟩
  | tail _ hlast ih =>
    obtain ⟨more, hmore⟩ := ih
    obtain ⟨more', hmore'⟩ := hmore.step hlast
    exact ⟨more ++ more', by rwa [← List.append_assoc]⟩

omit [DecidableEq Id] in
/-- What is added are the calls of the new tasks; if it is one at most, there
is one way to list it. -/
theorem Calls.eq_new {s s' : Pool Id (W × List Req) Req F Out} {calls more new : List (Id × Req)}
    (h : Calls s calls) (h' : Calls s' (calls ++ more)) (hone : new.length ≤ 1)
    (hnew : ∀ id req, (id, req) ∈ new ↔
      (∃ t, s'.tasks id = some t ∧ t.req = req) ∧ s.tasks id = none) : more = new := by
  have hnodup := h'.nodup
  rw [List.map_append, List.nodup_append] at hnodup
  obtain ⟨_, hfst, hdisjoint⟩ := hnodup
  have hmem : ∀ c, c ∈ more ↔ c ∈ new := by
    intro c
    obtain ⟨id, req⟩ := c
    rw [hnew, ← h'.mem_iff, List.mem_append]
    constructor
    · intro hmore
      refine ⟨Or.inr hmore, ?_⟩
      by_contra hsome
      obtain ⟨t, ht⟩ := Option.ne_none_iff_exists'.mp hsome
      have hold := (h.mem_iff id t.req).mpr ⟨t, ht, rfl⟩
      exact hdisjoint id (List.mem_map_of_mem hold) id (List.mem_map_of_mem hmore) rfl
    · intro hnone
      obtain ⟨hold | hmore, hfree⟩ := hnone
      · obtain ⟨t, ht, _⟩ := (h.mem_iff id req).mp hold
        rw [hfree] at ht
        cases ht
      · exact hmore
  cases new with
  | nil => exact List.eq_nil_iff_forall_not_mem.mpr fun c hc => List.not_mem_nil ((hmem c).mp hc)
  | cons c rest =>
    obtain rfl : rest = [] := List.length_eq_zero_iff.mp (by simpa using hone)
    have hmore : more.Nodup := List.Pairwise.of_map Prod.fst (fun _ _ => mt (congrArg _)) hfst
    exact List.perm_singleton.mp ((List.perm_ext_iff_of_nodup hmore (by simp)).mpr hmem)

/-! ## Deterministic services -/

section Deterministic

variable {answer : Req → W → Delayed Out × W}

/-- The futures in flight of such a service have not answered. -/
theorem Reachable.suspended {s : Pool Id W Req (Async Out) Out}
    (h : Reachable (Service.ofFn answer) others w s) {id : Id} {req : Req} {fut : Async Out}
    (htask : s.tasks id = some (.running req fut)) : ∃ n v, fut = .suspended n v := by
  refine h.tasks (P := fun t => ∀ req fut, t = .running req fut → ∃ n v, fut = .suspended n v)
    ?_ ?_ ?_ ?_ id _ htask req fut rfl
  · intro req w fut w' hcall req' fut' heq
    cases heq
    cases hcall
    exact ⟨_, _, rfl⟩
  · intro req fut w fut' w' hfut hpoll req' fut'' heq
    cases heq
    obtain ⟨n, v, rfl⟩ := hfut _ _ rfl
    cases n with
    | zero => cases hpoll
    | succ n =>
      cases hpoll
      exact ⟨n, v, rfl⟩
  · intro req fut w out fut' w' _ _ req' fut'' heq
    cases heq
  · intro req fut _ req' fut' heq
    cases heq

theorem ofFn_pool_safe (answer : Req → W → Delayed Out × W) (others : W → W → Prop) (w : W) :
    Safe Id (Service.ofFn answer) others w := by
  refine ⟨?_, ?_⟩
  · intro s _ req
    exact ⟨_, rfl⟩
  · intro s hs id req fut htask
    obtain ⟨n, v, rfl⟩ := hs.suspended htask
    cases n <;> exact ⟨_, rfl⟩

theorem ofFn_pool_live (answer : Req → W → Delayed Out × W) (others : W → W → Prop) (w : W) :
    Live Id (Service.ofFn answer) others w := by
  intro s hs id req fut htask
  obtain ⟨n, v, rfl⟩ := hs.suspended htask
  exact ⟨v, _, (Service.ofFn_mirrors answer s.world).completes_iff.mpr
    ⟨v, .done, Async.completes_suspended.mpr ⟨rfl, rfl⟩, rfl, rfl⟩⟩

end Deterministic

end Pool

end Polling
