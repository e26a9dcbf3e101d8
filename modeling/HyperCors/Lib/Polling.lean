/-
HyperCors.Lib.Polling — machines that are driven by polling, and the
services that hand them out.

A machine is a function from a state to a panic or to a poll result and
the next state. `Reaches` follows polls that answer `pending`,
`Completes` adds the one poll that answers `ready`; no poll happens after
it. `Polled` goes on polling after `ready`. The rules are the ones the proofs over a machine need:

* `Reaches.invariant` — an invariant kept by every suspending poll holds
  in every reached state;
* `completes_of_suspends`, `completes_of_finishes` — evaluate one poll at
  the front of a run;
* `Mirrors.completes_iff` — a machine that mirrors another one, up to an
  embedding of the states and a map on the outputs, has exactly the
  mirrored runs;
* `Completes.unique` — a run has one outcome, however often it suspends;
* `Polled.invariant` — what every poll keeps holds also past the end.

The state of a machine carries the world it acts on, so a service is a
pair of a `call` and a machine over futures paired with a world, and
`Service.Safe` says that neither of them panics on a request. Nothing
here mentions a particular service.
-/
import Mathlib.Logic.Relation

namespace Polling

/-- A panic, with its message. -/
structure Panic where
  message : String
deriving DecidableEq, Repr

/-- The result of one poll. -/
inductive Poll (α : Type) where
  | pending
  | ready (value : α)
deriving DecidableEq, Repr

/-- Apply a function to the value of a ready poll. -/
def Poll.map {α β : Type} (f : α → β) : Poll α → Poll β
  | .pending => .pending
  | .ready v => .ready (f v)

@[simp] theorem Poll.map_pending {α β : Type} (f : α → β) :
    Poll.map f .pending = .pending := rfl

@[simp] theorem Poll.map_ready {α β : Type} (f : α → β) (v : α) :
    Poll.map f (.ready v) = .ready (f v) := rfl

/-- One poll: it panics, or answers and leaves the next state behind. -/
abbrev Machine (S O : Type) := S → Except Panic (Poll O × S)

/-! ## Runs of a machine -/

section Runs

variable {S T O P : Type}

/-- The poll of `s` answers `pending` and leaves `s'`. -/
def Suspends (poll : Machine S O) (s s' : S) : Prop := poll s = .ok (.pending, s')

/-- The poll of `s` answers `ready o` and leaves `s'`. -/
def Finishes (poll : Machine S O) (s : S) (o : O) (s' : S) : Prop :=
  poll s = .ok (.ready o, s')

/-- `s'` is left behind by some number of suspending polls from `s`. -/
def Reaches (poll : Machine S O) : S → S → Prop := Relation.ReflTransGen (Suspends poll)

/-- Some number of suspending polls from `s`, then one that answers `o`. -/
def Completes (poll : Machine S O) (s : S) (o : O) (s' : S) : Prop :=
  ∃ t, Reaches poll s t ∧ Finishes poll t o s'

/-- Every state a run from `s` goes through, the last one included. -/
def Visits (poll : Machine S O) (s s' : S) : Prop :=
  Reaches poll s s' ∨ ∃ o, Completes poll s o s'

variable {poll : Machine S O}

/-- A property of the start that suspending polls keep holds in every
reached state. -/
theorem Reaches.invariant {I : S → Prop} {s s' : S} (h : Reaches poll s s') (hs : I s)
    (hstep : ∀ t t', I t → Suspends poll t t' → I t') : I s' := by
  induction h with
  | refl => exact hs
  | tail _ hlast ih => exact hstep _ _ ih hlast

/-- `s'` is left behind by some number of polls from `s`, whatever they
answered: nobody stops at `ready`. -/
def Polled (poll : Machine S O) : S → S → Prop :=
  Relation.ReflTransGen fun s s' => ∃ res, poll s = .ok (res, s')

/-- The invariant rule past the end: every poll keeps `I`. -/
theorem Polled.invariant {I : S → Prop} {s s' : S} (h : Polled poll s s') (hs : I s)
    (hstep : ∀ t res t', I t → poll t = .ok (res, t') → I t') : I s' := by
  induction h with
  | refl => exact hs
  | tail _ hlast ih =>
    obtain ⟨res, hlast⟩ := hlast
    exact hstep _ res _ ih hlast

/-- The states of a run are polled ones. -/
theorem Visits.polled {s s' : S} (h : Visits poll s s') : Polled poll s s' := by
  have hreaches : ∀ t, Reaches poll s t → Polled poll s t := by
    intro t hreach
    exact Relation.ReflTransGen.mono (fun _ _ hstep => ⟨_, hstep⟩) _ _ hreach
  rcases h with hreach | ⟨o, t, hreach, hlast⟩
  · exact hreaches s' hreach
  · exact (hreaches t hreach).tail ⟨_, hlast⟩

theorem Suspends.unique {s t t' : S} (h : Suspends poll s t) (h' : Suspends poll s t') :
    t = t' := by
  have := h.symm.trans h'
  simpa using this

theorem Suspends.not_finishes {s t t' : S} {o : O} (h : Suspends poll s t) :
    ¬ Finishes poll s o t' := by
  intro h'
  have := h.symm.trans h'
  simp at this

/-- A suspending poll at the front of a run can be dropped. -/
theorem completes_of_suspends {s t s' : S} {o : O} (h : Suspends poll s t) :
    Completes poll s o s' ↔ Completes poll t o s' := by
  constructor
  · intro hrun
    obtain ⟨u, hreach, hlast⟩ := hrun
    rcases Relation.ReflTransGen.cases_head hreach with rfl | ⟨t', hfirst, hrest⟩
    · exact absurd hlast h.not_finishes
    · rw [h.unique hfirst]
      exact ⟨u, hrest, hlast⟩
  · intro hrun
    obtain ⟨u, hreach, hlast⟩ := hrun
    exact ⟨u, Relation.ReflTransGen.head h hreach, hlast⟩

/-- Suspending polls at the front of a run can be dropped. -/
theorem Reaches.completes_iff {s t s' : S} {o : O} (h : Reaches poll s t) :
    Completes poll s o s' ↔ Completes poll t o s' := by
  induction h with
  | refl => exact Iff.rfl
  | tail _ hlast ih => rw [ih, completes_of_suspends hlast]

/-- A finishing poll is a whole run. -/
theorem completes_of_finishes {s s₁ s₂ : S} {o o₂ : O} (h : Finishes poll s o s₁) :
    Completes poll s o₂ s₂ ↔ o₂ = o ∧ s₂ = s₁ := by
  constructor
  · intro hrun
    obtain ⟨u, hreach, hlast⟩ := hrun
    rcases Relation.ReflTransGen.cases_head hreach with rfl | ⟨t', hfirst, _⟩
    · have := hlast.symm.trans h
      simpa using this
    · exact absurd h hfirst.not_finishes
  · intro heq
    obtain ⟨rfl, rfl⟩ := heq
    exact ⟨s, Relation.ReflTransGen.refl, h⟩

/-- No run starts with a panic. -/
theorem not_completes_of_error {s s' : S} {o : O} {p : Panic} (h : poll s = .error p) :
    ¬ Completes poll s o s' := by
  intro hrun
  obtain ⟨t, hreach, hlast⟩ := hrun
  rcases Relation.ReflTransGen.cases_head hreach with rfl | ⟨t', hfirst, _⟩
  · simp [Finishes, h] at hlast
  · simp [Suspends, h] at hfirst

/-- The runs from a state depend on its first poll only. -/
theorem completes_congr {s t s' : S} {o : O} (h : poll s = poll t) :
    Completes poll s o s' ↔ Completes poll t o s' := by
  cases hs : poll s with
  | error p => exact iff_of_false (not_completes_of_error hs) (not_completes_of_error (h ▸ hs))
  | ok r =>
    obtain ⟨res, u⟩ := r
    have ht : poll t = .ok (res, u) := h ▸ hs
    cases res with
    | pending => rw [completes_of_suspends hs, completes_of_suspends ht]
    | ready o' => rw [completes_of_finishes hs, completes_of_finishes ht]

/-- A run has one outcome and one last state. -/
theorem Completes.unique {s s₁ s₂ : S} {o₁ o₂ : O} (h₁ : Completes poll s o₁ s₁)
    (h₂ : Completes poll s o₂ s₂) : o₁ = o₂ ∧ s₁ = s₂ := by
  obtain ⟨t, hreach, hlast⟩ := h₁
  induction hreach using Relation.ReflTransGen.head_induction_on with
  | refl =>
    obtain ⟨ho, hs⟩ := (completes_of_finishes hlast).mp h₂
    exact ⟨ho.symm, hs.symm⟩
  | head hfirst _ ih => exact ih ((completes_of_suspends hfirst).mp h₂)

/-! ## Mirrored machines -/

/-- `pollT` polls an embedded state as `pollS` polls the state itself, and
maps the output. -/
def Mirrors (pollT : Machine T P) (pollS : Machine S O) (emb : S → T) (out : O → P) : Prop :=
  ∀ s, pollT (emb s) = (pollS s).map fun r => (r.1.map out, emb r.2)

variable {pollT : Machine T P} {emb : S → T} {out : O → P}

theorem Mirrors.suspends_iff (h : Mirrors pollT poll emb out) {s : S} {t' : T} :
    Suspends pollT (emb s) t' ↔ ∃ s', Suspends poll s s' ∧ t' = emb s' := by
  unfold Suspends
  rw [h s]
  cases hs : poll s with
  | error p => simp [Except.map]
  | ok r =>
    obtain ⟨res, u⟩ := r
    cases res <;> simp [Except.map, eq_comm]

theorem Mirrors.finishes_iff (h : Mirrors pollT poll emb out) {s : S} {p : P} {t' : T} :
    Finishes pollT (emb s) p t' ↔ ∃ o s', Finishes poll s o s' ∧ p = out o ∧ t' = emb s' := by
  unfold Finishes
  rw [h s]
  cases hs : poll s with
  | error p => simp [Except.map]
  | ok r =>
    obtain ⟨res, u⟩ := r
    cases res with
    | pending => simp [Except.map]
    | ready o' =>
      simp only [Except.map, Poll.map_ready, Except.ok.injEq, Prod.mk.injEq, Poll.ready.injEq]
      constructor
      · intro hfin
        obtain ⟨rfl, rfl⟩ := hfin
        exact ⟨o', u, ⟨rfl, rfl⟩, rfl, rfl⟩
      · intro hfin
        obtain ⟨_, _, ⟨rfl, rfl⟩, rfl, rfl⟩ := hfin
        exact ⟨rfl, rfl⟩

/-- A poll of an embedded state is one of the state. -/
theorem Mirrors.of_poll (h : Mirrors pollT poll emb out) {s : S} {res : Poll P} {t' : T}
    (hpoll : pollT (emb s) = .ok (res, t')) :
    ∃ r s', poll s = .ok (r, s') ∧ res = r.map out ∧ t' = emb s' := by
  rw [h s] at hpoll
  cases hs : poll s with
  | error p =>
    rw [hs] at hpoll
    cases hpoll
  | ok r =>
    rw [hs] at hpoll
    cases hpoll
    exact ⟨r.1, r.2, rfl, rfl, rfl⟩

theorem Mirrors.reaches_iff (h : Mirrors pollT poll emb out) {s : S} {t' : T} :
    Reaches pollT (emb s) t' ↔ ∃ s', Reaches poll s s' ∧ t' = emb s' := by
  constructor
  · intro hreach
    induction hreach with
    | refl => exact ⟨s, Relation.ReflTransGen.refl, rfl⟩
    | tail _ hlast ih =>
      obtain ⟨u, hu, rfl⟩ := ih
      obtain ⟨u', hstep, rfl⟩ := h.suspends_iff.mp hlast
      exact ⟨u', hu.tail hstep, rfl⟩
  · intro hreach
    obtain ⟨s', hreach, rfl⟩ := hreach
    induction hreach with
    | refl => exact Relation.ReflTransGen.refl
    | tail _ hlast ih => exact ih.tail (h.suspends_iff.mpr ⟨_, hlast, rfl⟩)

/-- A mirroring machine has exactly the runs of the mirrored one. -/
theorem Mirrors.completes_iff (h : Mirrors pollT poll emb out) {s : S} {p : P} {t' : T} :
    Completes pollT (emb s) p t' ↔
      ∃ o s', Completes poll s o s' ∧ p = out o ∧ t' = emb s' := by
  constructor
  · intro hrun
    obtain ⟨t, hreach, hlast⟩ := hrun
    obtain ⟨u, hu, rfl⟩ := h.reaches_iff.mp hreach
    obtain ⟨o, s', hfin, hp, ht⟩ := h.finishes_iff.mp hlast
    exact ⟨o, s', ⟨u, hu, hfin⟩, hp, ht⟩
  · intro hrun
    obtain ⟨o, s', ⟨u, hu, hfin⟩, hp, ht⟩ := hrun
    exact ⟨emb u, h.reaches_iff.mpr ⟨u, hu, rfl⟩, h.finishes_iff.mpr ⟨o, s', hfin, hp, ht⟩⟩

end Runs

/-! ## Boxed futures -/

/-- What a fresh future will do: suspend some number of times, then give a
value. -/
structure Delayed (α : Type) where
  pendings : Nat
  value : α

/-- A boxed future between two polls. Once it has answered it must not be
polled again. -/
inductive Async (α : Type) where
  | suspended (pendings : Nat) (value : α)
  | done
deriving DecidableEq, Repr

namespace Async

variable {α β : Type}

def start (d : Delayed α) : Async α := .suspended d.pendings d.value

def poll : Machine (Async α) α
  | .suspended 0 v => .ok (.ready v, .done)
  | .suspended (n + 1) v => .ok (.pending, .suspended n v)
  | .done => .error ⟨"`async fn` resumed after completion"⟩

/-- `async move { g(fut.await) }`. -/
def map (g : α → β) : Async α → Async β
  | .suspended n v => .suspended n (g v)
  | .done => .done

@[simp] theorem map_suspended (g : α → β) (n : Nat) (v : α) :
    map g (.suspended n v) = .suspended n (g v) := rfl

/-- A suspended future completes with its value, whatever its number of
suspensions. -/
theorem completes_suspended {n : Nat} {v o : α} {s' : Async α} :
    Completes poll (.suspended n v) o s' ↔ o = v ∧ s' = .done := by
  induction n with
  | zero =>
    have hlast : Finishes poll (.suspended 0 v) v .done := rfl
    exact completes_of_finishes hlast
  | succ n ih =>
    have hfirst : Suspends poll (.suspended (n + 1) v) (.suspended n v) := rfl
    rw [completes_of_suspends hfirst, ih]

end Async

/-! ## Services -/

/-- A service acting on a world `W`: `call` takes a request and hands out a
future, `poll` drives the futures it has handed out. -/
structure Service (W Req F Out : Type) where
  call : Req → W → Except Panic (F × W)
  poll : Machine (F × W) Out

namespace Service

variable {W Req F Out : Type} (svc : Service W Req F Out)

/-- A whole run of one call: the outcome, the future as the last poll left
it, and the world. -/
def Runs (req : Req) (w : W) (out : Out) (fut : F) (w' : W) : Prop :=
  ∃ s, svc.call req w = .ok s ∧ Completes svc.poll s out (fut, w')

/-- One call, polled to its end: the outcome and the world. -/
def Returns (req : Req) (w : W) (out : Out) (w' : W) : Prop :=
  ∃ fut, svc.Runs req w out fut w'

/-- Every state of a call's future, from its creation to its last poll. -/
def States (req : Req) (w : W) (fut : F) (w' : W) : Prop :=
  ∃ s, svc.call req w = .ok s ∧ Visits svc.poll s (fut, w')

/-- Every state of a call's future between two polls. -/
def Suspended (req : Req) (w : W) (fut : F) (w' : W) : Prop :=
  ∃ s, svc.call req w = .ok s ∧ Reaches svc.poll s (fut, w')

/-- Every state of a call's future that is polled on, also past its answer. -/
def Overpolled (req : Req) (w : W) (fut : F) (w' : W) : Prop :=
  ∃ s, svc.call req w = .ok s ∧ Polled svc.poll s (fut, w')

/-- Neither the call nor a poll of its future panics, up to the poll that
answers `ready`. -/
structure Safe (req : Req) (w : W) : Prop where
  call : ∃ s, svc.call req w = .ok s
  poll : ∀ fut w', svc.Suspended req w fut w' → ∃ r, svc.poll (fut, w') = .ok r

/-- The same service over a world that also records the requests it is
called with. -/
def logged : Service (W × List Req) Req F Out where
  call req w := (svc.call req w.1).map fun r => (r.1, r.2, w.2 ++ [req])
  poll s := (svc.poll (s.1, s.2.1)).map fun r => (r.1, r.2.1, r.2.2, s.2.2)

/-- The deterministic service that answers a request with a fresh future and
moves the world on, as `answer` tells. -/
def ofFn (answer : Req → W → Delayed Out × W) : Service W Req (Async Out) Out where
  call req w := .ok (Async.start (answer req w).1, (answer req w).2)
  poll s := (Async.poll s.1).map fun r => (r.1, r.2, s.2)

variable {svc}

/-- A run ends in one of the states of its call. -/
theorem Runs.states {req : Req} {w : W} {out : Out} {fut : F} {w' : W}
    (h : svc.Runs req w out fut w') : svc.States req w fut w' := by
  obtain ⟨s, hcall, hrun⟩ := h
  exact ⟨s, hcall, Or.inr ⟨out, hrun⟩⟩

theorem States.overpolled {req : Req} {w : W} {fut : F} {w' : W}
    (h : svc.States req w fut w') : svc.Overpolled req w fut w' := by
  obtain ⟨s, hcall, hvisit⟩ := h
  exact ⟨s, hcall, hvisit.polled⟩

theorem logged_mirrors (log : List Req) :
    Mirrors svc.logged.poll svc.poll (fun s => (s.1, s.2, log)) id := by
  intro s
  simp only [logged]
  cases svc.poll s with
  | error p => rfl
  | ok r =>
    obtain ⟨res, f, w⟩ := r
    cases res <;> rfl

/-- A poll leaves the record alone. -/
theorem log_of_logged_poll {s s' : F × W × List Req} {res : Poll Out}
    (h : svc.logged.poll s = .ok (res, s')) : s'.2.2 = s.2.2 := by
  obtain ⟨fut, w, log⟩ := s
  obtain ⟨_, _, _, _, rfl⟩ := (logged_mirrors log).of_poll (s := (fut, w)) h
  rfl

/-- A recorded run is a run, and adds its request to the record. -/
theorem logged_returns_iff {req : Req} {w : W × List Req} {out : Out} {w' : W × List Req} :
    svc.logged.Returns req w out w' ↔ svc.Returns req w.1 out w'.1 ∧ w'.2 = w.2 ++ [req] := by
  obtain ⟨w, log⟩ := w
  obtain ⟨w', log'⟩ := w'
  simp only [Returns, Runs]
  cases hcall : svc.call req w with
  | error p => simp [logged, hcall, Except.map]
  | ok s =>
    have hlog : svc.logged.call req (w, log) = .ok (s.1, s.2, log ++ [req]) := by
      simp [logged, hcall, Except.map]
    simp only [hlog, Except.ok.injEq, exists_eq_left']
    constructor
    · intro hreturns
      obtain ⟨fut, hrun⟩ := hreturns
      obtain ⟨o, u, hu, rfl, ht⟩ := ((logged_mirrors (log ++ [req])).completes_iff (s := s)).mp hrun
      obtain ⟨uf, uw⟩ := u
      simp only [Prod.mk.injEq] at ht
      obtain ⟨rfl, rfl, rfl⟩ := ht
      exact ⟨⟨fut, hu⟩, rfl⟩
    · intro hreturns
      obtain ⟨⟨fut, hrun⟩, rfl⟩ := hreturns
      exact ⟨fut, ((logged_mirrors (log ++ [req])).completes_iff (s := s)).mpr
        ⟨out, (fut, w'), hrun, rfl, rfl⟩⟩

/-- Once a recorded call has been made, its request stays the last one of
the record. -/
theorem logged_states {req : Req} {w : W × List Req} {fut : F} {w' : W × List Req}
    (h : svc.logged.States req w fut w') : w'.2 = w.2 ++ [req] := by
  obtain ⟨w, log⟩ := w
  obtain ⟨s, hcall, hvisit⟩ := h
  simp only [logged] at hcall
  cases hinner : svc.call req w with
  | error p => simp [hinner, Except.map] at hcall
  | ok t =>
    simp only [hinner, Except.map, Except.ok.injEq] at hcall
    subst hcall
    rcases hvisit with hreach | ⟨out, hrun⟩
    · obtain ⟨u, _, hu⟩ := ((logged_mirrors (log ++ [req])).reaches_iff (s := t)).mp hreach
      simp only [Prod.mk.injEq] at hu
      exact hu.2 ▸ rfl
    · obtain ⟨_, u, _, _, hu⟩ := ((logged_mirrors (log ++ [req])).completes_iff (s := t)).mp hrun
      simp only [Prod.mk.injEq] at hu
      exact hu.2 ▸ rfl

theorem ofFn_mirrors (answer : Req → W → Delayed Out × W) (w : W) :
    Mirrors (ofFn answer).poll Async.poll (fun s => (s, w)) id := by
  intro s
  simp only [ofFn]
  cases Async.poll s with
  | error p => rfl
  | ok r =>
    obtain ⟨res, f⟩ := r
    cases res <;> rfl

/-- Such a service returns the value it is told to, however long it takes. -/
theorem ofFn_returns_iff {answer : Req → W → Delayed Out × W} {req : Req} {out : Out} {w w' : W} :
    (ofFn answer).Returns req w out w' ↔ out = (answer req w).1.value ∧ w' = (answer req w).2 := by
  have hcall : (ofFn answer).call req w =
      .ok (Async.start (answer req w).1, (answer req w).2) := rfl
  have hrun : ∀ t, Completes (ofFn answer).poll
      (Async.start (answer req w).1, (answer req w).2) out t ↔
        ∃ o s', (o = (answer req w).1.value ∧ s' = Async.done) ∧ out = id o ∧
          t = (s', (answer req w).2) := by
    intro t
    simp only [← Async.completes_suspended (n := (answer req w).1.pendings)]
    exact (ofFn_mirrors answer (answer req w).2).completes_iff
  simp only [Returns, Runs, hcall, Except.ok.injEq, exists_eq_left', hrun]
  constructor
  · intro hreturns
    obtain ⟨fut, o, s', ⟨rfl, rfl⟩, rfl, ht⟩ := hreturns
    exact ⟨rfl, congrArg Prod.snd ht⟩
  · intro hreturns
    obtain ⟨rfl, rfl⟩ := hreturns
    exact ⟨.done, _, .done, ⟨rfl, rfl⟩, rfl, rfl⟩

/-- Such a service never panics: its future is polled up to its value and no
further. -/
theorem ofFn_safe (answer : Req → W → Delayed Out × W) (req : Req) (w : W) :
    (ofFn answer).Safe req w := by
  refine ⟨⟨_, rfl⟩, ?_⟩
  intro fut w' hsuspended
  obtain ⟨s, hcall, hreach⟩ := hsuspended
  have hstart : s = (Async.start (answer req w).1, (answer req w).2) := (Except.ok.inj hcall).symm
  subst hstart
  obtain ⟨fut', hfut, hs⟩ := (ofFn_mirrors answer (answer req w).2).reaches_iff.mp hreach
  simp only [Prod.mk.injEq] at hs
  obtain ⟨rfl, rfl⟩ := hs
  -- between two polls the future is still suspended
  have hinv : ∃ n, fut = .suspended n (answer req w).1.value := by
    refine hfut.invariant (I := fun f => ∃ n, f = .suspended n (answer req w).1.value) ⟨_, rfl⟩ ?_
    intro f f' hf hstep
    obtain ⟨n, rfl⟩ := hf
    cases n with
    | zero => cases hstep
    | succ n =>
      have hnext : Suspends Async.poll (.suspended (n + 1) (answer req w).1.value)
          (.suspended n (answer req w).1.value) := rfl
      exact ⟨n, hstep.unique hnext⟩
  obtain ⟨n, rfl⟩ := hinv
  cases n <;> exact ⟨_, rfl⟩

end Service

end Polling
