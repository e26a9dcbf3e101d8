/-
HyperCors.Lib.PollCount — how often a machine is polled until it answers.

`CompletesIn n` is a run with exactly `n` suspending polls before the one
that answers. The rules mirror those for runs of any length:

* `ReachesIn.completesIn_iff` — cut a known number of polls off the front;
* `Mirrors.completesIn_iff` — a mirroring machine suspends as often as the
  mirrored one;
* `completes_iff_exists` — a run is a run of some length.
-/
import HyperCors.Lib.Polling

namespace Polling

section Counting

variable {S T O P : Type}

/-- `s'` is left behind by `n` suspending polls from `s`. -/
def ReachesIn (poll : Machine S O) : Nat → S → S → Prop
  | 0, s, s' => s' = s
  | n + 1, s, s' => ∃ t, Suspends poll s t ∧ ReachesIn poll n t s'

/-- `n` suspending polls from `s`, then one that answers `o`. -/
def CompletesIn (poll : Machine S O) (n : Nat) (s : S) (o : O) (s' : S) : Prop :=
  ∃ t, ReachesIn poll n s t ∧ Finishes poll t o s'

variable {poll : Machine S O}

theorem ReachesIn.reaches {n : Nat} {s s' : S} (h : ReachesIn poll n s s') :
    Reaches poll s s' := by
  induction n generalizing s with
  | zero =>
    subst h
    exact Relation.ReflTransGen.refl
  | succ n ih =>
    obtain ⟨t, hfirst, hrest⟩ := h
    exact Relation.ReflTransGen.head hfirst (ih hrest)

theorem Reaches.exists_reachesIn {s s' : S} (h : Reaches poll s s') :
    ∃ n, ReachesIn poll n s s' := by
  induction h using Relation.ReflTransGen.head_induction_on with
  | refl => exact ⟨0, rfl⟩
  | head hfirst _ ih =>
    obtain ⟨n, hrest⟩ := ih
    exact ⟨n + 1, _, hfirst, hrest⟩

/-- A run is a run of some length. -/
theorem completes_iff_exists {s s' : S} {o : O} :
    Completes poll s o s' ↔ ∃ n, CompletesIn poll n s o s' := by
  constructor
  · intro hrun
    obtain ⟨t, hreach, hlast⟩ := hrun
    obtain ⟨n, hn⟩ := hreach.exists_reachesIn
    exact ⟨n, t, hn, hlast⟩
  · intro hrun
    obtain ⟨n, t, hn, hlast⟩ := hrun
    exact ⟨t, hn.reaches, hlast⟩

theorem completesIn_of_suspends {s t s' : S} {o : O} (h : Suspends poll s t) {n : Nat} :
    CompletesIn poll n s o s' ↔ ∃ k, n = k + 1 ∧ CompletesIn poll k t o s' := by
  constructor
  · intro hrun
    obtain ⟨u, hreach, hlast⟩ := hrun
    cases n with
    | zero =>
      have hu : u = s := hreach
      rw [hu] at hlast
      exact absurd hlast h.not_finishes
    | succ n =>
      obtain ⟨t', hfirst, hrest⟩ := hreach
      rw [h.unique hfirst]
      exact ⟨n, rfl, u, hrest, hlast⟩
  · intro hrun
    obtain ⟨k, rfl, u, hrest, hlast⟩ := hrun
    exact ⟨u, ⟨t, h, hrest⟩, hlast⟩

/-- Polls at the front of a run count towards its length. -/
theorem ReachesIn.completesIn_iff {m : Nat} {s t s' : S} {o : O} (h : ReachesIn poll m s t)
    {n : Nat} : CompletesIn poll n s o s' ↔ ∃ k, n = m + k ∧ CompletesIn poll k t o s' := by
  induction m generalizing s n with
  | zero =>
    subst h
    simp
  | succ m ih =>
    obtain ⟨u, hfirst, hrest⟩ := h
    rw [completesIn_of_suspends hfirst]
    constructor
    · intro hrun
      obtain ⟨j, rfl, hrun⟩ := hrun
      obtain ⟨k, rfl, hrun'⟩ := (ih hrest).mp hrun
      exact ⟨k, by omega, hrun'⟩
    · intro hrun
      obtain ⟨k, rfl, hrun⟩ := hrun
      exact ⟨m + k, by omega, (ih hrest).mpr ⟨k, rfl, hrun⟩⟩

/-- A finishing poll is a run without a suspension. -/
theorem completesIn_of_finishes {s s₁ s₂ : S} {o o₂ : O} (h : Finishes poll s o s₁) {n : Nat} :
    CompletesIn poll n s o₂ s₂ ↔ n = 0 ∧ o₂ = o ∧ s₂ = s₁ := by
  constructor
  · intro hrun
    obtain ⟨u, hreach, hlast⟩ := hrun
    cases n with
    | zero =>
      have hu : u = s := hreach
      rw [hu] at hlast
      exact ⟨rfl, (completes_of_finishes h).mp ⟨s, Relation.ReflTransGen.refl, hlast⟩⟩
    | succ n =>
      obtain ⟨t, hfirst, _⟩ := hreach
      exact absurd h hfirst.not_finishes
  · intro heq
    obtain ⟨rfl, rfl, rfl⟩ := heq
    exact ⟨s, rfl, h⟩

/-- Machines may be embedded poll by poll. -/
theorem ReachesIn.lift {pollT : Machine T P} (emb : S → T)
    (hemb : ∀ s s', Suspends poll s s' → Suspends pollT (emb s) (emb s')) {n : Nat} {s s' : S}
    (h : ReachesIn poll n s s') : ReachesIn pollT n (emb s) (emb s') := by
  induction n generalizing s with
  | zero =>
    subst h
    rfl
  | succ n ih =>
    obtain ⟨t, hfirst, hrest⟩ := h
    exact ⟨emb t, hemb s t hfirst, ih hrest⟩

/-- The runs from a state depend on its first poll only, and so does their
length. -/
theorem completesIn_congr {s t s' : S} {o : O} (h : poll s = poll t) {n : Nat} :
    CompletesIn poll n s o s' ↔ CompletesIn poll n t o s' := by
  have hrun : ∀ {s t : S}, poll s = poll t →
      CompletesIn poll n s o s' → CompletesIn poll n t o s' := by
    intro s t h hrun
    obtain ⟨u, hreach, hlast⟩ := hrun
    cases n with
    | zero =>
      have hu : u = s := hreach
      rw [hu] at hlast
      exact ⟨t, rfl, h.symm.trans hlast⟩
    | succ n =>
      obtain ⟨v, hfirst, hrest⟩ := hreach
      exact ⟨u, ⟨v, h.symm.trans hfirst, hrest⟩, hlast⟩
  exact ⟨hrun h, hrun h.symm⟩

/-- A mirroring machine suspends as often as the mirrored one. -/
theorem Mirrors.completesIn_iff {pollT : Machine T P} {emb : S → T} {out : O → P}
    (h : Mirrors pollT poll emb out) {n : Nat} {s : S} {p : P} {t' : T} :
    CompletesIn pollT n (emb s) p t' ↔
      ∃ o s', CompletesIn poll n s o s' ∧ p = out o ∧ t' = emb s' := by
  constructor
  · intro hrun
    obtain ⟨t, hreach, hlast⟩ := hrun
    induction n generalizing s with
    | zero =>
      have ht : t = emb s := hreach
      subst ht
      obtain ⟨o, s', hfin, hp, ht'⟩ := h.finishes_iff.mp hlast
      exact ⟨o, s', ⟨s, rfl, hfin⟩, hp, ht'⟩
    | succ n ih =>
      obtain ⟨u, hfirst, hrest⟩ := hreach
      obtain ⟨s₁, hstep, rfl⟩ := h.suspends_iff.mp hfirst
      obtain ⟨o, s', ⟨v, hreach, hfin⟩, hp, ht'⟩ := ih hrest
      exact ⟨o, s', ⟨v, ⟨s₁, hstep, hreach⟩, hfin⟩, hp, ht'⟩
  · intro hrun
    obtain ⟨o, s', ⟨v, hreach, hfin⟩, rfl, rfl⟩ := hrun
    have hemb : ∀ s s', Suspends poll s s' → Suspends pollT (emb s) (emb s') :=
      fun s s' hstep => h.suspends_iff.mpr ⟨s', hstep, rfl⟩
    exact ⟨emb v, hreach.lift emb hemb, h.finishes_iff.mpr ⟨o, s', hfin, rfl, rfl⟩⟩

end Counting

/-! ## Boxed futures and services -/

/-- A boxed future suspends as often as it was told to. -/
theorem Async.completesIn_suspended {α : Type} {n k : Nat} {v o : α} {s' : Async α} :
    CompletesIn Async.poll k (.suspended n v) o s' ↔ k = n ∧ o = v ∧ s' = .done := by
  induction n generalizing k with
  | zero =>
    have hlast : Finishes Async.poll (.suspended 0 v) v .done := rfl
    exact completesIn_of_finishes hlast
  | succ n ih =>
    have hfirst : Suspends Async.poll (.suspended (n + 1) v) (.suspended n v) := rfl
    rw [completesIn_of_suspends hfirst]
    simp only [ih]
    constructor
    · intro hrun
      obtain ⟨j, rfl, rfl, ho, hs⟩ := hrun
      exact ⟨rfl, ho, hs⟩
    · intro hrun
      obtain ⟨rfl, ho, hs⟩ := hrun
      exact ⟨n, rfl, rfl, ho, hs⟩

namespace Service

variable {W Req F Out : Type}

/-- One call, polled `n` times without an answer and once with: the outcome
and the world. -/
def ReturnsIn (svc : Service W Req F Out) (n : Nat) (req : Req) (w : W) (out : Out) (w' : W) :
    Prop :=
  ∃ s fut, svc.call req w = .ok s ∧ CompletesIn svc.poll n s out (fut, w')

theorem ofFn_returnsIn_iff {answer : Req → W → Delayed Out × W} {n : Nat} {req : Req} {out : Out}
    {w w' : W} :
    (ofFn answer).ReturnsIn n req w out w' ↔
      n = (answer req w).1.pendings ∧ out = (answer req w).1.value ∧ w' = (answer req w).2 := by
  have hcall : (ofFn answer).call req w =
      .ok (Async.start (answer req w).1, (answer req w).2) := rfl
  simp only [ReturnsIn, hcall, Except.ok.injEq, exists_and_left, exists_eq_left']
  constructor
  · intro hreturns
    obtain ⟨fut, hrun⟩ := hreturns
    obtain ⟨o, s', hasync, rfl, ht⟩ := (ofFn_mirrors answer _).completesIn_iff.mp hrun
    obtain ⟨hn, ho, _⟩ := Async.completesIn_suspended.mp hasync
    exact ⟨hn, ho, congrArg Prod.snd ht⟩
  · intro hreturns
    obtain ⟨rfl, rfl, rfl⟩ := hreturns
    exact ⟨.done, (ofFn_mirrors answer _).completesIn_iff.mpr
      ⟨_, .done, Async.completesIn_suspended.mpr ⟨rfl, rfl, rfl⟩, rfl, rfl⟩⟩

end Service

end Polling
