/-
HyperCors.AllowOrigin — the origin policy and the future that decides it.

`toFuture` is the source's: the synchronous policies hand out a ready
future, the asynchronous one a boxed future that may suspend. `verdict`
is the answer without the waiting, and `toFuture_yields` with
`Yields.cases` say that the future answers it after finitely many polls.
-/
import HyperCors.Knobs

namespace HyperCors

open Polling

/-- Matches a request `Origin` against an allow-list: the loop over the
space-separated tokens with its `saw_token` flag. -/
def originListMatchesLoop (allowed : List HeaderValue) : List Bytes → Bool → Bool
  | [], sawToken => sawToken
  | token :: rest, sawToken =>
    let token := trimAscii token
    if token.isEmpty then originListMatchesLoop allowed rest sawToken
    else if !(allowed.any fun a => a.bytes == token) then false
    else originListMatchesLoop allowed rest true

def originListMatches (allowed : List HeaderValue) (origin : HeaderValue) : Bool :=
  originListMatchesLoop allowed (origin.bytes.splitOn space) false

/-! ## The future -/

inductive AllowOriginFutureState where
  | ready (res : Option Pair)
  | pending (fut : Async (Option Pair))

structure AllowOriginFuture where
  hasOrigin : Bool
  state : AllowOriginFutureState

namespace AllowOriginFuture

/-- A ready future gives its result away, a pending one polls the boxed
future it holds. -/
def poll : Machine AllowOriginFuture (Option Pair)
  | ⟨hasOrigin, .ready res⟩ => .ok (.ready res, ⟨hasOrigin, .ready none⟩)
  | ⟨hasOrigin, .pending fut⟩ => (Async.poll fut).map fun r => (r.1, ⟨hasOrigin, .pending r.2⟩)

/-- The future has not answered yet, and will answer `v`. -/
def Yields (self : AllowOriginFuture) (v : Option Pair) : Prop :=
  self.state = .ready v ∨ ∃ n, self.state = .pending (.suspended n v)

/-- One poll of a future that yields `v`: it suspends and still yields `v`,
or it answers `v`. -/
theorem Yields.cases {self : AllowOriginFuture} {v : Option Pair} (h : self.Yields v) :
    (∃ fut, Suspends poll self fut ∧ fut.Yields v ∧ fut.hasOrigin = self.hasOrigin) ∨
      ∃ fut, Finishes poll self v fut ∧ fut.hasOrigin = self.hasOrigin := by
  obtain ⟨hasOrigin, state⟩ := self
  rcases h with rfl | ⟨n, rfl⟩
  · exact Or.inr ⟨_, rfl, rfl⟩
  · cases n with
    | zero => exact Or.inr ⟨_, rfl, rfl⟩
    | succ n => exact Or.inl ⟨_, rfl, Or.inr ⟨n, rfl⟩, rfl⟩

/-- A future that yields `v` completes with `v`. -/
theorem Yields.completes {self : AllowOriginFuture} {v : Option Pair} (h : self.Yields v) :
    ∃ fut, Completes poll self v fut := by
  obtain ⟨hasOrigin, state⟩ := self
  rcases h with rfl | ⟨n, rfl⟩
  · have hlast : Finishes poll ⟨hasOrigin, .ready v⟩ v ⟨hasOrigin, .ready none⟩ := rfl
    exact ⟨_, (completes_of_finishes hlast).mpr ⟨rfl, rfl⟩⟩
  · induction n with
    | zero =>
      have hlast : Finishes poll ⟨hasOrigin, .pending (.suspended 0 v)⟩ v
          ⟨hasOrigin, .pending .done⟩ := rfl
      exact ⟨_, (completes_of_finishes hlast).mpr ⟨rfl, rfl⟩⟩
    | succ n ih =>
      obtain ⟨fut, hfut⟩ := ih
      have hfirst : Suspends poll ⟨hasOrigin, .pending (.suspended (n + 1) v)⟩
          ⟨hasOrigin, .pending (.suspended n v)⟩ := rfl
      exact ⟨fut, (completes_of_suspends hfirst).mpr hfut⟩

end AllowOriginFuture

/-! ## The policy -/

section Policy

variable [HttpCrate]

inductive OriginInner where
  | const (v : HeaderValue)
  | list (origins : List HeaderValue)
  | predicate (f : HeaderValue → Parts → Bool)
  | asyncPredicate (f : HeaderValue → Parts → Delayed Bool)

/-- `AllowOrigin::list` refuses the wildcard, so no list holds it. -/
structure AllowOrigin where
  inner : OriginInner
  list_ne_wildcard : ∀ l, inner = .list l → wildcard ∉ l

namespace AllowOrigin

def any : AllowOrigin := ⟨.const wildcard, by simp⟩

/-- `assert_ne!` puts its own text around the message. -/
def exact (origin : HeaderValue) : Except Panic AllowOrigin :=
  if origin = wildcard then .error ⟨"assertion `left != right` failed: wildcard origin must be " ++
    "configured via AllowOrigin::any(), not AllowOrigin::exact()\n  left: \"*\"\n right: \"*\""⟩
  else .ok ⟨.const origin, by simp⟩

def list (origins : List HeaderValue) : Except Panic AllowOrigin :=
  if h : wildcard ∈ origins then .error ⟨"wildcard origin must be configured via " ++
    "AllowOrigin::any(), not AllowOrigin::list()"⟩
  else .ok ⟨.list origins, fun _ e => OriginInner.list.inj e ▸ h⟩

def predicate (f : HeaderValue → Parts → Bool) : AllowOrigin := ⟨.predicate f, by simp⟩

def asyncPredicate (f : HeaderValue → Parts → Delayed Bool) : AllowOrigin :=
  ⟨.asyncPredicate f, by simp⟩

def mirrorRequest : AllowOrigin := predicate fun _ _ => true

/-- `OriginInner::default`: the empty list. -/
def default : AllowOrigin := ⟨.list [], fun _ e => OriginInner.list.inj e ▸ by simp⟩

def isWildcard (self : AllowOrigin) : Bool :=
  match self.inner with
  | .const v => v == wildcard
  | _ => false

theorem isWildcard_iff {self : AllowOrigin} :
    self.isWildcard = true ↔ self.inner = .const wildcard := by
  unfold isWildcard
  cases self.inner <;> simp

def toFuture (self : AllowOrigin) (origin : Option HeaderValue) (parts : Parts) :
    AllowOriginFuture :=
  let name := header.accessControlAllowOrigin
  let hasOrigin := origin.isSome
  match self.inner with
  | .const v => ⟨hasOrigin, .ready (some (name, v))⟩
  | .list l =>
    ⟨hasOrigin, .ready ((origin.filter fun o => originListMatches l o).map fun o => (name, o))⟩
  | .predicate f =>
    ⟨hasOrigin, .ready ((origin.filter fun o => f o parts).map fun o => (name, o))⟩
  | .asyncPredicate f =>
    match origin with
    | none => ⟨hasOrigin, .ready none⟩
    | some origin =>
      let fut := Async.start (f origin parts)
      ⟨hasOrigin, .pending (fut.map fun ok => if ok then some (name, origin) else none)⟩

theorem inner_of_list {allowed : List HeaderValue} {policy : AllowOrigin}
    (h : AllowOrigin.list allowed = .ok policy) : policy.inner = .list allowed := by
  unfold AllowOrigin.list at h
  split at h
  · cases h
  · rw [← Except.ok.inj h]

/-! ## The verdict -/

/-- Whether the policy allows a request that carries the origin `o`. -/
def allows (self : AllowOrigin) (o : HeaderValue) (parts : Parts) : Bool :=
  match self.inner with
  | .const _ => true
  | .list l => originListMatches l o
  | .predicate f => f o parts
  | .asyncPredicate f => (f o parts).value

/-- The pair the origin future yields. A constant policy yields its value
for every request, one without an origin included. -/
def verdict (self : AllowOrigin) (origin : Option HeaderValue) (parts : Parts) : Option Pair :=
  match self.inner with
  | .const v => some (header.accessControlAllowOrigin, v)
  | _ => (origin.filter fun o => self.allows o parts).map fun o =>
      (header.accessControlAllowOrigin, o)

@[simp] theorem hasOrigin_toFuture (self : AllowOrigin) (origin : Option HeaderValue)
    (parts : Parts) : (self.toFuture origin parts).hasOrigin = origin.isSome := by
  unfold toFuture
  split <;> try rfl
  cases origin <;> rfl

/-- The origin future yields the verdict. -/
theorem toFuture_yields (self : AllowOrigin) (origin : Option HeaderValue) (parts : Parts) :
    (self.toFuture origin parts).Yields (self.verdict origin parts) := by
  cases hinner : self.inner with
  | const v => exact Or.inl (by simp [toFuture, verdict, hinner])
  | list l => exact Or.inl (by simp [toFuture, verdict, allows, hinner])
  | predicate f => exact Or.inl (by simp [toFuture, verdict, allows, hinner])
  | asyncPredicate f =>
    cases origin with
    | none => exact Or.inl (by simp [toFuture, verdict, hinner])
    | some o =>
      refine Or.inr ⟨(f o parts).pendings, ?_⟩
      simp only [toFuture, verdict, allows, hinner, Async.start, Async.map_suspended,
        Option.filter_some]
      cases (f o parts).value <;> rfl

/-- The name of the pair a verdict holds. -/
theorem verdict_name {self : AllowOrigin} {origin : Option HeaderValue} {parts : Parts}
    {p : Pair} (h : self.verdict origin parts = some p) :
    p.1 = header.accessControlAllowOrigin := by
  unfold verdict at h
  split at h
  · rw [← Option.some.inj h]
  · obtain ⟨o, _, rfl⟩ := Option.map_eq_some_iff.mp h
    rfl

/-- A policy that is no constant allows an origin by naming it. -/
theorem eq_of_verdict {self : AllowOrigin} (hconst : ∀ v, self.inner ≠ .const v)
    {o : HeaderValue} {parts : Parts} {p : Pair} (h : self.verdict (some o) parts = some p) :
    p.2 = o := by
  unfold verdict at h
  split at h
  · rename_i v hinner
    exact absurd hinner (hconst v)
  · obtain ⟨o', ho, rfl⟩ := Option.map_eq_some_iff.mp h
    exact (Option.some.inj (Option.filter_eq_some_iff.mp ho).1).symm

end AllowOrigin

end Policy

end HyperCors
