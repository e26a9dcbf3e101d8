/-
HyperCors.Lib.SharedCache — a store of responses in front of a server.

A cache answers a request from its store if its rules let it reuse a
stored response, and asks the server otherwise. It need not reuse what it
could, need not store what it may, and forgets as it likes, so that a run
stands for every policy of freshness and replacement. The rules are

* `Run.answered` — every response handed out was given by the server,
  for the request itself or for one that the rules let share it;
* `Run.forall_exchanges` — so what holds of the answers of the server, and
  is carried along by the rules, holds of every exchange.

Requests, responses and the world of the server are parameters.
-/
import Mathlib.Data.List.Basic

namespace SharedCache

/-- Which responses a cache may store, and which stored response may answer
another request than the one it was given for. -/
structure Rules (R S : Type) where
  storable : R → S → Prop
  reusable : R → S → R → Prop

/-- The stored responses, each with the request it was given for, and the
world of the server. -/
structure Cache (W R S : Type) where
  store : List (R × S)
  world : W

/-- Nothing is stored yet. -/
def Cache.empty {W R S : Type} (w : W) : Cache W R S := ⟨[], w⟩

section Runs

variable {W R S : Type} (server : R → W → S → W → Prop) (others : W → W → Prop)
  (rules : Rules R S)

/-- One exchange: a request, and the response handed out for it. -/
inductive Serves : Cache W R S → R × S → Cache W R S → Prop
  | hit {c : Cache W R S} {req₀ req : R} {res : S} (hmem : (req₀, res) ∈ c.store)
      (hstorable : rules.storable req₀ res) (hreusable : rules.reusable req₀ res req) :
      Serves c (req, res) c
  | miss {c : Cache W R S} {req : R} {res : S} {w : W} (hserver : server req c.world res w) :
      Serves c (req, res) { c with world := w }
  | fill {c : Cache W R S} {req : R} {res : S} {w : W} (hserver : server req c.world res w)
      (hstorable : rules.storable req res) :
      Serves c (req, res) ⟨(req, res) :: c.store, w⟩

/-- The exchanges of a run, in order. In between the cache forgets, and
others act on the world of the server. -/
inductive Run : Cache W R S → List (R × S) → Cache W R S → Prop
  | refl (c : Cache W R S) : Run c [] c
  | serve {c c₁ c₂ : Cache W R S} {x : R × S} {xs : List (R × S)}
      (hserves : Serves server rules c x c₁) (hrest : Run c₁ xs c₂) : Run c (x :: xs) c₂
  | evict {c c' : Cache W R S} {store : List (R × S)} {xs : List (R × S)}
      (hsub : store ⊆ c.store) (hrest : Run { c with store := store } xs c') : Run c xs c'
  | outside {c c' : Cache W R S} {w : W} {xs : List (R × S)} (hothers : others c.world w)
      (hrest : Run { c with world := w } xs c') : Run c xs c'

/-- The server has given this response for this request. -/
def Answered (x : R × S) : Prop := ∃ w w', server x.1 w x.2 w'

variable {server others rules} {c c' : Cache W R S} {xs : List (R × S)}

/-- What is handed out was given for the request, or for one that shares it;
and what is stored was given by the server. -/
theorem Serves.answered {x : R × S} (h : Serves server rules c x c')
    (hstore : ∀ y ∈ c.store, Answered server y) :
    (Answered server x ∨ ∃ req₀, Answered server (req₀, x.2) ∧ rules.storable req₀ x.2 ∧
      rules.reusable req₀ x.2 x.1) ∧
    ∀ y ∈ c'.store, Answered server y := by
  cases h with
  | hit hmem hstorable hreusable =>
    exact ⟨Or.inr ⟨_, hstore _ hmem, hstorable, hreusable⟩, hstore⟩
  | miss hserver => exact ⟨Or.inl ⟨_, _, hserver⟩, hstore⟩
  | fill hserver hstorable =>
    refine ⟨Or.inl ⟨_, _, hserver⟩, ?_⟩
    intro y hy
    rcases List.mem_cons.mp hy with rfl | hy
    · exact ⟨_, _, hserver⟩
    · exact hstore y hy

/-- Every response handed out in a run was given by the server. -/
theorem Run.answered (h : Run server others rules c xs c')
    (hstore : ∀ y ∈ c.store, Answered server y) :
    ∀ x ∈ xs, Answered server x ∨ ∃ req₀, Answered server (req₀, x.2) ∧
      rules.storable req₀ x.2 ∧ rules.reusable req₀ x.2 x.1 := by
  induction h with
  | refl c => simp
  | serve hserves _ ih =>
    obtain ⟨hx, hstore'⟩ := hserves.answered hstore
    intro y hy
    rcases List.mem_cons.mp hy with rfl | hy
    · exact hx
    · exact ih hstore' y hy
  | evict hsub _ ih => exact ih fun y hy => hstore y (hsub hy)
  | outside _ _ ih => exact ih hstore

/-- What holds of every answer of the server, and is carried along where a
response is reused, holds of every exchange. -/
theorem Run.forall_exchanges {P : R → S → Prop} {w : W}
    (h : Run server others rules (.empty w) xs c')
    (hserver : ∀ req w res w', server req w res w' → P req res)
    (hreuse : ∀ req₀ res req, P req₀ res → rules.storable req₀ res →
      rules.reusable req₀ res req → P req res) :
    ∀ x ∈ xs, P x.1 x.2 := by
  intro x hx
  rcases h.answered (by simp [Cache.empty]) x hx with hfresh | ⟨req₀, hfirst, hstorable, hreusable⟩
  · obtain ⟨w, w', hanswer⟩ := hfresh
    exact hserver _ _ _ _ hanswer
  · obtain ⟨w, w', hanswer⟩ := hfirst
    exact hreuse _ _ _ (hserver _ _ _ _ hanswer) hstorable hreusable

end Runs

end SharedCache
