/-
HyperCors.HeaderBuf — the fixed-capacity buffer of CORS response headers.

`ofList l` is the buffer that `push` builds from the pairs of `l`; the
equations at the end say that pushing is appending and iterating is
reading the list back, so proofs about the middleware work on lists.
-/
import HyperCors.Http
import HyperCors.Lib.Polling

namespace HyperCors

open Polling (Panic)

/-- A header name with its value. -/
abbrev Pair := HeaderName × HeaderValue

/-- `Vary` + `Allow-Origin` + `Allow-Credentials` + `Allow-Methods` +
`Allow-Headers` + (`Max-Age` on preflight | `Expose-Headers` on simple
requests). -/
def capacity : Nat := 6

structure HeaderBuf where
  slots : Vector (Option Pair) capacity
  len : Nat

namespace HeaderBuf

def default : HeaderBuf := ⟨Vector.replicate capacity none, 0⟩

def push (self : HeaderBuf) (pair : Pair) : Except Panic HeaderBuf :=
  if h : self.len < capacity then
    .ok ⟨self.slots.set self.len (some pair) h, self.len + 1⟩
  else .error ⟨"HeaderBuf overflow: more than 6 CORS headers on one response"⟩

def pushOpt (self : HeaderBuf) : Option Pair → Except Panic HeaderBuf
  | some pair => self.push pair
  | none => .ok self

/-- The stored pairs in insertion order. -/
def iter (self : HeaderBuf) : List Pair := (self.slots.toList.take self.len).filterMap id

/-! ## The buffer of a list -/

/-- The buffer left by pushing the pairs of `l`. -/
def ofList (l : List Pair) : HeaderBuf := ⟨Vector.ofFn fun i => l[i.val]?, l.length⟩

theorem default_eq_ofList : default = ofList [] := by
  simp only [default, ofList, List.length_nil, mk.injEq, and_true]
  ext i hi
  simp

theorem push_ofList {l : List Pair} {pair : Pair} (h : l.length < capacity) :
    (ofList l).push pair = .ok (ofList (l ++ [pair])) := by
  have hlen : (ofList l).len < capacity := h
  rw [push, dif_pos hlen, Except.ok.injEq]
  simp only [ofList, List.length_append, List.length_singleton, mk.injEq, and_true]
  ext i hi : 1
  by_cases hl : l.length = i
  · subst hl; simp
  · rw [Vector.getElem_set_ne _ _ hl]
    simp only [Vector.getElem_ofFn, List.getElem?_append, List.getElem?_singleton]
    split
    · rfl
    · rw [List.getElem?_eq_none (by omega), if_neg (by omega)]

theorem pushOpt_ofList {l : List Pair} {pair : Option Pair}
    (h : l.length + pair.toList.length ≤ capacity) :
    (ofList l).pushOpt pair = .ok (ofList (l ++ pair.toList)) := by
  cases pair with
  | none => simp [pushOpt]
  | some pair => exact push_ofList h

theorem iter_ofList {l : List Pair} (h : l.length ≤ capacity) : (ofList l).iter = l := by
  have hslots : (ofList l).slots.toList.take l.length = l.map some := by
    refine List.ext_getElem (by simp [ofList]; omega) ?_
    intro i hi hi'
    have hlt : i < l.length := by simpa using hi'
    simp [ofList, List.getElem?_eq_getElem hlt]
  show ((ofList l).slots.toList.take l.length).filterMap id = l
  rw [hslots]
  simp

/-- At most `capacity` pairs, with every slot in use filled. -/
structure Filled (self : HeaderBuf) : Prop where
  len_le : self.len ≤ capacity
  slots : ∀ i (h : i < capacity), i < self.len → (self.slots[i]).isSome = true

theorem filled_ofList {l : List Pair} (h : l.length ≤ capacity) : (ofList l).Filled := by
  refine ⟨h, ?_⟩
  intro i hi hlen
  have hl : i < l.length := hlen
  simp [ofList, List.getElem?_eq_getElem hl]

end HeaderBuf

end HyperCors
