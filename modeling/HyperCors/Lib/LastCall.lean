/-
HyperCors.Lib.LastCall — records that are written field by field, where
the last write of a field is the one that counts.

A call has a key, and sets what can be read under that key to a value
that depends on the call alone; it changes nothing under another key.
`Sets` states this of a record type, its calls and its keys. Then

* `Sets.read_foldl` — after any sequence of calls, what is read under a
  key was set by the last call with that key;
* `Sets.foldl_congr` — two sequences with the same last call for every
  key build the same record, if the record is what can be read from it.
-/
import Mathlib.Data.List.Induction

namespace LastCall

variable {S C K : Type} [DecidableEq K] {V : K → Type}

/-- The last call with the key `k`. -/
def last (key : C → K) (k : K) (calls : List C) : Option C :=
  (calls.filter fun c => key c = k).getLast?

@[simp] theorem last_nil (key : C → K) (k : K) : last key k [] = none := rfl

theorem last_append_singleton (key : C → K) (k : K) (calls : List C) (c : C) :
    last key k (calls ++ [c]) = if key c = k then some c else last key k calls := by
  unfold last
  split
  · rename_i h
    simp [List.filter_append, h]
  · rename_i h
    simp [List.filter_append, h]

theorem key_of_last {key : C → K} {k : K} {calls : List C} {c : C}
    (h : last key k calls = some c) : key c = k := by
  have hmem := (List.mem_filter.mp (List.mem_of_getLast? h)).2
  simpa using hmem

/-- The last call is the same in two sequences that agree on the calls with
its key. -/
theorem last_congr {key : C → K} {k : K} {calls calls' : List C}
    (h : (calls.filter fun c => key c = k) = calls'.filter fun c => key c = k) :
    last key k calls = last key k calls' := congrArg List.getLast? h

/-- A call sets what is read under its key, whatever the record was, and
nothing else. -/
structure Sets (apply : S → C → S) (key : C → K) (read : S → (k : K) → V k) : Prop where
  same : ∀ s s' c, read (apply s c) (key c) = read (apply s' c) (key c)
  other : ∀ s c k, key c ≠ k → read (apply s c) k = read s k

variable {apply : S → C → S} {key : C → K} {read : S → (k : K) → V k}

/-- What is read under a key was set by the last call with that key. -/
theorem Sets.read_foldl (h : Sets apply key read) (s : S) (calls : List C) (k : K) :
    read (calls.foldl apply s) k =
      (last key k calls).elim (read s k) fun c => read (apply s c) k := by
  induction calls using List.reverseRecOn with
  | nil => rfl
  | append_singleton calls c ih =>
    rw [List.foldl_append, List.foldl_cons, List.foldl_nil, last_append_singleton]
    by_cases hk : key c = k
    · subst hk
      rw [if_pos rfl]
      exact h.same _ _ c
    · rw [if_neg hk, h.other _ c k hk, ih]

/-- A property that the record at the start does not have holds at the end
if and only if the last call brought it about. -/
theorem Sets.read_foldl_iff (h : Sets apply key read) {s : S} {calls : List C} {k : K}
    {P : V k → Prop} (hstart : ¬ P (read s k)) :
    P (read (calls.foldl apply s) k) ↔ ∃ c, last key k calls = some c ∧ P (read (apply s c) k) := by
  rw [h.read_foldl]
  cases last key k calls with
  | none => simp [hstart]
  | some c => simp

/-- Sequences with the same last calls build the same record. -/
theorem Sets.foldl_congr (h : Sets apply key read)
    (hext : ∀ s s', (∀ k, read s k = read s' k) → s = s') (s : S) {calls calls' : List C}
    (hlast : ∀ k, last key k calls = last key k calls') :
    calls.foldl apply s = calls'.foldl apply s := by
  apply hext
  intro k
  rw [h.read_foldl, h.read_foldl, hlast k]

end LastCall
