/-
HyperCors.Composition — the middleware around itself.

A second layer with the same configuration takes the same decision on the
same request, and merges the same headers into a response that has them
already. `twice_eq_once` says that nothing observable changes.
-/
import HyperCors.CorsTheorems

namespace HyperCors

open Polling

section Composition

variable [HttpCrate] {W A B E F : Type}

/-! ## Results up to the order of a header map -/

/-- Equal responses, with header maps that hold the same values of each
name, in the same order. -/
structure Response.Same (r r' : Response B) : Prop where
  status : r.status = r'.status
  version : r.version = r'.version
  extensions : r.extensions = r'.extensions
  body : r.body = r'.body
  headers : ∀ n, r.headers.getAll n = r'.headers.getAll n

/-- The same error, or the same response. -/
def SameResult : Except E (Response B) → Except E (Response B) → Prop
  | .error e, .error e' => e = e'
  | .ok r, .ok r' => r.Same r'
  | _, _ => False

/-- Merging a second time changes nothing. -/
theorem same_merged_merged (r : Response B) (l : List Pair) :
    ((r.merged l).merged l).Same (r.merged l) :=
  ⟨rfl, rfl, rfl, rfl, getAll_merge_merge r.headers l⟩

theorem sameResult_map_merged (o : Except E (Response B)) (l : List Pair) :
    SameResult ((o.map fun r => r.merged l).map fun r => r.merged l)
      (o.map fun r => r.merged l) := by
  cases o with
  | error e => rfl
  | ok r => exact same_merged_merged r l

theorem sameResult_refl (o : Except E (Response B)) : SameResult o o := by
  cases o with
  | error e => rfl
  | ok r => exact ⟨rfl, rfl, rfl, rfl, fun _ => rfl⟩

/-! ## Two layers -/

/-- **Installing the middleware twice changes nothing**: the runs of two
layers and of one end with the same result, after the same calls; and the
header merge itself is idempotent. -/
theorem twice_eq_once [Inhabited B] (b : CorsBuilder) (svc : Inner W A B E F)
    (once : Cors (Inner (W × List (Request A)) A B E F))
    (twice : Cors (Inner (W × List (Request A)) A B E
      (CorsFuture (W × List (Request A)) A B E F)))
    (honce : b.tryBuild svc.logged = .ok once) (htwice : b.tryBuild once.service = .ok twice)
    (req : Request A) (s : W × List (Request A)) :
    (∀ out s', once.service.Returns req s out s' →
      ∃ out', twice.service.Returns req s out' s' ∧ SameResult out' out) ∧
    (∀ out' s', twice.service.Returns req s out' s' →
      ∃ out, once.service.Returns req s out s' ∧ SameResult out' out) ∧
    ∀ (m : HeaderMap) (buf : HeaderBuf), ∃ m₁ m₂, mergeHeaders m buf = .ok m₁ ∧
      mergeHeaders m₁ buf = .ok m₂ ∧ ∀ n, m₂.getAll n = m₁.getAll n := by
  obtain ⟨_, rfl⟩ := CorsBuilder.tryBuild_eq_ok honce
  obtain ⟨_, rfl⟩ := CorsBuilder.tryBuild_eq_ok htwice
  refine ⟨?_, ?_, ?_⟩
  · intro out s' hreturns
    cases hforwards : b.updateVary.forwards req.parts with
    | false =>
      have hout := (Cors.returns_answered_iff hforwards).mp hreturns
      exact ⟨out, (Cors.returns_answered_iff hforwards).mpr hout, sameResult_refl out⟩
    | true =>
      refine ⟨_, (Cors.returns_forwarded_iff hforwards).mpr ⟨out, hreturns, rfl⟩, ?_⟩
      obtain ⟨o, _, rfl⟩ := (Cors.returns_forwarded_iff hforwards).mp hreturns
      exact sameResult_map_merged o _
  · intro out' s' hreturns
    cases hforwards : b.updateVary.forwards req.parts with
    | false =>
      have hout := (Cors.returns_answered_iff hforwards).mp hreturns
      exact ⟨out', (Cors.returns_answered_iff hforwards).mpr hout, sameResult_refl out'⟩
    | true =>
      obtain ⟨out, honce, rfl⟩ := (Cors.returns_forwarded_iff hforwards).mp hreturns
      refine ⟨out, honce, ?_⟩
      obtain ⟨o, _, rfl⟩ := (Cors.returns_forwarded_iff hforwards).mp honce
      exact sameResult_map_merged o _
  · intro m buf
    exact ⟨_, _, mergeHeaders_eq m buf, mergeHeaders_eq _ buf, getAll_merge_merge m buf.iter⟩

end Composition

/-- Two layers of the default configuration answer a cross-origin `GET` as
one does. -/
theorem twice_eq_once_default :
    ∃ out out' s',
      (Cors.service ⟨emptyService.logged, CorsBuilder.new.updateVary⟩).Returns foreignGet ((), [])
        out s' ∧
      (Cors.service ⟨Cors.service ⟨emptyService.logged, CorsBuilder.new.updateVary⟩,
        CorsBuilder.new.updateVary⟩).Returns foreignGet ((), []) out' s' ∧
      SameResult out' out := by
  obtain ⟨response, fut, s', hrun⟩ :=
    exists_ok_run Unit Empty CorsBuilder.new.updateVary 1 foreignGet ((), [])
  obtain ⟨out', htwice, hsame⟩ := (twice_eq_once CorsBuilder.new emptyService _ _ rfl rfl
    foreignGet ((), [])).1 _ _ ⟨fut, hrun⟩
  exact ⟨_, out', s', ⟨fut, hrun⟩, htwice, hsame⟩

end HyperCors
