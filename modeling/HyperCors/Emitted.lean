/-
HyperCors.Emitted — the emitted headers, name by name.

`filter_emitted` picks the pairs of one name out of everything the
middleware puts on a response: at most the one of the knob that has this
name, and only if the request is granted it. `getAll_merge_of_filter`
carries that over to a response that did not have the name before.
-/
import HyperCors.Decision

namespace HyperCors

/-! ## The values of one header -/

theorem Named.filter_eq {n : HeaderName} {p : Option Pair} (h : Named n p) (m : HeaderName) :
    (p.toList.filter fun q => q.1 = m) = if m = n then p.toList else [] := by
  cases p with
  | none => simp
  | some q =>
    have hq : q.1 = n := h q rfl
    by_cases hm : m = n
    · simp [hq, hm]
    · have hne : ¬ n = m := fun e => hm e.symm
      simp [hq, hm, hne]

section Emitted

variable [HttpCrate]

namespace CorsBuilder

variable (self : CorsBuilder) (parts : Parts)

/-- The emitted pairs of one name. -/
theorem filter_emitted (m : HeaderName) :
    ((self.emitted parts).filter fun q => q.1 = m) =
      (if m = header.vary then self.vary.toHeader.toList else []) ++
      ((if m = header.accessControlAllowOrigin then (self.verdict parts).toList else []) ++
      if self.grants parts then
        (if m = header.accessControlAllowCredentials then
          (self.allowCredentials.toHeader parts.origin parts).toList else []) ++
        if isPreflightRequest parts then
          (if m = header.accessControlAllowMethods then
            (self.allowMethods.toHeader parts).toList else []) ++
          (if m = header.accessControlAllowHeaders then
            (self.allowHeaders.toHeader parts).toList else []) ++
          (if m = header.accessControlMaxAge then
            (self.maxAge.toHeader parts.origin parts).toList else [])
        else
          (if m = header.accessControlExposeHeaders then
            (self.exposeHeaders.toHeader parts).toList else [])
      else []) := by
  have hverdict : Named header.accessControlAllowOrigin (self.verdict parts) :=
    named_verdict self.allowOrigin parts.origin parts
  rw [emitted, decided, List.filter_append, List.filter_append, (named_vary self.vary).filter_eq,
    hverdict.filter_eq]
  cases self.grants parts with
  | false => rfl
  | true =>
    simp only [if_true, LazyHeaders.pairs, lazyHeaders, List.filter_append,
      (named_allowCredentials self.allowCredentials parts.origin parts).filter_eq]
    cases isPreflightRequest parts with
    | false =>
      simp only [Bool.false_eq_true, if_false, (named_exposeHeaders _ parts).filter_eq]
    | true =>
      simp only [if_true, List.filter_append, (named_allowMethods _ parts).filter_eq,
        (named_allowHeaders _ parts).filter_eq, (named_maxAge _ parts.origin parts).filter_eq]

theorem filter_emitted_allowOrigin :
    ((self.emitted parts).filter fun q => q.1 = header.accessControlAllowOrigin) =
      (self.verdict parts).toList := by
  rw [filter_emitted]
  simp +decide

theorem filter_emitted_allowCredentials :
    ((self.emitted parts).filter fun q => q.1 = header.accessControlAllowCredentials) =
      if self.grants parts then
        (self.allowCredentials.toHeader parts.origin parts).toList else [] := by
  rw [filter_emitted]
  simp +decide

variable {parts}

theorem filter_emitted_allowMethods (hpre : isPreflightRequest parts = true) :
    ((self.emitted parts).filter fun q => q.1 = header.accessControlAllowMethods) =
      if self.grants parts then (self.allowMethods.toHeader parts).toList else [] := by
  rw [filter_emitted, hpre]
  simp +decide

theorem filter_emitted_allowHeaders (hpre : isPreflightRequest parts = true) :
    ((self.emitted parts).filter fun q => q.1 = header.accessControlAllowHeaders) =
      if self.grants parts then (self.allowHeaders.toHeader parts).toList else [] := by
  rw [filter_emitted, hpre]
  simp +decide

end CorsBuilder

/-- The values of a name that the base response does not carry are the
emitted ones. -/
theorem getAll_merge_of_filter {m : HeaderMap} {l : List Pair} {n : HeaderName} {p : Option Pair}
    (hn : n ≠ header.vary) (hfilter : (l.filter fun q => q.1 = n) = p.toList)
    (hplain : m.getAll n = []) : (m.merge l).getAll n = (p.map Prod.snd).toList := by
  rw [getAll_merge_of_ne m l hn, hfilter]
  cases p with
  | none => exact hplain
  | some q => rfl

theorem CorsBuilder.grants_of_verdict {cfg : CorsBuilder} {parts : Parts}
    (h : (cfg.verdict parts).isSome = true) : cfg.grants parts = true := by
  unfold grants
  split
  · simp [denies, Option.isNone_eq_false_iff.mpr h]
  · exact h

end Emitted

end HyperCors
