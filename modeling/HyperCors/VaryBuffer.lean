/-
HyperCors.VaryBuffer — when `dedup_vary` leaves its stack buffer.

`Tight` says that the heap buffer is in use exactly when what has been
written is longer than the stack buffer: it is set at the first token
that does not fit and never before. `Tight.write` is the step and
`dedupVaryLoop_tight` the run. From them

* `dedup_vary_heap_iff` — after any number of tokens the heap buffer is in
  use iff the output so far is longer than 128 bytes, so that a `Vary` of
  at most 128 bytes, a derived one in particular, never spills.
-/
import HyperCors.HeaderLists

namespace HyperCors

open Polling (Panic)

/-! ## One write -/

namespace VaryBuf

/-- The heap buffer is in use exactly when the stack would be too small. -/
structure Tight (buf : VaryBuf) : Prop where
  ok : buf.Ok
  heap_iff : buf.heap.isSome = true ↔ dedupVaryStack < buf.content.length

theorem tight_new : new.Tight := ⟨ok_new, by rw [content_new]; simp [new]⟩

theorem Ok.length_content {self : VaryBuf} (h : self.Ok) (hheap : self.heap = none) :
    self.content.length = self.len := by
  rw [content_of_stack hheap, List.length_take]
  exact Nat.min_eq_left (h.len_le_length hheap)

theorem length_joinOnto (self : VaryBuf) (h : self.Ok) (tok : Bytes) :
    (TokenList.joinOnto [comma, space] self.content tok).length =
      self.content.length + (sepLen self.needsSep + tok.length) := by
  rw [← glue_needsSep h, List.length_append, List.length_append, Nat.add_assoc]
  cases self.needsSep <;> rfl

theorem heap_writeStack {self buf : VaryBuf} {needsSep : Bool} {tok : Bytes}
    (h : self.writeStack needsSep tok = .ok buf) : buf.heap = self.heap := by
  unfold writeStack at h
  simp only [bind, Except.bind] at h
  split at h
  · cases h
  · split at h
    · cases h
    · rw [← Except.ok.inj h]

theorem isSome_heap_writeHeap {self buf : VaryBuf} {needsSep : Bool} {tok : Bytes}
    (h : self.writeHeap needsSep tok = .ok buf) : buf.heap.isSome = true := by
  unfold writeHeap at h
  split at h
  · cases h
  · rw [← Except.ok.inj h]
    rfl

/-- A write uses the heap buffer from the first token on that does not fit. -/
theorem heap_write_iff {self buf : VaryBuf} (h : self.Ok) {tok : Bytes}
    (hwrite : self.write tok = .ok buf) : buf.heap.isSome = true ↔
      self.heap.isSome = true ∨
        dedupVaryStack < self.content.length + (sepLen self.needsSep + tok.length) := by
  cases hheap : self.heap with
  | some v =>
    have hw : self.write tok = self.writeHeap self.needsSep tok := by simp [write, hheap]
    simp [isSome_heap_writeHeap (hw.symm.trans hwrite)]
  | none =>
    rw [h.length_content hheap]
    by_cases hfits : self.len + (sepLen self.needsSep + tok.length) ≤ dedupVaryStack
    · have hw : self.write tok = self.writeStack self.needsSep tok := by
        simp [write, hheap, hfits]
      simp [heap_writeStack (hw.symm.trans hwrite), hheap, hfits]
    · have hw : self.write tok =
          writeHeap { self with heap := some self.content } self.needsSep tok := by
        simp [write, hheap, hfits, spill_ok h hheap, bind, Except.bind]
      simp [isSome_heap_writeHeap (hw.symm.trans hwrite)]
      omega

/-- A write keeps the buffers tight. -/
theorem Tight.write {self : VaryBuf} (h : self.Tight) (tok : Bytes) :
    ∃ buf, self.write tok = .ok buf ∧ buf.Tight := by
  obtain ⟨buf, hwrite, hok, hcontent⟩ := write_ok h.ok tok
  refine ⟨buf, hwrite, hok, ?_⟩
  rw [heap_write_iff h.ok hwrite, hcontent, length_joinOnto self h.ok, h.heap_iff]
  omega

end VaryBuf

/-! ## Values that fit the stack -/

/-- What is left of a joined value is no longer than the value. -/
theorem length_unlisted_le {names : List HeaderName} {v : HeaderValue}
    (h : joinNames names = some v) (vs : List HeaderValue) :
    (List.intercalate [comma, space] (unlisted vs v)).length ≤ v.bytes.length := by
  have htokens : commaTokens v.bytes = names.map HeaderName.asStr := by
    have hlisted := listedTokens_joinNames names
    simpa [h, listedTokens] using hlisted
  rw [bytes_of_joinNames h, ← htokens]
  exact TokenList.length_intercalate_le_of_sublist _ List.filter_sublist

section Loop

variable [HttpCrate]

/-- The derived names are some of the default ones, in their order. -/
theorem CorsBuilder.derivedVaryNames_sublist (b : CorsBuilder) :
    b.derivedVaryNames.Sublist Vary.defaultHeaderNames := by
  unfold derivedVaryNames Vary.defaultHeaderNames
  cases b.allowMethods.variesWithRequestMethod <;>
    cases b.allowHeaders.variesWithRequestHeaders <;> simp

/-- A derived `Vary` fits the stack. -/
theorem length_derivedVary_le {b : CorsBuilder} {v : HeaderValue}
    (h : (Vary.list b.derivedVaryNames).value = some v) : v.bytes.length ≤ dedupVaryStack := by
  have hsub := TokenList.length_intercalate_le_of_sublist [comma, space]
    (b.derivedVaryNames_sublist.map HeaderName.asStr)
  rw [← bytes_of_joinNames h] at hsub
  exact hsub.trans (by decide)

/-! ## The loop -/

/-- The loop keeps the buffers tight. -/
theorem dedupVaryLoop_tight (target : HeaderMap) (toks : List Bytes) {buf : VaryBuf}
    (h : buf.Tight) : ∃ buf', dedupVaryLoop target toks buf = .ok buf' ∧ buf'.Tight := by
  induction toks generalizing buf with
  | nil => exact ⟨buf, rfl, h⟩
  | cons tok rest ih =>
    by_cases hskip : ((trimAscii tok).isEmpty || alreadyListed target (trimAscii tok)) = true
    · obtain ⟨buf', hloop, htight⟩ := ih h
      exact ⟨buf', by rw [dedupVaryLoop, if_pos hskip, hloop], htight⟩
    · obtain ⟨buf₁, hwrite, htight₁⟩ := h.write (trimAscii tok)
      obtain ⟨buf', hloop, htight⟩ := ih htight₁
      refine ⟨buf', ?_, htight⟩
      rw [dedupVaryLoop, if_neg hskip, hwrite]
      exact hloop

/-- From empty buffers, the loop over a value ends on the heap exactly when
the unlisted tokens, joined, are too long for the stack. -/
theorem dedupVaryLoop_heap_iff (target : HeaderMap) (v : HeaderValue) :
    ∃ buf, dedupVaryLoop target (v.bytes.splitOn comma) .new = .ok buf ∧
      (buf.heap.isSome = true ↔ dedupVaryStack <
        (List.intercalate [comma, space] (unlisted (target.getAll header.vary) v)).length) := by
  obtain ⟨buf, hloop, -, hcontent⟩ := dedupVaryLoop_new target v
  obtain ⟨buf', hloop', htight⟩ :=
    dedupVaryLoop_tight target (v.bytes.splitOn comma) VaryBuf.tight_new
  cases Except.ok.inj (hloop.symm.trans hloop')
  exact ⟨buf, hloop, hcontent ▸ htight.heap_iff⟩

/-- Joined names that fit the stack leave it never. -/
theorem dedupVaryLoop_stays {names : List HeaderName} {v : HeaderValue}
    (h : joinNames names = some v) (hlen : v.bytes.length ≤ dedupVaryStack)
    (target : HeaderMap) :
    ∃ buf, dedupVaryLoop target (v.bytes.splitOn comma) .new = .ok buf ∧ buf.heap = none := by
  obtain ⟨buf, hloop, hheap⟩ := dedupVaryLoop_heap_iff target v
  have hle := length_unlisted_le h (target.getAll header.vary)
  refine ⟨buf, hloop, ?_⟩
  rw [← Option.not_isSome_iff_eq_none, hheap]
  omega

/-- **The heap buffer is for what does not fit.** After any number of tokens
it is in use exactly when the output so far is longer than the stack
buffer, so at the end exactly when the unlisted tokens, joined, are. A
`Vary` of configured names that fits the stack itself therefore never
spills, whatever the response lists, and a derived one always fits. -/
theorem dedup_vary_heap_iff (target : HeaderMap) (v : HeaderValue) :
    (∀ toks rest, v.bytes.splitOn comma = toks ++ rest → ∃ buf,
      dedupVaryLoop target toks .new = .ok buf ∧
        (buf.heap.isSome = true ↔ dedupVaryStack < buf.content.length)) ∧
    (∃ buf, dedupVaryLoop target (v.bytes.splitOn comma) .new = .ok buf ∧
      (buf.heap.isSome = true ↔ dedupVaryStack <
        (List.intercalate [comma, space] (unlisted (target.getAll header.vary) v)).length)) ∧
    (∀ names, (Vary.list names).value = some v → v.bytes.length ≤ dedupVaryStack →
      ∃ buf, dedupVaryLoop target (v.bytes.splitOn comma) .new = .ok buf ∧ buf.heap = none) ∧
    ∀ b : CorsBuilder, b.varyPinned = false → b.updateVary.vary.value = some v →
      ∃ buf, dedupVaryLoop target (v.bytes.splitOn comma) .new = .ok buf ∧ buf.heap = none := by
  refine ⟨?_, dedupVaryLoop_heap_iff target v, ?_, ?_⟩
  · intro toks _ _
    obtain ⟨buf, hloop, htight⟩ := dedupVaryLoop_tight target toks VaryBuf.tight_new
    exact ⟨buf, hloop, htight.heap_iff⟩
  · intro names hv hlen
    exact dedupVaryLoop_stays hv hlen target
  · intro b hpinned hv
    rw [CorsBuilder.updateVary_vary hpinned] at hv
    exact dedupVaryLoop_stays hv (length_derivedVary_le hv) target

end Loop

end HyperCors
