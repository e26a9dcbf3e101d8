/-
HyperCors.MergeTheorems — what `merge_headers` does to a header map.

`dedupVary_eq` refines the optimised writer to its plain specification
`dedupSpec`: no slice access leaves the buffer, whatever the lengths, and
the bytes written are the unlisted tokens joined with `, `. From it
`mergeHeaders_eq` turns the whole merge into a fold of lists, and the
rest of the file reads the result of that fold back:

* `getAll_merge_of_not_mem` — a name that is not merged keeps its values;
* `getAll_merge_of_mem` — a merged name other than `Vary` has one value;
* `getAll_merge_vary` — the `Vary` values are kept, and followed by what
  `mergeVary` adds;
* `countToken_mergeVary`, `mergeVary_self` — how often a token is listed
  afterwards, and that a second merge adds nothing.
-/
import HyperCors.Merge
import HyperCors.Knobs
import Mathlib.Data.List.Nodup

namespace HyperCors

open Polling (Panic)

/-! ## Slices -/

/-- Copying to the end of the used prefix of a slice extends that prefix. -/
theorem copyFromSlice_extend {slice : Bytes} (src : Bytes) {len : Nat}
    (h : len + src.length ≤ slice.length) :
    ∃ slice', copyFromSlice slice len (len + src.length) src = .ok slice' ∧
      slice'.length = slice.length ∧
      slice'.take (len + src.length) = slice.take len ++ src := by
  have hlen : (slice.take len ++ src).length = len + src.length := by simp; omega
  refine ⟨slice.take len ++ src ++ slice.drop (len + src.length), ?_, ?_, ?_⟩
  · rw [copyFromSlice, if_pos ⟨by omega, h⟩, if_pos (by omega)]
  · rw [List.length_append, hlen, List.length_drop]
    omega
  · rw [← hlen, List.take_left]

theorem slicePrefix_ok {slice : Bytes} {len : Nat} (h : len ≤ slice.length) :
    slicePrefix slice len = .ok (slice.take len) := if_pos h

/-! ## The writer -/

namespace VaryBuf

/-- The stack buffer has its size, and `len` stays inside while it is in
use. -/
structure Ok (buf : VaryBuf) : Prop where
  size : buf.stack.length = dedupVaryStack
  len_le : buf.heap = none → buf.len ≤ dedupVaryStack

/-- What has been written: the heap buffer once it is set, the used part
of the stack before. -/
def content (self : VaryBuf) : Bytes :=
  match self.heap with
  | some v => v
  | none => self.stack.take self.len

theorem ok_new : new.Ok := ⟨by simp [new], fun _ => by simp [new]⟩

@[simp] theorem content_new : new.content = [] := by simp [new, content]

theorem content_of_heap {self : VaryBuf} {v : Bytes} (h : self.heap = some v) :
    self.content = v := by simp [content, h]

theorem content_of_stack {self : VaryBuf} (h : self.heap = none) :
    self.content = self.stack.take self.len := by simp [content, h]

theorem Ok.len_le_length {self : VaryBuf} (h : self.Ok) (hheap : self.heap = none) :
    self.len ≤ self.stack.length := h.size ▸ h.len_le hheap

theorem bytes_eq {self : VaryBuf} (h : self.Ok) : self.bytes = .ok self.content := by
  unfold bytes
  cases hheap : self.heap with
  | some v => rw [content_of_heap hheap]
  | none => rw [content_of_stack hheap]; exact slicePrefix_ok (h.len_le_length hheap)

theorem needsSep_eq {self : VaryBuf} (h : self.Ok) :
    self.needsSep = !self.content.isEmpty := by
  unfold needsSep
  cases hheap : self.heap with
  | some v => rw [content_of_heap hheap]
  | none =>
    have hlen := h.len_le_length hheap
    have htake : (self.stack.take self.len).length = self.len := by simp; omega
    rw [content_of_stack hheap]
    cases hc : self.stack.take self.len with
    | nil => simp [hc] at htake; simp [← htake]
    | cons b t => simp [hc] at htake; simp [← htake]

/-- The separator in front of the next token. -/
def glue (needsSep : Bool) : Bytes := if needsSep then [comma, space] else []

theorem writeSep_ok (self : VaryBuf) (needsSep : Bool)
    (h : self.len + sepLen needsSep ≤ self.stack.length) :
    ∃ stack, self.writeSep needsSep = .ok stack ∧ stack.length = self.stack.length ∧
      stack.take (self.len + sepLen needsSep) = self.stack.take self.len ++ glue needsSep := by
  cases needsSep with
  | false => exact ⟨self.stack, rfl, rfl, by simp [glue, sepLen]⟩
  | true => exact copyFromSlice_extend [comma, space] h

theorem writeStack_ok {self : VaryBuf} (h : self.Ok) (hheap : self.heap = none)
    (needsSep : Bool) {tok : Bytes}
    (hfits : self.len + (sepLen needsSep + tok.length) ≤ dedupVaryStack) :
    ∃ buf, self.writeStack needsSep tok = .ok buf ∧ buf.Ok ∧
      buf.content = self.content ++ glue needsSep ++ tok := by
  have hsize := h.size
  -- the separator extends the used prefix, and the token extends it again
  obtain ⟨s₁, hcopy₁, hlen₁, htake₁⟩ := writeSep_ok self needsSep (by omega)
  obtain ⟨s₂, hcopy₂, hlen₂, htake₂⟩ :=
    copyFromSlice_extend tok (show self.len + sepLen needsSep + tok.length ≤ s₁.length by omega)
  rw [Nat.add_assoc] at hcopy₂ htake₂
  refine ⟨{ self with stack := s₂, len := self.len + (sepLen needsSep + tok.length) },
    ?_, ⟨by simp; omega, fun _ => hfits⟩, ?_⟩
  · simp only [writeStack, hcopy₁, bind, Except.bind, hcopy₂]
  · rw [content_of_stack hheap, content_of_stack (by exact hheap), htake₂, htake₁]

theorem spill_ok {self : VaryBuf} (h : self.Ok) (hheap : self.heap = none) :
    self.spill = .ok { self with heap := some self.content } := by
  simp only [spill, slicePrefix_ok (h.len_le_length hheap), bind, Except.bind,
    content_of_stack hheap]

theorem writeHeap_ok {self : VaryBuf} (h : self.Ok) {v : Bytes} (hheap : self.heap = some v)
    (needsSep : Bool) (tok : Bytes) :
    ∃ buf, self.writeHeap needsSep tok = .ok buf ∧ buf.Ok ∧
      buf.content = self.content ++ glue needsSep ++ tok := by
  refine ⟨{ self with heap := some (v ++ glue needsSep ++ tok) }, ?_, ⟨h.size, by simp⟩, ?_⟩
  · cases needsSep <;> simp [writeHeap, hheap, glue]
  · rw [content_of_heap hheap, content_of_heap rfl]

theorem glue_needsSep {self : VaryBuf} (h : self.Ok) (tok : Bytes) :
    self.content ++ glue self.needsSep ++ tok =
      TokenList.joinOnto [comma, space] self.content tok := by
  rw [needsSep_eq h, TokenList.joinOnto]
  cases self.content.isEmpty <;> rfl

/-- A write keeps the buffers in shape and appends the token, separated
from what is there. It succeeds on either side of the stack's end. -/
theorem write_ok {self : VaryBuf} (h : self.Ok) (tok : Bytes) :
    ∃ buf, self.write tok = .ok buf ∧ buf.Ok ∧
      buf.content = TokenList.joinOnto [comma, space] self.content tok := by
  rw [← glue_needsSep h]
  cases hheap : self.heap with
  | some v =>
    have hwrite : self.write tok = self.writeHeap self.needsSep tok := by simp [write, hheap]
    rw [hwrite]
    exact writeHeap_ok h hheap self.needsSep tok
  | none =>
    by_cases hfits : self.len + (sepLen self.needsSep + tok.length) ≤ dedupVaryStack
    · have hwrite : self.write tok = self.writeStack self.needsSep tok := by
        simp [write, hheap, hfits]
      rw [hwrite]
      exact writeStack_ok h hheap self.needsSep hfits
    · have hwrite : self.write tok =
          writeHeap { self with heap := some self.content } self.needsSep tok := by
        simp [write, hheap, hfits, spill_ok h hheap, bind, Except.bind]
      rw [hwrite]
      have hok : Ok { self with heap := some self.content } := ⟨h.size, by simp⟩
      exact writeHeap_ok hok rfl self.needsSep tok

end VaryBuf

/-! ## The tokens of header values -/

/-- The trimmed, non-empty, comma-separated tokens. -/
def commaTokens (s : Bytes) : List Bytes := TokenList.tokens comma isAsciiWhitespace s

/-- The tokens of several values of one header. -/
def listedTokens (vs : List HeaderValue) : List Bytes := vs.flatMap fun v => commaTokens v.bytes

/-- `t` is one of the tokens, up to ASCII case. -/
def listed (vs : List HeaderValue) (t : Bytes) : Bool :=
  (listedTokens vs).any fun e => eqIgnoreAsciiCase e t

theorem isPad_space : TokenList.IsPad comma isAsciiWhitespace [space] := by
  intro b hb
  rw [List.mem_singleton.mp hb]
  decide

theorem isPad_nil : TokenList.IsPad comma isAsciiWhitespace [] := by
  intro b hb
  simp at hb

@[simp] theorem eqIgnoreAsciiCase_self (t : Bytes) : eqIgnoreAsciiCase t t = true := by
  simp [eqIgnoreAsciiCase]

theorem listedTokens_append (vs ws : List HeaderValue) :
    listedTokens (vs ++ ws) = listedTokens vs ++ listedTokens ws := List.flatMap_append

theorem listed_append (vs ws : List HeaderValue) (t : Bytes) :
    listed (vs ++ ws) t = (listed vs t || listed ws t) := by
  simp [listed, listedTokens_append]

theorem listed_of_mem {vs : List HeaderValue} {t : Bytes} (h : t ∈ listedTokens vs) :
    listed vs t = true :=
  List.any_eq_true.mpr ⟨t, h, eqIgnoreAsciiCase_self t⟩

/-! ## `dedup_vary` refines its specification -/

/-- The tokens of `v` that `vs` does not list. -/
def unlisted (vs : List HeaderValue) (v : HeaderValue) : List Bytes :=
  (commaTokens v.bytes).filter fun t => !listed vs t

/-- Tokens of a header value, joined again, may stand in a header value. -/
theorem intercalate_tokens_valid {glue : Bytes} (hglue : glue.all isHeaderValueByte = true)
    (v : HeaderValue) (keep : Bytes → Bool) :
    ∀ b ∈ List.intercalate glue ((commaTokens v.bytes).filter keep),
      isHeaderValueByte b = true := by
  intro b hb
  rcases TokenList.mem_intercalate hb with h | ⟨t, ht, hb⟩
  · exact List.all_eq_true.mp hglue b h
  · exact v.isHeaderValueByte_of_mem (TokenList.mem_of_mem_tokens (List.mem_filter.mp ht).1 hb)

theorem unlisted_valid (vs : List HeaderValue) (v : HeaderValue) :
    ∀ b ∈ List.intercalate [comma, space] (unlisted vs v), isHeaderValueByte b = true :=
  intercalate_tokens_valid (by decide) v fun t => !listed vs t

/-- What to append to the `Vary` values `vs` so that they cover `v`: all of
`v` when there are none, else the unlisted tokens, if there are any. -/
def dedupSpec (vs : List HeaderValue) (v : HeaderValue) : Option HeaderValue :=
  if vs.isEmpty then some v
  else if (unlisted vs v).isEmpty then none
  else some (.expectBytes _ (unlisted_valid vs v))

theorem unlisted_ne_nil {vs : List HeaderValue} {v : HeaderValue} {t : Bytes}
    (h : t ∈ unlisted vs v) : t ≠ [] :=
  (TokenList.clean_of_mem_tokens (List.mem_filter.mp h).1).ne_nil

section Dedup

variable [HttpCrate]

theorem alreadyListed_eq (target : HeaderMap) {tok : Bytes} (h : tok ≠ []) :
    alreadyListed target tok = listed (target.getAll header.vary) tok := by
  rw [Bool.eq_iff_iff]
  simp only [alreadyListed, listed, listedTokens, List.any_eq_true, List.mem_flatMap]
  constructor
  · intro hlisted
    obtain ⟨e, ⟨v, hv, he⟩, heq⟩ := hlisted
    have hne : trimAscii e ≠ [] := by
      intro hnil
      simp only [hnil, eqIgnoreAsciiCase, List.map_nil, beq_iff_eq] at heq
      exact h (List.map_eq_nil_iff.mp heq.symm)
    exact ⟨trimAscii e, ⟨v, hv, TokenList.mem_tokens.mpr ⟨hne, e, he, rfl⟩⟩, heq⟩
  · intro hlisted
    obtain ⟨t, ⟨v, hv, ht⟩, heq⟩ := hlisted
    obtain ⟨_, e, he, rfl⟩ := TokenList.mem_tokens.mp ht
    exact ⟨e, ⟨v, hv, he⟩, heq⟩

/-- The loop writes the trimmed, non-empty, unlisted tokens, in order. -/
theorem dedupVaryLoop_ok (target : HeaderMap) (toks : List Bytes) {buf : VaryBuf} (h : buf.Ok) :
    ∃ buf', dedupVaryLoop target toks buf = .ok buf' ∧ buf'.Ok ∧
      buf'.content = (((toks.map trimAscii).filter fun t => !t.isEmpty).filter
        fun t => !listed (target.getAll header.vary) t).foldl
          (TokenList.joinOnto [comma, space]) buf.content := by
  induction toks generalizing buf with
  | nil => exact ⟨buf, rfl, h, rfl⟩
  | cons tok rest ih =>
    by_cases hempty : trimAscii tok = []
    · obtain ⟨buf', hloop, hok, hcontent⟩ := ih h
      exact ⟨buf', by simp [dedupVaryLoop, hempty, hloop], hok, by simp [hempty, hcontent]⟩
    · have hlisted := alreadyListed_eq target hempty
      by_cases hl : listed (target.getAll header.vary) (trimAscii tok) = true
      · obtain ⟨buf', hloop, hok, hcontent⟩ := ih h
        exact ⟨buf', by simp [dedupVaryLoop, hlisted, hl, hloop], hok,
          by simp [hempty, hl, hcontent]⟩
      · obtain ⟨buf₁, hwrite, hok₁, hcontent₁⟩ := VaryBuf.write_ok h (trimAscii tok)
        obtain ⟨buf', hloop, hok, hcontent⟩ := ih hok₁
        refine ⟨buf', ?_, hok, ?_⟩
        · simp [dedupVaryLoop, hempty, hlisted, hl, hwrite, hloop, bind, Except.bind]
        · simp [hempty, hl, hcontent, hcontent₁]

/-- From an empty buffer the loop over a value writes its unlisted tokens,
joined with `, `. -/
theorem dedupVaryLoop_new (target : HeaderMap) (v : HeaderValue) :
    ∃ buf, dedupVaryLoop target (v.bytes.splitOn comma) .new = .ok buf ∧ buf.Ok ∧
      buf.content =
        List.intercalate [comma, space] (unlisted (target.getAll header.vary) v) := by
  obtain ⟨buf, hloop, hok, hcontent⟩ :=
    dedupVaryLoop_ok target (v.bytes.splitOn comma) VaryBuf.ok_new
  refine ⟨buf, hloop, hok, ?_⟩
  rw [hcontent, VaryBuf.content_new]
  exact TokenList.foldl_joinOnto [comma, space] fun _ => unlisted_ne_nil

/-- `dedup_vary` never panics and computes its specification. -/
theorem dedupVary_eq (target : HeaderMap) (v : HeaderValue) :
    dedupVary target v = .ok (dedupSpec (target.getAll header.vary) v) := by
  obtain ⟨buf, hloop, hok, hbytes⟩ := dedupVaryLoop_new target v
  unfold dedupVary dedupSpec
  cases hvs : target.getAll header.vary with
  | nil => simp [HeaderMap.get, hvs]
  | cons w ws =>
    have hget : (target.get header.vary).isNone = false := by simp [HeaderMap.get, hvs]
    rw [hvs] at hbytes
    simp only [hget, Bool.false_eq_true, if_false, hloop, bind, Except.bind,
      VaryBuf.bytes_eq hok, hbytes, List.isEmpty_cons]
    rw [TokenList.isEmpty_intercalate fun t ht => unlisted_ne_nil ht]
    split
    · rfl
    · simp [HeaderValue.expectBytes]

end Dedup

/-! ## Merging `Vary` values -/

/-- The `Vary` values after merging the values of `l` one after the other. -/
def mergeVary (vs l : List HeaderValue) : List HeaderValue :=
  l.foldl (fun vs v => vs ++ (dedupSpec vs v).toList) vs

@[simp] theorem mergeVary_nil (vs : List HeaderValue) : mergeVary vs [] = vs := rfl

theorem mergeVary_cons (vs : List HeaderValue) (v : HeaderValue) (l : List HeaderValue) :
    mergeVary vs (v :: l) = mergeVary (vs ++ (dedupSpec vs v).toList) l := rfl

theorem commaTokens_unlisted (vs : List HeaderValue) (v : HeaderValue) :
    commaTokens (List.intercalate [comma, space] (unlisted vs v)) = unlisted vs v :=
  TokenList.tokens_intercalate isPad_space fun _ ht =>
    TokenList.clean_of_mem_tokens (List.mem_filter.mp ht).1

/-- The tokens a merged value adds. -/
theorem listedTokens_dedupSpec (vs : List HeaderValue) (v : HeaderValue) :
    listedTokens (dedupSpec vs v).toList = unlisted vs v := by
  unfold dedupSpec
  cases vs with
  | nil => simp [listedTokens, unlisted, listed]
  | cons w ws =>
    simp only [List.isEmpty_cons, Bool.false_eq_true, if_false]
    split
    · rename_i h
      simpa [listedTokens] using h
    · simp [listedTokens, commaTokens_unlisted]

/-- A merged value is covered. -/
theorem listed_dedupSpec {vs : List HeaderValue} {v : HeaderValue} {t : Bytes}
    (h : t ∈ commaTokens v.bytes) : listed (vs ++ (dedupSpec vs v).toList) t = true := by
  rw [listed_append]
  cases hl : listed vs t with
  | true => rfl
  | false =>
    refine listed_of_mem ?_
    rw [listedTokens_dedupSpec]
    exact List.mem_filter.mpr ⟨h, by simp [hl]⟩

theorem append_dedupSpec_ne_nil (vs : List HeaderValue) (v : HeaderValue) :
    vs ++ (dedupSpec vs v).toList ≠ [] := by
  cases vs <;> simp [dedupSpec]

/-- Nothing is appended to values that cover `v`. -/
theorem dedupSpec_eq_none {vs : List HeaderValue} {v : HeaderValue} (hne : vs ≠ [])
    (h : ∀ t ∈ commaTokens v.bytes, listed vs t = true) : dedupSpec vs v = none := by
  have hu : unlisted vs v = [] := List.filter_eq_nil_iff.mpr fun t ht => by simp [h t ht]
  rw [dedupSpec, if_neg (by simpa using hne), if_pos (by simp [hu])]

/-- `vs` needs no merge of `v`: it covers `v`. -/
def Covers (vs : List HeaderValue) (v : HeaderValue) : Prop :=
  vs ≠ [] ∧ ∀ t ∈ commaTokens v.bytes, listed vs t = true

theorem Covers.append {vs : List HeaderValue} {v : HeaderValue} (h : Covers vs v)
    (ws : List HeaderValue) : Covers (vs ++ ws) v :=
  ⟨by simp [h.1], fun t ht => by rw [listed_append, h.2 t ht, Bool.true_or]⟩

theorem Covers.mergeVary {vs : List HeaderValue} {v : HeaderValue} (h : Covers vs v)
    (l : List HeaderValue) : Covers (mergeVary vs l) v := by
  induction l generalizing vs with
  | nil => exact h
  | cons w l ih => exact ih (h.append _)

/-- Every merged value is covered at the end. -/
theorem covers_mergeVary {l : List HeaderValue} {v : HeaderValue} (vs : List HeaderValue)
    (h : v ∈ l) : Covers (mergeVary vs l) v := by
  induction l generalizing vs with
  | nil => simp at h
  | cons w l ih =>
    rw [mergeVary_cons]
    rcases List.mem_cons.mp h with rfl | h
    · exact Covers.mergeVary ⟨append_dedupSpec_ne_nil vs v, fun t ht => listed_dedupSpec ht⟩ l
    · exact ih _ h

theorem mergeVary_eq_self {vs l : List HeaderValue} (h : ∀ v ∈ l, Covers vs v) :
    mergeVary vs l = vs := by
  induction l with
  | nil => rfl
  | cons v l ih =>
    obtain ⟨hne, hlisted⟩ := h v (by simp)
    rw [mergeVary_cons, dedupSpec_eq_none hne hlisted]
    simpa using ih fun w hw => h w (List.mem_cons_of_mem v hw)

/-- A second merge of the same values adds nothing. -/
theorem mergeVary_self (vs l : List HeaderValue) :
    mergeVary (mergeVary vs l) l = mergeVary vs l :=
  mergeVary_eq_self fun _ hv => covers_mergeVary vs hv

/-- One value merged into the `Vary` values adds at most one. -/
theorem exists_mergeVary_toList (vs : List HeaderValue) (v : Option HeaderValue) :
    ∃ added : List HeaderValue, added.length ≤ 1 ∧ mergeVary vs v.toList = vs ++ added := by
  cases v with
  | none => exact ⟨[], by simp, by simp⟩
  | some v =>
    refine ⟨(dedupSpec vs v).toList, ?_, rfl⟩
    cases dedupSpec vs v <;> simp

/-! ## Counting tokens -/

/-- How often a token occurs, up to ASCII case. -/
def countToken (t : Bytes) (toks : List Bytes) : Nat :=
  toks.countP fun e => eqIgnoreAsciiCase e t

theorem countToken_pos_iff {vs : List HeaderValue} {t : Bytes} :
    0 < countToken t (listedTokens vs) ↔ listed vs t = true := by
  rw [countToken, List.countP_pos_iff, listed, List.any_eq_true]

/-- Tokens that are equal up to case are listed alike. -/
theorem listed_congr {vs : List HeaderValue} {s t : Bytes} (h : eqIgnoreAsciiCase s t = true) :
    listed vs s = listed vs t := by
  simp only [eqIgnoreAsciiCase, beq_iff_eq] at h
  simp [listed, eqIgnoreAsciiCase, h]

/-- The unlisted tokens hold every occurrence of a token that is not
listed, and no occurrence of one that is. -/
theorem countToken_unlisted (vs : List HeaderValue) (v : HeaderValue) (t : Bytes) :
    countToken t (unlisted vs v) =
      if listed vs t then 0 else countToken t (commaTokens v.bytes) := by
  rw [countToken, unlisted, List.countP_filter]
  cases hl : listed vs t with
  | true =>
    rw [if_pos rfl, List.countP_eq_zero]
    intro e _
    by_cases he : eqIgnoreAsciiCase e t = true
    · simp [listed_congr he, hl]
    · simp [he]
  | false =>
    rw [if_neg Bool.false_ne_true, countToken]
    apply List.countP_congr
    intro e _
    by_cases he : eqIgnoreAsciiCase e t = true
    · simp [listed_congr he, hl]
    · simp [he]

/-- Merging one value leaves the count of a listed token alone, and gives
any other token its count in the merged value. -/
theorem countToken_mergeVary (vs : List HeaderValue) (v : HeaderValue) (t : Bytes) :
    countToken t (listedTokens (mergeVary vs [v])) =
      if 0 < countToken t (listedTokens vs) then countToken t (listedTokens vs)
      else countToken t (commaTokens v.bytes) := by
  have hsum : countToken t (listedTokens (mergeVary vs [v])) =
      countToken t (listedTokens vs) + countToken t (unlisted vs v) := by
    rw [mergeVary_cons, mergeVary_nil, listedTokens_append, listedTokens_dedupSpec]
    simp only [countToken, List.countP_append]
  rw [hsum, countToken_unlisted]
  by_cases h : listed vs t = true
  · rw [if_pos h, if_pos (countToken_pos_iff.mpr h), Nat.add_zero]
  · have hpos := countToken_pos_iff.not.mpr h
    rw [if_neg h, if_neg hpos, Nat.eq_zero_of_not_pos hpos, Nat.zero_add]

/-! ## Merging a list of pairs into a header map -/

section Merge

variable [HttpCrate]

/-- One pass of the merge loop, on values. -/
def mergeOne (m : HeaderMap) (p : Pair) : HeaderMap :=
  if p.1 = header.vary then
    match dedupSpec (m.getAll header.vary) p.2 with
    | some v => m.append header.vary v
    | none => m
  else m.insert p.1 p.2

/-- The header map after merging the pairs of `l`. -/
def HeaderMap.merge (m : HeaderMap) (l : List Pair) : HeaderMap := l.foldl mergeOne m

@[simp] theorem merge_nil (m : HeaderMap) : m.merge [] = m := rfl

theorem merge_cons (m : HeaderMap) (p : Pair) (l : List Pair) :
    m.merge (p :: l) = (mergeOne m p).merge l := rfl

theorem mergeHeadersLoop_eq (l : List Pair) (m : HeaderMap) :
    mergeHeadersLoop l m = .ok (m.merge l) := by
  induction l generalizing m with
  | nil => rfl
  | cons p l ih =>
    obtain ⟨n, v⟩ := p
    rw [merge_cons]
    by_cases hn : n = header.vary
    · subst hn
      simp only [mergeHeadersLoop, if_true, dedupVary_eq, bind, Except.bind, mergeOne]
      cases dedupSpec (HeaderMap.getAll m header.vary) v <;> exact ih _
    · simp only [mergeHeadersLoop, if_neg hn, mergeOne]
      exact ih _

/-- `merge_headers` never panics, and is the fold over the stored pairs. -/
theorem mergeHeaders_eq (m : HeaderMap) (buf : HeaderBuf) :
    mergeHeaders m buf = .ok (m.merge buf.iter) :=
  mergeHeadersLoop_eq buf.iter m

theorem getAll_mergeOne_vary (m : HeaderMap) (v : HeaderValue) (n : HeaderName) :
    (mergeOne m (header.vary, v)).getAll n =
      if n = header.vary then m.getAll n ++ (dedupSpec (m.getAll n) v).toList
      else m.getAll n := by
  simp only [mergeOne, if_true]
  by_cases hn : n = header.vary
  · subst hn
    cases dedupSpec (m.getAll header.vary) v <;> simp [HeaderMap.getAll_append]
  · cases dedupSpec (m.getAll header.vary) v <;> simp [hn, HeaderMap.getAll_append]

theorem getAll_mergeOne_of_ne (m : HeaderMap) {p : Pair} (hp : p.1 ≠ header.vary)
    (n : HeaderName) : (mergeOne m p).getAll n = if n = p.1 then [p.2] else m.getAll n := by
  rw [mergeOne, if_neg hp, HeaderMap.getAll_insert]

/-- The `Vary` values of the pairs of `l`. -/
def varyValues (l : List Pair) : List HeaderValue :=
  (l.filter fun p => p.1 = header.vary).map Prod.snd

/-- The `Vary` values are merged, whatever is inserted between them. -/
theorem getAll_merge_vary (m : HeaderMap) (l : List Pair) :
    (m.merge l).getAll header.vary = mergeVary (m.getAll header.vary) (varyValues l) := by
  induction l generalizing m with
  | nil => rfl
  | cons p l ih =>
    obtain ⟨n, v⟩ := p
    rw [merge_cons, ih]
    by_cases hn : n = header.vary
    · subst hn
      rw [getAll_mergeOne_vary, if_pos rfl]
      simp [varyValues, mergeVary_cons]
    · rw [getAll_mergeOne_of_ne m hn, if_neg fun e => hn e.symm]
      simp [varyValues, hn]

/-- A name other than `Vary` ends up with its last merged value, or keeps
what it had. -/
theorem getAll_merge_of_ne (m : HeaderMap) (l : List Pair) {n : HeaderName}
    (hn : n ≠ header.vary) :
    (m.merge l).getAll n =
      match (l.filter fun p => p.1 = n).getLast? with
      | some p => [p.2]
      | none => m.getAll n := by
  induction l generalizing m with
  | nil => rfl
  | cons p l ih =>
    rw [merge_cons, ih]
    by_cases hp : p.1 = n
    · have hv : p.1 ≠ header.vary := fun e => hn (hp ▸ e)
      rw [getAll_mergeOne_of_ne m hv, if_pos hp.symm, List.filter_cons_of_pos (by simpa using hp),
        List.getLast?_cons]
      cases (l.filter fun p => p.1 = n).getLast? <;> rfl
    · have hone : (mergeOne m p).getAll n = m.getAll n := by
        by_cases hv : p.1 = header.vary
        · rw [show p = (header.vary, p.2) from Prod.ext hv rfl, getAll_mergeOne_vary, if_neg hn]
        · rw [getAll_mergeOne_of_ne m hv, if_neg fun e => hp e.symm]
      rw [hone, List.filter_cons_of_neg (by simpa using hp)]

/-- The values of a name after a merge depend on its values before. -/
theorem getAll_merge_congr {m m' : HeaderMap} {n : HeaderName} (h : m.getAll n = m'.getAll n)
    (l : List Pair) : (m.merge l).getAll n = (m'.merge l).getAll n := by
  by_cases hn : n = header.vary
  · subst hn
    rw [getAll_merge_vary, getAll_merge_vary, h]
  · rw [getAll_merge_of_ne m l hn, getAll_merge_of_ne m' l hn, h]

/-- A name that is not merged keeps its values. -/
theorem getAll_merge_of_not_mem (m : HeaderMap) {l : List Pair} {n : HeaderName}
    (h : n ∉ l.map Prod.fst) : (m.merge l).getAll n = m.getAll n := by
  have hfilter : (l.filter fun p => p.1 = n) = [] :=
    List.filter_eq_nil_iff.mpr fun p hp e => h (List.mem_map.mpr ⟨p, hp, by simpa using e⟩)
  by_cases hn : n = header.vary
  · subst hn
    rw [getAll_merge_vary, varyValues, hfilter]
    rfl
  · rw [getAll_merge_of_ne m l hn, hfilter]
    rfl

/-- A merged name other than `Vary` has the merged value and no other. -/
theorem getAll_merge_of_mem (m : HeaderMap) {l : List Pair} {n : HeaderName} {v : HeaderValue}
    (hn : n ≠ header.vary) (hnodup : (l.map Prod.fst).Nodup) (h : (n, v) ∈ l) :
    (m.merge l).getAll n = [v] := by
  have hmem : (n, v) ∈ l.filter fun p => p.1 = n := List.mem_filter.mpr ⟨h, by simp⟩
  have hone : ∀ p ∈ l.filter fun p => p.1 = n, p = (n, v) := by
    intro p hp
    obtain ⟨hpl, hpn⟩ := List.mem_filter.mp hp
    exact List.inj_on_of_nodup_map hnodup hpl h (by simpa using hpn)
  rw [getAll_merge_of_ne m l hn]
  cases hlast : (l.filter fun p => p.1 = n).getLast? with
  | none => rw [List.getLast?_eq_none_iff] at hlast; simp [hlast] at hmem
  | some p => rw [hone p (List.mem_of_mem_getLast? hlast)]

/-- Merging the same pairs a second time changes no values. -/
theorem getAll_merge_merge (m : HeaderMap) (l : List Pair) (n : HeaderName) :
    ((m.merge l).merge l).getAll n = (m.merge l).getAll n := by
  by_cases hn : n = header.vary
  · subst hn
    simp only [getAll_merge_vary, mergeVary_self]
  · rw [getAll_merge_of_ne _ l hn]
    cases hlast : (l.filter fun p => p.1 = n).getLast? with
    | none => rfl
    | some p => rw [getAll_merge_of_ne m l hn, hlast]

end Merge

end HyperCors
