/-
HyperCors.KnobTheorems — what the knobs emit, read off their values.

The reflecting knobs are characterised by the tokens of the request
header they reflect: `commaTokens_mirrorSanitized` and
`mirrorSanitized_eq_none_iff` for the request headers,
`originListMatches_iff` for an allow-list of origins.
`LazyHeaders.pairs_eq_nil_iff` says on which requests the knobs behind
the verdict emit nothing at all.
-/
import HyperCors.Decision

namespace HyperCors

/-! ## Sanitized request headers -/

/-- The valid tokens of a request header. -/
def validTokens (raw : HeaderValue) : List Bytes := (commaTokens raw.bytes).filter isValidToken

theorem clean_of_isValidToken {t : Bytes} (h : isValidToken t = true) :
    TokenList.Clean comma isAsciiWhitespace t := by
  simp only [isValidToken, Bool.and_eq_true, Bool.not_eq_true', List.isEmpty_eq_false_iff,
    List.all_eq_true] at h
  exact TokenList.Clean.of_forall h.1 fun b hb => (isTokenByte_visible (h.2 b hb)).2

/-- The loop writes the trimmed segments that are valid tokens. -/
theorem mirrorSanitizedLoop_eq (toks : List Bytes) (out : Bytes) :
    mirrorSanitizedLoop toks out =
      ((toks.map trimAscii).filter isValidToken).foldl (TokenList.joinOnto [comma]) out := by
  induction toks generalizing out with
  | nil => rfl
  | cons tok rest ih =>
    cases hvalid : isValidToken (trimAscii tok) with
    | false => simp [mirrorSanitizedLoop, hvalid, ih]
    | true =>
      have hstep : (if !out.isEmpty then out ++ [comma] else out) ++ trimAscii tok =
          TokenList.joinOnto [comma] out (trimAscii tok) := by
        cases out <;> simp [TokenList.joinOnto]
      simp [mirrorSanitizedLoop, hvalid, ih, ← hstep]

/-- Empty segments are no valid tokens, so dropping them first makes no
difference. -/
theorem validTokens_eq (raw : HeaderValue) :
    validTokens raw = ((raw.bytes.splitOn comma).map trimAscii).filter isValidToken := by
  rw [validTokens, commaTokens, TokenList.tokens, List.filter_filter]
  apply List.filter_congr
  intro t _
  cases t <;> simp [isValidToken]

theorem commaTokens_join_validTokens (raw : HeaderValue) :
    commaTokens (List.intercalate [comma] (validTokens raw)) = validTokens raw :=
  TokenList.tokens_intercalate isPad_nil fun _ ht =>
    clean_of_isValidToken (List.mem_filter.mp ht).2

theorem validTokens_ne_nil {raw : HeaderValue} {t : Bytes} (h : t ∈ validTokens raw) : t ≠ [] :=
  (clean_of_isValidToken (List.mem_filter.mp h).2).ne_nil

/-- The slow path writes the valid tokens, joined with `,`. -/
theorem mirrorSanitizedLoop_splitOn (raw : HeaderValue) :
    mirrorSanitizedLoop (raw.bytes.splitOn comma) [] =
      List.intercalate [comma] (validTokens raw) := by
  rw [mirrorSanitizedLoop_eq, ← validTokens_eq]
  exact TokenList.foldl_joinOnto [comma] fun _ => validTokens_ne_nil

/-- On the fast path every segment is a valid token as it stands. -/
theorem validTokens_of_all {raw : HeaderValue}
    (h : (raw.bytes.splitOn comma).all isValidToken = true) :
    validTokens raw = raw.bytes.splitOn comma := by
  have hvalid := List.all_eq_true.mp h
  have htrim : (raw.bytes.splitOn comma).map trimAscii = raw.bytes.splitOn comma := by
    conv => rhs; rw [← List.map_id (raw.bytes.splitOn comma)]
    exact List.map_congr_left fun t ht => (clean_of_isValidToken (hvalid t ht)).trimmed
  rw [validTokens_eq, htrim, List.filter_eq_self]
  exact hvalid

/-- A header without a valid token is not mirrored; any other is mirrored
to its valid tokens, in their order. -/
theorem mirrorSanitized_spec (raw : HeaderValue) :
    if validTokens raw = [] then mirrorSanitized raw = none
    else ∃ v, mirrorSanitized raw = some v ∧
      v.bytes = List.intercalate [comma] (validTokens raw) := by
  cases hfast : (raw.bytes.splitOn comma).all isValidToken with
  | true =>
    have hsegments := validTokens_of_all hfast
    rw [if_neg (by simp [hsegments]), hsegments, List.intercalate_splitOn]
    exact ⟨raw, by simp only [mirrorSanitized, hfast, if_true], rfl⟩
  | false =>
    have hempty : (List.intercalate [comma] (validTokens raw)).isEmpty =
        (validTokens raw).isEmpty :=
      TokenList.isEmpty_intercalate fun _ => validTokens_ne_nil
    have hvalid : ∀ b ∈ List.intercalate [comma] (validTokens raw), isHeaderValueByte b = true :=
      intercalate_tokens_valid (by decide) raw isValidToken
    simp only [mirrorSanitized, hfast, Bool.false_eq_true, if_false, mirrorSanitizedLoop_splitOn,
      hempty, HeaderValue.fromBytes_eq_expectBytes hvalid, List.isEmpty_iff]
    split
    · rfl
    · exact ⟨_, rfl, HeaderValue.bytes_expectBytes _ hvalid⟩

theorem mirrorSanitized_eq_none_iff {raw : HeaderValue} :
    mirrorSanitized raw = none ↔ validTokens raw = [] := by
  have hspec := mirrorSanitized_spec raw
  split at hspec
  · simp_all
  · obtain ⟨v, hv, _⟩ := hspec
    simp_all

theorem validTokens_eq_nil_iff {raw : HeaderValue} :
    validTokens raw = [] ↔ ∀ t ∈ commaTokens raw.bytes, isValidToken t = false := by
  simp [validTokens, List.filter_eq_nil_iff]

theorem bytes_of_mirrorSanitized {raw v : HeaderValue} (h : mirrorSanitized raw = some v) :
    v.bytes = List.intercalate [comma] (validTokens raw) := by
  have hspec := mirrorSanitized_spec raw
  split at hspec
  · rw [h] at hspec
    cases hspec
  · obtain ⟨w, hw, hbytes⟩ := hspec
    rw [h, Option.some.injEq] at hw
    rw [hw, hbytes]

theorem commaTokens_mirrorSanitized {raw v : HeaderValue} (h : mirrorSanitized raw = some v) :
    commaTokens v.bytes = validTokens raw := by
  rw [bytes_of_mirrorSanitized h, commaTokens_join_validTokens]

/-! ## Allow-lists of origins -/

/-- The tokens of an `Origin` value: separated by spaces, trimmed. -/
def originTokens (origin : HeaderValue) : List Bytes :=
  TokenList.tokens space isAsciiWhitespace origin.bytes

theorem originListMatchesLoop_iff (allowed : List HeaderValue) (toks : List Bytes)
    (sawToken : Bool) :
    originListMatchesLoop allowed toks sawToken = true ↔
      (∀ t ∈ (toks.map trimAscii).filter fun t => !t.isEmpty, ∃ a ∈ allowed, a.bytes = t) ∧
        (sawToken = true ∨ ((toks.map trimAscii).filter fun t => !t.isEmpty) ≠ []) := by
  induction toks generalizing sawToken with
  | nil => simp [originListMatchesLoop]
  | cons tok rest ih =>
    cases hempty : (trimAscii tok).isEmpty with
    | true =>
      rw [originListMatchesLoop]
      simp only [hempty, if_true, ih, List.map_cons]
      rw [List.filter_cons_of_neg (by simp [hempty])]
    | false =>
      rw [originListMatchesLoop]
      simp only [hempty, Bool.false_eq_true, if_false, List.map_cons]
      rw [List.filter_cons_of_pos (by simp [hempty])]
      cases hany : allowed.any fun a => a.bytes == trimAscii tok with
      | false => simp_all
      | true =>
        obtain ⟨a, ha, heq⟩ := List.any_eq_true.mp hany
        simp only [Bool.not_true, Bool.false_eq_true, if_false, ih]
        simp [show ∃ a ∈ allowed, a.bytes = trimAscii tok from ⟨a, ha, by simpa using heq⟩]

/-- A list matches an `Origin` value with at least one token, all of which
it holds. -/
theorem originListMatches_iff {allowed : List HeaderValue} {origin : HeaderValue} :
    originListMatches allowed origin = true ↔
      (∀ t ∈ originTokens origin, ∃ a ∈ allowed, a.bytes = t) ∧ originTokens origin ≠ [] := by
  rw [originListMatches, originListMatchesLoop_iff]
  simp only [Bool.false_eq_true, false_or]
  rfl

/-! ## Starred values -/

/-- One of the comma-separated elements is `*`. -/
abbrev Starred (v : HeaderValue) : Prop := ascii "*" ∈ commaTokens v.bytes

theorem starred_of_mirrorSanitized {raw v : HeaderValue} (h : mirrorSanitized raw = some v)
    (hstar : Starred v) : Starred raw := by
  rw [Starred, commaTokens_mirrorSanitized h] at hstar
  exact (List.mem_filter.mp hstar).1

/-- An `Origin` value that a list matches is starred only if the list holds
a starred value. -/
theorem exists_starred_of_originListMatches {allowed : List HeaderValue} {origin : HeaderValue}
    (h : originListMatches allowed origin = true) (hstar : Starred origin) :
    ∃ a ∈ allowed, Starred a := by
  have hvisible : ∀ b ∈ ascii "*", isAsciiWhitespace b = false := by
    intro b hb
    rw [List.mem_singleton.mp hb]
    decide
  obtain ⟨t, ht, hmem⟩ := TokenList.exists_mem_tokens_of_splitOn (c := space)
    (by decide) (by decide) hvisible (by decide) hstar
  obtain ⟨a, ha, rfl⟩ := (originListMatches_iff.mp h).1 t ht
  exact ⟨a, ha, hmem⟩

section Knobs

variable [HttpCrate]

/-! ## When the knobs emit nothing -/

/-- No method is allowed: none is configured, or the requested one is not a
token. -/
def AllowMethods.Silent (self : AllowMethods) (parts : Parts) : Prop :=
  match self with
  | .const value => value = none
  | .mirrorRequest => ∀ raw, parts.headers.get header.accessControlRequestMethod = some raw →
      isValidToken raw.bytes = false

/-- No header is allowed: none is configured, or none of the requested ones
is a token. -/
def AllowHeaders.Silent (self : AllowHeaders) (parts : Parts) : Prop :=
  match self with
  | .const value => value = none
  | .mirrorRequest => ∀ raw, parts.headers.get header.accessControlRequestHeaders = some raw →
      ∀ t ∈ commaTokens raw.bytes, isValidToken t = false

/-- The knobs behind the verdict have nothing to say about the request. -/
def LazyHeaders.Silent (self : LazyHeaders) (parts : Parts) (origin : Option HeaderValue)
    (isPreflight : Bool) : Prop :=
  self.allowCredentials.allows origin parts = false ∧
    if isPreflight then
      self.allowMethods.Silent parts ∧ self.allowHeaders.Silent parts ∧ self.maxAge = .none
    else self.exposeHeaders = .const none

theorem AllowCredentials.toHeader_eq_none_iff {self : AllowCredentials}
    {origin : Option HeaderValue} {parts : Parts} :
    self.toHeader origin parts = none ↔ self.allows origin parts = false := by
  rw [toHeader_eq]
  cases self.allows origin parts <;> simp

theorem AllowMethods.toHeader_eq_none_iff {self : AllowMethods} {parts : Parts} :
    self.toHeader parts = none ↔ self.Silent parts := by
  cases self with
  | const value => simp [toHeader, Silent]
  | mirrorRequest =>
    simp only [toHeader, Silent, Option.map_eq_none_iff]
    cases parts.headers.get header.accessControlRequestMethod with
    | none => simp
    | some raw => simp

theorem AllowHeaders.toHeader_eq_none_iff {self : AllowHeaders} {parts : Parts} :
    self.toHeader parts = none ↔ self.Silent parts := by
  cases self with
  | const value => simp [toHeader, Silent]
  | mirrorRequest =>
    simp only [toHeader, Silent, Option.map_eq_none_iff]
    cases parts.headers.get header.accessControlRequestHeaders with
    | none => simp
    | some raw => simp [mirrorSanitized_eq_none_iff, validTokens_eq_nil_iff]

theorem LazyHeaders.pairs_eq_nil_iff {self : LazyHeaders} {parts : Parts}
    {origin : Option HeaderValue} {isPreflight : Bool} :
    self.pairs parts origin isPreflight = [] ↔ self.Silent parts origin isPreflight := by
  have hage : self.maxAge.toHeader origin parts = none ↔ self.maxAge = .none := by
    obtain ⟨⟨value⟩⟩ := self.maxAge
    simp [MaxAge.toHeader, MaxAge.none]
  have hexpose : self.exposeHeaders.toHeader parts = none ↔ self.exposeHeaders = .const none := by
    cases hm : self.exposeHeaders
    simp [ExposeHeaders.toHeader]
  cases isPreflight <;>
    simp [pairs, Silent, AllowCredentials.toHeader_eq_none_iff, AllowMethods.toHeader_eq_none_iff,
      AllowHeaders.toHeader_eq_none_iff, hage, hexpose]

/-! ## Where a value comes from -/

theorem AllowMethods.source {self : AllowMethods} {parts : Parts} {p : Pair}
    (h : self.toHeader parts = some p) :
    self = .const (some p.2) ∨ (self = .mirrorRequest ∧
      parts.headers.get header.accessControlRequestMethod = some p.2) := by
  obtain ⟨v, hv, rfl⟩ := Option.map_eq_some_iff.mp h
  cases self with
  | const value => exact Or.inl (by rw [show value = some v from hv])
  | mirrorRequest =>
    refine Or.inr ⟨rfl, ?_⟩
    cases hraw : parts.headers.get header.accessControlRequestMethod with
    | none => simp [hraw] at hv
    | some raw =>
      simp only [hraw] at hv
      split at hv
      · exact hv
      · cases hv

theorem AllowHeaders.source {self : AllowHeaders} {parts : Parts} {p : Pair}
    (h : self.toHeader parts = some p) :
    self = .const (some p.2) ∨ (self = .mirrorRequest ∧
      ∃ raw, parts.headers.get header.accessControlRequestHeaders = some raw ∧
        mirrorSanitized raw = some p.2) := by
  obtain ⟨v, hv, rfl⟩ := Option.map_eq_some_iff.mp h
  cases self with
  | const value => exact Or.inl (by rw [show value = some v from hv])
  | mirrorRequest =>
    refine Or.inr ⟨rfl, ?_⟩
    cases hraw : parts.headers.get header.accessControlRequestHeaders with
    | none => simp [hraw] at hv
    | some raw => exact ⟨raw, rfl, by simpa [hraw] using hv⟩

theorem ExposeHeaders.source {self : ExposeHeaders} {parts : Parts} {p : Pair}
    (h : self.toHeader parts = some p) : self = .const (some p.2) := by
  cases self with
  | const value =>
    obtain ⟨v, hv, rfl⟩ := Option.map_eq_some_iff.mp h
    rw [hv]

theorem AllowOrigin.source {self : AllowOrigin} {origin : Option HeaderValue} {parts : Parts}
    {p : Pair} (h : self.verdict origin parts = some p) :
    self.inner = .const p.2 ∨ (origin = some p.2 ∧ self.allows p.2 parts = true ∧
      ∀ v, self.inner ≠ .const v) := by
  unfold verdict at h
  split at h
  · rename_i v hconst
    exact Or.inl (by rw [hconst, ← Option.some.inj h])
  · rename_i hother
    obtain ⟨o, ho, rfl⟩ := Option.map_eq_some_iff.mp h
    obtain ⟨horigin, hallows⟩ := Option.filter_eq_some_iff.mp ho
    exact Or.inr ⟨horigin, hallows, hother⟩

end Knobs

end HyperCors
