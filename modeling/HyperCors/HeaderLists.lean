/-
HyperCors.HeaderLists — the comma-separated lists the middleware writes,
read back.

Three writers put lists of tokens into header values: `dedup_vary`, which
filters a `Vary` value, `mirror_sanitized`, which filters the request
headers, and the two joiners of configured names. Each is compared here
with what a reader gets who splits at commas and trims.

* `dedup_vary_refines` — the unlisted tokens, whatever buffer is in use;
* `mirror_sanitized_keeps_valid` — the valid tokens, on both paths;
* `configured_lists_survive` — the configured names, for every knob.
-/
import HyperCors.CacheVary

namespace HyperCors

/-! ## `dedup_vary` -/

/-- Nothing if every token of `v` is listed, else the unlisted ones, joined
with `, `. -/
def dedupVarySpec (vs : List HeaderValue) (v : HeaderValue) : Option Bytes :=
  if ∀ t ∈ commaTokens v.bytes, listed vs t = true then none
  else some (List.intercalate [comma, space]
    ((commaTokens v.bytes).filter fun t => !listed vs t))

theorem unlisted_eq_nil_iff {vs : List HeaderValue} {v : HeaderValue} :
    unlisted vs v = [] ↔ ∀ t ∈ commaTokens v.bytes, listed vs t = true := by
  simp [unlisted, List.filter_eq_nil_iff]

theorem bytes_dedupSpec {vs : List HeaderValue} (hne : vs ≠ []) (v : HeaderValue) :
    (dedupSpec vs v).map HeaderValue.bytes = dedupVarySpec vs v := by
  rw [dedupSpec, if_neg (by simpa using hne), dedupVarySpec]
  simp only [List.isEmpty_iff, unlisted_eq_nil_iff]
  split
  · rfl
  · exact congrArg some (HeaderValue.bytes_expectBytes _ _)

/-- Where nothing is listed, a joined value is its own specification. -/
theorem dedupVarySpec_nil {names : List HeaderName} {v : HeaderValue}
    (h : joinNames names = some v) : dedupVarySpec [] v = some v.bytes := by
  have htokens : commaTokens v.bytes = names.map HeaderName.asStr := by
    have hlisted := listedTokens_joinNames names
    simpa [h, listedTokens] using hlisted
  have hne : names ≠ [] := by
    intro hnil
    rw [joinNames_eq_none_iff.mpr hnil] at h
    cases h
  rw [dedupVarySpec, htokens, bytes_of_joinNames h]
  simp [listed, listedTokens, List.exists_mem_of_ne_nil names hne]

section Dedup

variable [HttpCrate]

/-- After the first tokens, the loop goes on with the rest. -/
theorem dedupVaryLoop_append (target : HeaderMap) (toks rest : List Bytes) (buf : VaryBuf) :
    dedupVaryLoop target (toks ++ rest) buf =
      (dedupVaryLoop target toks buf).bind (dedupVaryLoop target rest) := by
  induction toks generalizing buf with
  | nil => rfl
  | cons tok toks ih =>
    rw [List.cons_append, dedupVaryLoop, dedupVaryLoop]
    split
    · exact ih buf
    · cases buf.write (trimAscii tok) with
      | error e => rfl
      | ok buf' => exact ih buf'

/-- **`dedup_vary` refines its specification**, for tokens of any length.
After any number of tokens the buffers are in shape, so no slice access
leaves the stack buffer and the heap buffer is set when it is written; and
the bytes written make a header value. Against no `Vary` at all the joined
names of a configuration are handed on as they are, which is what the
specification says of them. -/
theorem dedup_vary_refines (target : HeaderMap) (v : HeaderValue) :
    (target.getAll header.vary ≠ [] →
      (∃ out, dedupVary target v = .ok out ∧
        out.map HeaderValue.bytes = dedupVarySpec (target.getAll header.vary) v) ∧
      (∀ toks rest, v.bytes.splitOn comma = toks ++ rest → ∃ buf,
        dedupVaryLoop target toks .new = .ok buf ∧ buf.Ok ∧
          dedupVaryLoop target (v.bytes.splitOn comma) .new = dedupVaryLoop target rest buf) ∧
      ∃ buf bytes, dedupVaryLoop target (v.bytes.splitOn comma) .new = .ok buf ∧
        buf.bytes = .ok bytes ∧ (HeaderValue.fromBytes bytes).isSome = true) ∧
    (target.getAll header.vary = [] → ∀ names, (Vary.list names).value = some v →
      dedupVary target v = .ok (some v) ∧ some v.bytes = dedupVarySpec [] v) := by
  refine ⟨?_, ?_⟩
  · intro hne
    refine ⟨⟨_, dedupVary_eq target v, bytes_dedupSpec hne v⟩, ?_, ?_⟩
    · intro toks rest hsplit
      obtain ⟨buf, hloop, hok, _⟩ := dedupVaryLoop_ok target toks VaryBuf.ok_new
      refine ⟨buf, hloop, hok, ?_⟩
      rw [hsplit, dedupVaryLoop_append, hloop]
      rfl
    · obtain ⟨buf, hloop, hok, hcontent⟩ := dedupVaryLoop_new target v
      refine ⟨buf, buf.content, hloop, VaryBuf.bytes_eq hok, ?_⟩
      rw [hcontent]
      exact HeaderValue.isSome_fromBytes (unlisted_valid _ v)
  · intro hnil names hv
    refine ⟨?_, (dedupVarySpec_nil hv).symm⟩
    rw [dedupVary_eq, hnil]
    rfl

end Dedup

/-- The default `Vary` is handed on once, and found listed the second time. -/
theorem dedup_vary_refines_default :
    ∃ v, Vary.default.value = some v ∧
      (dedupVary HeaderMap.new v = .ok (some v) ∧ some v.bytes = dedupVarySpec [] v) ∧
      ∃ out, dedupVary (HeaderMap.new.append header.vary v) v = .ok out ∧
        out.map HeaderValue.bytes = dedupVarySpec [v] v := by
  refine ⟨_, rfl, ?_, ?_⟩
  · exact (dedup_vary_refines HeaderMap.new _).2 rfl Vary.defaultHeaderNames rfl
  · exact ((dedup_vary_refines (HeaderMap.new.append header.vary _) _).1 (by decide)).1

/-! ## `mirror_sanitized` -/

theorem isTokenByte_of_isValidToken {t : Bytes} (h : isValidToken t = true) {b : UInt8}
    (hb : b ∈ t) : isTokenByte b = true := by
  simp only [isValidToken, Bool.and_eq_true, List.all_eq_true] at h
  exact h.2 b hb

theorem isValidToken_of_mem_validTokens {raw : HeaderValue} {t : Bytes}
    (h : t ∈ validTokens raw) : isValidToken t = true := (List.mem_filter.mp h).2

theorem splitOn_join_validTokens {raw : HeaderValue} (hne : validTokens raw ≠ []) :
    (List.intercalate [comma] (validTokens raw)).splitOn comma = validTokens raw :=
  List.splitOn_intercalate comma
    (fun _ ht => (clean_of_isValidToken (isValidToken_of_mem_validTokens ht)).no_sep) hne

/-- **Mirroring keeps exactly the valid tokens** of the request header, in
order and with multiplicity. Both paths write them, so they agree wherever
the fast one applies; and what was mirrored is mirrored unchanged. -/
theorem mirror_sanitized_keeps_valid (raw : HeaderValue) :
    validTokens raw = ((raw.bytes.splitOn comma).map trimAscii).filter isValidToken ∧
    (mirrorSanitized raw = none ↔ validTokens raw = []) ∧
    (∀ v, mirrorSanitized raw = some v →
      v.bytes = List.intercalate [comma] (validTokens raw) ∧
      (∀ b ∈ v.bytes, isTokenByte b = true ∨ b = comma) ∧
      v.bytes.splitOn comma = validTokens raw ∧ mirrorSanitized v = some v) ∧
    ((raw.bytes.splitOn comma).all isValidToken = true →
      raw.bytes = List.intercalate [comma] (validTokens raw)) ∧
    mirrorSanitizedLoop (raw.bytes.splitOn comma) [] = List.intercalate [comma] (validTokens raw) ∧
    (HeaderValue.fromBytes (mirrorSanitizedLoop (raw.bytes.splitOn comma) [])).isSome = true := by
  refine ⟨validTokens_eq raw, mirrorSanitized_eq_none_iff, ?_, ?_,
    mirrorSanitizedLoop_splitOn raw, ?_⟩
  · intro v hv
    have hbytes := bytes_of_mirrorSanitized hv
    have hne : validTokens raw ≠ [] := by
      rw [← mirrorSanitized_eq_none_iff.ne, hv]
      simp
    have hsplit : v.bytes.splitOn comma = validTokens raw := by
      rw [hbytes, splitOn_join_validTokens hne]
    refine ⟨hbytes, ?_, hsplit, ?_⟩
    · intro b hb
      rw [hbytes] at hb
      rcases TokenList.mem_intercalate hb with h | ⟨t, ht, hb⟩
      · exact Or.inr (List.mem_singleton.mp h)
      · exact Or.inl (isTokenByte_of_isValidToken (isValidToken_of_mem_validTokens ht) hb)
    · have hfast : (v.bytes.splitOn comma).all isValidToken = true := by
        rw [hsplit, List.all_eq_true]
        intro t ht
        exact isValidToken_of_mem_validTokens ht
      rw [mirrorSanitized, if_pos hfast]
  · intro hfast
    rw [validTokens_of_all hfast, List.intercalate_splitOn]
  · rw [mirrorSanitizedLoop_splitOn]
    exact HeaderValue.isSome_fromBytes (intercalate_tokens_valid (by decide) raw isValidToken)

/-! ## Configured lists -/

/-- What a list of names puts on a response: nothing if it is empty, else
one field, whose elements are the names. -/
structure CarriesList (names : List Bytes) (name : HeaderName) (field : Option Pair) : Prop where
  omitted : field = none ↔ names = []
  read_back : ∀ p, field = some p →
    p.1 = name ∧ (p.2.bytes.splitOn comma).map trimAscii = names

/-- A field carries one list only. -/
theorem CarriesList.unique {names names' : List Bytes} {name : HeaderName} {field : Option Pair}
    (h : CarriesList names name field) (h' : CarriesList names' name field) : names = names' := by
  cases hfield : field with
  | none => rw [h.omitted.mp hfield, h'.omitted.mp hfield]
  | some p => rw [← (h.read_back p hfield).2, ← (h'.read_back p hfield).2]

/-- Clean names, joined with a comma and perhaps blanks, are carried. -/
theorem CarriesList.of_joined {pad : Bytes} (hpad : TokenList.IsPad comma isAsciiWhitespace pad)
    {names : List Bytes} (hclean : ∀ t ∈ names, TokenList.Clean comma isAsciiWhitespace t)
    {value : Option HeaderValue} (hnone : value = none ↔ names = [])
    (hsome : ∀ v, value = some v → v.bytes = List.intercalate (comma :: pad) names)
    (name : HeaderName) : CarriesList names name (value.map fun v => (name, v)) := by
  refine ⟨Option.map_eq_none_iff.trans hnone, ?_⟩
  intro p hp
  obtain ⟨v, hv, rfl⟩ := Option.map_eq_some_iff.mp hp
  refine ⟨rfl, ?_⟩
  have hne : names ≠ [] := by
    rw [← hnone.ne, hv]
    simp
  rw [hsome v hv]
  exact TokenList.elements_intercalate hpad hne hclean

/-- The joiner with `,`. -/
theorem carriesList_separatedByCommas {vs : List HeaderValue}
    (hclean : ∀ v ∈ vs, TokenList.Clean comma isAsciiWhitespace v.bytes) (name : HeaderName) :
    CarriesList (vs.map HeaderValue.bytes) name
      ((separatedByCommas vs).map fun v => (name, v)) := by
  refine CarriesList.of_joined isPad_nil ?_ ?_ (fun v => bytes_of_separatedByCommas) name
  · intro t ht
    obtain ⟨v, hv, rfl⟩ := List.mem_map.mp ht
    exact hclean v hv
  · rw [separatedByCommas_eq_none_iff, List.map_eq_nil_iff]

/-- The joiner with `, `. -/
theorem carriesList_joinNames (headers : List HeaderName) (name : HeaderName) :
    CarriesList (headers.map HeaderName.asStr) name
      ((joinNames headers).map fun v => (name, v)) := by
  refine CarriesList.of_joined isPad_space ?_ ?_ (fun v => bytes_of_joinNames) name
  · intro t ht
    obtain ⟨n, _, rfl⟩ := List.mem_map.mp ht
    exact clean_asStr n
  · rw [joinNames_eq_none_iff, List.map_eq_nil_iff]

/-- The joined value is `*` only if that is the list. -/
theorem separatedByCommas_eq_wildcard_iff {vs : List HeaderValue}
    (hclean : ∀ v ∈ vs, TokenList.Clean comma isAsciiWhitespace v.bytes) :
    separatedByCommas vs = some wildcard ↔ vs.map HeaderValue.bytes = [ascii "*"] := by
  have hcarries := carriesList_separatedByCommas hclean header.vary
  constructor
  · intro h
    rw [← (hcarries.read_back (header.vary, wildcard) (by rw [h]; rfl)).2]
    decide
  · intro h
    cases hv : separatedByCommas vs with
    | none =>
      rw [separatedByCommas_eq_none_iff] at hv
      simp [hv] at h
    | some v =>
      refine congrArg some (HeaderValue.ext ?_)
      rw [bytes_of_separatedByCommas hv, h, List.intercalate_singleton]
      rfl

theorem bytes_eq_of_separatedByCommas {vs vs' : List HeaderValue}
    (hclean : ∀ v ∈ vs, TokenList.Clean comma isAsciiWhitespace v.bytes)
    (hclean' : ∀ v ∈ vs', TokenList.Clean comma isAsciiWhitespace v.bytes)
    (h : separatedByCommas vs = separatedByCommas vs') :
    vs.map HeaderValue.bytes = vs'.map HeaderValue.bytes := by
  have hcarries := carriesList_separatedByCommas hclean header.vary
  rw [h] at hcarries
  exact hcarries.unique (carriesList_separatedByCommas hclean' header.vary)

/-! ### Methods and header names as values -/

theorem map_bytes_methodToValue (methods : List Method) :
    (methods.map methodToValue).map HeaderValue.bytes = methods.map Method.asStr := by
  simp [methodToValue, Function.comp_def]

theorem map_bytes_toValue (headers : List HeaderName) :
    (headers.map HeaderName.toValue).map HeaderValue.bytes = headers.map HeaderName.asStr := by
  simp [HeaderName.toValue, Function.comp_def]

theorem clean_methodToValue {methods : List Method} :
    ∀ v ∈ methods.map methodToValue, TokenList.Clean comma isAsciiWhitespace v.bytes := by
  intro v hv
  obtain ⟨m, _, rfl⟩ := List.mem_map.mp hv
  rw [methodToValue, HeaderValue.bytes_expectBytes]
  exact clean_of_isValidToken m.valid

theorem clean_toValue {headers : List HeaderName} :
    ∀ v ∈ headers.map HeaderName.toValue, TokenList.Clean comma isAsciiWhitespace v.bytes := by
  intro v hv
  obtain ⟨n, _, rfl⟩ := List.mem_map.mp hv
  rw [HeaderName.toValue, HeaderValue.bytes_expectBytes]
  exact clean_asStr n

theorem Method.asStr_injective : Function.Injective Method.asStr := by
  intro m m' h
  cases m
  cases m'
  simpa using h

theorem HeaderName.asStr_injective : Function.Injective HeaderName.asStr := by
  intro n n' h
  cases n
  cases n'
  simpa using h

/-- The joined methods determine the methods. -/
theorem methods_injective :
    Function.Injective fun methods : List Method =>
      separatedByCommas (methods.map methodToValue) := by
  intro methods methods' h
  have hbytes := bytes_eq_of_separatedByCommas clean_methodToValue clean_methodToValue h
  rw [map_bytes_methodToValue, map_bytes_methodToValue] at hbytes
  exact List.map_injective_iff.mpr Method.asStr_injective hbytes

/-- The names joined with `,` determine the names. -/
theorem headers_injective :
    Function.Injective fun headers : List HeaderName =>
      separatedByCommas (headers.map HeaderName.toValue) := by
  intro headers headers' h
  have hbytes := bytes_eq_of_separatedByCommas clean_toValue clean_toValue h
  rw [map_bytes_toValue, map_bytes_toValue] at hbytes
  exact List.map_injective_iff.mpr HeaderName.asStr_injective hbytes

/-- So do the names joined with `, `. -/
theorem joinNames_injective : Function.Injective joinNames := by
  intro headers headers' h
  have hcarries := carriesList_joinNames headers header.vary
  rw [h] at hcarries
  exact List.map_injective_iff.mpr HeaderName.asStr_injective
    (hcarries.unique (carriesList_joinNames headers' header.vary))

theorem AllowMethods.isWildcard_list_iff {methods : List Method} :
    (list methods).isWildcard = true ↔ methods.map Method.asStr = [ascii "*"] := by
  rw [isWildcard_iff, list, const.injEq, separatedByCommas_eq_wildcard_iff clean_methodToValue,
    map_bytes_methodToValue]

theorem AllowHeaders.isWildcard_list_iff {headers : List HeaderName} :
    (list headers).isWildcard = true ↔ headers.map HeaderName.asStr = [ascii "*"] := by
  rw [isWildcard_iff, list, const.injEq, separatedByCommas_eq_wildcard_iff clean_toValue,
    map_bytes_toValue]

theorem ExposeHeaders.isWildcard_list_iff {headers : List HeaderName} :
    (list headers).isWildcard = true ↔ headers.map HeaderName.asStr = [ascii "*"] := by
  rw [isWildcard_iff, list, const.injEq, separatedByCommas_eq_wildcard_iff clean_toValue,
    map_bytes_toValue]

section Lists

variable [HttpCrate]

theorem AllowMethods.carriesList (methods : List Method) (parts : Parts) :
    CarriesList (methods.map Method.asStr) header.accessControlAllowMethods
      ((list methods).toHeader parts) := by
  rw [← map_bytes_methodToValue]
  exact carriesList_separatedByCommas clean_methodToValue _

theorem AllowHeaders.carriesList (headers : List HeaderName) (parts : Parts) :
    CarriesList (headers.map HeaderName.asStr) header.accessControlAllowHeaders
      ((list headers).toHeader parts) := by
  rw [← map_bytes_toValue]
  exact carriesList_separatedByCommas clean_toValue _

theorem ExposeHeaders.carriesList (headers : List HeaderName) (parts : Parts) :
    CarriesList (headers.map HeaderName.asStr) header.accessControlExposeHeaders
      ((list headers).toHeader parts) := by
  rw [← map_bytes_toValue]
  exact carriesList_separatedByCommas clean_toValue _

/-- **Configured lists survive encoding.** Every knob that is given a list
puts exactly that list on a response, and no header for the empty list; no
two lists are joined to one value; a joined value is the wildcard only if
the list is the name `*`; and no check of a joined value fails. -/
theorem configured_lists_survive :
    (∀ (methods : List Method) (parts : Parts),
      CarriesList (methods.map Method.asStr) header.accessControlAllowMethods
        ((AllowMethods.list methods).toHeader parts)) ∧
    (∀ (headers : List HeaderName) (parts : Parts),
      CarriesList (headers.map HeaderName.asStr) header.accessControlAllowHeaders
          ((AllowHeaders.list headers).toHeader parts) ∧
        CarriesList (headers.map HeaderName.asStr) header.accessControlExposeHeaders
          ((ExposeHeaders.list headers).toHeader parts) ∧
        CarriesList (headers.map HeaderName.asStr) header.vary (Vary.list headers).toHeader) ∧
    (Function.Injective AllowMethods.list ∧ Function.Injective AllowHeaders.list ∧
      Function.Injective ExposeHeaders.list ∧ Function.Injective Vary.list) ∧
    (∀ methods, (AllowMethods.list methods).isWildcard = true ↔
      methods.map Method.asStr = [ascii "*"]) ∧
    (∀ headers, ((AllowHeaders.list headers).isWildcard = true ↔
        headers.map HeaderName.asStr = [ascii "*"]) ∧
      ((ExposeHeaders.list headers).isWildcard = true ↔
        headers.map HeaderName.asStr = [ascii "*"])) ∧
    (∀ m : Method, (HeaderValue.fromBytes m.asStr).isSome = true) ∧
    (∀ fst iter, (HeaderValue.fromBytes (commaBytes fst iter)).isSome = true) ∧
    ∀ first iter, (HeaderValue.fromBytes (commaSpaceBytes first iter)).isSome = true := by
  refine ⟨AllowMethods.carriesList, ?_, ⟨?_, ?_, ?_, ?_⟩, fun _ => AllowMethods.isWildcard_list_iff,
    ?_, ?_, ?_, ?_⟩
  · intro headers parts
    exact ⟨AllowHeaders.carriesList headers parts, ExposeHeaders.carriesList headers parts,
      carriesList_joinNames headers header.vary⟩
  · intro methods methods' h
    exact methods_injective (AllowMethods.const.inj h)
  · intro headers headers' h
    exact headers_injective (AllowHeaders.const.inj h)
  · intro headers headers' h
    exact headers_injective (ExposeHeaders.const.inj h)
  · intro headers headers' h
    exact joinNames_injective (congrArg Vary.value h)
  · intro headers
    exact ⟨AllowHeaders.isWildcard_list_iff, ExposeHeaders.isWildcard_list_iff⟩
  · intro m
    exact HeaderValue.isSome_fromBytes fun _ hb => (isTokenByte_visible (m.isTokenByte_of_mem hb)).1
  · intro fst iter
    exact HeaderValue.isSome_fromBytes (commaBytes_valid fst iter)
  · intro first iter
    exact HeaderValue.isSome_fromBytes (commaSpaceBytes_valid first iter)

end Lists

end HyperCors
